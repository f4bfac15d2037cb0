import SceneGraph.Proofs.FieldWrites
import SceneGraph.Proofs.FiniteReading
import SceneGraph.Proofs.StandingPaths

/-!
# Property reversals: what a property write replaced can be written back

A property write reports what it replaced and where. Writing that back brings the entity, the
document or the component back as it was, provided that the numbers around it have a JSON form.
Property writes leave the tree, the components, the assets and the wiring alone.
-/
namespace SceneGraph
open Renewal

namespace PropertyWrite
variable {removable? : Path → Option Bool} {text : String} {path : Path} {value : Option Json}
  {w : PropertyWrite}

theorem address_ok_iff : address removable? text value = .ok path ↔
    Path.ofText text = .ok path ∧ ∃ r, removable? path = some r ∧ (value = none → r = true) := by
  simp only [address, bind_ok_iff, mapError_ok_iff]
  constructor
  · rintro ⟨found, hf, h⟩
    split at h
    · rename_i r hr
      obtain ⟨hv, h⟩ := then_ok_iff.mp h
      obtain rfl := pure_ok_iff.mp h
      refine ⟨hf, r, hr, fun hn => ?_⟩
      by_contra hc
      simp [refuseRemoval, hn, hc] at hv
    · contradiction
  · rintro ⟨hf, r, hr, hv⟩
    refine ⟨path, hf, ?_⟩
    have hn : refuseRemoval text r value = .ok () := by
      unfold refuseRemoval
      cases value with
      | none => simp [hv rfl]
      | some v => rfl
    simp [hr, hn]

/-- Where a path is there already a write replaces what stands there. -/
theorem prior_of_has {bag written : Bag} (hb : inBag bag path value = .ok (written, w))
    (h : (Json.obj bag).has path = true) : w.prior.path = path ∧ w.prior.value.isSome := by
  obtain ⟨hp, ho, -, ⟨rest, hpre⟩, -⟩ := inBag_cases hb
  cases path with
  | nil =>
    simp [(List.append_eq_nil_iff.mp hpre).1, Bag.Open] at ho
  | cons key more =>
    rw [← Json.isSome_get?] at h
    obtain ⟨j, hj⟩ := Option.isSome_iff_exists.mp h
    rw [Bag.prior_of_open (Bag.open_of_get? hj)] at hp
    rw [← Except.ok.inj hp]
    exact ⟨rfl, h⟩

/-- What an address is turned into by a write leads back as an address of the write that undoes
it, when the field is either there already or may be removed. -/
theorem address_undo {removable' : Path → Option Bool} {root : String} {stored : Json}
    {written : Bag} (h : address removable? text value = .ok path)
    (hb : inBag (holder root stored) path value = .ok (written, w))
    (hfalse : removable? path = some false →
      (Json.obj (holder root stored)).has path = true ∧ removable' path = some false)
    (htrue : ∀ front, removable? path = some true → front ≠ [] → front <+: path →
      (front = path ∨ Bag.get? (holder root stored) front = none) →
      removable' front = some true) :
    address removable' w.inversePath w.prior.value = .ok w.prior.path := by
  obtain ⟨hs, r, hr, -⟩ := address_ok_iff.mp h
  obtain ⟨hp, ho, hv, hpre, -⟩ := inBag_cases hb
  have hne : w.prior.path ≠ [] := by
    rintro he
    simp [he, Bag.Open] at ho
  have hsp := (Path.spelled_of_ofText hs).front hpre hne
  refine address_ok_iff.mpr ⟨hsp.ofText_dotted, ?_⟩
  cases r with
  | false =>
    obtain ⟨hhas, hr'⟩ := hfalse hr
    obtain ⟨hpath, hsome⟩ := prior_of_has hb hhas
    exact ⟨false, hpath ▸ hr', fun hn => by simp [hn] at hsome⟩
  | true =>
    refine ⟨true, htrue _ hr hne hpre ?_, fun _ => rfl⟩
    exact (Bag.path_of_prior hp).imp_right fun hn => hv ▸ hn

end PropertyWrite

theorem PropertyWrite.has_holder {root : String} {stored : Json} (hs : stored ≠ .null)
    (rest : Path) : (Json.obj (holder root stored)).has (root :: rest) = stored.has rest := by
  simp [holder, hs, Json.has, Json.member?]

namespace Entity
open PropertyWrite
variable {e e' : Entity} {text : String} {path : Path} {value : Option Json} {w : PropertyWrite}

/-- The data form of the field that an address starts with. -/
def stored (e : Entity) : String → Json
  | "name" => .str e.name
  | "visible" => .bool e.visible
  | "locked" => .bool e.locked
  | "tags" => e.tagsLayout.toJson
  | "transform" => e.transform.layout.toJson
  | _ => optionalTuning e.tuning

theorem inBag_of_writeField (h : e.writeField text path value = .ok (e', w)) :
    ∃ written, inBag (holder (path.headD "") (e.stored (path.headD ""))) path value =
      .ok (written, w) := by
  unfold writeField at h
  split at h <;>
    obtain ⟨⟨x, w'⟩, hx, h⟩ := bind_ok_iff.mp h <;>
    cases h <;>
    obtain ⟨written, hb, -⟩ := inField_ok_iff.mp hx <;>
    exact ⟨written, by simp_all [stored, optionalTuning]⟩

theorem writeField_undo (hf : e.transform.isFinite = true)
    (h : e.writeField text path value = .ok (e', w)) (text' : String) :
    ∃ w', e'.writeField text' w.prior.path w.prior.value = .ok (e, w') := by
  unfold writeField at h
  split at h
  all_goals
    rename_i hroot
    obtain ⟨⟨x, w⟩, hx, h⟩ := bind_ok_iff.mp h
    cases h
  · obtain ⟨hq, w', hw⟩ := inField_undo string_local (Reader.string_fromJson _) hx text'
    exact ⟨w', by simp only [writeField, hq, hroot, hw]; rfl⟩
  · obtain ⟨hq, w', hw⟩ := inField_undo bool_local (Reader.bool_fromJson _) hx text'
    exact ⟨w', by simp only [writeField, hq, hroot, hw]; rfl⟩
  · obtain ⟨hq, w', hw⟩ := inField_undo bool_local (Reader.bool_fromJson _) hx text'
    exact ⟨w', by simp only [writeField, hq, hroot, hw]; rfl⟩
  · obtain ⟨hq, w', hw⟩ := inField_undo tags_local (Reader.textSet_fromJson _) hx text'
    exact ⟨w', by simp only [writeField, hq, hroot, tagsLayout, hw]; rfl⟩
  · obtain ⟨hq, w', hw⟩ := inField_undo Transform.renewal_local (Transform.reader_layout hf) hx text'
    exact ⟨w', by simp only [writeField, hq, hroot, hw]; rfl⟩
  · obtain ⟨hq, w', hw⟩ := inField_undo optionalTuning_local (optionalTuning_ok_iff.mpr rfl) hx text'
    simp only [optionalTuning] at hw
    exact ⟨w', by simp only [writeField, hq, hw]; rfl⟩

private theorem identity_has : ∀ rest, removable? ("transform" :: rest) = some false →
    Transform.identity.layout.toJson.has rest = true := by
  have hpart : ∀ part ∈ ["position", "rotation", "scale"],
      Transform.identity.layout.toJson.has [part] = true := by decide
  have hvec : ∀ part ∈ ["position", "scale"], ∀ axis ∈ ["x", "y", "z"],
      Transform.identity.layout.toJson.has [part, axis] = true := by decide
  have hquat : ∀ axis ∈ ["x", "y", "z", "w"],
      Transform.identity.layout.toJson.has ["rotation", axis] = true := by decide
  intro rest h
  match rest with
  | [] => rfl
  | [part] =>
    exact hpart part (by by_contra hn; simp_all [removable?])
  | [part, axis] =>
    have hc : (["position", "scale"].contains part && ["x", "y", "z"].contains axis ||
        (part = "rotation" && ["x", "y", "z", "w"].contains axis)) = true := by
      by_contra hn
      simp only [removable?, hn] at h
      contradiction
    simp only [Bool.or_eq_true, Bool.and_eq_true, List.contains_iff_mem, decide_eq_true_eq] at hc
    rcases hc with ⟨hp, ha⟩ | ⟨rfl, ha⟩
    · exact hvec part hp axis ha
    · exact hquat axis ha
  | _ :: _ :: _ :: _ => simp [removable?] at h

private theorem has_of_not_removable (h : removable? path = some false) :
    (Json.obj (holder (path.headD "") (e.stored (path.headD "")))).has path = true := by
  have ht : ∀ rest, removable? ("transform" :: rest) = some false →
      (Json.obj (holder "transform" e.transform.layout.toJson)).has ("transform" :: rest) =
        true := by
    intro rest hr
    rw [@has_holder "transform" e.transform.layout.toJson nofun,
      Transform.layout_alike e.transform .identity, identity_has rest hr]
  have h' := h
  unfold removable? at h
  split at h
  · exact @has_holder "name" (.str e.name) nofun []
  · exact @has_holder "visible" (.bool e.visible) nofun []
  · exact @has_holder "locked" (.bool e.locked) nofun []
  · exact @has_holder "tags" e.tagsLayout.toJson nofun []
  · exact ht [] h'
  · exact ht _ h'
  · exact ht _ h'
  · contradiction
  · contradiction

private theorem removable_iff : removable? path = some true ↔ ∃ rest, path = "tuning" :: rest := by
  constructor
  · intro h
    unfold removable? at h
    split at h <;> simp_all
  · rintro ⟨rest, rfl⟩
    rfl

/-- A property write is undone by writing back what it replaced where it replaced it. -/
theorem setProperty_undo (hf : e.transform.isFinite = true)
    (h : e.setProperty text value = .ok (e', w)) :
    ∃ w', e'.setProperty w.inversePath w.prior.value = .ok (e, w') := by
  obtain ⟨path, hp, hw⟩ := bind_ok_iff.mp h
  obtain ⟨written, hb⟩ := inBag_of_writeField hw
  obtain ⟨w', hw'⟩ := writeField_undo hf hw w.inversePath
  refine ⟨w', bind_ok_iff.mpr ⟨w.prior.path, address_undo hp hb ?_ ?_, hw'⟩⟩
  · exact fun hr => ⟨has_of_not_removable hr, hr⟩
  · intro front hr hn hpre _
    obtain ⟨rest, rfl⟩ := removable_iff.mp hr
    obtain ⟨back, hback⟩ := hpre
    cases front with
    | nil => contradiction
    | cons key front =>
      obtain rfl : key = "tuning" := (List.cons.inj hback).1
      rfl

/-- Property writes leave the place in the tree and the components alone. -/
theorem setProperty_keeps (h : e.setProperty text value = .ok (e', w)) :
    e'.id = e.id ∧ e'.parentId = e.parentId ∧ e'.children = e.children ∧
      e'.components = e.components ∧
        (e.transform.isFinite = true → e'.transform.isFinite = true) := by
  obtain ⟨path, -, hw⟩ := bind_ok_iff.mp h
  unfold writeField at hw
  split at hw
  all_goals
    obtain ⟨⟨x, w'⟩, hx, hw⟩ := bind_ok_iff.mp hw
    cases hw
  case h_5 =>
    obtain ⟨written, -, ha⟩ := inField_ok_iff.mp hx
    exact ⟨rfl, rfl, rfl, rfl, fun _ => Transform.reader_yields _ _ x ha⟩
  all_goals exact ⟨rfl, rfl, rfl, rfl, fun hf => hf⟩

end Entity

namespace Document
open PropertyWrite
variable {d d' : Document} {text : String} {path : Path} {value : Option Json} {w : PropertyWrite}

/-- The data form of the field that an address starts with. -/
def stored (d : Document) : String → Json
  | "name" => .str d.name
  | "environment" => d.environment.layout.toJson
  | "gameSettings" => GameSettings.optionalForm d.gameSettings
  | _ => .obj d.metadata

theorem inBag_of_writeField (h : d.writeField text path value = .ok (d', w)) :
    ∃ written, inBag (holder (path.headD "") (d.stored (path.headD ""))) path value =
      .ok (written, w) := by
  unfold writeField at h
  split at h <;>
    obtain ⟨⟨x, w'⟩, hx, h⟩ := bind_ok_iff.mp h <;>
    cases h <;>
    obtain ⟨written, hb, -⟩ := inField_ok_iff.mp hx <;>
    exact ⟨written, by simp_all [stored, GameSettings.optionalForm]⟩

/-- The numbers of the environment have a JSON form, and no setting hides another. -/
structure Readable (d : Document) : Prop where
  environment : d.environment.isFinite = true
  gameSettings : ∀ g ∈ d.gameSettings, g.Separate

theorem writeField_undo (hd : d.Readable) (h : d.writeField text path value = .ok (d', w))
    (text' : String) : ∃ w', d'.writeField text' w.prior.path w.prior.value = .ok (d, w') := by
  unfold writeField at h
  split at h
  all_goals
    rename_i hroot
    obtain ⟨⟨x, w⟩, hx, h⟩ := bind_ok_iff.mp h
    cases h
  · obtain ⟨hq, w', hw⟩ := inField_undo string_local (Reader.string_fromJson _) hx text'
    exact ⟨w', by simp only [writeField, hq, hroot, hw]; rfl⟩
  · obtain ⟨hq, w', hw⟩ := inField_undo Environment.renewal_local
      (Environment.reader_layout hd.environment) hx text'
    exact ⟨w', by simp only [writeField, hq, hroot, hw]; rfl⟩
  · obtain ⟨hq, w', hw⟩ := inField_undo GameSettings.renewal_local
      (GameSettings.reader_optionalForm hd.gameSettings) hx text'
    simp only [GameSettings.optionalForm] at hw
    exact ⟨w', by simp only [writeField, hq, hroot, hw]; rfl⟩
  · obtain ⟨hq, w', hw⟩ := inField_undo bag_local (Reader.bag_ok_iff.mpr rfl) hx text'
    exact ⟨w', by simp only [writeField, hq, hw]; rfl⟩

theorem removable_false_iff : d.removable? path = some false ↔
    path = ["name"] ∨ path = ["metadata"] ∨
      ∃ rest, path = "environment" :: rest ∧ d.environment.layout.toJson.has rest = true := by
  obtain ⟨bag, hbag⟩ : ∃ bag : Bag, d.environment.layout.toJson = .obj bag := ⟨_, rfl⟩
  constructor
  · intro h
    unfold removable? at h
    split at h
    · exact .inl rfl
    · exact .inr (.inr ⟨[], rfl, rfl⟩)
    · rename_i key rest
      simp only [hbag, Json.isSome_get?] at h
      refine .inr (.inr ⟨key :: rest, rfl, ?_⟩)
      by_contra hn
      rw [hbag] at hn
      simp [hn] at h
    · contradiction
    · rename_i rest
      cases rest with
      | nil => exact .inr (.inl rfl)
      | cons => simp at h
    · contradiction
  · rintro (rfl | rfl | ⟨rest, rfl, hrest⟩)
    · rfl
    · rfl
    · cases rest with
      | nil => rfl
      | cons key rest => simp only [removable?, hbag, Json.isSome_get?, hbag ▸ hrest, if_true]

theorem removable_iff : d.removable? path = some true ↔
    (∃ rest, path = "gameSettings" :: rest) ∨ ∃ key rest, path = "metadata" :: key :: rest := by
  constructor
  · intro h
    unfold removable? at h
    split at h
    · contradiction
    · contradiction
    · split at h
      · split at h <;> contradiction
      · contradiction
    · exact .inl ⟨_, rfl⟩
    · rename_i rest
      cases rest with
      | nil => contradiction
      | cons key rest => exact .inr ⟨key, rest, rfl⟩
    · contradiction
  · rintro (⟨rest, rfl⟩ | ⟨key, rest, rfl⟩) <;> rfl

private theorem has_of_not_removable (h : d.removable? path = some false) :
    (Json.obj (holder (path.headD "") (d.stored (path.headD "")))).has path = true := by
  obtain rfl | rfl | ⟨rest, rfl, hrest⟩ := removable_false_iff.mp h
  · exact @has_holder "name" (.str d.name) nofun []
  · exact @has_holder "metadata" (.obj d.metadata) nofun []
  · exact (@has_holder "environment" d.environment.layout.toJson nofun rest).trans hrest

/-- A property write is undone by writing back what it replaced where it replaced it. -/
theorem setProperty_undo (hd : d.Readable) (h : d.setProperty text value = .ok (d', w)) :
    ∃ w', d'.setProperty w.inversePath w.prior.value = .ok (d, w') := by
  obtain ⟨path, hp, hw⟩ := bind_ok_iff.mp h
  obtain ⟨written, hb⟩ := inBag_of_writeField hw
  obtain ⟨w', hw'⟩ := writeField_undo hd hw w.inversePath
  refine ⟨w', bind_ok_iff.mpr ⟨w.prior.path, address_undo hp hb ?_ ?_, hw'⟩⟩
  · intro hr
    refine ⟨has_of_not_removable hr, ?_⟩
    rw [removable_false_iff] at hr ⊢
    refine hr.imp_right (Or.imp_right fun ⟨rest, hpath, hrest⟩ => ⟨rest, hpath, ?_⟩)
    rw [Environment.layout_alike d'.environment d.environment, hrest]
  · intro front hr hn ⟨back, hback⟩ hfront
    rw [removable_iff] at hr ⊢
    cases front with
    | nil => contradiction
    | cons key front =>
      rcases hr with ⟨rest, rfl⟩ | ⟨next, rest, rfl⟩
      · exact .inl ⟨front, by rw [(List.cons.inj hback).1]⟩
      · obtain rfl : key = "metadata" := (List.cons.inj hback).1
        -- the metadata are there, so what the write replaced stands inside them
        cases front with
        | nil => exact absurd hfront (by simp [Bag.get?, holder, stored])
        | cons next' front => exact .inr ⟨next', front, rfl⟩

/-- Property writes leave the tree, the assets and the wiring alone. -/
theorem setProperty_keeps (h : d.setProperty text value = .ok (d', w)) :
    d'.id = d.id ∧ d'.schemaVersion = d.schemaVersion ∧ d'.rootEntityId = d.rootEntityId ∧
      d'.entities = d.entities ∧ d'.assets = d.assets ∧ d'.wiring = d.wiring ∧
        (d.Readable → d'.Readable) := by
  obtain ⟨path, -, hw⟩ := bind_ok_iff.mp h
  unfold writeField at hw
  split at hw
  all_goals
    obtain ⟨⟨x, w'⟩, hx, hw⟩ := bind_ok_iff.mp hw
    cases hw
    refine ⟨rfl, rfl, rfl, rfl, rfl, rfl, fun hd => ?_⟩
  case h_2 =>
    obtain ⟨written, -, ha⟩ := inField_ok_iff.mp hx
    exact ⟨Environment.reader_yields .lenient _ _ x ha, hd.gameSettings⟩
  case h_3 =>
    obtain ⟨written, -, ha⟩ := inField_ok_iff.mp hx
    refine ⟨hd.environment, fun g hg => ?_⟩
    obtain ⟨-, hn⟩ | ⟨-, g', hr, hs⟩ := Reader.nullable_ok_iff.mp ha
    · simp [hn] at hg
    · obtain rfl : g' = g := by simpa [hs] using hg
      exact GameSettings.separate_of_reader hr
  all_goals exact ⟨hd.environment, hd.gameSettings⟩

end Document

namespace Component
variable {c c' : Component} {text : String} {value : Option Json} {w : PropertyWrite}

theorem setProperty_keeps (h : c.setProperty text value = .ok (c', w)) :
    c'.componentType = c.componentType := by
  obtain ⟨⟨properties, w'⟩, -, h⟩ := bind_ok_iff.mp h
  cases h
  rfl

/-- A property write is undone by writing back what it replaced where it replaced it. -/
theorem setProperty_undo (h : c.setProperty text value = .ok (c', w)) :
    ∃ w', c'.setProperty w.inversePath w.prior.value = .ok (c, w') := by
  obtain ⟨⟨properties, w⟩, hp, h⟩ := bind_ok_iff.mp h
  cases h
  obtain ⟨path, hs, hb⟩ := bind_ok_iff.mp hp
  rw [mapError_ok_iff] at hs hb
  obtain ⟨-, ho, -, hpre, -⟩ := PropertyWrite.inBag_cases hb
  have hne : w.prior.path ≠ [] := by
    rintro he
    simp [he, Bag.Open] at ho
  have hsp := ((Path.spelled_of_ofText hs).front hpre hne).ofText_dotted
  obtain ⟨w', hw⟩ := PropertyWrite.inBag_undo hb
  refine ⟨w', bind_ok_iff.mpr ⟨(c.properties, w'), ?_, rfl⟩⟩
  exact bind_ok_iff.mpr ⟨_, mapError_ok_iff.mpr hsp, mapError_ok_iff.mpr hw⟩

end Component
end SceneGraph

import SceneGraph.Proofs.FiniteReading
import SceneGraph.Proofs.OpenForms
import SceneGraph.Proofs.RecordExchanges

/-!
# Exchangeable forms: no field of a stored form depends on what another one holds

Writes into a stored form may change places where their paths part. This is shown for every type
that a property can have, from numbers and vectors up to the environment, tuning and game settings.
-/
namespace SceneGraph
open Renewal

theorem real_exchangeable : (required Reader.real Json.real).Exchangeable :=
  scalar_exchangeable (fun _ x h => Reader.real_fromJson (Reader.real_yields _ _ x h)) real_ne_obj

theorem Vec3.exchangeable : (required reader (·.layout.toJson)).Exchangeable :=
  record_exchangeable shape_sound memberwise (.seq (.seq (.map .required) .required) .required) rfl
    (by decide) (fun _ v h => reader_layout (reader_yields _ _ v h))
    (by simp [slots, real_exchangeable])

theorem Quat.exchangeable : (required reader (·.layout.toJson)).Exchangeable :=
  record_exchangeable shape_sound memberwise
    (.seq (.seq (.seq (.map .required) .required) .required) .required) rfl (by decide)
    (fun _ q h => reader_layout (reader_yields _ _ q h)) (by simp [slots, real_exchangeable])

theorem Transform.stable : reader.Stable (·.layout.toJson) :=
  fun _ t h => reader_layout (reader_yields _ _ t h)

theorem Transform.exchangeable : (required reader (·.layout.toJson)).Exchangeable :=
  record_exchangeable shape_sound memberwise (.seq (.seq (.map .required) .required) .required) rfl
    (by decide) stable
    (by simp [slots, Vec3.exchangeable, Quat.exchangeable])

theorem Reader.string_stable : string.Stable Json.str := fun _ s _ => string_fromJson s

theorem string_exchangeable : (required Reader.string Json.str).Exchangeable :=
  scalar_exchangeable Reader.string_stable (by simp)

theorem Reader.bool_stable : bool.Stable Json.bool := fun _ b _ => bool_fromJson b

theorem bool_exchangeable : (required Reader.bool Json.bool).Exchangeable :=
  scalar_exchangeable Reader.bool_stable (by simp)

private theorem optionalText_exchangeable :
    (required (Reader.nullable .string) optionalText).Exchangeable := by
  refine scalar_exchangeable (fun _ s _ => nullable_optionalText s) fun s bag => ?_
  cases s <;> simp [optionalText, Layout.nullable, Layout.null, Layout.str, Layout.toJson]

section Environment
variable (c : Completeness)

theorem Skybox.exchangeable : (required (reader c) (·.layout.toJson)).Exchangeable := by
  refine @record_exchangeable _ _ (slots c) (shape c) shape_sound memberwise
    (.seq (.seq (.map .field) .field) .field) (by simp [shape, slots]) (by simp [slots])
    (fun _ s _ => reader_layout s) ?_
  have htype : (required SkyboxType.reader (.str ·.name)).Exchangeable :=
    scalar_exchangeable (fun _ t _ => SkyboxType.reader_name t) (by simp)
  simp only [slots, List.forall_mem_cons]
  exact ⟨htype.field (SkyboxType.reader_name _) c,
    optionalText_exchangeable.field (nullable_optionalText _) c,
    optionalText_exchangeable.field (nullable_optionalText _) c, List.forall_mem_nil _⟩

theorem Fog.exchangeable : (required (reader c) (·.layout.toJson)).Exchangeable := by
  refine @record_exchangeable _ _ (slots c) (shape c) shape_sound memberwise
    (.seq (.seq (.seq (.seq (.seq (.map .field) .field) .field) .field) .field) .field)
    (by simp [shape, slots]) (by simp [slots]) (fun _ f h => ?_) ?_
  · obtain ⟨hn, hf, hd⟩ := Environment.fog_yields c _ _ f h
    exact reader_layout hn hf hd
  · have htype : (required FogType.reader (.str ·.name)).Exchangeable :=
      scalar_exchangeable (fun _ t _ => FogType.reader_name t) (by simp)
    simp only [slots, List.forall_mem_cons]
    exact ⟨bool_exchangeable.field (Reader.bool_fromJson _) c,
      htype.field (FogType.reader_name _) c, string_exchangeable.field (Reader.string_fromJson _) c,
      real_exchangeable.field (Reader.real_fromJson (by decide)) c,
      real_exchangeable.field (Reader.real_fromJson (by decide)) c,
      real_exchangeable.field (Reader.real_fromJson (by decide)) c, List.forall_mem_nil _⟩

theorem AmbientLight.exchangeable : (required (reader c) (·.layout.toJson)).Exchangeable := by
  refine @record_exchangeable _ _ (slots c) (shape c) shape_sound memberwise
    (.seq (.map .field) .field) (by simp [shape, slots]) (by simp [slots])
    (fun _ l h => reader_layout (Environment.light_yields c _ _ l h)) ?_
  simp only [slots, List.forall_mem_cons]
  exact ⟨string_exchangeable.field (Reader.string_fromJson _) c,
    real_exchangeable.field (Reader.real_fromJson (by decide)) c, List.forall_mem_nil _⟩

theorem Environment.stable : (reader c).Stable (·.layout.toJson) :=
  fun _ e h => reader_layout (reader_yields c _ _ e h)

theorem Environment.exchangeable : (required (reader c) (·.layout.toJson)).Exchangeable := by
  refine @record_exchangeable _ _ (slots c) (shape c) shape_sound memberwise
    (.seq (.seq (.seq (.map .field) .field) .field) .field) (by simp [shape, slots])
    (by simp [slots]) (stable c) ?_
  simp only [slots, List.forall_mem_cons]
  exact ⟨(Skybox.exchangeable c).field (Skybox.reader_layout _) c,
    (Fog.exchangeable c).field (Fog.reader_layout (by decide) (by decide) (by decide)) c,
    (AmbientLight.exchangeable c).field (AmbientLight.reader_layout (by decide)) c,
    Vec3.exchangeable.field (Vec3.reader_layout (by decide)) c, List.forall_mem_nil _⟩

end Environment

theorem tags_stable : Reader.textSet.Stable fun texts => (Layout.strings texts.keys).toJson :=
  fun _ texts _ => Reader.textSet_fromJson texts

theorem tags_exchangeable :
    (required Reader.textSet fun texts => (Layout.strings texts.keys).toJson).Exchangeable :=
  scalar_exchangeable tags_stable (by simp [Layout.strings, Layout.toJson])

theorem Reader.bag_stable : bag.Stable Json.obj := fun _ _ _ => bag_ok_iff.mpr rfl

theorem bag_exchangeable : (required Reader.bag Json.obj).Exchangeable := by
  refine .of_kept (required_regular Reader.bag_stable) fun bag y => ?_
  simp [required, Reader.bag_ok_iff]

namespace Tuning

/-- The tuning of one engine is kept when it is an object. -/
def engine : Renewal := fun x y => x = y ∧ ∀ j, x = some j → ∃ bag, j = .obj bag

theorem engine_exchangeable : engine.Exchangeable := by
  refine .of_kept ⟨fun x y y' h h' => h.1.symm.trans h'.1, ?_, ?_⟩ fun bag y => ?_
  · rintro x y ⟨rfl, h⟩
    exact ⟨rfl, h⟩
  · intro _ bag y _
    simp [engine]
  · simp [engine, eq_comm]

/-- An object is a tuning when all its members are objects. -/
private theorem tuned_iff (bag : Bag) : (∃ tuning, Json.obj bag = optionalTuning tuning) ↔
    ∀ key j, bag.find? key = some j → ∃ inner, j = .obj inner := by
  constructor
  · rintro ⟨tuning, ht⟩ key j hj
    cases tuning with
    | none => contradiction
    | some tuning =>
      obtain rfl : bag = tuning.mapValues Json.obj := Json.obj.inj (ht.trans (toJson_layout tuning))
      rw [Ascending.find?_mapValues] at hj
      obtain ⟨inner, -, rfl⟩ := Option.map_eq_some_iff.mp hj
      exact ⟨inner, rfl⟩
  · intro hbag
    refine ⟨some (bag.mapValues fun j => j.asObject?.getD .nil), ?_⟩
    rw [optionalTuning, Layout.nullable, toJson_layout]
    refine congrArg Json.obj (Ascending.ext_find? fun key => ?_)
    rw [Ascending.find?_mapValues, Ascending.find?_mapValues]
    cases hj : bag.find? key with
    | none => rfl
    | some j =>
      obtain ⟨inner, rfl⟩ := hbag key j hj
      rfl

theorem optional_parted :
    (required (Reader.nullable Tuning.reader) optionalTuning).Parted fun _ => engine := by
  intro bag y
  constructor
  · rintro ⟨_, tuning, ⟨⟩, ht, rfl⟩
    have hbag := optionalTuning_ok_iff.mp ht
    exact ⟨bag, congrArg some hbag.symm, fun key => ⟨rfl, (tuned_iff bag).mp ⟨tuning, hbag⟩ key⟩⟩
  · rintro ⟨out, rfl, hout⟩
    obtain rfl : bag = out := Ascending.ext_find? fun key => (hout key).1
    obtain ⟨tuning, ht⟩ := (tuned_iff bag).mpr fun key => (hout key).2
    exact ⟨_, tuning, rfl, optionalTuning_ok_iff.mpr ht, congrArg some ht⟩

end Tuning

theorem optionalTuning_stable : (Reader.nullable Tuning.reader).Stable optionalTuning :=
  fun _ _ _ => optionalTuning_ok_iff.mpr rfl

theorem optionalTuning_exchangeable :
    (held (Reader.nullable Tuning.reader) optionalTuning).Exchangeable := by
  refine .of_parted
    ⟨held_functional _ _, fun _ _ => held_settled optionalTuning_stable, fun _ _ _ _ => ?_⟩
    (Tuning.optional_parted.held fun bag tuning ht => ?_) fun _ => Tuning.engine_exchangeable
  · exact ⟨some .nil, rfl, rfl⟩
  · rw [← optionalTuning_ok_iff.mp ht]
    simp

namespace GameSettings

private theorem slot_exchangeable : slot.Exchangeable := by
  refine .of_leaf ⟨slot_functional, ?_, ?_⟩ ?_
  · rintro x y ⟨s, hs, rfl⟩
    exact ⟨s, setting?_str s, rfl⟩
  · rintro - bag y ⟨s, hs, rfl⟩
    contradiction
  · rintro bag ⟨s, -, hs⟩
    cases s <;> simp at hs

private theorem slots_exchangeable (key : String) : (slots key).Exchangeable := by
  unfold slots
  split
  · exact slot_exchangeable
  · exact kept_exchangeable

theorem optionalForm_ne_null (g : GameSettings) : optionalForm (some g) ≠ .null := by
  obtain ⟨members, hm, -⟩ := find?_layout g
  simp [optionalForm, Layout.nullable, hm]

/-- Known settings stand apart from the others once they have been read. -/
theorem optionalForm_stable : (Reader.nullable reader).Stable optionalForm := by
  intro j g hg
  refine reader_optionalForm fun settings hs => ?_
  obtain ⟨-, rfl⟩ | ⟨-, settings', hr, rfl⟩ := Reader.nullable_ok_iff.mp hg
  · contradiction
  · obtain rfl := Option.some.inj hs
    exact separate_of_reader hr

theorem optional_parted : (required (Reader.nullable reader) optionalForm).Parted slots := by
  refine .of_accepts memberwise (fun key => (slots_exchangeable key).functional) fun bag hbag => ?_
  have hset : ∀ key, key = cameraKey ∨ key = spawnKey →
      ∃ s, setting? (bag.find? key) = .ok s := by
    intro key hkey
    obtain ⟨y, hy⟩ := hbag key
    rw [slots, if_pos hkey] at hy
    obtain ⟨s, hs, -⟩ := hy
    exact ⟨s, hs⟩
  obtain ⟨camera, hc⟩ := hset cameraKey (.inl rfl)
  obtain ⟨spawn, hs⟩ := hset spawnKey (.inr rfl)
  have hr : reader.fromJson (.obj bag) = .ok ⟨camera, spawn, rest bag⟩ :=
    reader_obj_iff.mpr ⟨hc, hs, rfl⟩
  exact ⟨_, _, _, rfl, Reader.nullable_ok_iff.mpr (.inr ⟨by simp, _, hr, rfl⟩), rfl⟩

theorem optional_exchangeable : (held (Reader.nullable reader) optionalForm).Exchangeable := by
  refine .of_parted ⟨held_functional _ _, fun _ _ => held_settled optionalForm_stable, ?_⟩
    (optional_parted.held fun bag g hg => ?_) slots_exchangeable
  · intro _ bag y _
    exact ⟨some empty, rfl, rfl⟩
  · obtain ⟨hn, -⟩ | ⟨-, g, -, rfl⟩ := Reader.nullable_ok_iff.mp hg
    · contradiction
    · exact optionalForm_ne_null g

end GameSettings

end SceneGraph

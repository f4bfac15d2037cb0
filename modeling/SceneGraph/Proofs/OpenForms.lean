import SceneGraph.Proofs.StoredForms

/-!
# Stored forms that are open: tags, tuning, game settings

What is read from them is written as it was given, but for known settings that are null.
-/
namespace SceneGraph
open Renewal

theorem string_local : (required Reader.string Json.str).Local := .of_scalar nofun

theorem Reader.strings_fromJson (texts : List String) :
    (list string).fromJson (Layout.strings texts).toJson = .ok texts := by
  have hm : (Source.ofItems (Layout.toJsonItems (texts.map Layout.str))).mapM (string .value) =
      .ok texts := by
    induction texts with
    | nil => rfl
    | cons text texts ih =>
      simp only [List.map_cons, Layout.toJsonItems, Source.ofItems, List.mapM_cons, ih]
      rfl
  simp [Reader.fromJson, Layout.strings, Layout.toJson, Source.ofJson, list, hm, Source.closing]

theorem Reader.textSet_fromJson (texts : TextSet) :
    textSet.fromJson (Layout.strings texts.keys).toJson = .ok texts := by
  have h : (list string) .value (.ofJson (Layout.strings texts.keys).toJson) = .ok texts.keys :=
    strings_fromJson texts.keys
  simp [Reader.fromJson, textSet, Reader.map, h, Except.map, TextSet.ofList_keys]

theorem tags_local :
    (required Reader.textSet fun texts => (Layout.strings texts.keys).toJson).Local :=
  .of_scalar nofun

namespace Tuning

theorem toJson_layout (tuning : Tuning) :
    tuning.layout.toJson = .obj (tuning.mapValues Json.obj) := by
  simp only [layout, Layout.dict, Layout.toJson, Layout.toJsonFields_eq_map, List.map_map]
  exact congrArg Json.obj (Dict.ofList_map_toList tuning Json.obj)

theorem reader_ok_iff {j : Json} {tuning : Tuning} :
    reader.fromJson j = .ok tuning ↔ j = tuning.layout.toJson := by
  rw [toJson_layout]
  cases j with
  | obj members =>
    rw [reader, Reader.dict_obj_iff, Json.obj.injEq]
    constructor
    · intro h
      refine Ascending.ext_find? fun key => ?_
      rw [Ascending.find?_mapValues]
      rcases h key with ⟨hm, ht⟩ | ⟨j, bag, hm, hb, ht⟩
      · simp [hm, ht]
      · simp [hm, ht, Reader.bag_ok_iff.mp hb]
    · rintro rfl key
      rw [Ascending.find?_mapValues]
      cases ht : tuning.find? key with
      | none => exact .inl ⟨rfl, rfl⟩
      | some bag => exact .inr ⟨.obj bag, bag, rfl, Reader.bag_ok_iff.mpr rfl, rfl⟩
  | _ => simp [reader, Reader.fromJson, Source.ofJson, Reader.dict]

end Tuning

/-- The stored form of a tuning that may be left out. -/
def optionalTuning (tuning : Option Tuning) : Json := (Layout.nullable Tuning.layout tuning).toJson

theorem optionalTuning_ok_iff {j : Json} {tuning : Option Tuning} :
    (Reader.nullable Tuning.reader).fromJson j = .ok tuning ↔ j = optionalTuning tuning := by
  rw [Reader.nullable_ok_iff]
  cases tuning with
  | none => simp [optionalTuning, Layout.nullable, Layout.null, Layout.toJson]
  | some tuning =>
    simp only [reduceCtorEq, and_false, false_or, Tuning.reader_ok_iff, Option.some.injEq,
      exists_eq_right', optionalTuning, Layout.nullable, and_iff_right_iff_imp]
    rintro rfl
    simp [Tuning.toJson_layout]

theorem optionalTuning_local : (required (Reader.nullable Tuning.reader) optionalTuning).Local := by
  refine .of_kept ?_
  rintro bag y ⟨j, tuning, hj, ht, rfl⟩
  rw [hj, optionalTuning_ok_iff.mp ht]

theorem bag_local : (required Reader.bag Json.obj).Local := by
  refine .of_kept ?_
  rintro bag y ⟨j, b, hj, hb, rfl⟩
  rw [hj, Reader.bag_ok_iff.mp hb]

namespace GameSettings

def cameraKey : String := "cameraMode"
def spawnKey : String := "spawnPointId"

/-- The other settings do not hide a known one. -/
def Separate (g : GameSettings) : Prop :=
  g.extra.find? cameraKey = none ∧ g.extra.find? spawnKey = none

/-- What is left of some members without the known ones. -/
def rest (members : Bag) : Bag := Ascending.erase (members.erase cameraKey) spawnKey

theorem find?_rest (members : Bag) (key : String) : (rest members).find? key =
    if key = cameraKey ∨ key = spawnKey then none else members.find? key := by
  simp only [rest, Ascending.find?_erase]
  by_cases hc : key = cameraKey <;> by_cases hs : key = spawnKey <;> simp [hc, hs]

private theorem others_ofMembers (members : Bag) :
    known.others (Source.ofMembers members) = Source.ofMembers (rest members) := by
  have hp : ∀ key : String, (known.checks.lookup key).isNone =
      (decide (key ≠ cameraKey) && decide (key ≠ spawnKey)) := by
    intro key
    by_cases hc : key = cameraKey
    · subst hc; rfl
    · by_cases hs : key = spawnKey
      · subst hs; rfl
      · simp [known, Shape.optional, Shape.defaulted, Shape.field, List.lookup_cons, hc, hs,
          beq_false_of_ne (show key ≠ "cameraMode" from hc),
          beq_false_of_ne (show key ≠ "spawnPointId" from hs)]
  simp only [Shape.others, rest, Source.ofMembers_eq_map, Ascending.toList_erase,
    List.filter_filter, List.filter_map]
  refine congrArg _ (List.filter_congr fun entry _ => ?_)
  simp [hp, Bool.and_comm]

private theorem known_sound : known.Sound := .seq (.map .field) .field

/-- How a known setting is read: it may be left out, be null, or be a text. -/
def setting? : Option Json → Except Fault (Option String)
  | none => .ok none
  | some j => (Reader.nullable .string).fromJson j

theorem reader_obj_iff {members : Bag} {g : GameSettings} :
    reader.fromJson (.obj members) = .ok g ↔
      setting? (members.find? cameraKey) = .ok g.cameraMode ∧
        setting? (members.find? spawnKey) = .ok g.spawnPointId ∧ g.extra = rest members := by
  have hextra : Source.toMembers .nil (known.others (Source.ofMembers members)) =
      .ok (rest members) := by
    obtain ⟨bag, hb, hfind⟩ := Source.toMembers_ofMembers (rest members) .nil
    rw [others_ofMembers, hb, show bag = rest members from
      Ascending.ext_find? fun key => by simp [hfind]]
  have hr : reader.fromJson (.obj members) = (known.record Shape.kept).fromJson (.obj members) >>=
      fun settings => .ok ⟨settings.1, settings.2, rest members⟩ := by
    simp only [Reader.fromJson, Source.ofJson, reader, hextra, bind_ok]
    rfl
  have hs : ∀ name {a : Option String},
      (Shape.optional name Reader.string).build .value (Shape.lookups members) = .ok a ↔
        setting? (members.find? name) = .ok a := by
    intro name a
    rw [Shape.optional, Shape.build_defaulted_ok_iff]
    cases members.find? name <;> simp [setting?]
  rw [hr, bind_ok_iff]
  simp only [Shape.record_kept_iff known_sound]
  simp only [known, Shape.build_seq_ok_iff, Shape.build_map_ok_iff, hs, Except.ok.injEq]
  constructor
  · rintro ⟨settings, ⟨_, ⟨camera, hc, rfl⟩, spawn, hp, rfl⟩, rfl⟩
    exact ⟨hc, hp, rfl⟩
  · rintro ⟨hc, hp, he⟩
    exact ⟨(g.cameraMode, g.spawnPointId), ⟨_, ⟨_, hc, rfl⟩, _, hp, rfl⟩, by rw [← he]⟩

theorem separate_of_reader {j : Json} {g : GameSettings} (h : reader.fromJson j = .ok g) :
    g.Separate := by
  cases j with
  | obj members =>
    obtain ⟨-, -, he⟩ := reader_obj_iff.mp h
    simp [Separate, he, find?_rest]
  | _ => simp [Reader.fromJson, Source.ofJson, reader] at h

theorem find?_layout (g : GameSettings) :
    ∃ members : Bag, g.layout.toJson = .obj members ∧ ∀ key, members.find? key =
      (g.extra.find? key).or (if key = spawnKey then g.spawnPointId.map .str
        else if key = cameraKey then g.cameraMode.map .str else none) := by
  refine ⟨_, rfl, fun key => ?_⟩
  have he : ((g.extra.toList.map fun entry => (entry.1, entry.2)).reverse.lookup key) =
      g.extra.find? key := by
    rw [← Dict.find?_ofList, Dict.ofList_map_toList g.extra fun j => j, Ascending.find?_mapValues,
      Option.map_id']
  have hw : ∀ (name : String) (s : Option String),
      ((Layout.whenPresent name .str s).map fun field => (field.1, field.2.toJson)).reverse.lookup
        key = if key = name then s.map .str else none := by
    intro name s
    cases s with
    | none => simp [Layout.whenPresent]
    | some s =>
      by_cases hk : key = name <;>
        simp [Layout.whenPresent, List.lookup_cons, hk, beq_false_of_ne, Layout.str, Layout.toJson]
  rw [Dict.find?_ofList, Layout.toJsonFields_eq_map]
  simp only [List.map_append, List.map_map, List.reverse_append, List.lookup_append, hw]
  have hx : (g.extra.toList.map ((fun field => (field.1, field.2.toJson)) ∘ fun entry =>
      (entry.1, Layout.value entry.2))) = g.extra.toList.map fun entry => (entry.1, entry.2) := rfl
  rw [hx, he]
  congr 1
  by_cases hs : key = "spawnPointId"
  · cases g.spawnPointId <;> simp [hs, spawnKey]
  · by_cases hc : key = "cameraMode" <;> simp [hs, hc, spawnKey, cameraKey]

/-- How settings that may be left out are written. -/
def optionalForm (g : Option GameSettings) : Json := (Layout.nullable layout g).toJson

theorem setting?_str (s : Option String) : setting? (s.map .str) = .ok s := by
  cases s <;> rfl

theorem reader_layout {g : GameSettings} (h : g.Separate) :
    reader.fromJson g.layout.toJson = .ok g := by
  obtain ⟨members, hm, hfind⟩ := find?_layout g
  have hck : cameraKey ≠ spawnKey := by decide
  rw [hm, reader_obj_iff]
  refine ⟨?_, ?_, Ascending.ext_find? fun key => ?_⟩
  · rw [hfind, h.1, if_neg hck, if_pos rfl]
    exact setting?_str _
  · rw [hfind, h.2, if_pos rfl]
    exact setting?_str _
  · rw [find?_rest, hfind]
    by_cases hs : key = spawnKey
    · simp [hs, h.2]
    · by_cases hc : key = cameraKey
      · simp [hc, h.1]
      · simp [hs, hc]

theorem reader_optionalForm {g : Option GameSettings} (h : ∀ s, g = some s → s.Separate) :
    (Reader.nullable reader).fromJson (optionalForm g) = .ok g := by
  cases g with
  | none => rfl
  | some g =>
    obtain ⟨members, hm, -⟩ := find?_layout g
    refine Reader.nullable_ok_iff.mpr (.inr ⟨?_, g, reader_layout (h g rfl), rfl⟩)
    simp [optionalForm, Layout.nullable, hm]

/-- A known setting is written only when it is a text. -/
def slot : Renewal := fun x y => ∃ s, setting? x = .ok s ∧ y = s.map .str

theorem slot_functional : slot.Functional := by
  rintro x y y' ⟨s, hs, rfl⟩ ⟨s', hs', rfl⟩
  rw [Except.ok.inj (hs.symm.trans hs')]

private theorem slot_local : slot.Local := by
  refine .of_leaf ?_
  rintro bag ⟨s, -, hs⟩
  cases s <;> simp at hs

def slots (key : String) : Renewal :=
  if key = cameraKey ∨ key = spawnKey then slot else fun x y => x = y

theorem memberwise :
    (required (Reader.nullable reader) optionalForm).Memberwise slots := by
  rintro bag y ⟨j, g, hj, hg, rfl⟩
  obtain rfl : Json.obj bag = j := Option.some.inj hj
  obtain ⟨hn, -⟩ | ⟨-, g, hr, rfl⟩ := Reader.nullable_ok_iff.mp hg
  · contradiction
  obtain ⟨hc, hs, he⟩ := reader_obj_iff.mp hr
  have hsep := separate_of_reader hr
  obtain ⟨members, hm, hfind⟩ := find?_layout g
  have hck : cameraKey ≠ spawnKey := by decide
  refine ⟨members, congrArg some hm, fun key => ?_⟩
  by_cases hkc : key = cameraKey
  · subst hkc
    exact ⟨g.cameraMode, hc, by simp [hfind, hsep.1, hck]⟩
  · by_cases hks : key = spawnKey
    · subst hks
      exact ⟨g.spawnPointId, hs, by simp [hfind, hsep.2]⟩
    · simp [slots, hkc, hks, hfind, he, find?_rest]

theorem renewal_local : (required (Reader.nullable reader) optionalForm).Local := by
  refine .of_memberwise memberwise (fun key => ?_) (fun key => ?_)
  · unfold slots
    split
    · exact slot_functional
    · exact fun _ _ _ h h' => h.symm.trans h'
  · unfold slots
    split
    · exact slot_local
    · exact .of_kept fun _ _ h => h.symm

end GameSettings
end SceneGraph

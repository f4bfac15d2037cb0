import SceneGraph.Proofs.DataForms
import SceneGraph.Proofs.ExchangeableForms

/-!
# Kept forms: each reader keeps what its data form says it keeps

A data form says of a type which written values are stored as they are. Field by field each reader
is shown to keep what the form of its type keeps, and nothing else (`Renewal.Fixes`).
-/
namespace SceneGraph
open Renewal DataForm

/-- A renewal keeps just the members that the form says it keeps. -/
def Renewal.Fixes (r : Renewal) (form : DataForm) : Prop :=
  ∀ ⦃x y⦄, r x y → (x = y ↔ form.keeps x = true)

namespace Renewal
variable {α : Type} {r : Renewal} {read : Reader α} {stored : α → Json} {form : DataForm}

theorem Fixes.of_stated (h : ∀ j a, read.fromJson j = .ok a → stored a = j) :
    (required read stored).Fixes .stated := by
  rintro x y ⟨j, a, rfl, ha, rfl⟩
  simp [keeps, h j a ha]

/-- Of members that are there, all that is there is all. -/
theorem Fixes.always (h : (required read stored).Fixes .stated) :
    (required read stored).Fixes .anything := by
  intro x y hxy
  obtain ⟨j, a, rfl, -⟩ := id hxy
  exact (h hxy).trans (by simp [keeps])

theorem Fixes.held (h : (required read stored).Fixes form) (hs : read.Stable stored)
    (hn : ∀ a, read.fromJson .null ≠ .ok a) : (held read stored).Fixes form :=
  held_eq_required hs hn ▸ h

theorem Fixes.field (h : (required read stored).Fixes form) (hn : form.keeps none = false)
    (c : Completeness) (default : α) : (Renewal.field c read stored default).Fixes form := by
  cases c with
  | strict => exact h
  | lenient =>
    rintro x y (hxy | ⟨rfl, rfl⟩)
    · exact h hxy
    · simp [hn]

theorem real_fixes : (required Reader.real Json.real).Fixes .number := by
  rintro x y ⟨j, a, rfl, ha, rfl⟩
  cases j with
  | num n =>
    cases n with
    | float b hb =>
      obtain rfl : b = a := by
        rw [← Json.real_of_finite hb, Reader.real_fromJson hb] at ha
        exact Except.ok.inj ha
      simp [keeps, Json.real_of_finite hb]
    | int n =>
      have hne : Json.real a ≠ .num (.int n) := by
        unfold Json.real
        split <;> simp
      simp [keeps, hne.symm]
  | _ => contradiction

end Renewal

private theorem lookup_of_names {α : Type} {name : α → String} {alternatives : List α}
    {s : String} {a : α}
    (h : (alternatives.map fun t => (name t, t)).lookup s = some a) : name a = s := by
  obtain ⟨front, back, he, -⟩ := List.lookup_eq_some_iff.mp h
  have hm : (s, a) ∈ alternatives.map fun t => (name t, t) := by simp [he]
  obtain ⟨t, -, ht⟩ := List.mem_map.mp hm
  obtain ⟨rfl, rfl⟩ := Prod.mk.inj ht
  rfl

theorem choice_fixes {α : Type} {name : α → String} (alternatives : List α) :
    (required (Reader.choice (alternatives.map fun t => (name t, t))) (.str <| name ·)).Fixes
      .word := by
  rintro x y ⟨j, a, rfl, ha, rfl⟩
  cases j with
  | str s =>
    have hl : (alternatives.map fun t => (name t, t)).lookup s = some a := by
      simp only [Reader.fromJson, Source.ofJson, Reader.choice, Reader.choice.named] at ha
      split at ha
      · rename_i found hf
        rw [hf, Except.ok.inj ha]
      · contradiction
    simp [keeps, lookup_of_names hl]
  | _ => simp [keeps]

private theorem texts_of_mapM {items : List Json} {texts : List String}
    (h : (Source.ofItems items).mapM (Reader.string .value) = .ok texts) :
    items = texts.map .str := by
  induction items generalizing texts with
  | nil =>
    cases h
    rfl
  | cons item items ih =>
    rw [Source.ofItems, List.mapM_cons] at h
    obtain ⟨s, hs, h⟩ := bind_ok_iff.mp h
    obtain ⟨rest, hr, h⟩ := bind_ok_iff.mp h
    cases h
    cases item with
    | str t =>
      cases hs
      rw [List.map_cons, ih hr]
    | _ => contradiction

theorem Reader.textSet_ok {j : Json} {tags : TextSet} (h : textSet.fromJson j = .ok tags) :
    ∃ texts : List String, j = .arr (texts.map .str) ∧ tags = .ofList texts := by
  cases j with
  | arr items =>
    obtain ⟨texts, ht, rfl⟩ := map_ok_iff.mp h
    obtain ⟨found, hf, ht⟩ := bind_ok_iff.mp ht
    obtain ⟨-, ht⟩ := then_ok_iff.mp ht
    obtain rfl := pure_ok_iff.mp ht
    exact ⟨found, congrArg Json.arr (texts_of_mapM hf), rfl⟩
  | _ => contradiction

theorem TextSet.keys_ofList_eq_iff {texts : List String} :
    (TextSet.ofList texts).keys = texts ↔ texts.Pairwise (· < ·) := by
  constructor
  · intro h
    exact h ▸ Ascending.keys_ascending _
  · intro h
    have hne : ∀ {a b : String}, a < b → a ≠ b := fun hab he => String.lt_irrefl _ (he ▸ hab)
    have hnodup : texts.Nodup := h.imp hne
    have hperm : (TextSet.ofList texts).keys.Perm texts :=
      (List.perm_ext_iff_of_nodup (Ascending.keys_nodup _) hnodup).mpr fun _ =>
        TextSet.mem_keys_ofList
    exact hperm.eq_of_pairwise
      (fun a b _ _ hab hba => absurd (String.lt_trans hab hba) (String.lt_irrefl a))
      (Ascending.keys_ascending _) h

theorem tags_fixes :
    (required Reader.textSet fun texts => (Layout.strings texts.keys).toJson).Fixes .ascending := by
  rintro x y ⟨j, tags, rfl, ht, rfl⟩
  obtain ⟨texts, rfl, rfl⟩ := Reader.textSet_ok ht
  have hform : (Layout.strings (TextSet.ofList texts).keys).toJson =
      .arr ((TextSet.ofList texts).keys.map .str) := by
    simp [Layout.strings, Layout.toJson, Layout.toJsonItems_eq_map, Layout.str]
  have hinj : Function.Injective Json.str := fun _ _ => Json.str.inj
  have htexts : (texts.map Json.str).filterMap Json.asString? = texts := by
    rw [List.filterMap_map]
    exact List.filterMap_some
  simp only [hform, Option.some.injEq, Json.arr.injEq, hinj.list_map.eq_iff, keeps, htexts,
    decide_eq_true_eq, ← TextSet.keys_ofList_eq_iff]
  exact eq_comm

section
variable {α : Type} {read : Reader α} {stored : α → Json} {slots : List (String × Renewal)}
  {forms : List (String × DataForm)}

/-- The slots of a record have forms of the same names, in the same order. -/
def Renewal.FixAll (slots : List (String × Renewal)) (forms : List (String × DataForm)) : Prop :=
  List.Forall₂ (fun slot form => slot.1 = form.1 ∧ slot.2.Fixes form.2) slots forms

private theorem names_of_fixAll (h : FixAll slots forms) :
    slots.map (·.1) = forms.map (·.1) := by
  induction h with
  | nil => rfl
  | cons h _ ih => rw [List.map_cons, List.map_cons, h.1, ih]

private theorem slot_of_fixAll (h : FixAll slots forms) {entry : String × DataForm}
    (he : entry ∈ forms) : ∃ slot ∈ slots, slot.1 = entry.1 ∧ slot.2.Fixes entry.2 := by
  obtain ⟨i, hi, rfl⟩ := List.mem_iff_getElem.mp he
  have hi' : i < slots.length := h.length_eq ▸ hi
  exact ⟨slots[i], List.getElem_mem hi', h.get hi' hi⟩

private theorem members_fixes (h : FixAll slots forms) (hn : (forms.map (·.1)).Nodup)
    (key : String) :
    (∃ form, (Dict.ofList forms).find? key = some form ∧ (members slots key).Fixes form) ∨
      (Dict.ofList forms).find? key = none ∧ members slots key = refused := by
  have hnames := names_of_fixAll h
  cases hf : (Dict.ofList forms).find? key with
  | some form =>
    obtain ⟨slot, hslot, rfl, hfix⟩ := slot_of_fixAll h ((Dict.find?_ofList_iff hn).mp hf)
    refine .inl ⟨form, rfl, ?_⟩
    rcases members_cases slots slot.1 with ⟨hnot, -⟩ | ⟨slot', hslot', hname, hmembers⟩
    · exact absurd (List.mem_map_of_mem hslot) hnot
    · obtain rfl : slot' = slot := List.inj_on_of_nodup_map (hnames ▸ hn) hslot' hslot hname
      exact hmembers ▸ hfix
  | none =>
    refine .inr ⟨rfl, ?_⟩
    rcases members_cases slots key with ⟨-, hmembers⟩ | ⟨slot, hslot, rfl, -⟩
    · exact hmembers
    · have hm : slot.1 ∈ forms.map (·.1) := hnames ▸ List.mem_map_of_mem hslot
      obtain ⟨⟨name, form⟩, he, hname⟩ := List.mem_map.mp hm
      obtain rfl : name = slot.1 := hname
      rw [(Dict.find?_ofList_iff hn).mpr he] at hf
      contradiction

/-- A record is kept when each of its fields is. An array of its fields is not: it comes back as an
object. -/
theorem record_fixes (hobj : ∀ a, ∃ out, stored a = .obj out)
    (hm : (required read stored).Memberwise (members slots)) (h : FixAll slots forms)
    (hn : (forms.map (·.1)).Nodup) :
    (required read stored).Fixes (.record (Dict.ofList forms)) := by
  intro x y hxy
  obtain ⟨j, a, rfl, ha, rfl⟩ := id hxy
  cases j with
  | obj bag =>
    obtain ⟨out, hout, hparts⟩ := hm hxy
    rw [hout, Option.some.injEq, Json.obj.injEq, keeps_record_iff]
    constructor
    · rintro rfl key form hf
      rcases members_fixes h hn key with ⟨form', hf', hfix⟩ | ⟨hnone, -⟩
      · obtain rfl : form' = form := Option.some.inj (hf'.symm.trans hf)
        exact (hfix (hparts key)).mp rfl
      · rw [hnone] at hf
        contradiction
    · intro hkeeps
      refine Ascending.ext_find? fun key => ?_
      rcases members_fixes h hn key with ⟨form, hf, hfix⟩ | ⟨-, hrefused⟩
      · exact (hfix (hparts key)).mpr (hkeeps key form hf)
      · obtain ⟨hx, hy⟩ := hrefused ▸ hparts key
        exact hx.trans hy.symm
  | _ =>
    obtain ⟨out, hout⟩ := hobj a
    simp [keeps, hout]

end

def Vec3.dataForm : DataForm :=
  .record (Dict.ofList [("x", .number), ("y", .number), ("z", .number)])

theorem Vec3.fixes : (required reader (·.layout.toJson)).Fixes dataForm :=
  record_fixes (fun _ => ⟨_, rfl⟩) memberwise (by simp [FixAll, slots, real_fixes]) (by decide)

def Quat.dataForm : DataForm :=
  .record (Dict.ofList [("x", .number), ("y", .number), ("z", .number), ("w", .number)])

theorem Quat.fixes : (required reader (·.layout.toJson)).Fixes dataForm :=
  record_fixes (fun _ => ⟨_, rfl⟩) memberwise (by simp [FixAll, slots, real_fixes]) (by decide)

def Transform.dataForm : DataForm :=
  .record (Dict.ofList [("position", Vec3.dataForm), ("rotation", Quat.dataForm),
    ("scale", Vec3.dataForm)])

theorem Transform.fixes : (required reader (·.layout.toJson)).Fixes dataForm :=
  record_fixes (fun _ => ⟨_, rfl⟩) memberwise (by simp [FixAll, slots, Vec3.fixes, Quat.fixes])
    (by decide)

section Environment
variable (c : Completeness)

theorem text_fixes : (required Reader.string Json.str).Fixes .stated := by
  refine .of_stated fun j s hs => ?_
  cases j with
  | str t => exact congrArg Json.str (Except.ok.inj hs).symm
  | _ => contradiction

theorem flag_fixes : (required Reader.bool Json.bool).Fixes .stated := by
  refine .of_stated fun j b hb => ?_
  cases j with
  | bool t => exact congrArg Json.bool (Except.ok.inj hb).symm
  | _ => contradiction

private theorem optionalText_fixes :
    (required (Reader.nullable .string) optionalText).Fixes .stated := by
  refine .of_stated fun j s hs => ?_
  cases j with
  | null =>
    obtain rfl := Except.ok.inj hs
    rfl
  | str t =>
    obtain rfl := Except.ok.inj hs
    rfl
  | _ => contradiction

def Skybox.dataForm : DataForm :=
  .record (Dict.ofList [("type", .word), ("color", .stated), ("uri", .stated)])

theorem Skybox.fixes : (required (reader c) (·.layout.toJson)).Fixes dataForm := by
  have htype : (required SkyboxType.reader (.str ·.name)).Fixes .word := choice_fixes _
  exact record_fixes (fun _ => ⟨_, rfl⟩) memberwise
    (.cons ⟨rfl, htype.field rfl c _⟩ (.cons ⟨rfl, optionalText_fixes.field rfl c _⟩
      (.cons ⟨rfl, optionalText_fixes.field rfl c _⟩ .nil))) (by decide)

def Fog.dataForm : DataForm :=
  .record (Dict.ofList [("enabled", .stated), ("type", .word), ("color", .stated),
    ("near", .number), ("far", .number), ("density", .number)])

theorem Fog.fixes : (required (reader c) (·.layout.toJson)).Fixes dataForm := by
  have htype : (required FogType.reader (.str ·.name)).Fixes .word := choice_fixes _
  exact record_fixes (fun _ => ⟨_, rfl⟩) memberwise
    (.cons ⟨rfl, flag_fixes.field rfl c _⟩ (.cons ⟨rfl, htype.field rfl c _⟩
      (.cons ⟨rfl, text_fixes.field rfl c _⟩ (.cons ⟨rfl, real_fixes.field rfl c _⟩
        (.cons ⟨rfl, real_fixes.field rfl c _⟩ (.cons ⟨rfl, real_fixes.field rfl c _⟩ .nil))))))
    (by decide)

def AmbientLight.dataForm : DataForm :=
  .record (Dict.ofList [("color", .stated), ("intensity", .number)])

theorem AmbientLight.fixes : (required (reader c) (·.layout.toJson)).Fixes dataForm :=
  record_fixes (fun _ => ⟨_, rfl⟩) memberwise
    (.cons ⟨rfl, text_fixes.field rfl c _⟩ (.cons ⟨rfl, real_fixes.field rfl c _⟩ .nil))
    (by decide)

def Environment.dataForm : DataForm :=
  .record (Dict.ofList [("skybox", Skybox.dataForm), ("fog", Fog.dataForm),
    ("ambientLight", AmbientLight.dataForm), ("gravity", Vec3.dataForm)])

theorem Environment.fixes : (required (reader c) (·.layout.toJson)).Fixes dataForm :=
  record_fixes (fun _ => ⟨_, rfl⟩) memberwise
    (.cons ⟨rfl, (Skybox.fixes c).field rfl c _⟩ (.cons ⟨rfl, (Fog.fixes c).field rfl c _⟩
      (.cons ⟨rfl, (AmbientLight.fixes c).field rfl c _⟩
        (.cons ⟨rfl, Vec3.fixes.field rfl c _⟩ .nil)))) (by decide)

end Environment

theorem eq_unlessNull_iff {x : Option Json} :
    x = unlessNull (x.getD .null) ↔ x ≠ some .null := by
  cases x with
  | none => simp [unlessNull]
  | some j => by_cases hj : j = .null <;> simp [unlessNull, hj]

theorem optionalTuning_fixes :
    (held (Reader.nullable Tuning.reader) optionalTuning).Fixes (.settings []) := by
  rintro x y ⟨tuning, ht, rfl⟩
  rw [← optionalTuning_ok_iff.mp ht, eq_unlessNull_iff, keeps_settings_nil]

theorem bag_fixes : (required Reader.bag Json.obj).Fixes .stated :=
  .of_stated fun _ _ hb => (Reader.bag_ok_iff.mp hb).symm

namespace GameSettings

private theorem slots_fixed_iff {key : String} {x y : Option Json} (h : slots key x y) :
    x = y ↔ (key ∈ [cameraKey, spawnKey] → x ≠ some .null) := by
  unfold slots at h
  simp only [List.mem_cons, List.not_mem_nil, or_false]
  split at h
  · rename_i hk
    obtain ⟨s, hs, rfl⟩ := h
    rw [imp_iff_right hk]
    cases x with
    | none =>
      obtain rfl := Except.ok.inj hs
      simp
    | some j =>
      cases j with
      | null =>
        obtain rfl := Except.ok.inj hs
        simp
      | str t =>
        obtain rfl := Except.ok.inj hs
        simp
      | _ => contradiction
  · rename_i hk
    exact iff_of_true h fun hkey => absurd hkey hk

theorem optionalForm_fixes : (held (Reader.nullable reader) optionalForm).Fixes
    (.settings [cameraKey, spawnKey]) := by
  intro x y hxy
  obtain ⟨g, hg, rfl⟩ := id hxy
  rcases Reader.nullable_ok_iff.mp hg with ⟨hx, rfl⟩ | ⟨hx, s, hs, rfl⟩
  · have hy : unlessNull (optionalForm none) = unlessNull (x.getD .null) := by rw [hx]; rfl
    rw [hy, eq_unlessNull_iff]
    cases x with
    | none => simp [keeps]
    | some j =>
      obtain rfl : j = .null := hx
      simp [keeps]
  · cases x with
    | none => contradiction
    | some j =>
      cases j with
      | obj bag =>
        have hpresent : unlessNull (optionalForm (some s)) = some (optionalForm (some s)) :=
          if_neg (optionalForm_ne_null s)
        obtain ⟨out, hout, hparts⟩ := memberwise ⟨_, _, rfl, hg, rfl⟩
        rw [hpresent, hout, Option.some.injEq, Json.obj.injEq, keeps_settings_iff]
        constructor
        · rintro rfl key hkey
          exact (slots_fixed_iff (hparts key)).mp rfl hkey
        · intro hkeeps
          exact Ascending.ext_find? fun key => (slots_fixed_iff (hparts key)).mpr (hkeeps key)
      | _ => contradiction

end GameSettings
end SceneGraph

import SceneGraph.PropertyWrites
import SceneGraph.Proofs.OpenForms

/-!
# Writes into fields and the writes that undo them

A write goes into a bag directly, or into a field through its JSON, which is then read as the type
of the field. In both cases what was replaced, written back where it was replaced, restores what was
there (`inBag_undo`, `inField_undo`).
-/
namespace SceneGraph
open Renewal

namespace PropertyWrite

theorem inBag_cases {bag written : Bag} {path : Path} {value : Option Json} {w : PropertyWrite}
    (h : inBag bag path value = .ok (written, w)) :
    bag.prior path = .ok w.prior ∧ bag.Open w.prior.path ∧
      w.prior.value = Bag.get? bag w.prior.path ∧ w.prior.path <+: path ∧
      ∃ x, written = bag.assign w.prior.path x := by
  simp only [inBag, bind_ok_iff] at h
  obtain ⟨prior, hp, put, hput, h⟩ := h
  cases h
  obtain ⟨ho, hv, hpre⟩ := Bag.open_of_prior hp
  obtain ⟨x, hx⟩ := Bag.put_of_prior hp value
  exact ⟨hp, ho, hv, hpre, x, Except.ok.inj (hput.symm.trans hx)⟩

theorem inBag_of_open {bag : Bag} {path : Path} (h : bag.Open path) (value : Option Json) :
    inBag bag path value =
      .ok (bag.assign path value, ⟨⟨path, Bag.get? bag path⟩, value⟩) := by
  simp [inBag, Bag.prior_of_open h, Bag.put_of_open h, Bag.get?_assign h, pure, Except.pure]

/-- A write into a bag is undone by writing back what it replaced where it replaced it. -/
theorem inBag_undo {bag written : Bag} {path : Path} {value : Option Json} {w : PropertyWrite}
    (h : inBag bag path value = .ok (written, w)) :
    ∃ w', inBag written w.prior.path w.prior.value = .ok (bag, w') := by
  obtain ⟨-, ho, hv, -, x, rfl⟩ := inBag_cases h
  rw [inBag_of_open (ho.assign x), Bag.assign_assign ho, hv, Bag.assign_get? ho]
  exact ⟨_, rfl⟩

/-- The bag that a stored field stands in. -/
def holder (root : String) (stored : Json) : Bag :=
  if stored = .null then .nil else Dict.insert .nil root stored

theorem find?_holder (root : String) (stored : Json) :
    ((holder root stored).find? root).getD .null = stored := by
  unfold holder
  split
  · simp_all
  · simp

theorem holder_assign_root (root : String) (stored other : Json) :
    ∃ x, holder root other = (holder root stored).assign [root] x := by
  by_cases ho : other = .null
  · refine ⟨none, ?_⟩
    by_cases hs : stored = .null <;>
      simp [holder, ho, hs, Bag.assign, Ascending.erase]
  · refine ⟨some other, ?_⟩
    by_cases hs : stored = .null <;> simp [holder, ho, hs, Bag.assign]

variable {α : Type} {read : Reader α} {form : α → Json} {a a' : α} {stored : Json} {text : String}
  {path : Path} {value : Option Json} {w : PropertyWrite}

theorem inField_ok_iff : inField read stored text path value = .ok (a, w) ↔
    ∃ written, inBag (holder (path.headD "") stored) path value = .ok (written, w) ∧
      read.fromJson ((written.find? (path.headD "")).getD .null) = .ok a := by
  simp only [inField, holder, bind_ok_iff, mapError_ok_iff, Prod.exists, pure_ok_iff,
    Prod.mk.injEq]
  constructor
  · rintro ⟨written, _, hw, _, ha, rfl, rfl⟩
    exact ⟨written, hw, ha⟩
  · rintro ⟨written, hw, ha⟩
    exact ⟨written, w, hw, a, ha, rfl, rfl⟩

/-- A value written in place of a field is read as the field. -/
theorem inField_root {root : String} {v : Json}
    (h : inField read stored text [root] (some v) = .ok (a, w)) : read.fromJson v = .ok a := by
  obtain ⟨written, hb, ha⟩ := inField_ok_iff.mp h
  simp only [inBag, bind_ok_iff] at hb
  obtain ⟨prior, -, bag, hput, hb⟩ := hb
  cases hput
  cases hb
  simpa using ha

/-- A write further down is a write into the object that the field is stored as. -/
theorem inField_below {root key : String} {rest : Path} {bag : Bag}
    (h : inField read (.obj bag) text (root :: key :: rest) value = .ok (a, w)) :
    ∃ written, Bag.put bag (key :: rest) value = .ok written ∧
      read.fromJson (.obj written) = .ok a := by
  obtain ⟨outer, hb, ha⟩ := inField_ok_iff.mp h
  simp only [inBag, bind_ok_iff] at hb
  obtain ⟨prior, -, outer', hput, hb⟩ := hb
  cases hb
  have hfind : (holder root (.obj bag)).find? root = some (.obj bag) := by simp [holder]
  simp only [Bag.put, List.headD_cons, mapError_ok_iff, Bag.putBelow, hfind, bind_ok_iff,
    pure_ok_iff] at hput
  obtain ⟨written, hw, rfl⟩ := hput
  exact ⟨written, mapError_ok_iff.mpr hw, by simpa using ha⟩

/-- The stored form of what a write makes differs only where the write replaced something. -/
theorem holder_of_inField (hl : (required read form).Local)
    (hr : read.fromJson (form a) = .ok a)
    (h : inField read (form a) text path value = .ok (a', w)) :
    ∃ z, holder (path.headD "") (form a') =
      (holder (path.headD "") (form a)).assign w.prior.path z := by
  obtain ⟨written, hw, ha⟩ := inField_ok_iff.mp h
  obtain ⟨-, ho, -, ⟨rest, hpre⟩, x, rfl⟩ := inBag_cases hw
  generalize hq : w.prior.path = q at ho hpre ha
  match q with
  | [] => contradiction
  | [root] =>
    obtain rfl : path.headD "" = root := by simp [← hpre]
    exact holder_assign_root _ _ _
  | root :: key :: more =>
    obtain rfl : path.headD "" = root := by simp [← hpre]
    obtain ⟨inner, hf, hin⟩ := ho
    have hform : form a = .obj inner := by
      have := find?_holder (path.headD "") (form a)
      rw [hf] at this
      exact this.symm
    rw [Bag.assign_step hf, Dict.find?_insert, if_pos rfl] at ha
    obtain ⟨z, hz⟩ := hl ⟨_, a, rfl, hform ▸ hr, by rw [hform]⟩ hin ⟨_, a', rfl, ha, rfl⟩
    refine ⟨z, ?_⟩
    rw [Bag.assign_step hf, Option.some.inj hz, hform]
    simp [holder]

/-- A write into a field is undone by writing back what it replaced where it replaced it. -/
theorem inField_undo (hl : (required read form).Local) (hr : read.fromJson (form a) = .ok a)
    (h : inField read (form a) text path value = .ok (a', w)) (text' : String) :
    w.prior.path.headD "" = path.headD "" ∧
      ∃ w', inField read (form a') text' w.prior.path w.prior.value = .ok (a, w') := by
  obtain ⟨z, hz⟩ := holder_of_inField hl hr h
  obtain ⟨written, hw, -⟩ := inField_ok_iff.mp h
  obtain ⟨-, ho, hv, ⟨rest, hpre⟩, -, -⟩ := inBag_cases hw
  have hroot : w.prior.path.headD "" = path.headD "" := by
    cases hq : w.prior.path with
    | nil => simp [hq, Bag.Open] at ho
    | cons root more => simp [← hpre, hq]
  have hback : inBag (holder (path.headD "") (form a')) w.prior.path w.prior.value =
      .ok (holder (path.headD "") (form a), ⟨⟨w.prior.path, z⟩, w.prior.value⟩) := by
    rw [hz, inBag_of_open (ho.assign z), Bag.assign_assign ho, Bag.get?_assign ho, hv,
      Bag.assign_get? ho]
  refine ⟨hroot, _, inField_ok_iff.mpr ⟨_, hroot ▸ hback, ?_⟩⟩
  rw [hroot, find?_holder, hr]

end PropertyWrite
end SceneGraph

import SceneGraph.EditEffects
import Mathlib.Data.List.InsertIdx
import Mathlib.Data.List.Nodup

/-!
# Places in lists: insertions and removals that cancel

Insertion at a clamped index and removal from an index are inverse to each other, and neither
changes anything but its own place. A child that is listed once is removed from its place by leaving
out its id.
-/
namespace SceneGraph
variable {α : Type} {items : List α} {index : Option Nat} {i : Nat} {x : α}

theorem clampIndex_le (items : List α) (index : Option Nat) :
    clampIndex items index ≤ items.length := by
  cases index with
  | none => exact Nat.le_refl _
  | some i => exact Nat.min_le_right i _

theorem clampIndex_of_le (h : i ≤ items.length) : clampIndex items (some i) = i :=
  Nat.min_eq_left h

theorem perm_insertClamped (items : List α) (index : Option Nat) (x : α) :
    (insertClamped items index x).Perm (x :: items) :=
  List.perm_insertIdx x items (clampIndex_le items index)

@[simp] theorem eraseIdx_insertClamped (items : List α) (index : Option Nat) (x : α) :
    (insertClamped items index x).eraseIdx (clampIndex items index) = items :=
  List.eraseIdx_insertIdx_self x

@[simp] theorem getElem?_insertClamped (items : List α) (index : Option Nat) (x : α) :
    (insertClamped items index x)[clampIndex items index]? = some x := by
  simp [insertClamped, List.getElem?_insertIdx_self, clampIndex_le]

/-- What is inserted stands between what it found there, at most at the end. -/
theorem insertClamped_split (items : List α) (index : Option Nat) (x : α) :
    ∃ before later, before ++ later = items ∧
      insertClamped items index x = before ++ x :: later ∧
      before.length = index.elim items.length (min · items.length) := by
  obtain ⟨before, later, hitems, hlength, hinsert⟩ :=
    List.exists_of_modifyTailIdx (List.cons x) (clampIndex_le items index)
  refine ⟨before, later, hitems.symm, hinsert, hlength.trans ?_⟩
  cases index <;> rfl

theorem insertClamped_eraseIdx (h : items[i]? = some x) :
    insertClamped (items.eraseIdx i) (some i) x = items := by
  obtain ⟨hi, rfl⟩ := List.getElem?_eq_some_iff.mp h
  rw [insertClamped, clampIndex_of_le (by rw [List.length_eraseIdx_of_lt hi]; omega),
    List.insertIdx_eraseIdx_getElem hi]

theorem perm_eraseIdx (h : items[i]? = some x) : items.Perm (x :: items.eraseIdx i) := by
  have hp := perm_insertClamped (items.eraseIdx i) (some i) x
  rwa [insertClamped_eraseIdx h] at hp

namespace Entity
variable {e : Entity} {c : String}

theorem getElem?_of_childIndex? (h : e.childIndex? c = some i) : e.children[i]? = some c := by
  obtain ⟨hi, hc, -⟩ := List.findIdx?_eq_some_iff_getElem.mp h
  rw [List.getElem?_eq_getElem hi, of_decide_eq_true hc]

theorem childIndex?_of_getElem? (hn : e.children.Nodup) (h : e.children[i]? = some c) :
    e.childIndex? c = some i := by
  obtain ⟨hi, hc⟩ := List.getElem?_eq_some_iff.mp h
  refine List.findIdx?_eq_some_iff_getElem.mpr ⟨hi, decide_eq_true hc, fun j hj => ?_⟩
  have hne : e.children[j] ≠ e.children[i] := fun he =>
    Nat.ne_of_lt hj (List.Nodup.getElem_inj_iff hn |>.mp he)
  simpa [hc] using hne

theorem childIndex?_of_mem (h : c ∈ e.children) : ∃ i, e.childIndex? c = some i := by
  rw [childIndex?, ← Option.isSome_iff_exists, List.findIdx?_isSome]
  simpa using h

/-- A child that is listed once is removed from its place by leaving out its id. -/
theorem filter_children (hn : e.children.Nodup) (h : e.childIndex? c = some i) :
    e.children.filter (· ≠ c) = e.children.eraseIdx i := by
  have hi : e.children.idxOf c = i := (List.findIdx?_eq_some_iff_findIdx_eq.mp h).2
  rw [← List.erase_eq_eraseIdx_of_idxOf hi, List.Nodup.erase_eq_filter hn]
  exact List.filter_congr fun x _ => by by_cases hx : x = c <;> simp [hx]

end Entity
end SceneGraph

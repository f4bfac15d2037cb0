import SceneGraph.Proofs.ListPlaces
import SceneGraph.Proofs.ValueReading

/-!
# Keyframe lists: which changes of a track can be taken back

Adding, removing and changing keyframes are taken apart on plain lists. What is added can be removed
and added again where it stood. What is removed can be added again exactly when it is `Restorable`:
it has a value and a finite time from 0 on, which no other keyframe has.
-/
namespace SceneGraph

namespace Binary64
variable {x y : Binary64}

theorem isNaN_of_isFinite (h : x.isFinite = true) : x.isNaN = false := by
  simp only [isFinite, decide_eq_true_eq] at h
  simpa [isNaN] using Nat.le_of_lt h

theorem beq_iff (hx : x.isFinite = true) (hy : y.isFinite = true) :
    (x == y) = true ↔ x.order = y.order := by
  show (!x.isNaN && !y.isNaN && x.order == y.order) = true ↔ x.order = y.order
  simp [isNaN_of_isFinite hx, isNaN_of_isFinite hy]

theorem beq_self (h : x.isFinite = true) : (x == x) = true := (beq_iff h h).mpr rfl

theorem lt_iff (hx : x.isFinite = true) (hy : y.isFinite = true) :
    x.lt y = true ↔ x.order < y.order := by
  simp [lt, isNaN_of_isFinite hx, isNaN_of_isFinite hy]

end Binary64

namespace KeyframeTrack
variable {track : String} {keyframes keyframes' : List Json} {k v previous : Json}
  {time t : Binary64} {index : Option Nat} {i : Nat}

theorem admitted_ok_iff : admitted track k = .ok t ↔ Keyframe.timeOf? k = some t ∧
    t.isFinite = true ∧ t.lt 0 = false ∧ (k.member? "value").isSome = true := by
  unfold admitted
  constructor
  · intro h
    split at h
    · contradiction
    · rename_i time ht
      split at h
      · contradiction
      · rename_i hrange
        split at h
        · contradiction
        · rename_i hv
          obtain rfl := Except.ok.inj h
          rw [Bool.or_eq_true, not_or, Bool.not_eq_true, Bool.not_eq_true] at hrange
          exact ⟨ht, by simpa using hrange.1, hrange.2, by simpa [Option.isSome_iff_ne_none] using hv⟩
  · rintro ⟨ht, hf, hl, hv⟩
    simp only [ht, hf, hl, Option.isNone_eq_false_iff.mpr hv, Bool.not_true, Bool.or_false,
      Bool.false_eq_true, if_false]

theorem isAt_of_admitted (h : admitted track k = .ok t) : isAt t k = true := by
  obtain ⟨ht, hf, -, -⟩ := admitted_ok_iff.mp h
  simp [isAt, ht, Binary64.beq_self hf]

theorem add_ok_iff : add track k time index keyframes = .ok (keyframes', i) ↔
    position? keyframes time = none ∧ i = landing keyframes time index ∧
      keyframes' = keyframes.insertIdx i k := by
  unfold add
  cases position? keyframes time with
  | some j => simp
  | none =>
    simp only [Option.isSome_none, Bool.false_eq_true, if_false, Except.ok.injEq, Prod.mk.injEq,
      true_and]
    constructor
    · rintro ⟨rfl, rfl⟩
      exact ⟨rfl, rfl⟩
    · rintro ⟨rfl, rfl⟩
      exact ⟨rfl, rfl⟩

theorem landing_le (keyframes : List Json) (time : Binary64) (index : Option Nat) :
    landing keyframes time index ≤ keyframes.length := by
  cases index with
  | some j => exact Nat.min_le_right j _
  | none =>
    rw [landing]
    cases h : keyframes.findIdx? _ with
    | none => exact Nat.le_refl _
    | some j =>
      obtain ⟨hj, -⟩ := List.findIdx?_eq_some_iff_getElem.mp h
      exact Nat.le_of_lt hj

theorem getElem?_position? (h : position? keyframes time = some i) :
    ∃ k, keyframes[i]? = some k ∧ isAt time k = true := by
  obtain ⟨hi, hk, -⟩ := List.findIdx?_eq_some_iff_getElem.mp h
  exact ⟨keyframes[i], List.getElem?_eq_getElem hi, hk⟩

theorem remove_ok_iff : remove track time keyframes = .ok (keyframes', i, k) ↔
    position? keyframes time = some i ∧ keyframes[i]? = some k ∧
      keyframes' = keyframes.eraseIdx i := by
  unfold remove
  cases hp : position? keyframes time with
  | none => simp
  | some j =>
    obtain ⟨k', hk, -⟩ := getElem?_position? hp
    simp only [Except.ok.injEq, Prod.mk.injEq, Option.some.injEq, List.getD_eq_getElem?_getD, hk,
      Option.getD_some]
    constructor
    · rintro ⟨rfl, rfl, rfl⟩
      exact ⟨rfl, hk, rfl⟩
    · rintro ⟨rfl, hk', rfl⟩
      exact ⟨rfl, rfl, Option.some.inj (hk.symm.trans hk')⟩

theorem setValue_ok_iff : setValue track time v keyframes = .ok (keyframes', previous) ↔
    ∃ i members, position? keyframes time = some i ∧ keyframes[i]? = some (.obj members) ∧
      members.find? "value" = some previous ∧
      keyframes' = keyframes.set i (.obj (Dict.insert members "value" v)) := by
  unfold setValue
  constructor
  · intro h
    split at h
    · contradiction
    · rename_i i hp
      split at h
      · rename_i members hk
        split at h
        · rename_i previous' hv
          obtain ⟨rfl, rfl⟩ := Prod.mk.inj (Except.ok.inj h)
          exact ⟨i, members, hp, hk, hv, rfl⟩
        · contradiction
      · contradiction
  · rintro ⟨i, members, hp, hk, hv, rfl⟩
    simp only [hp, hk, hv]

/-- The first keyframe at a time could be added again where it stood: it has a value, its own time
is a finite number from 0 on, and no other keyframe stands at that time. -/
def Restorable (keyframes : List Json) (time : Binary64) : Prop :=
  ∃ i k t, position? keyframes time = some i ∧ keyframes[i]? = some k ∧
    Keyframe.timeOf? k = some t ∧ t.isFinite = true ∧ t.lt 0 = false ∧
    (k.member? "value").isSome = true ∧ ∀ other ∈ keyframes.eraseIdx i, isAt t other = false

theorem restorable_iff (track : String) : Restorable keyframes time ↔
    ∃ i k t, position? keyframes time = some i ∧ keyframes[i]? = some k ∧
      admitted track k = .ok t ∧ position? (keyframes.eraseIdx i) t = none := by
  simp only [Restorable, admitted_ok_iff, and_assoc]
  simp only [position?, List.findIdx?_eq_none_iff]

theorem position?_insertIdx (hp : position? keyframes time = none) (hi : i ≤ keyframes.length)
    (hk : isAt time k = true) : position? (keyframes.insertIdx i k) time = some i := by
  have hlen : i < (keyframes.insertIdx i k).length := by
    rw [List.length_insertIdx_of_le_length hi]
    omega
  refine List.findIdx?_eq_some_iff_getElem.mpr ⟨hlen, by simpa using hk, fun j hj => ?_⟩
  rw [List.getElem_insertIdx_of_lt hj]
  simp [List.findIdx?_eq_none_iff.mp hp _ (List.getElem_mem _)]

/-- A keyframe that was added can be removed, and then added again. -/
theorem remove_of_add (ht : admitted track k = .ok time)
    (h : add track k time index keyframes = .ok (keyframes', i)) :
    remove track time keyframes' = .ok (keyframes, i, k) ∧ Restorable keyframes' time := by
  obtain ⟨hp, hi, rfl⟩ := add_ok_iff.mp h
  have hle : i ≤ keyframes.length := hi ▸ landing_le keyframes time index
  have hat := position?_insertIdx hp hle (isAt_of_admitted ht)
  have hget : (keyframes.insertIdx i k)[i]? = some k := by
    simp [List.getElem?_insertIdx_self, hle]
  have herase : (keyframes.insertIdx i k).eraseIdx i = keyframes := List.eraseIdx_insertIdx_self k
  exact ⟨remove_ok_iff.mpr ⟨hat, hget, herase.symm⟩,
    (restorable_iff track).mpr ⟨i, k, time, hat, hget, ht, by rwa [herase]⟩⟩

/-- A keyframe that was removed can be added where it stood exactly when it is restorable. -/
theorem add_of_remove (h : remove track time keyframes = .ok (keyframes', i, k)) :
    (∃ t, admitted track k = .ok t ∧ position? keyframes' t = none) ↔
      Restorable keyframes time := by
  obtain ⟨hp, hk, rfl⟩ := remove_ok_iff.mp h
  rw [restorable_iff track]
  constructor
  · rintro ⟨t, ht, hfree⟩
    exact ⟨i, k, t, hp, hk, ht, hfree⟩
  · rintro ⟨j, k', t, hp', hk', ht, hfree⟩
    obtain rfl : i = j := Option.some.inj (hp.symm.trans hp')
    obtain rfl : k = k' := Option.some.inj (hk.symm.trans hk')
    exact ⟨t, ht, hfree⟩

theorem add_back (h : remove track time keyframes = .ok (keyframes', i, k))
    (hfree : position? keyframes' t = none) :
    add track k t (some i) keyframes' = .ok (keyframes, i) := by
  obtain ⟨hp, hk, rfl⟩ := remove_ok_iff.mp h
  obtain ⟨hi, rfl⟩ := List.getElem?_eq_some_iff.mp hk
  have hlanding : landing (keyframes.eraseIdx i) t (some i) = i :=
    Nat.min_eq_left (by rw [List.length_eraseIdx_of_lt hi]; omega)
  exact add_ok_iff.mpr ⟨hfree, hlanding.symm, (List.insertIdx_eraseIdx_getElem hi).symm⟩

theorem position?_set {k' : Json} (hp : position? keyframes time = some i)
    (hk : isAt time k' = true) : position? (keyframes.set i k') time = some i := by
  obtain ⟨hi, -, hbefore⟩ := List.findIdx?_eq_some_iff_getElem.mp hp
  refine List.findIdx?_eq_some_iff_getElem.mpr ⟨by simpa using hi, by simpa using hk, ?_⟩
  intro j hj
  simpa [List.getElem_set_ne (Nat.ne_of_gt hj)] using hbefore j hj

/-- Writing the value that was there before undoes the writing of a value. -/
theorem setValue_back (h : setValue track time v keyframes = .ok (keyframes', previous)) :
    setValue track time previous keyframes' = .ok (keyframes, v) := by
  obtain ⟨i, members, hp, hk, hv, rfl⟩ := setValue_ok_iff.mp h
  obtain ⟨hi, hget⟩ := List.getElem?_eq_some_iff.mp hk
  have hat : isAt time (.obj (Dict.insert members "value" v)) = true := by
    obtain ⟨k, hk', hat⟩ := getElem?_position? hp
    obtain rfl := Option.some.inj (hk.symm.trans hk')
    simpa [isAt, Keyframe.timeOf?, Json.member?] using hat
  refine setValue_ok_iff.mpr ⟨i, Dict.insert members "value" v, position?_set hp hat, ?_, ?_, ?_⟩
  · simp [hi]
  · simp
  · rw [List.set_set, Dict.insert_insert, Dict.insert_of_find? hv, ← hget, List.set_getElem_self]

end KeyframeTrack
end SceneGraph

import SceneGraph.Proofs.PropertyPositions
import SceneGraph.Proofs.RecordReading

/-!
# Renewals: what becomes of JSON that is read as typed data and written again

A renewal is local when changing a renewed object at one open position changes what it is renewed to
at that position only. Records are local because their members are renewed one by one.
-/
namespace SceneGraph

/-- Relates a member of an object, present or not, to what it is after reading and writing. -/
abbrev Renewal := Option Json → Option Json → Prop

namespace Renewal
variable {α : Type}

/-- A member that may not be there. -/
def refused : Renewal := fun x y => x = none ∧ y = none

/-- A member that is there and is read. -/
def required (read : Reader α) (form : α → Json) : Renewal := fun x y =>
  ∃ j a, x = some j ∧ read.fromJson j = .ok a ∧ y = some (form a)

/-- A member that takes a default where it is left out. -/
def defaulted (read : Reader α) (form : α → Json) (default : α) : Renewal := fun x y =>
  required read form x y ∨ x = none ∧ y = some (form default)

/-- At most one outcome. -/
def Functional (r : Renewal) : Prop := ∀ ⦃x y y'⦄, r x y → r x y' → y = y'

/-- An object comes out as an object, each member as stated for its key. -/
def Memberwise (r : Renewal) (parts : String → Renewal) : Prop :=
  ∀ ⦃bag : Bag⦄ ⦃y⦄, r (some (.obj bag)) y →
    ∃ out : Bag, y = some (.obj out) ∧ ∀ key, parts key (bag.find? key) (out.find? key)

/-- A change of a renewed object at an open position stays a change at that position. -/
def Local (r : Renewal) : Prop :=
  ∀ ⦃bag : Bag⦄ ⦃path : Path⦄ ⦃value y⦄, r (some (.obj bag)) (some (.obj bag)) → bag.Open path →
    r (some (.obj (bag.assign path value))) y → ∃ v, y = some (.obj (bag.assign path v))

theorem refused_functional : Functional refused := fun _ _ _ h h' => h.2.trans h'.2.symm

theorem required_functional (read : Reader α) (form : α → Json) :
    (required read form).Functional := by
  rintro x y y' ⟨j, a, rfl, ha, rfl⟩ ⟨j', a', hj, ha', rfl⟩
  obtain rfl : j = j' := Option.some.inj hj
  rw [Except.ok.inj (ha.symm.trans ha')]

theorem defaulted_functional (read : Reader α) (form : α → Json) (default : α) :
    (defaulted read form default).Functional := by
  rintro x y y' (h | ⟨hx, rfl⟩) (h' | ⟨hx', rfl⟩)
  · exact required_functional read form h h'
  · obtain ⟨j, a, hx, -⟩ := h
    exact nomatch hx.symm.trans hx'
  · obtain ⟨j, a, hx', -⟩ := h'
    exact nomatch hx'.symm.trans hx
  · rfl

/-- Where objects are never renewed to themselves there is nothing to change inside. -/
theorem Local.of_leaf {r : Renewal} (h : ∀ bag, ¬ r (some (.obj bag)) (some (.obj bag))) :
    r.Local := fun bag _ _ _ hb => absurd hb (h bag)

/-- Objects that are kept as they are are changed as they are. -/
theorem Local.of_kept {r : Renewal}
    (h : ∀ ⦃bag : Bag⦄ ⦃y⦄, r (some (.obj bag)) y → y = some (.obj bag)) : r.Local :=
  fun _ _ value _ _ _ hy => ⟨value, h hy⟩

theorem Local.of_memberwise {r : Renewal} {parts : String → Renewal} (hr : r.Memberwise parts)
    (hf : ∀ key, (parts key).Functional) (hl : ∀ key, (parts key).Local) : r.Local := by
  intro bag path value y hb ho hy
  obtain ⟨same, hs, hsame⟩ := hr hb
  obtain rfl : bag = same := by simpa using hs
  obtain ⟨out, rfl, hout⟩ := hr hy
  cases path with
  | nil => contradiction
  | cons key rest =>
    have hother : ∀ k, k ≠ key → out.find? k = bag.find? k := by
      intro k hk
      have hp := hout k
      rw [Bag.find?_assign_of_ne bag hk] at hp
      exact hf k hp (hsame k)
    cases rest with
    | nil =>
      refine ⟨out.find? key, congrArg (some ∘ Json.obj) (Ascending.ext_find? fun k => ?_)⟩
      by_cases hk : k = key
      · rw [hk, Bag.find?_assign_self]
      · rw [hother k hk, Bag.find?_assign_of_ne bag hk]
    | cons next rest =>
      obtain ⟨inner, hi, hin⟩ := ho
      have hk := hout key
      have hk' := hsame key
      rw [Bag.assign_step hi, Dict.find?_insert, if_pos rfl] at hk
      rw [hi] at hk'
      obtain ⟨v, hv⟩ := hl key hk' hin hk
      refine ⟨v, congrArg (some ∘ Json.obj) (Ascending.ext_find? fun k => ?_)⟩
      by_cases he : k = key
      · rw [he, hv, Bag.assign_step hi, Dict.find?_insert, if_pos rfl]
      · rw [hother k he, Bag.find?_assign_of_ne bag he]

/-- The renewal of the member under each key of a record that refuses other members. -/
def members (slots : List (String × Renewal)) (key : String) : Renewal :=
  (slots.lookup key).getD refused

theorem members_cases (slots : List (String × Renewal)) (key : String) :
    (key ∉ slots.map (·.1) ∧ members slots key = refused) ∨
      ∃ slot ∈ slots, slot.1 = key ∧ members slots key = slot.2 := by
  cases hl : slots.lookup key with
  | none =>
    refine .inl ⟨fun hm => ?_, by simp [members, hl]⟩
    obtain ⟨slot, hs, rfl⟩ := List.mem_map.mp hm
    simpa using List.lookup_eq_none_iff.mp hl slot hs
  | some r =>
    obtain ⟨front, back, he, -⟩ := List.lookup_eq_some_iff.mp hl
    exact .inr ⟨(key, r), by simp [he], rfl, by simp [members, hl]⟩

/-- What holds of all slots, and of no member at all, holds at every key. -/
theorem members_all {p : Renewal → Prop} {slots : List (String × Renewal)} (hr : p refused)
    (hs : ∀ slot ∈ slots, p slot.2) (key : String) : p (members slots key) := by
  rcases members_cases slots key with ⟨-, h⟩ | ⟨slot, hm, -, h⟩
  · exact h ▸ hr
  · exact h ▸ hs slot hm

/-- A record is renewed slot by slot when building it from its fields says so for each slot. -/
theorem memberwise_record {shape : Shape α} (hs : shape.Sound) {form : α → Json}
    {fields : α → List (String × Json)} {slots : List (String × Renewal)}
    (hform : ∀ a, form a = .obj (Dict.ofList (fields a)))
    (hchecks : shape.checks.map (·.1) = slots.map (·.1))
    (hfields : ∀ a, (fields a).map (·.1) = slots.map (·.1))
    (hslots : ∀ (bag : Bag) a, shape.build .value (Shape.lookups bag) = .ok a → ∀ slot ∈ slots,
      slot.2 (bag.find? slot.1) ((Dict.ofList (fields a)).find? slot.1)) :
    (required (shape.record Shape.refused) form).Memberwise (members slots) := by
  rintro bag y ⟨j, a, hj, ha, rfl⟩
  obtain rfl : Json.obj bag = j := Option.some.inj hj
  obtain ⟨hk, hb⟩ := (Shape.record_refused_iff hs).mp ha
  refine ⟨_, congrArg some (hform a), fun key => ?_⟩
  rcases members_cases slots key with ⟨hn, hm⟩ | ⟨slot, hmem, rfl, hm⟩
  · rw [hm]
    refine ⟨Option.eq_none_iff_forall_ne_some.mpr fun j hj => hn (hchecks ▸ hk key j hj), ?_⟩
    exact Dict.find?_ofList_of_not_mem (by rwa [hfields])
  · rw [hm]
    exact hslots bag a hb slot hmem

end Renewal
end SceneGraph

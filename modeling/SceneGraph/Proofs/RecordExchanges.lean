import SceneGraph.Proofs.PathExchanges
import SceneGraph.Proofs.StoredForms

/-!
# Record exchanges: fields that are read one by one may be written in any order

A record is read field by field, so when every field allows writes to change places, so does the
record. Fields may have defaults, and may be left out where they would be null.
-/
namespace SceneGraph

/-- What is read is read again from its form. -/
def Reader.Stable {α : Type} (read : Reader α) (form : α → Json) : Prop :=
  ∀ ⦃j a⦄, read.fromJson j = .ok a → read.fromJson (form a) = .ok a

/-- Whenever every slot is renewed to something, all fields of the shape can be built. -/
def Shape.Fills {α : Type} (s : Shape α) (slots : List (String × Renewal)) : Prop :=
  ∀ bag : Bag, (∀ slot ∈ slots, ∃ y, slot.2 (bag.find? slot.1) y) →
    ∃ a, s.build .value (Shape.lookups bag) = .ok a

namespace Shape
open Renewal
variable {α β : Type} {slots slots' : List (String × Renewal)} {name : String} {read : Reader α}
  {form : α → Json}

theorem Fills.map {s : Shape α} {f : α → β} (h : s.Fills slots) : (f <$> s).Fills slots := by
  intro bag hslots
  obtain ⟨a, ha⟩ := h bag hslots
  exact ⟨f a, build_map_ok_iff.mpr ⟨a, ha, rfl⟩⟩

theorem Fills.seq {f : Shape (α → β)} {s : Shape α} (hf : f.Fills slots) (hs : s.Fills slots') :
    (f <*> s).Fills (slots ++ slots') := by
  intro bag hslots
  obtain ⟨g, hg⟩ := hf bag fun slot hm => hslots slot (List.mem_append_left _ hm)
  obtain ⟨a, ha⟩ := hs bag fun slot hm => hslots slot (List.mem_append_right _ hm)
  exact ⟨g a, build_seq_ok_iff.mpr ⟨g, hg, a, ha, rfl⟩⟩

theorem Fills.required : (Shape.required name read).Fills [(name, .required read form)] := by
  intro bag hslots
  obtain ⟨y, j, a, hj, ha, -⟩ := hslots _ (List.mem_singleton.mpr rfl)
  exact ⟨a, build_required_ok_iff.mpr ⟨j, hj, ha⟩⟩

theorem Fills.field {c : Completeness} {default : α} :
    (c.field name read default).Fills [(name, .field c read form default)] := by
  cases c with
  | strict => exact .required
  | lenient =>
    intro bag hslots
    obtain ⟨y, ⟨j, a, hj, ha, -⟩ | ⟨hn, -⟩⟩ := hslots _ (List.mem_singleton.mpr rfl)
    · exact ⟨a, build_defaulted_ok_iff.mpr (.inl ⟨j, hj, ha⟩)⟩
    · exact ⟨default, build_defaulted_ok_iff.mpr (.inr ⟨hn, rfl⟩)⟩

end Shape

namespace Renewal
variable {α : Type} {read : Reader α} {form : α → Json} {r : Renewal} {parts : String → Renewal}
  {slots : List (String × Renewal)}

/-- An object is renewed as soon as its members can be, and then member by member. -/
theorem Parted.of_accepts (hm : r.Memberwise parts) (hf : ∀ key, (parts key).Functional)
    (ha : ∀ bag : Bag, (∀ key, ∃ y, parts key (bag.find? key) y) → ∃ y, r (some (.obj bag)) y) :
    r.Parted parts := by
  intro bag y
  constructor
  · exact fun hy => hm hy
  · rintro ⟨out, rfl, hout⟩
    obtain ⟨y, hy⟩ := ha bag fun key => ⟨_, hout key⟩
    obtain ⟨out', rfl, hout'⟩ := hm hy
    have hsame : out = out' := Ascending.ext_find? fun key => hf key (hout key) (hout' key)
    rwa [hsame]

theorem refused_exchangeable : refused.Exchangeable :=
  .of_leaf ⟨refused_functional, fun _ _ h => ⟨h.2, h.2⟩, fun _ _ _ h => nomatch h.1⟩
    fun _ h => nomatch h.1

theorem required_regular (h : read.Stable form) : (required read form).Regular := by
  refine ⟨required_functional read form, ?_, nofun⟩
  rintro x y ⟨j, a, rfl, ha, rfl⟩
  exact ⟨_, a, rfl, h ha, rfl⟩

/-- What is never written as an object is not written into. -/
theorem scalar_exchangeable (h : read.Stable form) (hform : ∀ a bag, form a ≠ .obj bag) :
    (required read form).Exchangeable := by
  refine .of_leaf (required_regular h) fun bag hb => ?_
  obtain ⟨_, a, _, _, ha⟩ := hb
  exact hform a bag (Option.some.inj ha).symm

/-- A record is renewed field by field. -/
theorem record_exchangeable {shape : Shape α} (hs : shape.Sound)
    (hm : (required (shape.record Shape.refused) form).Memberwise (members slots))
    (hf : shape.Fills slots) (hchecks : shape.checks.map (·.1) = slots.map (·.1))
    (hn : (slots.map (·.1)).Nodup) (hstable : (shape.record Shape.refused).Stable form)
    (hslots : ∀ slot ∈ slots, slot.2.Exchangeable) :
    (required (shape.record Shape.refused) form).Exchangeable := by
  have hparts := members_all refused_exchangeable hslots
  refine .of_parted (required_regular hstable) (.of_accepts hm (fun key => (hparts key).functional)
    fun bag hbag => ?_) hparts
  have hbuild : ∀ slot ∈ slots, ∃ y, slot.2 (bag.find? slot.1) y := by
    intro slot hslot
    obtain ⟨y, hy⟩ := hbag slot.1
    rcases members_cases slots slot.1 with ⟨hnot, -⟩ | ⟨slot', hslot', hname, hslots'⟩
    · exact absurd (List.mem_map_of_mem hslot) hnot
    · obtain rfl : slot' = slot := List.inj_on_of_nodup_map hn hslot' hslot hname
      exact ⟨y, hslots' ▸ hy⟩
  obtain ⟨a, ha⟩ := hf bag hbuild
  refine ⟨_, _, a, rfl, (Shape.record_refused_iff hs).mpr ⟨fun key j hj => ?_, ha⟩, rfl⟩
  rw [hchecks]
  by_contra hnot
  rcases members_cases slots key with ⟨-, hrefused⟩ | ⟨slot, hslot, rfl, -⟩
  · obtain ⟨y, hy⟩ := hbag key
    rw [hrefused, hj] at hy
    exact nomatch hy.1
  · exact hnot (List.mem_map_of_mem hslot)

section Field
variable {default : α} {j y v : Option Json} {key : String} {p : Path}

private theorem revises_defaulted_iff {j : Json} :
    (defaulted read form default).Revises v (key :: p) (some j) y ↔
      (required read form).Revises v (key :: p) (some j) y := by
  constructor
  · rintro ⟨m, hm, hy⟩
    cases hm with
    | step below => exact ⟨_, .step below, hy.resolve_right nofun⟩
  · rintro ⟨m, hm, hy⟩
    exact ⟨m, hm, .inl hy⟩

/-- A member that is written into is there already, so its default does not matter. -/
theorem Exchangeable.field (h : (required read form).Exchangeable)
    (hd : read.fromJson (form default) = .ok default) (c : Completeness) :
    (field c read form default).Exchangeable := by
  cases c with
  | strict => exact h
  | lenient =>
    refine ⟨⟨defaulted_functional read form default, ?_, ?_⟩, fun p q v w x y z hpq hx h₁ h₂ => ?_⟩
    · rintro x y (hxy | ⟨-, rfl⟩)
      · exact .inl (h.settled hxy)
      · exact .inl ⟨_, default, rfl, hd, rfl⟩
    · rintro (⟨j, a, hj, -⟩ | ⟨-, hy⟩) <;> contradiction
    · obtain ⟨key, p, key', q, rfl, rfl⟩ := hpq.exists_cons
      obtain ⟨j, rfl⟩ : ∃ j, x = some j := by
        rcases hx with ⟨j, a, rfl, -⟩ | ⟨-, rfl⟩ <;> exact ⟨_, rfl⟩
      have hpresent : ∀ {v key p x y}, (required read form).Revises v (key :: p) x y →
          ∃ j, y = some j := by
        rintro v key p x y ⟨m, -, k, a, -, -, rfl⟩
        exact ⟨_, rfl⟩
      have h₁ := revises_defaulted_iff.mp h₁
      obtain ⟨j₁, rfl⟩ := hpresent h₁
      obtain ⟨y', h₂, h₁⟩ := h.exchanges _ hpq (hx.resolve_right fun hn => nomatch hn.1) h₁
        (revises_defaulted_iff.mp h₂)
      obtain ⟨j₂, rfl⟩ := hpresent h₂
      exact ⟨_, revises_defaulted_iff.mpr h₂, revises_defaulted_iff.mpr h₁⟩

end Field

/-- A form where null stands for what is left out. -/
def unlessNull (j : Json) : Option Json := if j = .null then none else some j

theorem unlessNull_getD (j : Json) : (unlessNull j).getD .null = j := by
  unfold unlessNull
  split
  · simp_all
  · rfl

/-- A member that is left out where it would be null. -/
def held (read : Reader α) (form : α → Json) : Renewal := fun x y =>
  ∃ a, read.fromJson (x.getD .null) = .ok a ∧ y = unlessNull (form a)

theorem held_functional (read : Reader α) (form : α → Json) : (held read form).Functional := by
  rintro x y y' ⟨a, ha, rfl⟩ ⟨a', ha', rfl⟩
  rw [Except.ok.inj (ha.symm.trans ha')]

theorem held_settled (h : read.Stable form) {x y : Option Json} (hxy : held read form x y) :
    held read form y y := by
  obtain ⟨a, ha, rfl⟩ := hxy
  exact ⟨a, (unlessNull_getD (form a)).symm ▸ h ha, rfl⟩

theorem held_some_iff {j : Json} {y : Option Json}
    (hj : ∀ a, read.fromJson j = .ok a → form a ≠ .null) :
    held read form (some j) y ↔ required read form (some j) y := by
  constructor
  · rintro ⟨a, ha, rfl⟩
    exact ⟨j, a, rfl, ha, if_neg (hj a ha)⟩
  · rintro ⟨_, a, ⟨⟩, ha, rfl⟩
    exact ⟨a, ha, (if_neg (hj a ha)).symm⟩

/-- Where null is not read nothing is left out. -/
theorem held_eq_required (h : read.Stable form) (hn : ∀ a, read.fromJson .null ≠ .ok a) :
    held read form = required read form := by
  funext x y
  refine propext ?_
  cases x with
  | none =>
    constructor
    · rintro ⟨a, ha, -⟩
      exact absurd ha (hn a)
    · rintro ⟨j, a, hj, -⟩
      contradiction
  | some j => exact held_some_iff fun a ha hnull => hn a (by simpa only [hnull] using h ha)

/-- A record is never read from null. -/
theorem record_null_ne (s : Shape α) (others : Shape.Others) (a : α) :
    (s.record others).fromJson .null ≠ .ok a := by
  simp [Reader.fromJson, Source.ofJson, Shape.record, Shape.object]

theorem Exchangeable.held (h : (required read form).Exchangeable) (hs : read.Stable form)
    (hn : ∀ a, read.fromJson .null ≠ .ok a) : (held read form).Exchangeable :=
  held_eq_required hs hn ▸ h

theorem Parted.held {parts : String → Renewal} (h : (required read form).Parted parts)
    (hform : ∀ bag a, read.fromJson (.obj bag) = .ok a → form a ≠ .null) :
    (held read form).Parted parts :=
  fun bag _ => (held_some_iff (hform bag)).trans (@h bag _)

end Renewal

end SceneGraph

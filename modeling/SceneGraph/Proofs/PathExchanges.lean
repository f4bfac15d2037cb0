import SceneGraph.Proofs.Renewals

/-!
# Path exchanges: writes at paths that part may change places

Two writes can share steps that the first of them makes, and what is written into may be read and
written anew in between. Neither matters when the paths part somewhere: at every step both writes go
on below the same member or touch different ones.
-/
namespace SceneGraph

namespace Path
variable {p q : Path} {key key' : String}

/-- Neither path leads on from the other. -/
def Apart (p q : Path) : Prop := ¬ p <+: q ∧ ¬ q <+: p

theorem Apart.symm (h : p.Apart q) : q.Apart p := ⟨h.2, h.1⟩

theorem apart_cons_iff : Apart (key :: p) (key' :: q) ↔ key ≠ key' ∨ p.Apart q := by
  simp only [Apart, List.cons_prefix_cons]
  by_cases hk : key = key'
  · simp [hk]
  · simp [hk, Ne.symm hk]

theorem not_apart_nil : ¬ Apart [] q := fun h => h.1 List.nil_prefix

theorem Apart.exists_cons (h : p.Apart q) :
    ∃ key rest key' rest', p = key :: rest ∧ q = key' :: rest' := by
  cases p with
  | nil => exact absurd h not_apart_nil
  | cons key rest =>
    cases q with
    | nil => exact absurd h.symm not_apart_nil
    | cons key' rest' => exact ⟨key, rest, key', rest', rfl, rfl⟩

end Path

/-- What a write at a path below a member, present or not, makes of it. Missing objects are made on
the way, but not for a removal. -/
inductive Written (value : Option Json) : Path → Option Json → Option Json → Prop
  | here {x : Option Json} : Written value [] x value
  | step {bag : Bag} {key : String} {rest : Path} {m : Option Json}
      (below : Written value rest (bag.find? key) m) :
      Written value (key :: rest) (some (.obj bag)) (some (.obj (bag.assign [key] m)))
  | made {key : String} {rest : Path} {m : Option Json} (present : value ≠ none)
      (below : Written value rest none m) :
      Written value (key :: rest) none (some (.obj (Bag.assign .nil [key] m)))
  | absent {key : String} {rest : Path} (removal : value = none) :
      Written value (key :: rest) none none

section Written
variable {value m : Option Json} {key : String} {rest : Path} {bag out : Bag}

theorem written_obj_iff {y : Option Json} : Written value (key :: rest) (some (.obj bag)) y ↔
    ∃ m, Written value rest (bag.find? key) m ∧ y = some (.obj (bag.assign [key] m)) := by
  constructor
  · rintro ⟨⟩
    exact ⟨_, ‹_›, rfl⟩
  · rintro ⟨m, h, rfl⟩
    exact .step h

/-- Where nothing is there is nothing to remove. -/
theorem written_nothing_iff : Written none rest none m ↔ m = none := by
  constructor
  · intro h
    cases h with
    | here => rfl
    | made present => contradiction
    | absent => rfl
  · rintro rfl
    cases rest with
    | nil => exact .here
    | cons key rest => exact .absent rfl

theorem written_none_nil_iff :
    Written none (key :: rest) (some (.obj .nil)) m ↔ m = some (.obj .nil) := by
  simp [written_obj_iff, written_nothing_iff, Bag.assign, Ascending.erase]

/-- A value is written where nothing is as it is written into an empty object. -/
theorem written_none_iff (hv : value ≠ none) :
    Written value (key :: rest) none m ↔ Written value (key :: rest) (some (.obj .nil)) m := by
  rw [written_obj_iff]
  constructor
  · intro h
    cases h with
    | made _ below => exact ⟨_, below, rfl⟩
    | absent removal => contradiction
  · rintro ⟨m, h, rfl⟩
    exact .made hv h

end Written

namespace Bag
variable {bag out : Bag} {key : String} {rest : Path} {value m : Option Json}

private theorem putBelow_ok_iff : putBelow bag key value rest = .ok out ↔
    ∃ m, Written value rest (bag.find? key) m ∧ out = bag.assign [key] m := by
  induction rest generalizing bag key out with
  | nil =>
    have hhere : ∀ {x m}, Written value [] x m ↔ m = value :=
      ⟨fun h => by cases h; rfl, fun h => h ▸ .here⟩
    cases value <;> simp [putBelow, hhere, assign, eq_comm]
  | cons next rest ih =>
    cases hf : bag.find? key with
    | none =>
      cases value with
      | none =>
        simp [putBelow, hf, written_nothing_iff, assign, Ascending.erase_of_find?_none, eq_comm]
      | some v =>
        simp only [putBelow, hf, bind_ok_iff, pure_ok_iff, ih, Ascending.find?_nil,
          written_none_iff (Option.some_ne_none v), written_obj_iff]
        constructor
        · rintro ⟨_, ⟨m, hm, rfl⟩, rfl⟩
          exact ⟨_, ⟨m, hm, rfl⟩, rfl⟩
        · rintro ⟨_, ⟨m, hm, rfl⟩, rfl⟩
          exact ⟨_, ⟨m, hm, rfl⟩, rfl⟩
    | some j =>
      cases j with
      | obj inner =>
        simp only [putBelow, hf, bind_ok_iff, pure_ok_iff, ih, written_obj_iff]
        constructor
        · rintro ⟨_, ⟨m, hm, rfl⟩, rfl⟩
          exact ⟨_, ⟨m, hm, rfl⟩, rfl⟩
        · rintro ⟨_, ⟨m, hm, rfl⟩, rfl⟩
          exact ⟨_, ⟨m, hm, rfl⟩, rfl⟩
      | _ =>
        simp only [putBelow, hf, reduceCtorEq, false_iff, not_exists, not_and]
        intro m hm
        cases hm

/-- A write into a bag is a write below the member under its first key. -/
theorem put_ok_iff : put bag (key :: rest) value = .ok out ↔
    ∃ m, Written value rest (bag.find? key) m ∧ out = bag.assign [key] m := by
  rw [put, mapError_ok_iff, putBelow_ok_iff]

private theorem priorBelow_of_written (h : Written value rest (bag.find? key) m) :
    ∃ found, priorBelow bag key rest = .ok found := by
  induction rest generalizing bag key m with
  | nil => exact ⟨_, rfl⟩
  | cons next rest ih =>
    cases hf : bag.find? key with
    | none => exact ⟨⟨[key], none⟩, by simp only [priorBelow, hf]⟩
    | some j =>
      rw [hf] at h
      cases h with
      | step below =>
        obtain ⟨found, hfound⟩ := ih below
        exact ⟨{ found with path := key :: found.path }, by
          simp only [priorBelow, hf, hfound, Except.map]⟩

/-- Whatever a write replaces can be told. -/
theorem prior_of_put {path : Path} (h : put bag path value = .ok out) :
    ∃ found, bag.prior path = .ok found := by
  cases path with
  | nil => contradiction
  | cons key rest =>
    obtain ⟨m, hm, -⟩ := put_ok_iff.mp h
    obtain ⟨found, hfound⟩ := priorBelow_of_written hm
    exact ⟨found, mapError_ok_iff.mpr hfound⟩

end Bag

namespace Renewal
variable {r : Renewal} {parts : String → Renewal} {p q : Path} {v w x y z : Option Json}
  {key key' : String} {bag : Bag}

/-- A write below a member, and the renewal of what it makes. -/
def Revises (r : Renewal) (value : Option Json) (path : Path) (x y : Option Json) : Prop :=
  ∃ m, Written value path x m ∧ r m y

/-- There is at most one outcome, outcomes stay as they are, and where there may be nothing or an
object there may be an empty object. -/
structure Regular (r : Renewal) : Prop where
  functional : r.Functional
  settled : ∀ ⦃x y⦄, r x y → r y y
  empty : r none none → ∀ bag y, r (some (.obj bag)) y → r (some (.obj .nil)) (some (.obj .nil))

theorem Revises.settled (h : r.Revises v p x y) (hr : r.Regular) : r y y := by
  obtain ⟨m, -, hm⟩ := h
  exact hr.settled hm

/-- Where nothing is, a removal does nothing and a value is written as into an empty object. -/
theorem revises_none_iff (hv : v ≠ none) :
    r.Revises v (key :: p) none y ↔ r.Revises v (key :: p) (some (.obj .nil)) y := by
  simp only [Revises, written_none_iff hv]

theorem revises_nothing_iff : r.Revises none p none y ↔ r none y := by
  simp [Revises, written_nothing_iff]

theorem revises_none_nil_iff :
    r.Revises none (key :: p) (some (.obj .nil)) y ↔ r (some (.obj .nil)) y := by
  simp [Revises, written_none_nil_iff]

/-- What a value that is written where nothing is comes to shows that an empty object may be
there. -/
theorem Regular.empty_of_revises (hr : r.Regular) (hx : r none none) (hv : v ≠ none)
    (h : r.Revises v (key :: p) none y) : r (some (.obj .nil)) (some (.obj .nil)) := by
  obtain ⟨m, hm, hy⟩ := h
  cases hm with
  | made _ below => exact hr.empty hx _ _ hy
  | absent removal => contradiction

/-- A write at the path and one at another that is apart from it may change places. -/
def ExchangesAt (r : Renewal) (p : Path) : Prop :=
  ∀ ⦃q v w x y z⦄, p.Apart q → r x x → r.Revises v p x y → r.Revises w q y z →
    ∃ y', r.Revises w q x y' ∧ r.Revises v p y' z

structure Exchangeable (r : Renewal) : Prop extends Regular r where
  exchanges : ∀ p, r.ExchangesAt p

/-- Objects are renewed to objects, member by member and no matter how other members fare. -/
def Parted (r : Renewal) (parts : String → Renewal) : Prop :=
  ∀ ⦃bag : Bag⦄ ⦃y⦄, r (some (.obj bag)) y ↔
    ∃ out : Bag, y = some (.obj out) ∧ ∀ key, parts key (bag.find? key) (out.find? key)

section Parted
variable (h : r.Parted parts) (hr : r.Regular) (hp : ∀ key, (parts key).Regular)
include h hp

/-- A write below one member leaves the others alone. -/
private theorem revises_obj_iff (hx : r (some (.obj bag)) (some (.obj bag))) :
    r.Revises v (key :: p) (some (.obj bag)) y ↔ ∃ out : Bag, y = some (.obj out) ∧
      (parts key).Revises v p (bag.find? key) (out.find? key) ∧
        ∀ k, k ≠ key → out.find? k = bag.find? k := by
  obtain ⟨same, hs, hsame⟩ := h.mp hx
  obtain rfl : bag = same := by simpa using hs
  simp only [Revises, written_obj_iff]
  constructor
  · rintro ⟨_, ⟨m, hm, rfl⟩, hy⟩
    obtain ⟨out, rfl, hout⟩ := h.mp hy
    refine ⟨out, rfl, ⟨m, hm, ?_⟩, fun k hk => ?_⟩
    · simpa only [Bag.find?_assign_self] using hout key
    · have hother := hout k
      rw [Bag.find?_assign_of_ne bag hk] at hother
      exact (hp k).functional hother (hsame k)
  · rintro ⟨out, rfl, ⟨m, hm, hkey⟩, hother⟩
    refine ⟨_, ⟨m, hm, rfl⟩, h.mpr ⟨out, rfl, fun k => ?_⟩⟩
    by_cases hk : k = key
    · rwa [hk, Bag.find?_assign_self]
    · rw [Bag.find?_assign_of_ne bag hk, hother k hk]
      exact hsame k

include hr

private theorem exchange_obj (hkey : (parts key).ExchangesAt p)
    (hpq : Path.Apart (key :: p) (key' :: q)) (hx : r (some (.obj bag)) (some (.obj bag)))
    (hfirst : r.Revises v (key :: p) (some (.obj bag)) y)
    (hsecond : r.Revises w (key' :: q) y z) :
    ∃ y', r.Revises w (key' :: q) (some (.obj bag)) y' ∧ r.Revises v (key :: p) y' z := by
  have hy := hfirst.settled hr
  obtain ⟨out, rfl, hv, hout⟩ := (revises_obj_iff h hp hx).mp hfirst
  obtain ⟨last, rfl, hw, hlast⟩ := (revises_obj_iff h hp hy).mp hsecond
  -- What the member under the second key comes to when it is written first.
  obtain ⟨m, hm, hrest, hlater⟩ : ∃ m, (parts key').Revises w q (bag.find? key') m ∧
      (parts key).Revises v p ((bag.assign [key'] m).find? key) (last.find? key) ∧
        (key ≠ key' → last.find? key' = m) := by
    by_cases hk : key = key'
    · subst hk
      obtain ⟨same, hs, hsame⟩ := h.mp hx
      obtain rfl : bag = same := by simpa using hs
      obtain ⟨m, hm, hrest⟩ := hkey ((Path.apart_cons_iff.mp hpq).resolve_left (· rfl))
        (hsame key) hv hw
      exact ⟨m, hm, by rwa [Bag.find?_assign_self], fun hne => absurd rfl hne⟩
    · rw [hout key' (Ne.symm hk)] at hw
      rw [← hlast key hk] at hv
      exact ⟨_, hw, by rwa [Bag.find?_assign_of_ne bag hk], fun _ => rfl⟩
  have hback : r.Revises w (key' :: q) (some (.obj bag)) (some (.obj (bag.assign [key'] m))) :=
    (revises_obj_iff h hp hx).mpr
      ⟨_, rfl, by rwa [Bag.find?_assign_self], fun k hk => Bag.find?_assign_of_ne bag hk _ _⟩
  refine ⟨_, hback, (revises_obj_iff h hp (hback.settled hr)).mpr
    ⟨last, rfl, hrest, fun k hk => ?_⟩⟩
  by_cases hk' : k = key'
  · subst hk'
    rw [hlater (Ne.symm hk), Bag.find?_assign_self]
  · rw [hlast k hk', hout k hk, Bag.find?_assign_of_ne bag hk']

/-- Where nothing is, writes may change places as they may in an empty object: one that removes
something comes to nothing, whether it goes first or last. -/
private theorem exchange_none (hkey : (parts key).ExchangesAt p)
    (hpq : Path.Apart (key :: p) (key' :: q)) (hx : r none none)
    (hfirst : r.Revises v (key :: p) none y) (hsecond : r.Revises w (key' :: q) y z) :
    ∃ y', r.Revises w (key' :: q) none y' ∧ r.Revises v (key :: p) y' z := by
  by_cases hv : v = none
  · subst hv
    obtain rfl := hr.functional hx (revises_nothing_iff.mp hfirst)
    by_cases hw : w = none
    · subst hw
      exact ⟨none, revises_nothing_iff.mpr hx,
        revises_nothing_iff.mpr (revises_nothing_iff.mp hsecond)⟩
    · have hempty := hr.empty_of_revises hx hw hsecond
      obtain ⟨y', hback, hforth⟩ := exchange_obj h hr hp hkey hpq hempty
        (revises_none_nil_iff.mpr hempty) ((revises_none_iff hw).mp hsecond)
      exact ⟨y', (revises_none_iff hw).mpr hback, hforth⟩
  · have hempty := hr.empty_of_revises hx hv hfirst
    obtain ⟨y', hback, hforth⟩ := exchange_obj h hr hp hkey hpq hempty
      ((revises_none_iff hv).mp hfirst) hsecond
    by_cases hw : w = none
    · subst hw
      obtain rfl := hr.functional hempty (revises_none_nil_iff.mp hback)
      exact ⟨none, revises_nothing_iff.mpr hx, (revises_none_iff hv).mpr hforth⟩
    · exact ⟨y', (revises_none_iff hw).mpr hback, hforth⟩

theorem exchangesAt_cons (hkey : (parts key).ExchangesAt p) : r.ExchangesAt (key :: p) := by
  intro q v w x y z hpq hx hfirst hsecond
  obtain ⟨-, -, key', q, -, rfl⟩ := hpq.exists_cons
  have hstart := hfirst
  obtain ⟨m, hm, -⟩ := hfirst
  cases hm with
  | step => exact exchange_obj h hr hp hkey hpq hx hstart hsecond
  | made => exact exchange_none h hr hp hkey hpq hx hstart hsecond
  | absent => exact exchange_none h hr hp hkey hpq hx hstart hsecond

end Parted

theorem exchangesAt_nil (r : Renewal) : r.ExchangesAt [] :=
  fun _ _ _ _ _ _ hpq => absurd hpq Path.not_apart_nil

/-- Objects whose members may be written in any order may be written into in any order. -/
theorem Exchangeable.of_parted (hr : r.Regular) (h : r.Parted parts)
    (hp : ∀ key, (parts key).Exchangeable) : r.Exchangeable := by
  refine ⟨hr, fun p => ?_⟩
  cases p with
  | nil => exact exchangesAt_nil r
  | cons key p => exact exchangesAt_cons h hr (fun k => (hp k).toRegular) ((hp key).exchanges p)

/-- Where no object stays there is nothing to write into. -/
theorem Exchangeable.of_leaf (hr : r.Regular) (h : ∀ bag, ¬ r (some (.obj bag)) (some (.obj bag))) :
    r.Exchangeable := by
  refine ⟨hr, fun p q v w x y z hpq hx hfirst hsecond => ?_⟩
  obtain ⟨key, p, key', q, rfl, rfl⟩ := hpq.exists_cons
  cases x with
  | some j =>
    obtain ⟨m, hm, -⟩ := hfirst
    cases hm
    exact absurd hx (h _)
  | none =>
    have hremoval : ∀ {value key path y}, r.Revises value (key :: path) none y → value = none := by
      intro value key path y hy
      by_contra hv
      exact h _ (hr.empty_of_revises hx hv hy)
    obtain rfl := hremoval hfirst
    obtain rfl := hr.functional hx (revises_nothing_iff.mp hfirst)
    obtain rfl := hremoval hsecond
    exact ⟨none, revises_nothing_iff.mpr hx,
      revises_nothing_iff.mpr (revises_nothing_iff.mp hsecond)⟩

/-- What is not read at all is kept as it is. -/
def kept : Renewal := fun x y => x = y

theorem Parted.of_kept (h : ∀ (bag : Bag) y, r (some (.obj bag)) y ↔ y = some (.obj bag)) :
    r.Parted fun _ => kept := by
  intro bag y
  rw [h]
  constructor
  · rintro rfl
    exact ⟨bag, rfl, fun _ => rfl⟩
  · rintro ⟨out, rfl, hout⟩
    rw [show bag = out from Ascending.ext_find? hout]

theorem kept_exchangeable : kept.Exchangeable := by
  have hregular : kept.Regular :=
    ⟨fun _ _ _ h h' => h.symm.trans h', fun _ _ _ => rfl, fun _ _ _ _ => rfl⟩
  have hparted : kept.Parted fun _ => kept := .of_kept fun _ _ => eq_comm
  refine ⟨hregular, fun p => ?_⟩
  induction p with
  | nil => exact exchangesAt_nil kept
  | cons key p ih => exact exchangesAt_cons hparted hregular (fun _ => hregular) ih

/-- Objects that are kept as they are may be written into in any order. -/
theorem Exchangeable.of_kept (hr : r.Regular)
    (h : ∀ (bag : Bag) y, r (some (.obj bag)) y ↔ y = some (.obj bag)) : r.Exchangeable :=
  .of_parted hr (.of_kept h) fun _ => kept_exchangeable

end Renewal
end SceneGraph

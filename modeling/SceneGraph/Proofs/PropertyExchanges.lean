import Mathlib.Data.List.Pairwise
import SceneGraph.Proofs.ExchangeableForms
import SceneGraph.Proofs.Exchanges
import SceneGraph.Proofs.PropertyReversals

/-!
# Property exchanges: writes through the stored form of a part

A property is a part that is written as JSON and read back. Writes of one property meet in its
stored form, where their paths part.
-/
namespace SceneGraph
open Renewal

/-- A part that is written through its stored form. -/
structure Property (σ : Type) where
  Value : Type
  lens : Lens σ Value
  read : Reader Value
  form : Value → Json
  stable : read.Stable form
  exchangeable : (held read form).Exchangeable

/-- The value of the property is read back from its stored form. -/
def Property.Stored {σ : Type} (f : Property σ) (s : σ) : Prop :=
  f.read.fromJson (f.form (f.lens.get s)) = .ok (f.lens.get s)

namespace PropertyWrite
variable {α : Type} {read : Reader α} {bag written : Bag} {path rest : Path}
  {value : Option Json} {text key : String} {stored : Json} {a : α}

/-- A write that can be made can be told of. -/
theorem exists_inBag_iff :
    (∃ w, inBag bag path value = .ok (written, w)) ↔ bag.put path value = .ok written := by
  simp only [inBag, bind_ok_iff, pure_ok_iff, Prod.mk.injEq]
  constructor
  · rintro ⟨w, prior, -, put, hput, rfl, -⟩
    exact hput
  · intro hput
    obtain ⟨prior, hprior⟩ := Bag.prior_of_put hput
    exact ⟨_, prior, hprior, written, hput, rfl, rfl⟩

theorem exists_inField_iff : (∃ w, inField read stored text (key :: rest) value = .ok (a, w)) ↔
    ∃ m, Written value rest (unlessNull stored) m ∧ read.fromJson (m.getD .null) = .ok a := by
  have hfind : (holder key stored).find? key = unlessNull stored := by
    unfold holder unlessNull
    split <;> simp
  simp only [inField_ok_iff, List.headD_cons]
  rw [exists_comm]
  simp only [exists_and_right, exists_inBag_iff, Bag.put_ok_iff, hfind]
  constructor
  · rintro ⟨_, ⟨m, hm, rfl⟩, ha⟩
    exact ⟨m, hm, by rwa [Bag.find?_assign_self] at ha⟩
  · rintro ⟨m, hm, ha⟩
    exact ⟨_, ⟨m, hm, rfl⟩, by rwa [Bag.find?_assign_self]⟩

end PropertyWrite

namespace Property
variable {σ : Type} {f : Property σ} {v w : Option Json} {p q : Path} {x y : f.Value}

/-- What a write below the property makes of its value. -/
def Writes (f : Property σ) (value : Option Json) (rest : Path) (x y : f.Value) : Prop :=
  ∃ m, Written value rest (unlessNull (f.form x)) m ∧ f.read.fromJson (m.getD .null) = .ok y

theorem revises_of_writes (h : f.Writes v p x y) :
    (held f.read f.form).Revises v p (unlessNull (f.form x)) (unlessNull (f.form y)) := by
  obtain ⟨m, hm, hy⟩ := h
  exact ⟨m, hm, y, hy, rfl⟩

/-- Values that are read from something are told apart by their forms. -/
theorem writes_of_revises {j : Json} (hj : f.read.fromJson j = .ok y)
    (h : (held f.read f.form).Revises v p (unlessNull (f.form x)) (unlessNull (f.form y))) :
    f.Writes v p x y := by
  obtain ⟨m, hm, y', hy', he⟩ := h
  have hform : f.form y = f.form y' := by
    rw [← unlessNull_getD (f.form y), he, unlessNull_getD]
  obtain rfl : y = y' := Except.ok.inj ((f.stable hj).symm.trans (hform ▸ f.stable hy'))
  exact ⟨m, hm, hy'⟩

private theorem writes_swap (hx : f.read.fromJson (f.form x) = .ok x) (hpq : p.Apart q)
    (h : Relation.Comp (f.Writes v p) (f.Writes w q) x y) :
    Relation.Comp (f.Writes w q) (f.Writes v p) x y := by
  obtain ⟨z, hz, hy⟩ := h
  have hhere : held f.read f.form (unlessNull (f.form x)) (unlessNull (f.form x)) :=
    ⟨x, (unlessNull_getD (f.form x)).symm ▸ hx, rfl⟩
  obtain ⟨_, ⟨m, hm, z', hz', rfl⟩, hback⟩ := f.exchangeable.exchanges p hpq hhere
    (revises_of_writes hz) (revises_of_writes hy)
  obtain ⟨_, -, hread⟩ := hy
  exact ⟨z', ⟨m, hm, hz'⟩, writes_of_revises hread hback⟩

/-- Writes at paths that part may change places. -/
theorem exchange_writes (hx : f.read.fromJson (f.form x) = .ok x) (hpq : p.Apart q) :
    Exchange (f.Writes v p) (f.Writes w q) x :=
  fun _ => ⟨writes_swap hx hpq, writes_swap hx hpq.symm⟩

/-- A write below the property, in the whole that it is part of. -/
def Changes (f : Property σ) (value : Option Json) (rest : Path) : σ → σ → Prop :=
  f.lens.Lift (f.Writes value rest)

/-- Writes of properties that are the same and part further down, or are different, may change
places. -/
theorem exchange_changes {s : σ} {property : String → Property σ} {key key' : String}
    (hs : (property key).Stored s)
    (hk : key ≠ key' → (property key).lens.Apart (property key').lens)
    (hpq : Path.Apart (key :: p) (key' :: q)) :
    Exchange ((property key).Changes v p) ((property key').Changes w q) s := by
  by_cases he : key = key'
  · subst he
    have hrest := (Path.apart_cons_iff.mp hpq).resolve_left (· rfl)
    exact Lens.exchange _ (exchange_writes hs hrest)
  · exact (hk he).exchange

theorem exists_write_iff {s s' : σ} {text key : String} :
    (∃ w, (PropertyWrite.inField f.read (f.form (f.lens.get s)) text (key :: p) v >>=
      fun r => pure (f.lens.set s r.1, r.2)) = .ok (s', w)) ↔ f.Changes v p s s' := by
  simp only [bind_ok_iff, pure_ok_iff, Prod.exists, Prod.mk.injEq, Changes, Lens.Lift, Writes]
  constructor
  · rintro ⟨w, a, _, hw, rfl, rfl⟩
    exact ⟨a, PropertyWrite.exists_inField_iff.mp ⟨_, hw⟩, rfl⟩
  · rintro ⟨a, ha, rfl⟩
    obtain ⟨w, hw⟩ := PropertyWrite.exists_inField_iff.mpr ha
    exact ⟨w, a, w, hw, rfl, rfl⟩

end Property

namespace Path

/-- The steps that a text spells, whether or not one may take them. -/
def steps (text : String) : Path := (segments '.' text.toList).map String.ofList

theorem exists_steps (text : String) : ∃ key rest, steps text = key :: rest :=
  List.exists_cons_of_ne_nil (by simp [steps, segments_ne_nil])

theorem eq_steps {text : String} {path : Path} (h : ofText text = .ok path) :
    path = steps text := by
  simp only [ofText] at h
  split at h
  · contradiction
  · split at h
    · contradiction
    · exact (Except.ok.inj h).symm

end Path

namespace Property
variable {σ : Type} {property : String → Property σ} {removable? : Path → Option Bool}
  {text text' : String} {v w : Option Json} {s s' : σ}

/-- A write at a path that leads somewhere, into the property that the path starts with. -/
def Sets (property : String → Property σ) (removable? : Path → Option Bool) (text : String)
    (value : Option Json) (s s' : σ) : Prop :=
  PropertyWrite.address removable? text value = .ok (Path.steps text) ∧
    (property ((Path.steps text).headD "")).Changes value (Path.steps text).tail s s'

/-- A write is what its address and its field make it. -/
theorem exists_set_iff {write : Path → Except OpError (σ × PropertyWrite)}
    (hwrite : ∀ key rest, (∃ w, write (key :: rest) = .ok (s', w)) ↔
      (property key).Changes v rest s s') :
    (∃ w, (PropertyWrite.address removable? text v >>= write) = .ok (s', w)) ↔
      Sets property removable? text v s s' := by
  obtain ⟨key, rest, hsteps⟩ := Path.exists_steps text
  simp only [bind_ok_iff, Sets, hsteps, List.headD_cons, List.tail_cons, ← hwrite]
  constructor
  · rintro ⟨w, path, hpath, hw⟩
    obtain rfl : path = key :: rest :=
      (Path.eq_steps (PropertyWrite.address_ok_iff.mp hpath).1).trans hsteps
    exact ⟨hpath, w, hw⟩
  · rintro ⟨hpath, w, hw⟩
    exact ⟨w, _, hpath, hw⟩

/-- Writes at paths that part may change places wherever different properties are different
parts. -/
theorem exchange_sets {roots : List String} (hs : ∀ key, (property key).Stored s)
    (hroots : ∀ key rest, (removable? (key :: rest)).isSome → key ∈ roots)
    (hparts : roots.Pairwise fun key key' => (property key).lens.Apart (property key').lens)
    (h : (Path.steps text).Apart (Path.steps text')) :
    Exchange (Sets property removable? text v) (Sets property removable? text' w) s := by
  obtain ⟨key, rest, hsteps⟩ := Path.exists_steps text
  obtain ⟨key', rest', hsteps'⟩ := Path.exists_steps text'
  have hroot : ∀ {text v key rest},
      PropertyWrite.address removable? text v = .ok (key :: rest) → key ∈ roots := by
    intro text v key rest ha
    obtain ⟨-, r, hr, -⟩ := PropertyWrite.address_ok_iff.mp ha
    exact hroots key rest (Option.isSome_of_mem hr)
  have : Std.Symm fun key key' => (property key).lens.Apart (property key').lens :=
    ⟨fun _ _ hapart => hapart.symm⟩
  refine .guard fun ha ha' => ?_
  simp only [hsteps, hsteps', List.headD_cons, List.tail_cons] at h ha ha' ⊢
  exact exchange_changes (hs key) (hparts.forall (hroot ha) (hroot ha')) h

end Property

end SceneGraph

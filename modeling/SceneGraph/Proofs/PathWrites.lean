import SceneGraph.Proofs.PathExchanges

/-!
# Path writes: found again, confined to their path, and taken back

Reading, telling the prior state and writing each walk down a path in their own way. They stop at
the same obstacles, and a write meets them before it has changed anything.
-/
namespace SceneGraph

/-- What stands at a path below a member, present or not. -/
def Json.at? : Option Json → Path → Option Json
  | x, [] => x
  | some (.obj members), key :: path => at? (members.find? key) path
  | _, _ :: _ => none

@[simp] theorem Json.at?_none (path : Path) : at? none path = none := by
  cases path <;> rfl

namespace Bag
variable {bag : Bag} {key next segment : String} {path rest q : Path} {value : Option Json}

theorem get?_cons (bag : Bag) (key : String) (path : Path) :
    get? bag (key :: path) = Json.at? (bag.find? key) path := by
  induction path generalizing bag key with
  | nil => rfl
  | cons next path ih =>
    cases hf : bag.find? key with
    | none => simp [get?, hf]
    | some j => cases j <;> simp [get?, hf, Json.at?, ih]

@[simp] theorem get?_empty (path : Path) : get? .nil path = none := by
  cases path with
  | nil => rfl
  | cons key path => simp [get?_cons]

/-- Below a member there is something only when the member is an object. -/
theorem at?_eq_some_iff {x : Option Json} {j : Json} (hp : path ≠ []) :
    Json.at? x path = some j ↔ ∃ inner, x = some (.obj inner) ∧ get? inner path = some j := by
  obtain ⟨key, path, rfl⟩ := List.exists_cons_of_ne_nil hp
  cases x with
  | none => simp
  | some found => cases found <;> simp [Json.at?, get?_cons]

/-- A segment of the path that is not its last leads to something that is no object. -/
def Obstructed (bag : Bag) (path : Path) (segment : String) : Prop :=
  ∃ front rest j, path = front ++ segment :: rest ∧ rest ≠ [] ∧
    get? bag (front ++ [segment]) = some j ∧ j.asObject? = none

theorem not_obstructed_last : ¬ bag.Obstructed [key] segment := by
  rintro ⟨front, rest, -, hpath, hrest, -⟩
  cases front with
  | nil => exact hrest (List.cons.inj hpath).2.symm
  | cons => simp at hpath

theorem not_obstructed_empty : ¬ Obstructed .nil path segment := by
  rintro ⟨front, rest, j, -, -, hj, -⟩
  simp at hj

theorem obstructed_cons_iff : bag.Obstructed (key :: next :: rest) segment ↔
    (segment = key ∧ ∃ j, bag.find? key = some j ∧ j.asObject? = none) ∨
      ∃ inner, bag.find? key = some (.obj inner) ∧ Obstructed inner (next :: rest) segment := by
  constructor
  · rintro ⟨front, back, j, hpath, hback, hj, hscalar⟩
    cases front with
    | nil =>
      obtain ⟨rfl, -⟩ := List.cons.inj hpath
      exact .inl ⟨rfl, j, hj, hscalar⟩
    | cons first front =>
      obtain ⟨rfl, htail⟩ := List.cons.inj hpath
      rw [List.cons_append, get?_cons, at?_eq_some_iff (by simp)] at hj
      obtain ⟨inner, hinner, hj⟩ := hj
      exact .inr ⟨inner, hinner, front, back, j, htail, hback, hj, hscalar⟩
  · rintro (⟨rfl, j, hj, hscalar⟩ | ⟨inner, hinner, front, back, j, hpath, hback, hj, hscalar⟩)
    · exact ⟨[], next :: rest, j, rfl, by simp, hj, hscalar⟩
    · refine ⟨key :: front, back, j, congrArg (key :: ·) hpath, hback, ?_, hscalar⟩
      rw [List.cons_append, get?_cons, at?_eq_some_iff (by simp)]
      exact ⟨inner, hinner, hj⟩

theorem priorBelow_error_iff :
    priorBelow bag key rest = .error segment ↔ bag.Obstructed (key :: rest) segment := by
  induction rest generalizing bag key with
  | nil => simp [priorBelow, not_obstructed_last]
  | cons next rest ih =>
    rw [obstructed_cons_iff]
    cases hf : bag.find? key with
    | none => simp [priorBelow, hf]
    | some j =>
      cases j with
      | obj inner => simp [priorBelow, hf, map_error_iff, ih, Json.asObject?]
      | _ => simp [priorBelow, hf, Json.asObject?, eq_comm]

theorem putBelow_error_iff :
    putBelow bag key value rest = .error segment ↔ bag.Obstructed (key :: rest) segment := by
  have hstep : ∀ {below : Except String Bag} {f : Bag → Bag},
      (below >>= fun inner => pure (f inner)) = .error segment ↔ below = .error segment := by
    intro below f
    cases below <;> simp [bind, Except.bind, pure, Except.pure]
  induction rest generalizing bag key with
  | nil => cases value <;> simp [putBelow, not_obstructed_last]
  | cons next rest ih =>
    rw [obstructed_cons_iff]
    cases hf : bag.find? key with
    | none =>
      cases value with
      | none => simp [putBelow, hf]
      | some v =>
        simp only [putBelow, hf, hstep, ih, not_obstructed_empty]
        simp
    | some j =>
      cases j with
      | obj inner =>
        simp only [putBelow, hf, hstep, ih]
        simp [Json.asObject?]
      | _ => simp [putBelow, hf, Json.asObject?, eq_comm]

/-- What keeps a walk from the end of a path. -/
inductive Stops (bag : Bag) (path : Path) : PathError → Prop
  | nowhere (h : path = []) : Stops bag path .empty
  | obstacle {segment : String} (h : bag.Obstructed path segment) :
    Stops bag path (.notAnObject path.dotted segment)

theorem stops_nil_iff {error : PathError} : bag.Stops [] error ↔ .empty = error := by
  constructor
  · rintro (- | ⟨front, rest, -, hpath, -⟩)
    · rfl
    · simp at hpath
  · rintro rfl
    exact .nowhere rfl

theorem stops_cons_iff {error : PathError} : bag.Stops (key :: rest) error ↔
    ∃ segment, bag.Obstructed (key :: rest) segment ∧
      PathError.notAnObject (Path.dotted (key :: rest)) segment = error := by
  constructor
  · rintro (h | h)
    · contradiction
    · exact ⟨_, h, rfl⟩
  · rintro ⟨segment, h, rfl⟩
    exact .obstacle h

private theorem mapError_error_iff {ε δ α : Type} {x : Except ε α} {f : ε → δ} {error : δ} :
    x.mapError f = .error error ↔ ∃ cause, x = .error cause ∧ f cause = error := by
  cases x <;> simp [Except.mapError]

theorem prior_error_iff {error : PathError} :
    bag.prior path = .error error ↔ bag.Stops path error := by
  cases path with
  | nil => simp only [prior, Except.error.injEq, stops_nil_iff]
  | cons key rest =>
    simp only [prior, mapError_error_iff, priorBelow_error_iff, stops_cons_iff]

theorem put_error_iff {error : PathError} :
    bag.put path value = .error error ↔ bag.Stops path error := by
  cases path with
  | nil => simp only [put, Except.error.injEq, stops_nil_iff]
  | cons key rest => simp only [put, mapError_error_iff, putBelow_error_iff, stops_cons_iff]

/-- A write that changes the bag as it goes: what it leaves, and what stops it. An object that is
missing is made as soon as the walk comes to it. -/
def writeBelow (bag : Bag) (key : String) (value : Option Json) : Path → Bag × Except String Unit
  | [] => (bag.assign [key] value, .ok ())
  | next :: path =>
    if value.isNone && !bag.contains key then (bag, .ok ())
    else
      let entered := if bag.contains key then bag else Dict.insert bag key (.obj .nil)
      match entered.find? key with
      | some (.obj inner) =>
        let (left, outcome) := writeBelow inner next value path
        (Dict.insert entered key (.obj left), outcome)
      | _ => (entered, .error key)

def write (bag : Bag) (path : Path) (value : Option Json) : Bag × Except PathError Unit :=
  match path with
  | [] => (bag, .error .empty)
  | key :: rest =>
    let (left, outcome) := writeBelow bag key value rest
    (left, outcome.mapError (.notAnObject path.dotted))

private theorem writeBelow_eq : writeBelow bag key value rest =
    match putBelow bag key value rest with
    | .ok written => (written, .ok ())
    | .error segment => (bag, .error segment) := by
  induction rest generalizing bag key with
  | nil => cases value <;> rfl
  | cons next rest ih =>
    cases hf : bag.find? key with
    | none =>
      have hmissing : bag.contains key = false := Ascending.not_contains_iff.mpr hf
      cases value with
      | none => simp [writeBelow, putBelow, hf, hmissing]
      | some v =>
        -- nothing is in the way in an object that has just been made
        obtain ⟨made, hmade⟩ : ∃ made, putBelow .nil next (some v) rest = .ok made := by
          cases h : putBelow .nil next (some v) rest with
          | ok made => exact ⟨made, rfl⟩
          | error segment => exact absurd (putBelow_error_iff.mp h) not_obstructed_empty
        simp [writeBelow, putBelow, hf, hmissing, ih, hmade]
    | some j =>
      have hthere : bag.contains key = true := Ascending.contains_iff.mpr ⟨j, hf⟩
      cases j with
      | obj inner =>
        cases h : putBelow inner next value rest with
        | ok below => simp [writeBelow, putBelow, hf, hthere, ih, h]
        | error segment => simp [writeBelow, putBelow, hf, hthere, ih, h, Dict.insert_of_find? hf]
      | _ => simp [writeBelow, putBelow, hf, hthere]

/-- A write that is stopped is stopped before it has changed anything. -/
theorem write_eq (bag : Bag) (path : Path) (value : Option Json) : bag.write path value =
    match bag.put path value with
    | .ok written => (written, .ok ())
    | .error error => (bag, .error error) := by
  cases path with
  | nil => rfl
  | cons key rest =>
    simp only [write, put, writeBelow_eq]
    cases putBelow bag key value rest <;> rfl

theorem at?_of_written {x m : Option Json} (h : Written value path x m) :
    Json.at? m path = value := by
  induction h with
  | here => rfl
  | step _ ih => rwa [Json.at?, find?_assign_self]
  | made _ _ ih => rwa [Json.at?, find?_assign_self]
  | absent removal => exact removal.symm

theorem at?_of_written_apart {x m : Option Json} (h : Written value path x m)
    (hq : path.Apart q) : Json.at? m q = Json.at? x q := by
  induction h generalizing q with
  | here => exact absurd hq Path.not_apart_nil
  | @step bag key rest m _ ih =>
    obtain ⟨-, -, key', q, -, rfl⟩ := hq.exists_cons
    simp only [Json.at?]
    by_cases hk : key' = key
    · subst hk
      rw [find?_assign_self, ih ((Path.apart_cons_iff.mp hq).resolve_left (· rfl))]
    · rw [find?_assign_of_ne bag hk]
  | @made key rest m _ _ ih =>
    obtain ⟨-, -, key', q, -, rfl⟩ := hq.exists_cons
    simp only [Json.at?]
    by_cases hk : key' = key
    · subst hk
      rw [find?_assign_self, ih ((Path.apart_cons_iff.mp hq).resolve_left (· rfl)), Json.at?_none]
    · rw [find?_assign_of_ne .nil hk, Ascending.find?_nil, Json.at?_none]
  | absent => rfl

variable {written : Bag}

theorem get?_put (h : bag.put path value = .ok written) : get? written path = value := by
  cases path with
  | nil => contradiction
  | cons key rest =>
    obtain ⟨m, hm, rfl⟩ := put_ok_iff.mp h
    rw [get?_cons, find?_assign_self, at?_of_written hm]

theorem get?_put_of_apart (h : bag.put path value = .ok written) (hq : path.Apart q) :
    get? written q = get? bag q := by
  obtain ⟨key, rest, key', q, rfl, rfl⟩ := hq.exists_cons
  obtain ⟨m, hm, rfl⟩ := put_ok_iff.mp h
  rw [get?_cons, get?_cons]
  by_cases hk : key' = key
  · subst hk
    rw [find?_assign_self,
      at?_of_written_apart hm ((Path.apart_cons_iff.mp hq).resolve_left (· rfl))]
  · rw [find?_assign_of_ne bag hk]

/-- Writing back what a write has replaced, where it has replaced it, restores the bag. -/
theorem put_prior {found : Prior} (hp : bag.prior path = .ok found)
    (h : bag.put path value = .ok written) : written.put found.path found.value = .ok bag := by
  obtain ⟨ho, hv, -⟩ := open_of_prior hp
  obtain ⟨x, hx⟩ := put_of_prior hp value
  obtain rfl : bag.assign found.path x = written := Except.ok.inj (hx.symm.trans h)
  rw [put_of_open (ho.assign x), assign_assign ho, hv, assign_get? ho]

/-- Whatever a bag holds, a write at a path comes to one of two ends. Either something stops it, and
then telling the prior state is stopped alike and the bag is left as it was. Or nothing does: then
the value is found at the path, and nothing where it has been removed; what stands apart from the
path is as before; and writing back the prior state restores the bag. -/
theorem write_stopped_or_undoable (bag : Bag) (path : Path) (value : Option Json) :
    (∃ error, bag.Stops path error ∧ bag.prior path = .error error ∧
      bag.put path value = .error error ∧ bag.write path value = (bag, .error error)) ∨
    ((∀ error, ¬ bag.Stops path error) ∧ ∃ found written, bag.prior path = .ok found ∧
      bag.put path value = .ok written ∧ bag.write path value = (written, .ok ()) ∧
      get? written path = value ∧ (∀ q, path.Apart q → get? written q = get? bag q) ∧
      written.put found.path found.value = .ok bag) := by
  cases h : bag.put path value with
  | error error =>
    have hstops := put_error_iff.mp h
    exact .inl ⟨error, hstops, prior_error_iff.mpr hstops, rfl, by rw [write_eq, h]⟩
  | ok written =>
    obtain ⟨found, hp⟩ := prior_of_put h
    refine .inr ⟨fun error hstops => ?_, found, written, hp, rfl, by rw [write_eq, h],
      get?_put h, fun q hq => get?_put_of_apart h hq, put_prior hp h⟩
    rw [put_error_iff.mpr hstops] at h
    contradiction

end Bag
end SceneGraph

import SceneGraph.EditEngine
import SceneGraph.Proofs.EditTraces

/-!
# Engine traces: operations are accepted exactly when their edits are, one after the other

Operations without their envelopes and batches are a row of edits. An operation is accepted exactly
when its row is and no envelope is of a later version, and its inverse holds the row that leads
back. This is shown for any way of undoing, which accepted operations never use.
-/
namespace SceneGraph

namespace Op

/-- The edits of operations without their envelopes. -/
def stepsOf (ops : List Op) : List Edit := (editsOf ops).map (·.2)

def steps (op : Op) : List Edit := op.edits.map (·.2)

mutual
/-- No envelope of the operation is of a later version. -/
def UpToDate : Op → Prop
  | .edit envelope _ => envelope.version ≤ currentOpVersion
  | .batch envelope ops => envelope.version ≤ currentOpVersion ∧ UpToDateAll ops

def UpToDateAll : List Op → Prop
  | [] => True
  | op :: ops => UpToDate op ∧ UpToDateAll ops
end

@[simp] theorem steps_edit (envelope : Envelope) (e : Edit) : (Op.edit envelope e).steps = [e] := rfl

@[simp] theorem steps_batch (envelope : Envelope) (ops : List Op) :
    (Op.batch envelope ops).steps = stepsOf ops := rfl

@[simp] theorem stepsOf_nil : stepsOf [] = [] := rfl

@[simp] theorem stepsOf_cons (op : Op) (ops : List Op) :
    stepsOf (op :: ops) = op.steps ++ stepsOf ops := by
  simp [stepsOf, steps, editsOf]

@[simp] theorem stepsOf_append (ops ops' : List Op) :
    stepsOf (ops ++ ops') = stepsOf ops ++ stepsOf ops' := by
  induction ops with
  | nil => rfl
  | cons op ops ih => simp [ih]

@[simp] theorem upToDateAll_append (ops ops' : List Op) :
    UpToDateAll (ops ++ ops') ↔ UpToDateAll ops ∧ UpToDateAll ops' := by
  induction ops with
  | nil => simp [UpToDateAll]
  | cons op ops ih => simp [UpToDateAll, ih, and_assoc]

end Op

namespace Applied
variable (a : Applied) (envelope : Envelope) (stamps : Stamps)

private theorem steps_mapIdx (edits : List Edit) (f : Nat → Envelope) :
    Op.stepsOf (edits.mapIdx fun i e => .edit (f i) e) = edits := by
  induction edits generalizing f with
  | nil => rfl
  | cons e edits ih => simp [List.mapIdx_cons, ih]

private theorem upToDate_mapIdx (edits : List Edit) {f : Nat → Envelope}
    (hf : ∀ i, (f i).version = currentOpVersion) :
    Op.UpToDateAll (edits.mapIdx fun i e => .edit (f i) e) := by
  induction edits generalizing f with
  | nil => trivial
  | cons e edits ih =>
    rw [List.mapIdx_cons]
    exact ⟨Nat.le_of_eq (hf 0), ih fun i => hf (i + 1)⟩

@[simp] theorem steps_inverseOp : (a.inverseOp envelope stamps).steps = a.inverse :: a.sequel := by
  unfold inverseOp
  split
  · rename_i h
    simp [List.isEmpty_iff.mp h]
  · exact steps_mapIdx (a.inverse :: a.sequel) _

theorem upToDate_inverseOp : (a.inverseOp envelope stamps).UpToDate := by
  unfold inverseOp
  split
  · exact Nat.le_refl _
  · exact ⟨Nat.le_refl _, upToDate_mapIdx (a.inverse :: a.sequel) fun _ => rfl⟩

end Applied

namespace Engine
variable {undo : Applier} {registry : Option Registry}

/-- An operation with a single edit is accepted when the edit is, and does what it does. -/
theorem applyUndoing_edit_ok_iff {envelope : Envelope} {stamps : Stamps} {d d' : Document}
    {e : Edit} {inverse : Op} {rollbacks : List Rollback} :
    applyUndoing undo registry stamps d (.edit envelope e) = ⟨d', .ok inverse, rollbacks⟩ ↔
      envelope.version ≤ currentOpVersion ∧ ∃ a, e.apply registry d = .ok a ∧
        d' = a.document ∧ inverse = a.inverseOp envelope stamps ∧ rollbacks = [] := by
  rw [applyUndoing]
  by_cases hv : currentOpVersion < envelope.version
  · simp [Outcome.reject, hv]
  · rw [if_neg hv]
    cases ha : e.apply registry d with
    | error error => simp [Outcome.reject]
    | ok a => simp [Nat.not_lt.mp hv, eq_comm]

theorem applyUndoing_edit_rejected {envelope : Envelope} {stamps : Stamps} {d : Document}
    {e : Edit} {error : OpError} (hv : envelope.version ≤ currentOpVersion)
    (h : e.apply registry d = .error error) :
    applyUndoing undo registry stamps d (.edit envelope e) = .reject d error := by
  rw [applyUndoing, if_neg (Nat.not_lt.mpr hv), h]

mutual
/-- Where the edits of an operation are accepted in a row, the operation is accepted, and what takes
it back holds the edits that take the row back. -/
theorem applyUndoing_of_row (stamps : Stamps) {d d' : Document} {back : List Edit} :
    (op : Op) → op.UpToDate → Edit.applyRow registry d op.steps = .ok (d', back) →
    ∃ inverse : Op, applyUndoing undo registry stamps d op = ⟨d', .ok inverse, []⟩ ∧
      inverse.steps = back ∧ inverse.UpToDate
  | .edit envelope e => fun hu h => by
    rw [Op.steps_edit, Edit.applyRow_single] at h
    obtain ⟨a, ha, hrow⟩ := map_ok_iff.mp h
    obtain ⟨rfl, rfl⟩ := Prod.mk.inj hrow
    exact ⟨a.inverseOp envelope stamps, applyUndoing_edit_ok_iff.mpr ⟨hu, a, ha, rfl, rfl, rfl⟩,
      a.steps_inverseOp _ _, a.upToDate_inverseOp _ _⟩
  | .batch envelope ops => fun hu h => by
    obtain ⟨later, hl, hs, hv⟩ := applyFrom_of_row stamps 0 [] ops hu.2 h
    refine ⟨.batch (envelope.derive stamps.here) later, ?_, hs, Nat.le_refl _, hv⟩
    rw [applyUndoing, if_neg (Nat.not_lt.mpr hu.1), hl, List.append_nil]
    rfl

theorem applyFrom_of_row (stamps : Stamps) {d d' : Document} {back : List Edit} (index : Nat)
    (inverses : List Op) : (ops : List Op) → Op.UpToDateAll ops →
    Edit.applyRow registry d (Op.stepsOf ops) = .ok (d', back) →
    ∃ later, applyFrom undo registry stamps d index inverses ops =
        ⟨d', .ok (later ++ inverses), []⟩ ∧ Op.stepsOf later = back ∧ Op.UpToDateAll later
  | [] => fun _ h => by
    obtain ⟨rfl, rfl⟩ := Prod.mk.inj (Except.ok.inj h)
    exact ⟨[], by rw [applyFrom]; rfl, rfl, trivial⟩
  | op :: ops => fun hu h => by
    rw [Op.stepsOf_cons] at h
    obtain ⟨d₁, before, after, hfirst, hrest, rfl⟩ := Edit.applyRow_append_ok_iff.mp h
    obtain ⟨inverse, hi, hs, hv⟩ := applyUndoing_of_row (stamps.below index) op hu.1 hfirst
    obtain ⟨later, hl, hsl, hvl⟩ :=
      applyFrom_of_row stamps (index + 1) (inverse :: inverses) ops hu.2 hrest
    refine ⟨later ++ [inverse], ?_, by simp [hs, hsl], by simp [Op.UpToDateAll, hv, hvl]⟩
    rw [applyFrom, hi]
    simp [hl, Outcome.after]
end

section Inverses
variable {envelope : Envelope} {stamps undoStamps : Stamps} {d d' : Document} {a : Applied}

/-- What takes an edit back is accepted when its first edit is and the others form a trace. -/
theorem inverseOp_accepted {b : Applied} {forth : List Edit}
    (hb : a.inverse.apply registry d = .ok b) (ht : Trace registry b.document a.sequel d' forth) :
    ∃ again, applyUndoing undo registry undoStamps d (a.inverseOp envelope stamps) =
      ⟨d', .ok again, []⟩ := by
  unfold Applied.inverseOp
  split
  · rename_i hs
    rw [List.isEmpty_iff.mp hs] at ht
    cases ht
    exact ⟨_, applyUndoing_edit_ok_iff.mpr ⟨Nat.le_refl _, b, hb, rfl, rfl, rfl⟩⟩
  · have hfirst : applyUndoing undo registry (undoStamps.below 0) d
        (.edit (envelope.derive (stamps.below 0).here) a.inverse) = ⟨b.document, .ok _, []⟩ :=
      applyUndoing_edit_ok_iff.mpr ⟨Nat.le_refl _, b, hb, rfl, rfl, rfl⟩
    have hv : ¬ currentOpVersion < (envelope.derive stamps.here).version := Nat.lt_irrefl _
    rw [List.mapIdx_cons, applyUndoing, if_neg hv, applyFrom, hfirst]
    let sequel : List Op := a.sequel.mapIdx fun i e =>
      .edit (envelope.derive (stamps.below (i + 1)).here) e
    have hrow : Edit.applyRow registry b.document (Op.stepsOf sequel) = .ok (d', forth) := by
      rw [Applied.steps_mapIdx]
      exact ht.row
    obtain ⟨later, hl, -⟩ := @applyFrom_of_row undo registry undoStamps _ _ _ 1 [_] sequel
      (Applied.upToDate_mapIdx _ fun _ => rfl) hrow
    exact ⟨_, by simp only [Nat.zero_add, sequel] at hl ⊢; rw [hl]; rfl⟩

/-- Where the first edit is rejected nothing happens, and that is the cause. -/
theorem inverseOp_rejected {error : OpError} (h : a.inverse.apply registry d = .error error) :
    ∃ lost, applyUndoing undo registry undoStamps d (a.inverseOp envelope stamps) =
      .reject d lost ∧ lost.rootCause = error.rootCause := by
  unfold Applied.inverseOp
  split
  · exact ⟨error, applyUndoing_edit_rejected (Nat.le_refl _) h, rfl⟩
  · have hfirst : applyUndoing undo registry (undoStamps.below 0) d
        (.edit (envelope.derive (stamps.below 0).here) a.inverse) = .reject d error :=
      applyUndoing_edit_rejected (Nat.le_refl _) h
    refine ⟨.batchFailed 0 a.inverse.typeName error, ?_, rfl⟩
    have hv : ¬ currentOpVersion < (envelope.derive stamps.here).version := Nat.lt_irrefl _
    rw [List.mapIdx_cons, applyUndoing, if_neg hv, applyFrom, hfirst]
    rfl

end Inverses

/-- Whatever comes of undoing, the operations stay rejected. -/
theorem undoAll_rejects (stamps : Stamps) (cause : OpError) {d : Document} {result : List Op}
    (inverses : List Op) : (undoAll undo stamps cause d inverses).result ≠ .ok result := by
  induction inverses generalizing d with
  | nil => exact nofun
  | cons inverse earlier ih =>
    rw [undoAll]
    split
    · exact ih
    · exact nofun

/-- Where the edits of the inverses are accepted in a row, undoing follows them. -/
theorem undoAll_of_row (stamps : Stamps) (cause : OpError) {d d' : Document} {inverses : List Op}
    {forth : List Edit} (h : Edit.applyRow none d (Op.stepsOf inverses) = .ok (d', forth))
    (hu : Op.UpToDateAll inverses) :
    undoAll (applyUndoing undo none) stamps cause d inverses = ⟨d', .error cause, []⟩ := by
  induction inverses generalizing d forth with
  | nil =>
    obtain ⟨rfl, -⟩ := Prod.mk.inj (Except.ok.inj h)
    rfl
  | cons inverse earlier ih =>
    rw [Op.stepsOf_cons] at h
    obtain ⟨d₁, _, _, hfirst, hrest, -⟩ := Edit.applyRow_append_ok_iff.mp h
    obtain ⟨again, ha, -⟩ := @applyUndoing_of_row undo none stamps _ _ _ inverse hu.1 hfirst
    simp only [undoAll, ha, ih hrest hu.2]
    rfl

mutual
/-- The edits of an accepted operation are accepted in a row. -/
theorem row_of_applyUndoing (stamps : Stamps) {d : Document} {inverse : Op} :
    (op : Op) → (applyUndoing undo registry stamps d op).result = .ok inverse →
    Edit.applyRow registry d op.steps =
        .ok ((applyUndoing undo registry stamps d op).document, inverse.steps) ∧
      op.UpToDate ∧ inverse.UpToDate
  | .edit envelope e => fun h => by
    cases ho : applyUndoing undo registry stamps d (.edit envelope e) with
    | mk d' result rollbacks =>
      obtain rfl : result = .ok inverse := by rwa [ho] at h
      obtain ⟨hv, a, ha, rfl, rfl, -⟩ := applyUndoing_edit_ok_iff.mp ho
      rw [Op.steps_edit, Edit.applyRow_single, ha, Applied.steps_inverseOp]
      exact ⟨rfl, hv, a.upToDate_inverseOp _ _⟩
  | .batch envelope ops => fun h => by
    rw [applyUndoing] at h ⊢
    split at h
    · contradiction
    · rename_i hv
      rw [if_neg hv]
      obtain ⟨inverses, hi, rfl⟩ := map_ok_iff.mp h
      obtain ⟨later, hl, hrow, hu, hlater⟩ := row_of_applyFrom stamps 0 [] ops hi
      obtain rfl : inverses = later := hl.trans (List.append_nil later)
      exact ⟨hrow, ⟨Nat.not_lt.mp hv, hu⟩, Nat.le_refl _, hlater⟩

theorem row_of_applyFrom (stamps : Stamps) {d : Document} {result : List Op} (index : Nat)
    (inverses : List Op) : (ops : List Op) →
    (applyFrom undo registry stamps d index inverses ops).result = .ok result →
    ∃ later, result = later ++ inverses ∧
      Edit.applyRow registry d (Op.stepsOf ops) =
        .ok ((applyFrom undo registry stamps d index inverses ops).document, Op.stepsOf later) ∧
      Op.UpToDateAll ops ∧ Op.UpToDateAll later
  | [] => fun h => by
    rw [applyFrom] at h ⊢
    obtain rfl := Except.ok.inj h
    exact ⟨[], rfl, rfl, trivial, trivial⟩
  | op :: ops => fun h => by
    rw [applyFrom] at h ⊢
    cases ho : (applyUndoing undo registry (stamps.below index) d op).result with
    | error source =>
      simp only [ho] at h
      exact absurd h (undoAll_rejects stamps _ inverses)
    | ok inverse =>
      obtain ⟨hfirst, hu, hi⟩ := row_of_applyUndoing (stamps.below index) op ho
      simp only [ho, Outcome.after] at h ⊢
      obtain ⟨later, hl, hrest, hul, hil⟩ :=
        row_of_applyFrom stamps (index + 1) (inverse :: inverses) ops h
      refine ⟨later ++ [inverse], by simpa using hl, ?_, ⟨hu, hul⟩, ?_⟩
      · rw [Op.stepsOf_cons]
        exact Edit.applyRow_append_ok_iff.mpr ⟨_, _, _, hfirst, hrest, by simp⟩
      · simp [Op.UpToDateAll, hi, hil]
end

end Engine

namespace Document
variable {registry : Option Registry} {stamps : Stamps} {d d' : Document}

/-- The operation is accepted, and the document it gives. -/
def Accepts (registry : Option Registry) (stamps : Stamps) (d : Document) (op : Op)
    (d' : Document) : Prop :=
  ∃ inverse rollbacks, d.apply registry stamps op = ⟨d', .ok inverse, rollbacks⟩

theorem accepts_edit_iff {envelope : Envelope} {e : Edit} :
    d.Accepts registry stamps (.edit envelope e) d' ↔
      envelope.version ≤ currentOpVersion ∧ ∃ a, e.apply registry d = .ok a ∧ d' = a.document := by
  simp only [Accepts, apply, Engine.applyUndoing_edit_ok_iff]
  constructor
  · rintro ⟨_, _, hv, a, ha, hd, -⟩
    exact ⟨hv, a, ha, hd⟩
  · rintro ⟨hv, a, ha, hd⟩
    exact ⟨_, _, hv, a, ha, hd, rfl, rfl⟩

theorem exists_accepts_edit_iff {envelope : Envelope} (hv : envelope.version ≤ currentOpVersion)
    {e : Edit} : (∃ d', d.Accepts registry stamps (.edit envelope e) d') ↔
      ∃ a, e.apply registry d = .ok a := by
  simp only [accepts_edit_iff, hv, true_and]
  constructor
  · rintro ⟨_, a, ha, -⟩
    exact ⟨a, ha⟩
  · rintro ⟨a, ha⟩
    exact ⟨_, a, ha, rfl⟩

end Document
end SceneGraph

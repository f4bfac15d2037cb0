import SceneGraph.Proofs.Rejections

/-!
# Groupings: how operations are put into batches makes no difference

Batches are taken apart by `flatten`. With and without them operations are accepted with one result
and inverses that hold the same edits, or rejected for one root cause without a trace. And what a
batch does its operations do one at a time. New entities have to be placed by numbers that have a
JSON form, as they are wherever operations were read.
-/
namespace SceneGraph

theorem OpError.rootCause_of_isDirect {e : OpError} (h : e.isDirect = true) : e.rootCause = e := by
  cases e with
  | batchFailed => contradiction
  | _ => rfl

namespace Op

@[simp] theorem stepsOf_flatten (ops : List Op) : stepsOf (flatten ops) = stepsOf ops := by
  have hsingle : ∀ edits : List (Envelope × Edit),
      stepsOf (edits.map fun entry => .edit entry.1 entry.2) = edits.map (·.2) := by
    intro edits
    induction edits with
    | nil => rfl
    | cons first edits ih => simp [ih]
  exact hsingle (editsOf ops)

mutual
private theorem version_le_of_mem_edits {envelope : Envelope} {e : Edit} :
    (op : Op) → op.UpToDate → (envelope, e) ∈ op.edits → envelope.version ≤ currentOpVersion
  | .edit _ _ => fun hu h => by
    obtain ⟨rfl, -⟩ := Prod.mk.inj (List.mem_singleton.mp h)
    exact hu
  | .batch _ ops => fun hu h => version_le_of_mem_editsOf ops hu.2 h

private theorem version_le_of_mem_editsOf {envelope : Envelope} {e : Edit} :
    (ops : List Op) → UpToDateAll ops → (envelope, e) ∈ editsOf ops →
    envelope.version ≤ currentOpVersion
  | [] => fun _ h => absurd h List.not_mem_nil
  | op :: ops => fun hu h => by
    rw [editsOf] at h
    rcases List.mem_append.mp h with h | h
    · exact version_le_of_mem_edits op hu.1 h
    · exact version_le_of_mem_editsOf ops hu.2 h
end

theorem upToDateAll_flatten {ops : List Op} (hu : UpToDateAll ops) :
    UpToDateAll (flatten ops) := by
  have hsingle : ∀ edits : List (Envelope × Edit),
      (∀ envelope e, (envelope, e) ∈ edits → envelope.version ≤ currentOpVersion) →
      UpToDateAll (edits.map fun entry => .edit entry.1 entry.2) := by
    intro edits h
    induction edits with
    | nil => trivial
    | cons first edits ih =>
      exact ⟨h _ _ List.mem_cons_self, ih fun _ _ hm => h _ _ (List.mem_cons_of_mem _ hm)⟩
  exact hsingle (editsOf ops) fun _ _ hm => version_le_of_mem_editsOf ops hu hm

end Op

namespace Engine
variable {undo : Applier} {registry : Option Registry}

/-- Undoing reports the cause that it was given, unless it fails itself. -/
theorem undoAll_error (stamps : Stamps) {cause error : OpError} {d : Document}
    {inverses : List Op} (h : (undoAll undo stamps cause d inverses).result = .error error) :
    error = cause ∨ ∃ source, error = .rollbackFailed cause source := by
  induction inverses generalizing d with
  | nil => exact .inl (Except.error.inj h).symm
  | cons inverse earlier ih =>
    rw [undoAll] at h
    split at h
    · exact ih h
    · exact .inr ⟨_, (Except.error.inj h).symm⟩

mutual
/-- What was rejected and rolled back was rejected for what ends the row of its edits. -/
theorem row_of_rejected (stamps : Stamps) {d : Document} {error : OpError} :
    (op : Op) → op.UpToDate → (applyUndoing undo registry stamps d op).result = .error error →
    error.rolledBack = true → Edit.applyRow registry d op.steps = .error error.rootCause
  | .edit envelope e => fun hu h _ => by
    rw [applyUndoing, if_neg (Nat.not_lt.mpr hu)] at h
    cases ha : e.apply registry d with
    | ok a => simp [ha] at h
    | error source =>
      obtain rfl : source = error := by simpa [ha, Outcome.reject] using h
      have hdirect := (Edit.apply_failsDirectly registry d e).direct source ha
      rw [Op.steps_edit, Edit.applyRow_single, ha, OpError.rootCause_of_isDirect hdirect]
      rfl
  | .batch envelope ops => fun hu h hclean => by
    rw [applyUndoing, if_neg (Nat.not_lt.mpr hu.1)] at h
    exact row_of_rejectedFrom stamps 0 [] ops hu.2 (map_error_iff.mp h) hclean

theorem row_of_rejectedFrom (stamps : Stamps) {d : Document} {error : OpError} (index : Nat)
    (inverses : List Op) : (ops : List Op) → Op.UpToDateAll ops →
    (applyFrom undo registry stamps d index inverses ops).result = .error error →
    error.rolledBack = true → Edit.applyRow registry d (Op.stepsOf ops) = .error error.rootCause
  | [] => fun _ h _ => by
    rw [applyFrom] at h
    contradiction
  | op :: ops => fun hu h hclean => by
    rw [applyFrom] at h
    rw [Op.stepsOf_cons, Edit.applyRow_append]
    cases ho : (applyUndoing undo registry (stamps.below index) d op).result with
    | ok inverse =>
      obtain ⟨hfirst, -⟩ := row_of_applyUndoing (stamps.below index) op ho
      simp only [ho, Outcome.after] at h
      have hrest := row_of_rejectedFrom stamps (index + 1) (inverse :: inverses) ops hu.2 h hclean
      rw [hfirst, bind_ok, hrest]
      rfl
    | error source =>
      simp only [ho, rollBack, Outcome.after] at h
      rcases undoAll_error stamps h with rfl | ⟨_, rfl⟩
      · rw [row_of_rejected (stamps.below index) op hu.1 ho hclean]
        rfl
      · contradiction
end

end Engine

namespace Document
variable {registry : Option Registry} {stamps : Stamps} {d : Document} {ops : List Op}

/-- Operations are rejected together for what ends the row of their edits, and leave no trace. -/
theorem applyAll_of_row_error (stamps : Stamps) (hd : d.WellFormed)
    (hr : ∀ e ∈ Op.stepsOf ops, ∀ d, e.Reversible d) (hu : Op.UpToDateAll ops) {cause : OpError}
    (h : Edit.applyRow registry d (Op.stepsOf ops) = .error cause) :
    ∃ error rollbacks, d.applyAll registry stamps ops = ⟨d, .error error, rollbacks⟩ ∧
      error.rootCause = cause := by
  rw [applyAll_eq, undoing_eq]
  cases ho : Engine.applyFrom (Engine.applyUndoing undoing none) registry stamps d 0 [] ops with
  | mk d' result rollbacks =>
    have hresult := congrArg Outcome.result ho
    cases result with
    | ok inverses =>
      obtain ⟨_, -, hrow, -⟩ := Engine.row_of_applyFrom stamps 0 [] ops hresult
      rw [h] at hrow
      contradiction
    | error error =>
      obtain ⟨hsame, hclean⟩ :=
        Engine.applyFrom_rejected stamps hd 0 [] rfl trivial ops hr hresult
      obtain rfl : d' = d := (congrArg Outcome.document ho).symm.trans hsame
      have hrow := Engine.row_of_rejectedFrom stamps 0 [] ops hu hresult hclean
      exact ⟨error, rollbacks, rfl, Except.error.inj (hrow.symm.trans h)⟩

/-- Applies operations one at a time, each as a call of its own, until one is rejected. -/
def applyEach (registry : Option Registry) (stamps : Stamps) : Document → Nat → List Op →
    Except OpError Document
  | d, _, [] => .ok d
  | d, index, op :: ops =>
    let o := d.apply registry (stamps.below index) op
    match o.result with
    | .ok _ => applyEach registry stamps o.document (index + 1) ops
    | .error error => .error error

/-- Operations whose edits are accepted in a row are accepted one at a time. -/
theorem applyEach_of_row {d' : Document} {back : List Edit} (index : Nat)
    (hu : Op.UpToDateAll ops) (h : Edit.applyRow registry d (Op.stepsOf ops) = .ok (d', back)) :
    d.applyEach registry stamps index ops = .ok d' := by
  induction ops generalizing d index back with
  | nil =>
    obtain ⟨rfl, -⟩ := Prod.mk.inj (Except.ok.inj h)
    rfl
  | cons op ops ih =>
    rw [Op.stepsOf_cons] at h
    obtain ⟨d₁, before, after, hfirst, hrest, -⟩ := Edit.applyRow_append_ok_iff.mp h
    obtain ⟨inverse, ho, -⟩ := @Engine.applyUndoing_of_row undoing registry (stamps.below index)
      _ _ _ op hu.1 hfirst
    rw [← apply_eq] at ho
    simp only [applyEach, ho]
    exact ih (index + 1) hu.2 hrest

/-- What a batch does its operations do one at a time. -/
theorem applyEach_of_batch {envelope : Envelope} {inverse : Op} (eachStamps : Stamps)
    (h : (d.apply registry stamps (.batch envelope ops)).result = .ok inverse) :
    d.applyEach registry eachStamps 0 ops =
      .ok (d.apply registry stamps (.batch envelope ops)).document := by
  rw [apply_eq] at h ⊢
  obtain ⟨hrow, hu, -⟩ := Engine.row_of_applyUndoing stamps (.batch envelope ops) h
  exact applyEach_of_row 0 hu.2 hrow

/-- Two lists of operations are accepted with one result and with inverses that hold the same edits
in one order, or both are rejected for one cause and change nothing. -/
def ComeToTheSame (d : Document) (registry : Option Registry) (stamps otherStamps : Stamps)
    (ops others : List Op) : Prop :=
  (∃ d₁ inverses otherInverses, d.applyAll registry stamps ops = ⟨d₁, .ok inverses, []⟩ ∧
      d.applyAll registry otherStamps others = ⟨d₁, .ok otherInverses, []⟩ ∧
      Op.stepsOf inverses.reverse = Op.stepsOf otherInverses.reverse) ∨
    ∃ error otherError rollbacks otherRollbacks,
      d.applyAll registry stamps ops = ⟨d, .error error, rollbacks⟩ ∧
      d.applyAll registry otherStamps others = ⟨d, .error otherError, otherRollbacks⟩ ∧
      error.rootCause = otherError.rootCause

/-- Where all edits can be taken back, operations and the same operations without grouping come to
the same. -/
theorem applyAll_flatten (hd : d.WellFormed) (hr : ∀ e ∈ Op.stepsOf ops, ∀ d, e.Reversible d)
    (hu : Op.UpToDateAll ops) (registry : Option Registry) (stamps otherStamps : Stamps) :
    d.ComeToTheSame registry stamps otherStamps ops (Op.flatten ops) := by
  have hflat := Op.upToDateAll_flatten hu
  have hsteps := Op.stepsOf_flatten ops
  cases hrow : Edit.applyRow registry d (Op.stepsOf ops) with
  | ok row =>
    obtain ⟨inverses, ho, hback, -⟩ := applyAll_of_row stamps hrow hu
    obtain ⟨flatInverses, hflatten, hflatBack, -⟩ :=
      applyAll_of_row otherStamps (hsteps ▸ hrow) hflat
    exact .inl ⟨row.1, inverses, flatInverses, ho, hflatten, hback.trans hflatBack.symm⟩
  | error cause =>
    obtain ⟨error, rollbacks, ho, hcause⟩ := applyAll_of_row_error stamps hd hr hu hrow
    obtain ⟨flatError, flatRollbacks, hflatten, hflatCause⟩ :=
      applyAll_of_row_error otherStamps hd (hsteps ▸ hr) hflat (hsteps ▸ hrow)
    exact .inr ⟨error, flatError, rollbacks, flatRollbacks, ho, hflatten,
      hcause.trans hflatCause.symm⟩

/-- Operations and the same operations without grouping are either both accepted, with one result
and with inverses that hold the same edits in one order, or both rejected for one cause, and then
nothing is changed. And what an accepted batch does its operations do one at a time. New entities
have to be placed by numbers that have a JSON form. -/
theorem grouping_is_immaterial (hd : d.WellFormed) (hf : ∀ op ∈ ops, op.Finite)
    (hk : ∀ e ∈ Op.stepsOf ops, e.removesKeyframe = false) (hu : Op.UpToDateAll ops)
    (registry : Option Registry) (stamps otherStamps : Stamps) :
    ((∃ d₁ inverses flatInverses,
        d.applyAll registry stamps ops = ⟨d₁, .ok inverses, []⟩ ∧
        d.applyAll registry otherStamps (Op.flatten ops) = ⟨d₁, .ok flatInverses, []⟩ ∧
        Op.stepsOf inverses.reverse = Op.stepsOf flatInverses.reverse) ∨
      ∃ error flatError rollbacks flatRollbacks,
        d.applyAll registry stamps ops = ⟨d, .error error, rollbacks⟩ ∧
        d.applyAll registry otherStamps (Op.flatten ops) = ⟨d, .error flatError, flatRollbacks⟩ ∧
        error.rootCause = flatError.rootCause) ∧
      ∀ envelope inverse, (d.apply registry stamps (.batch envelope ops)).result = .ok inverse →
        d.applyEach registry otherStamps 0 ops =
          .ok (d.apply registry stamps (.batch envelope ops)).document :=
  ⟨applyAll_flatten hd (Op.reversible_stepsOf hf hk) hu registry stamps otherStamps,
    fun _ _ h => applyEach_of_batch otherStamps h⟩

/-- A lamp is created and given a light, and in a batch within a batch it is deleted again, or the
root is. -/
theorem lamp_grouping_is_immaterial :
    let d := ofIds "scene" "root" "Scene"
    let ops (id : String) : List Op := [.edit .plain (.create "lamp" "Lamp" "root"),
      .batch .plain [.edit .plain (.attach "lamp" (.ofType "Light")),
        .batch .plain [.edit .plain (.delete id)]]]
    d.WellFormed ∧ (∀ id ∈ ["lamp", "root"], ∀ op ∈ ops id, op.Finite) ∧
    (∀ id ∈ ["lamp", "root"], ∀ e ∈ Op.stepsOf (ops id), e.removesKeyframe = false) ∧
    (∀ id ∈ ["lamp", "root"], Op.UpToDateAll (ops id)) ∧
    (∃ d₁ inverses flatInverses, d.applyAll none .plain (ops "lamp") = ⟨d₁, .ok inverses, []⟩ ∧
      d.applyAll none .plain (Op.flatten (ops "lamp")) = ⟨d₁, .ok flatInverses, []⟩ ∧
      Op.stepsOf inverses.reverse = Op.stepsOf flatInverses.reverse) ∧
    ∃ error flatError rollbacks flatRollbacks,
      d.applyAll none .plain (ops "root") = ⟨d, .error error, rollbacks⟩ ∧
      d.applyAll none .plain (Op.flatten (ops "root")) = ⟨d, .error flatError, flatRollbacks⟩ ∧
      error.rootCause = flatError.rootCause := by
  intro d ops
  have hd : d.WellFormed := wellFormed_ofIds "scene" "root" "Scene"
  have hf : ∀ id ∈ ["lamp", "root"], ∀ op ∈ ops id, op.Finite := by decide
  have hk : ∀ id ∈ ["lamp", "root"], ∀ e ∈ Op.stepsOf (ops id), e.removesKeyframe = false := by
    decide
  have hu : ∀ id ∈ ["lamp", "root"], Op.UpToDateAll (ops id) := by
    simp [ops, Op.UpToDateAll, Op.UpToDate, Envelope.plain, Envelope.fresh]
  refine ⟨hd, hf, hk, hu, ?_, ?_⟩
  · have hlamp : "lamp" ∈ ["lamp", "root"] := by decide
    rcases (grouping_is_immaterial hd (hf _ hlamp) (hk _ hlamp) (hu _ hlamp) none .plain .plain).1
      with h | ⟨error, -, rollbacks, -, h, -⟩
    · exact h
    · have haccepted : (d.applyAll none .plain (ops "lamp")).result.isOk = true := by decide
      rw [h] at haccepted
      contradiction
  · have hroot : "root" ∈ ["lamp", "root"] := by decide
    rcases (grouping_is_immaterial hd (hf _ hroot) (hk _ hroot) (hu _ hroot) none .plain .plain).1
      with ⟨d₁, inverses, -, h, -⟩ | h
    · have hrejected : (d.applyAll none .plain (ops "root")).result.isOk = false := by decide
      rw [h] at hrejected
      contradiction
    · exact h

/-- A lamp without a place is put right, and then the root is to be deleted. With and without
grouping this is rejected, but not without a trace. -/
theorem strayLamp_not_without_trace :
    let d := ofIds "scene" "root" "Scene"
    let ops : List Op := [.batch .plain Op.strayLamp, .edit .plain (.delete "root")]
    d.WellFormed ∧ (∀ e ∈ Op.stepsOf ops, e.removesKeyframe = false) ∧ Op.UpToDateAll ops ∧
      (d.applyAll none .plain ops).result.isOk = false ∧
      (d.applyAll none .plain ops).document ≠ d ∧
      ¬ d.ComeToTheSame none .plain .plain ops (Op.flatten ops) := by
  intro d ops
  have hd : d.WellFormed := wellFormed_ofIds "scene" "root" "Scene"
  have hk : ∀ e ∈ Op.stepsOf ops, e.removesKeyframe = false := by decide
  have hu : Op.UpToDateAll ops := by
    simp [ops, Op.strayLamp, Op.UpToDateAll, Op.UpToDate, Envelope.plain, Envelope.fresh]
  have hrejected : (d.applyAll none .plain ops).result.isOk = false := by decide +kernel
  have hchanged : (d.applyAll none .plain ops).document ≠ d := by decide +kernel
  refine ⟨hd, hk, hu, hrejected, hchanged, ?_⟩
  rintro (⟨_, _, _, h, -⟩ | ⟨_, _, _, _, h, -⟩)
  · have haccepted : (d.applyAll none .plain ops).result.isOk = true := by
      rw [h]
      rfl
    exact Bool.false_ne_true (hrejected.symm.trans haccepted)
  · exact hchanged (congrArg Outcome.document h)

/-- Documents and operations that were read hold no other numbers, so these can be grouped at
will. -/
theorem applyAll_flatten_of_wasRead (hd : d.WellRead) (hread : ∀ op ∈ ops, op.WasRead)
    (hk : ∀ e ∈ Op.stepsOf ops, e.removesKeyframe = false) (hu : Op.UpToDateAll ops)
    (registry : Option Registry) (stamps otherStamps : Stamps) :
    d.ComeToTheSame registry stamps otherStamps ops (Op.flatten ops) :=
  applyAll_flatten hd.wellFormed (Op.reversible_of_wasRead hread hk) hu registry stamps otherStamps

end Document
end SceneGraph

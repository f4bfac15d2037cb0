import SceneGraph.Proofs.EditErrors
import SceneGraph.Proofs.EngineRuns
import SceneGraph.Proofs.UndoDepths
import SceneGraph.Proofs.UndoRedo

/-!
# Rejections: what is rejected leaves no trace

A rejected call leaves the document exactly as it was, whatever had been applied before it failed
and however deep it failed, and no rollback fails on the way. New entities have to be placed by
numbers that have a JSON form, as they are wherever operations were read; otherwise a rollback can
fail.
-/
namespace SceneGraph

namespace OpError

/-- Nowhere in the chain of causes has a rollback failed. -/
def rolledBack : OpError → Bool
  | batchFailed _ _ source => source.rolledBack
  | rollbackFailed _ _ => false
  | _ => true

theorem rolledBack_of_isDirect {e : OpError} (h : e.isDirect = true) : e.rolledBack = true := by
  cases e with
  | batchFailed | rollbackFailed => contradiction
  | _ => rfl

end OpError

namespace Engine
variable {undo : Applier} {registry : Option Registry}

mutual
/-- A rejected operation leaves the document as it was, as long as it can be undone with edits
that are applied without a registry. -/
theorem applyUndoing_rejected (stamps : Stamps) {d : Document} (hd : d.WellFormed)
    {error : OpError} :
    (op : Op) → (∀ e ∈ op.steps, ∀ d, e.Reversible d) →
    (applyUndoing (applyUndoing undo none) registry stamps d op).result = .error error →
    (applyUndoing (applyUndoing undo none) registry stamps d op).document = d ∧
      error.rolledBack = true
  | .edit envelope e => fun _ h => by
    rw [applyUndoing] at h ⊢
    split at h
    · rename_i hv
      rw [if_pos hv]
      exact ⟨rfl, Except.error.inj h ▸ rfl⟩
    · rename_i hv
      rw [if_neg hv]
      cases ha : e.apply registry d with
      | ok a => simp [ha] at h
      | error source =>
        obtain rfl : source = error := by simpa [ha, Outcome.reject] using h
        exact ⟨rfl, OpError.rolledBack_of_isDirect
          ((Edit.apply_failsDirectly registry d e).direct source ha)⟩
  | .batch envelope ops => fun hr h => by
    rw [applyUndoing] at h ⊢
    split at h
    · rename_i hv
      rw [if_pos hv]
      exact ⟨rfl, Except.error.inj h ▸ rfl⟩
    · rename_i hv
      rw [if_neg hv]
      exact applyFrom_rejected stamps hd 0 [] rfl trivial ops hr (map_error_iff.mp h)

/-- The inverses of the operations that went before lead back to where these began. -/
theorem applyFrom_rejected (stamps : Stamps) {d d₀ : Document} (hd : d.WellFormed) (index : Nat)
    (inverses : List Op) {forth : List Edit}
    (hi : Edit.applyRow none d (Op.stepsOf inverses) = .ok (d₀, forth))
    (hu : Op.UpToDateAll inverses) {error : OpError} :
    (ops : List Op) → (∀ e ∈ Op.stepsOf ops, ∀ d, e.Reversible d) →
    (applyFrom (applyUndoing undo none) registry stamps d index inverses ops).result =
      .error error →
    (applyFrom (applyUndoing undo none) registry stamps d index inverses ops).document = d₀ ∧
      error.rolledBack = true
  | [] => fun _ h => by
    rw [applyFrom] at h
    contradiction
  | op :: ops => fun hr h => by
    rw [Op.stepsOf_cons] at hr
    have hop : ∀ e ∈ op.steps, ∀ d, e.Reversible d := fun e he => hr e (List.mem_append_left _ he)
    rw [applyFrom] at h ⊢
    cases ho : (applyUndoing (applyUndoing undo none) registry (stamps.below index) d op).result with
    | ok inverse =>
      obtain ⟨hrow, -, hv⟩ := row_of_applyUndoing (stamps.below index) op ho
      have htrace := Trace.of_row hop hrow
      obtain ⟨again, hback⟩ := htrace.reverse hd
      have hall := Edit.applyRow_append_ok_iff.mpr ⟨d, _, _, hback.row, hi, rfl⟩
      rw [← Op.stepsOf_cons] at hall
      simp only [ho, Outcome.after] at h ⊢
      exact applyFrom_rejected stamps (htrace.wellFormed hd) (index + 1) (inverse :: inverses) hall
        ⟨hv, hu⟩ ops (fun e he => hr e (List.mem_append_right _ he)) h
    | error source =>
      obtain ⟨hsame, hclean⟩ := applyUndoing_rejected (stamps.below index) hd op hop ho
      simp only [ho, rollBack, Outcome.after, hsame, undoAll_of_row stamps _ hi hu] at h ⊢
      exact ⟨trivial, Except.error.inj h ▸ hclean⟩
end

end Engine

namespace Document
variable {registry : Option Registry} {stamps : Stamps} {d : Document} {error : OpError}

theorem apply_rejected (hd : d.WellFormed) {op : Op} (hr : ∀ e ∈ op.steps, ∀ d, e.Reversible d)
    (h : (d.apply registry stamps op).result = .error error) :
    (d.apply registry stamps op).document = d ∧ error.rolledBack = true := by
  rw [apply_eq, undoing_eq] at h ⊢
  exact Engine.applyUndoing_rejected stamps hd op hr h

theorem applyAll_rejected (hd : d.WellFormed) {ops : List Op}
    (hr : ∀ e ∈ Op.stepsOf ops, ∀ d, e.Reversible d)
    (h : (d.applyAll registry stamps ops).result = .error error) :
    (d.applyAll registry stamps ops).document = d ∧ error.rolledBack = true := by
  rw [applyAll_eq, undoing_eq] at h ⊢
  exact Engine.applyFrom_rejected stamps hd 0 [] rfl trivial ops hr (map_error_iff.mp h)

end Document

namespace Call

def ops : Call → List Op
  | one _ _ op => [op]
  | many _ _ ops => ops

/-- Why a call is rejected, if it is. -/
def error? (d : Document) : Call → Option OpError
  | one registry stamps op =>
    match (d.apply registry stamps op).result with
    | .ok _ => none
    | .error e => some e
  | many registry stamps ops =>
    match (d.applyAll registry stamps ops).result with
    | .ok _ => none
    | .error e => some e

/-- A call whose edits can all be taken back leaves the document as it was when it is rejected. -/
theorem unchanged_of_reversible {d : Document} {call : Call} {error : OpError}
    (hd : d.WellFormed) (hr : ∀ e ∈ Op.stepsOf call.ops, ∀ d, e.Reversible d)
    (h : call.error? d = some error) : call.run d = d ∧ error.rolledBack = true := by
  cases call with
  | one registry stamps op =>
    simp only [error?] at h
    split at h
    · contradiction
    · rename_i source hresult
      obtain rfl := Option.some.inj h
      exact Document.apply_rejected hd (by simpa [ops] using hr) hresult
  | many registry stamps ops =>
    simp only [error?] at h
    split at h
    · contradiction
    · rename_i source hresult
      obtain rfl := Option.some.inj h
      exact Document.applyAll_rejected hd hr hresult

/-- A rejected call leaves the document exactly as it was, and no rollback has failed on the way,
however deep batches are nested and with whatever registry. New entities have to be placed by
numbers that have a JSON form. -/
theorem rejected_leaves_document {d : Document} {call : Call} {error : OpError}
    (hd : d.WellFormed) (hf : ∀ op ∈ call.ops, op.Finite)
    (hk : ∀ e ∈ Op.stepsOf call.ops, e.removesKeyframe = false)
    (h : call.error? d = some error) : call.run d = d ∧ error.rolledBack = true :=
  unchanged_of_reversible hd (Op.reversible_stepsOf hf hk) h

/-- A lamp is created in a batch within a batch, and then the root is to be deleted. -/
theorem lamp_rejected_leaves_document :
    let d := Document.ofIds "scene" "root" "Scene"
    let call := Call.many none .plain [.edit .plain (.create "lamp" "Lamp" "root"),
      .batch .plain [.batch .plain [.edit .plain (.create "chair" "Chair" "lamp")],
        .edit .plain (.delete "root")]]
    let error := OpError.batchFailed 1 "BatchOp"
      (.batchFailed 1 "DeleteEntity" (.rootImmutable "root" "delete"))
    d.WellFormed ∧ (∀ op ∈ call.ops, op.Finite) ∧
      (∀ e ∈ Op.stepsOf call.ops, e.removesKeyframe = false) ∧ call.error? d = some error ∧
      call.run d = d ∧ error.rolledBack = true := by
  intro d call error
  have hd : d.WellFormed := Document.wellFormed_ofIds "scene" "root" "Scene"
  have hf : ∀ op ∈ call.ops, op.Finite := by decide
  have hk : ∀ e ∈ Op.stepsOf call.ops, e.removesKeyframe = false := by decide
  have he : call.error? d = some error := by decide
  exact ⟨hd, hf, hk, he, rejected_leaves_document hd hf hk he⟩

/-- A lamp without a place is put right, and then the root is to be deleted. Undoing fails at the
write, and the lamp stays. -/
theorem strayLamp_rollback_fails :
    let d := Document.ofIds "scene" "root" "Scene"
    let call := Call.many none .plain (Op.strayLamp ++ [.edit .plain (.delete "root")])
    d.WellFormed ∧ (∀ e ∈ Op.stepsOf call.ops, e.removesKeyframe = false) ∧
      call.run d ≠ d ∧ (call.error? d).map OpError.rolledBack = some false := by
  intro d call
  have hd : d.WellFormed := Document.wellFormed_ofIds "scene" "root" "Scene"
  have hk : ∀ e ∈ Op.stepsOf call.ops, e.removesKeyframe = false := by decide
  have hchanged : call.run d ≠ d := by decide +kernel
  have hfailed : (call.error? d).map OpError.rolledBack = some false := by decide +kernel
  exact ⟨hd, hk, hchanged, hfailed⟩

/-- Documents and operations that were read hold no other numbers, so a rejected call of these
leaves no trace. -/
theorem unchanged_of_wasRead {d : Document} {call : Call} {error : OpError} (hd : d.WellRead)
    (hread : ∀ op ∈ call.ops, op.WasRead)
    (hk : ∀ e ∈ Op.stepsOf call.ops, e.removesKeyframe = false)
    (h : call.error? d = some error) : call.run d = d ∧ error.rolledBack = true :=
  unchanged_of_reversible hd.wellFormed (Op.reversible_of_wasRead hread hk) h

end Call
end SceneGraph

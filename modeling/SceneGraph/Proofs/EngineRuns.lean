import SceneGraph.EditEngine
import SceneGraph.Proofs.EditMoves
import SceneGraph.Proofs.EngineTraces
import SceneGraph.Proofs.ValidDocuments

/-!
# Engine runs: what every edit keeps is kept by every call, accepted or rejected

A property that no accepted edit destroys is kept by a call of the engine, whether the call is
accepted, is rejected and rolled back, or fails to be rolled back, and hence by any sequence of
calls (`Call.runs_keep`). Being a forest is such a property. The same goes for properties of
documents and of inverses that depend on each other (`Closed`).
-/
namespace SceneGraph

namespace Op
variable {v : Envelope → Prop} {q : Edit → Prop}

mutual
/-- All envelopes and all edits of the operation are of a kind. -/
def All (v : Envelope → Prop) (q : Edit → Prop) : Op → Prop
  | .edit envelope e => v envelope ∧ q e
  | .batch envelope ops => v envelope ∧ AllOf v q ops

def AllOf (v : Envelope → Prop) (q : Edit → Prop) : List Op → Prop
  | [] => True
  | op :: ops => All v q op ∧ AllOf v q ops
end

theorem allOf_iff {ops : List Op} : AllOf v q ops ↔ ∀ op ∈ ops, op.All v q := by
  induction ops with
  | nil => simp [AllOf]
  | cons op ops ih => simp [AllOf, ih]

mutual
theorem all_of_forall (hv : ∀ envelope, v envelope) (hq : ∀ e, q e) : (op : Op) → op.All v q
  | .edit envelope e => ⟨hv envelope, hq e⟩
  | .batch envelope ops => ⟨hv envelope, allOf_of_forall hv hq ops⟩

theorem allOf_of_forall (hv : ∀ envelope, v envelope) (hq : ∀ e, q e) :
    (ops : List Op) → AllOf v q ops
  | [] => trivial
  | op :: ops => ⟨all_of_forall hv hq op, allOf_of_forall hv hq ops⟩
end

end Op

/-- Accepted edits of a kind keep a property of documents, and are taken back by edits of the kind.
Fresh envelopes are of their kind, too. -/
structure Closed (p : Document → Prop) (v : Envelope → Prop) (q : Edit → Prop) : Prop where
  document : ∀ ⦃registry d e a⦄, p d → q e → Edit.apply registry d e = .ok a → p a.document
  inverse : ∀ ⦃registry d e a⦄, p d → q e → Edit.apply registry d e = .ok a →
    ∀ e' ∈ a.inverse :: a.sequel, q e'
  envelope : ∀ (envelope : Envelope) stamp, v (envelope.derive stamp)

/-- A property of documents that no accepted edit destroys. -/
def Invariant (p : Document → Prop) : Prop :=
  ∀ ⦃registry d e a⦄, p d → Edit.apply registry d e = .ok a → p a.document

theorem Invariant.closed {p : Document → Prop} (hp : Invariant p) :
    Closed p (fun _ => True) fun _ => True :=
  ⟨fun _ _ _ _ h _ ha => hp h ha, fun _ _ _ _ _ _ _ _ _ => trivial, fun _ _ => trivial⟩

section Closed
variable {p : Document → Prop} {v : Envelope → Prop} {q : Edit → Prop} {undo : Applier}
  {registry : Option Registry} {d : Document}

theorem Closed.inverseOp (hc : Closed p v q) {a : Applied} (h : ∀ e ∈ a.inverse :: a.sequel, q e)
    (envelope : Envelope) (stamps : Stamps) : (a.inverseOp envelope stamps).All v q := by
  unfold Applied.inverseOp
  split
  · exact ⟨hc.envelope _ _, h _ List.mem_cons_self⟩
  · refine ⟨hc.envelope _ _, Op.allOf_iff.mpr fun op hop => ?_⟩
    obtain ⟨i, hi, rfl⟩ := List.mem_mapIdx.mp hop
    exact ⟨hc.envelope _ _, h _ (List.getElem_mem hi)⟩

namespace Engine

/-- What comes of an operation of the kind: a document with the property, and an inverse of the
kind. -/
def Keeps (p : Document → Prop) (v : Envelope → Prop) (q : Edit → Prop) (undo : Applier) : Prop :=
  ∀ stamps d op, p d → op.All v q → p (undo stamps d op).document ∧
    ∀ inverse, (undo stamps d op).result = .ok inverse → inverse.All v q

private theorem undoAll_keeps (hu : Keeps p v q undo) {stamps : Stamps} {cause : OpError}
    (h : p d) {inverses : List Op} (hi : Op.AllOf v q inverses) :
    p (undoAll undo stamps cause d inverses).document := by
  induction inverses generalizing d with
  | nil => exact h
  | cons inverse earlier ih =>
    simp only [undoAll]
    have ho := (hu stamps d inverse h hi.1).1
    split
    · exact ih ho hi.2
    · exact ho

mutual
theorem applyUndoing_keeps (hc : Closed p v q) (hu : Keeps p v q undo) (stamps : Stamps)
    {d : Document} (h : p d) : (op : Op) → op.All v q →
    p (applyUndoing undo registry stamps d op).document ∧
      ∀ inverse, (applyUndoing undo registry stamps d op).result = .ok inverse → inverse.All v q
  | .edit envelope e => fun ho => by
    rw [applyUndoing]
    split
    · exact ⟨h, nofun⟩
    · split
      · rename_i a ha
        refine ⟨hc.document h ho.2 ha, fun inverse hinverse => ?_⟩
        exact Except.ok.inj hinverse ▸ hc.inverseOp (hc.inverse h ho.2 ha) envelope stamps
      · exact ⟨h, nofun⟩
  | .batch envelope ops => fun ho => by
    rw [applyUndoing]
    split
    · exact ⟨h, nofun⟩
    · have hnone : Op.AllOf v q [] := trivial
      obtain ⟨hd, hi⟩ := applyFrom_keeps hc hu stamps h 0 hnone ops ho.2
      refine ⟨hd, fun inverse hinverse => ?_⟩
      obtain ⟨inverses, hr, rfl⟩ := map_ok_iff.mp hinverse
      exact ⟨hc.envelope _ _, hi inverses hr⟩

theorem applyFrom_keeps (hc : Closed p v q) (hu : Keeps p v q undo) (stamps : Stamps)
    {d : Document} (h : p d) (index : Nat) {inverses : List Op} (hi : Op.AllOf v q inverses) :
    (ops : List Op) → Op.AllOf v q ops →
    p (applyFrom undo registry stamps d index inverses ops).document ∧
      ∀ result, (applyFrom undo registry stamps d index inverses ops).result = .ok result →
        Op.AllOf v q result
  | [] => fun _ => by
    rw [applyFrom]
    exact ⟨h, fun result hr => Except.ok.inj hr ▸ hi⟩
  | op :: ops => fun ho => by
    obtain ⟨hd, hinverse⟩ := applyUndoing_keeps hc hu (stamps.below index) h op ho.1
    rw [applyFrom]
    split
    · rename_i inverse hr
      have hnext : Op.AllOf v q (inverse :: inverses) := ⟨hinverse inverse hr, hi⟩
      exact applyFrom_keeps hc hu stamps hd (index + 1) hnext ops ho.2
    · exact ⟨undoAll_keeps hu hd hi, fun result hr => absurd hr (undoAll_rejects stamps _ inverses)⟩
end

theorem undoWithin_keeps (hc : Closed p v q) (levels : Nat) : Keeps p v q (undoWithin levels) := by
  induction levels with
  | zero =>
    have hreject : Keeps p v q fun _ d _ => .reject d .nestedTooDeep :=
      fun _ _ _ h _ => ⟨h, fun _ hr => absurd hr (by simp [Outcome.reject])⟩
    exact fun stamps d op h ho => applyUndoing_keeps hc hreject stamps h op ho
  | succ levels ih => exact fun stamps d op h ho => applyUndoing_keeps hc ih stamps h op ho

end Engine

/-- Whatever becomes of an operation of the kind, the property is kept, and what takes the operation
back is of the kind. -/
theorem Closed.apply (hc : Closed p v q) (h : p d) {op : Op} (ho : op.All v q) (stamps : Stamps) :
    p (d.apply registry stamps op).document ∧
      ∀ inverse, (d.apply registry stamps op).result = .ok inverse → inverse.All v q :=
  Engine.applyUndoing_keeps hc (Engine.undoWithin_keeps hc _) stamps h op ho

theorem Closed.applyAll (hc : Closed p v q) (h : p d) {ops : List Op}
    (ho : ∀ op ∈ ops, op.All v q) (stamps : Stamps) :
    p (d.applyAll registry stamps ops).document ∧
      ∀ inverses, (d.applyAll registry stamps ops).result = .ok inverses →
        ∀ inverse ∈ inverses, inverse.All v q := by
  have hnone : Op.AllOf v q [] := trivial
  obtain ⟨hd, hi⟩ := Engine.applyFrom_keeps hc (Engine.undoWithin_keeps hc _) stamps h 0 hnone ops
    (Op.allOf_iff.mpr ho)
  refine ⟨hd, fun inverses hr inverse hm => ?_⟩
  obtain ⟨found, hf, rfl⟩ := map_ok_iff.mp hr
  exact Op.allOf_iff.mp (hi found hf) inverse (List.mem_reverse.mp hm)

end Closed

/-- A call of the engine with one operation or with several. -/
inductive Call
  | one (registry : Option Registry) (stamps : Stamps) (op : Op)
  | many (registry : Option Registry) (stamps : Stamps) (ops : List Op)

namespace Call

/-- The document that a call leaves, whether or not it is accepted. -/
def run (d : Document) : Call → Document
  | one registry stamps op => (d.apply registry stamps op).document
  | many registry stamps ops => (d.applyAll registry stamps ops).document

variable {p : Document → Prop}

theorem run_keeps (hp : Invariant p) {d : Document} (h : p d) (call : Call) : p (call.run d) := by
  have hany : ∀ op : Op, op.All (fun _ => True) fun _ => True :=
    Op.all_of_forall (fun _ => trivial) fun _ => trivial
  cases call with
  | one registry stamps op => exact (hp.closed.apply h (hany op) stamps).1
  | many registry stamps ops => exact (hp.closed.applyAll h (fun op _ => hany op) stamps).1

theorem runs_keep (hp : Invariant p) {d : Document} (h : p d) (calls : List Call) :
    p (calls.foldl run d) := by
  induction calls generalizing d with
  | nil => exact h
  | cons call calls ih => exact ih (run_keeps hp h call)

end Call

namespace Document

theorem forest_invariant : Invariant Forest := fun _ _ _ _ h ha => Edit.apply_forest h ha

/-- Whatever is done to a valid document, it stays a forest, and it is valid again as soon as no
entity but the root is detached. -/
theorem runs_from_valid {d : Document} (h : d.isValid = true) (calls : List Call) :
    (calls.foldl Call.run d).Forest ∧
      (∀ id, ¬ Relation.TransGen (calls.foldl Call.run d).outline.Parent id id) ∧
      ((calls.foldl Call.run d).isValid = true ↔
        ∀ id e, (calls.foldl Call.run d).entity? id = some e → e.parentId = none →
          id = (calls.foldl Call.run d).rootEntityId) := by
  have hf := Call.runs_keep forest_invariant (isValid_iff.mp h).1 calls
  exact ⟨hf, hf.tree.acyclic, isValid_iff.trans (and_iff_right hf)⟩

/-- A lamp is created and detached; then a batch is rejected after its first edit. -/
theorem lamp_runs_from_valid :
    let d := ofIds "scene" "root" "Scene"
    let d' := [Call.one none .plain (.edit .plain (.create "lamp" "Lamp" "root")),
      .many none .plain [.edit .plain (.removeChild "root" "lamp")],
      .one none .plain (.batch .plain [.edit .plain (.create "chair" "Chair" "lamp"),
        .edit .plain (.delete "root")])].foldl Call.run d
    d.isValid = true ∧ d'.Forest ∧ (∀ id, ¬ Relation.TransGen d'.outline.Parent id id) ∧
      (d'.isValid = true ↔ ∀ id e, d'.entity? id = some e → e.parentId = none →
        id = d'.rootEntityId) :=
  ⟨by decide, runs_from_valid (by decide) _⟩

end Document
end SceneGraph

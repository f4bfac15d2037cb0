import SceneGraph.EditEffects
import SceneGraph.Identifiers

/-!
# The edit engine: operations applied as a whole or not at all

Operations are applied in order. When one is rejected, those before it are taken back by their
inverses, last first, and if that fails too, the error says so (`rollbackFailed`). Batches nest, and
so does undoing, so how deep undoing may go is bounded by the nesting of the operation. Fresh ids
and times are `Stamps`, one for every place in a tree of operations.
-/
namespace SceneGraph

/-- A supply of stamps, one for every place in a tree of operations. -/
abbrev Stamps := List Nat → Stamp

namespace Stamps

def here (s : Stamps) : Stamp := s []
def below (s : Stamps) (place : Nat) : Stamps := fun places => s (place :: places)

/-- Stamps of one time, whose ids belong to a seed and to their places. -/
def ofSeed (seed : String) (timestamp : Nat) : Stamps := fun places =>
  ⟨Identifier.ofText (String.intercalate "." (seed :: places.map toString)), timestamp⟩

/-- One stamp for all places. -/
def plain : Stamps := fun _ => ⟨"stamp", 0⟩

end Stamps

/-- The envelope of the inverse of an operation: fresh, but of the same origin. -/
def Envelope.derive (envelope : Envelope) (stamp : Stamp) : Envelope :=
  .fresh stamp envelope.origin

/-- The operation that takes an edit back. -/
def Applied.inverseOp (a : Applied) (envelope : Envelope) (stamps : Stamps) : Op :=
  if a.sequel.isEmpty then .edit (envelope.derive stamps.here) a.inverse
  else .batch (envelope.derive stamps.here)
    ((a.inverse :: a.sequel).mapIdx fun i e => .edit (envelope.derive (stamps.below i).here) e)

/-- Operations that had been applied are being undone. -/
structure Rollback where
  undone : Nat
  cause : OpError

/-- What became of a document. A rejected operation leaves it as it was, unless undoing failed. -/
structure Outcome (α : Type) where
  document : Document
  result : Except OpError α
  rollbacks : List Rollback

namespace Outcome

def reject {α : Type} (d : Document) (e : OpError) : Outcome α := ⟨d, .error e, []⟩

def map {α β : Type} (f : α → β) (o : Outcome α) : Outcome β :=
  ⟨o.document, o.result.map f, o.rollbacks⟩

/-- Puts earlier rollbacks in front. -/
def after {α : Type} (earlier : List Rollback) (o : Outcome α) : Outcome α :=
  { o with rollbacks := earlier ++ o.rollbacks }

end Outcome

/-- A way to apply one operation. -/
abbrev Applier := Stamps → Document → Op → Outcome Op

namespace Engine

/-- Applies inverses one after the other, the last edit's first, and then reports the cause. -/
def undoAll (undo : Applier) (stamps : Stamps) (cause : OpError) (d : Document) :
    List Op → Outcome (List Op)
  | [] => .reject d cause
  | inverse :: earlier =>
    let o := undo stamps d inverse
    match o.result with
    | .ok _ => (undoAll undo stamps cause o.document earlier).after o.rollbacks
    | .error source => ⟨o.document, .error (.rollbackFailed cause source), o.rollbacks⟩

def rollBack (undo : Applier) (stamps : Stamps) (cause : OpError) (d : Document)
    (inverses : List Op) : Outcome (List Op) :=
  (undoAll undo stamps cause d inverses).after
    (if inverses.isEmpty then [] else [⟨inverses.length, cause⟩])

mutual
/-- Applies an operation; `undo` serves to take back the beginning of a batch that is rejected. -/
def applyUndoing (undo : Applier) (registry : Option Registry) (stamps : Stamps) (d : Document) :
    Op → Outcome Op
  | .edit envelope e =>
    if currentOpVersion < envelope.version then
      .reject d (.unsupportedVersion envelope.version currentOpVersion)
    else match e.apply registry d with
      | .ok a => ⟨a.document, .ok (a.inverseOp envelope stamps), []⟩
      | .error e => .reject d e
  | .batch envelope ops =>
    if currentOpVersion < envelope.version then
      .reject d (.unsupportedVersion envelope.version currentOpVersion)
    else (applyFrom undo registry stamps d 0 [] ops).map (.batch (envelope.derive stamps.here))

/-- Applies operations in order. The inverses of those before are held last first, which is also
the order that takes all of them back. -/
def applyFrom (undo : Applier) (registry : Option Registry) (stamps : Stamps) (d : Document)
    (index : Nat) (inverses : List Op) : List Op → Outcome (List Op)
  | [] => ⟨d, .ok inverses, []⟩
  | op :: ops =>
    let o := applyUndoing undo registry (stamps.below index) d op
    match o.result with
    | .ok inverse =>
      (applyFrom undo registry stamps o.document (index + 1) (inverse :: inverses) ops).after
        o.rollbacks
    | .error source =>
      (rollBack undo stamps (.batchFailed index op.typeName source) o.document inverses).after
        o.rollbacks
end

/-- Applies an operation while undoing, where undoing may be `levels` deep. -/
def undoWithin : (levels : Nat) → Applier
  | 0 => applyUndoing (fun _ d _ => .reject d .nestedTooDeep) none
  | levels + 1 => applyUndoing (undoWithin levels) none

end Engine

namespace Op

mutual
/-- How deep batches are nested. -/
def nesting : Op → Nat
  | .edit _ _ => 0
  | .batch _ ops => nestingOf ops + 1

def nestingOf : List Op → Nat
  | [] => 0
  | op :: ops => max (nesting op) (nestingOf ops)
end

/-- Undoing nests no deeper than this: the inverse of a batch is nested as deep as the batch, or
one deeper where it takes back a deletion, and undoing that inverse is as deep as the batch. -/
def undoLevels (nesting : Nat) : Nat := 2 * nesting + 2

end Op

namespace Document

/-- Applies one operation. The result is the operation that takes it back. -/
def apply (registry : Option Registry) (stamps : Stamps) (d : Document) (op : Op) : Outcome Op :=
  Engine.applyUndoing (Engine.undoWithin (Op.undoLevels op.nesting)) registry stamps d op

/-- Applies operations in order, all or none. The results are the inverses in the same order. -/
def applyAll (registry : Option Registry) (stamps : Stamps) (d : Document) (ops : List Op) :
    Outcome (List Op) :=
  (Engine.applyFrom (Engine.undoWithin (Op.undoLevels (Op.nestingOf ops + 1))) registry stamps d 0
    [] ops).map List.reverse

end Document
end SceneGraph

import SceneGraph.EditEngine

/-!
# A document with its undo and redo history

A `History` is a document with the operations that take back what was done to it, and those that do
again what was taken back. Every accepted call adds one entry and forgets what could be done again.
-/
namespace SceneGraph

/-- Each entry holds the operations that take one step back, or forth again, in the order in which
they are applied. The latest entry stands first. -/
structure History where
  document : Document
  undoable : List (List Op)
  redoable : List (List Op)

namespace History

def start (d : Document) : History := ⟨d, [], []⟩

/-- Applies one operation as a step of its own. -/
def apply (registry : Option Registry) (stamps : Stamps) (h : History) (op : Op) :
    History × Outcome Op :=
  let o := h.document.apply registry stamps op
  match o.result with
  | .ok inverse => (⟨o.document, [inverse] :: h.undoable, []⟩, o)
  | .error _ => ({ h with document := o.document }, o)

/-- Applies operations together as one step. -/
def applyAll (registry : Option Registry) (stamps : Stamps) (h : History) (ops : List Op) :
    History × Outcome (List Op) :=
  let o := h.document.applyAll registry stamps ops
  match o.result with
  | .ok inverses => (⟨o.document, inverses.reverse :: h.undoable, []⟩, o)
  | .error _ => ({ h with document := o.document }, o)

/-- Takes the latest step back. Its entry is used up even if that fails. -/
def undo? (stamps : Stamps) (h : History) : Option (History × Outcome (List Op)) :=
  match h.undoable with
  | [] => none
  | entry :: undoable =>
    let o := h.document.applyAll none stamps entry
    match o.result with
    | .ok inverses => some (⟨o.document, undoable, inverses.reverse :: h.redoable⟩, o)
    | .error _ => some (⟨o.document, undoable, h.redoable⟩, o)

/-- Takes the latest step forth again. -/
def redo? (stamps : Stamps) (h : History) : Option (History × Outcome (List Op)) :=
  match h.redoable with
  | [] => none
  | entry :: redoable =>
    let o := h.document.applyAll none stamps entry
    match o.result with
    | .ok inverses => some (⟨o.document, inverses.reverse :: h.undoable, redoable⟩, o)
    | .error _ => some (⟨o.document, h.undoable, redoable⟩, o)

end History
end SceneGraph

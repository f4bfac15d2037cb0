import SceneGraph.EditHistories
import SceneGraph.Proofs.Rejections

/-!
# Histories: undo and redo go back and forth through the documents that there have been

A history keeps one document and, for each step, the operations that take it back or do it again.
What it stands for is a timeline: the document with those that came before it and those that were
taken back. One request to a history does to the document what one move does on the timeline, and so
does any sequence of them. In particular undoing and redoing are never rejected.
-/
namespace SceneGraph

/-- A document, those before it, the latest first, and those that were taken back, the next one
first. -/
structure Timeline where
  past : List Document
  present : Document
  future : List Document

namespace Timeline

def start (d : Document) : Timeline := ⟨[], d, []⟩

/-- A new document forgets those that were taken back. -/
def goOn (t : Timeline) (d : Document) : Timeline := ⟨t.present :: t.past, d, []⟩

def back : Timeline → Timeline
  | ⟨d :: past, present, future⟩ => ⟨past, d, present :: future⟩
  | t => t

def forth : Timeline → Timeline
  | ⟨past, present, d :: future⟩ => ⟨present :: past, d, future⟩
  | t => t

end Timeline

/-- What a history is asked to do. -/
inductive Request
  | call (c : Call)
  | undo (stamps : Stamps)
  | redo (stamps : Stamps)

namespace Request

/-- The history that a request leaves, whether or not it is accepted. -/
def run (h : History) : Request → History
  | call (.one registry stamps op) => (h.apply registry stamps op).1
  | call (.many registry stamps ops) => (h.applyAll registry stamps ops).1
  | undo stamps => ((h.undo? stamps).map Prod.fst).getD h
  | redo stamps => ((h.redo? stamps).map Prod.fst).getD h

/-- Accepted calls lead on, and rejected ones nowhere. -/
def move (t : Timeline) : Request → Timeline
  | call c => if c.error? t.present = none then t.goOn (c.run t.present) else t
  | undo _ => t.back
  | redo _ => t.forth

def ops : Request → List Op
  | call c => c.ops
  | undo _ | redo _ => []

end Request

namespace Document
variable {registry : Option Registry} {stamps : Stamps} {d d₁ : Document} {ops : List Op}

theorem LeadsTo.wellFormed (h : d.LeadsTo ops d₁) (hd : d.WellFormed) : d₁.WellFormed := by
  obtain ⟨-, _, ht⟩ := h
  exact ht.wellFormed hd

/-- What an accepted operation returns leads back. -/
theorem leadsTo_of_apply (hd : d.WellFormed) {op inverse : Op}
    (hr : ∀ e ∈ op.steps, ∀ d, e.Reversible d)
    (h : (d.apply registry stamps op).result = .ok inverse) :
    (d.apply registry stamps op).document.WellFormed ∧
      (d.apply registry stamps op).document.LeadsTo [inverse] d := by
  obtain ⟨hrow, -, hu⟩ := Engine.row_of_applyUndoing stamps op h
  have ht := Trace.of_row hr hrow
  refine ⟨ht.wellFormed hd, ⟨hu, trivial⟩, ?_⟩
  rw [Op.stepsOf_cons, Op.stepsOf_nil, List.append_nil]
  exact ht.reverse hd

/-- Entries of a history, each of which leads to the next of some documents. -/
inductive Passes : Document → List (List Op) → List Document → Prop
  | nil {d : Document} : Passes d [] []
  | cons {d d' : Document} {entry : List Op} {entries : List (List Op)} {later : List Document}
      (hfirst : d.LeadsTo entry d') (hrest : Passes d' entries later) :
      Passes d (entry :: entries) (d' :: later)

theorem Passes.eq_nil {entries : List (List Op)} (h : d.Passes entries []) : entries = [] := by
  cases h
  rfl

end Document

namespace History
variable {h : History} {t : Timeline} {d d' : Document} {past future : List Document}

/-- The entries of a history lead through the documents of a timeline. -/
structure Holds (h : History) (t : Timeline) : Prop where
  present : h.document = t.present
  wellFormed : h.document.WellFormed
  undoable : h.document.Passes h.undoable t.past
  redoable : h.document.Passes h.redoable t.future

theorem holds_start (hd : d.WellFormed) : (start d).Holds (.start d) := ⟨rfl, hd, .nil, .nil⟩

theorem Holds.undo?_eq_none {d : Document} (hh : h.Holds ⟨[], d, future⟩) (stamps : Stamps) :
    h.undo? stamps = none := by
  have hnil : h.undoable = [] := hh.undoable.eq_nil
  simp only [undo?, hnil]

theorem Holds.redo?_eq_none {d : Document} (hh : h.Holds ⟨past, d, []⟩) (stamps : Stamps) :
    h.redo? stamps = none := by
  have hnil : h.redoable = [] := hh.redoable.eq_nil
  simp only [redo?, hnil]

/-- The latest step is taken back by whatever undoing it takes. -/
theorem Holds.undo (hh : h.Holds ⟨d' :: past, d, future⟩) (stamps : Stamps) :
    ∃ h' again, h.undo? stamps = some (h', ⟨d', .ok again, []⟩) ∧
      h'.Holds ⟨past, d', d :: future⟩ := by
  obtain ⟨document, undoable, redoable⟩ := h
  obtain ⟨rfl, hd, hback, hforth⟩ := hh
  cases hback with
  | @cons _ _ entry undoable _ hfirst hrest =>
    obtain ⟨again, ha, hagain⟩ := hfirst.applyAll hd stamps
    refine ⟨⟨d', undoable, again.reverse :: redoable⟩, again, ?_, rfl, hfirst.wellFormed hd, hrest,
      .cons hagain hforth⟩
    simp only [undo?, ha]

/-- The latest step that was taken back is done again. -/
theorem Holds.redo (hh : h.Holds ⟨past, d, d' :: future⟩) (stamps : Stamps) :
    ∃ h' again, h.redo? stamps = some (h', ⟨d', .ok again, []⟩) ∧
      h'.Holds ⟨d :: past, d', future⟩ := by
  obtain ⟨document, undoable, redoable⟩ := h
  obtain ⟨rfl, hd, hback, hforth⟩ := hh
  cases hforth with
  | @cons _ _ entry redoable _ hfirst hrest =>
    obtain ⟨again, ha, hagain⟩ := hfirst.applyAll hd stamps
    refine ⟨⟨d', again.reverse :: undoable, redoable⟩, again, ?_, rfl, hfirst.wellFormed hd,
      .cons hagain hback, hrest⟩
    simp only [redo?, ha]

theorem Holds.call (hh : h.Holds t) {c : Call} (hr : ∀ e ∈ Op.stepsOf c.ops, ∀ d, e.Reversible d) :
    (Request.run h (.call c)).Holds (Request.move t (.call c)) := by
  obtain ⟨document, undoable, redoable⟩ := h
  obtain ⟨past, present, future⟩ := t
  obtain ⟨rfl, hd, hback, hforth⟩ := hh
  replace hd : document.WellFormed := hd
  cases c with
  | one registry stamps op =>
    have hr' : ∀ e ∈ op.steps, ∀ d, e.Reversible d := by simpa [Call.ops] using hr
    cases ho : (document.apply registry stamps op).result with
    | ok inverse =>
      obtain ⟨hd₁, hfirst⟩ := Document.leadsTo_of_apply hd hr' ho
      simp only [Request.run, apply, Request.move, Call.error?, ho, Call.run]
      exact ⟨rfl, hd₁, .cons hfirst hback, .nil⟩
    | error error =>
      obtain ⟨hsame, -⟩ := Document.apply_rejected hd hr' ho
      simp only [Request.run, apply, Request.move, Call.error?, ho, hsame, reduceCtorEq, if_false]
      exact ⟨rfl, hd, hback, hforth⟩
  | many registry stamps ops =>
    have hr' : ∀ e ∈ Op.stepsOf ops, ∀ d, e.Reversible d := hr
    cases ho : (document.applyAll registry stamps ops).result with
    | ok inverses =>
      obtain ⟨hd₁, hfirst⟩ := Document.leadsTo_of_applyAll hd hr' ho
      simp only [Request.run, applyAll, Request.move, Call.error?, ho, Call.run]
      exact ⟨rfl, hd₁, .cons hfirst hback, .nil⟩
    | error error =>
      obtain ⟨hsame, -⟩ := Document.applyAll_rejected hd hr' ho
      simp only [Request.run, applyAll, Request.move, Call.error?, ho, hsame, reduceCtorEq, if_false]
      exact ⟨rfl, hd, hback, hforth⟩

/-- One request does to a history what one move does on the timeline that it holds. -/
theorem Holds.run (hh : h.Holds t) {r : Request}
    (hr : ∀ e ∈ Op.stepsOf r.ops, ∀ d, e.Reversible d) : (r.run h).Holds (r.move t) := by
  obtain ⟨past, d, future⟩ := t
  cases r with
  | call c => exact hh.call hr
  | undo stamps =>
    cases past with
    | nil =>
      have hnone : h.undo? stamps = none := hh.undo?_eq_none stamps
      simpa [Request.run, hnone, Request.move, Timeline.back] using hh
    | cons d' past =>
      obtain ⟨h', again, hu, hh'⟩ := hh.undo stamps
      simpa [Request.run, hu, Request.move, Timeline.back] using hh'
  | redo stamps =>
    cases future with
    | nil =>
      have hnone : h.redo? stamps = none := hh.redo?_eq_none stamps
      simpa [Request.run, hnone, Request.move, Timeline.forth] using hh
    | cons d' future =>
      obtain ⟨h', again, hu, hh'⟩ := hh.redo stamps
      simpa [Request.run, hu, Request.move, Timeline.forth] using hh'

/-- So do any requests, one after the other. -/
theorem Holds.runs (hh : h.Holds t) {requests : List Request}
    (hr : ∀ r ∈ requests, ∀ e ∈ Op.stepsOf r.ops, ∀ d, e.Reversible d) :
    (requests.foldl Request.run h).Holds (requests.foldl Request.move t) := by
  induction requests generalizing h t with
  | nil => exact hh
  | cons r requests ih =>
    obtain ⟨hfirst, hrest⟩ := List.forall_mem_cons.mp hr
    exact ih (hh.run hfirst) hrest

/-- A history that starts from a document that was read, and is asked for operations that were
read, goes through the documents of its timeline. -/
theorem holds_of_wasRead (hd : d.WellRead) {requests : List Request}
    (hread : ∀ r ∈ requests, ∀ op ∈ r.ops, op.WasRead)
    (hk : ∀ r ∈ requests, ∀ e ∈ Op.stepsOf r.ops, e.removesKeyframe = false) :
    (requests.foldl Request.run (start d)).Holds (requests.foldl Request.move (.start d)) :=
  (holds_start hd.wellFormed).runs fun r hr =>
    Op.reversible_of_wasRead (hread r hr) (hk r hr)

end History
end SceneGraph

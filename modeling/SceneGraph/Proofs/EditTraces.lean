import SceneGraph.Proofs.AnimationTracks
import SceneGraph.Proofs.FiniteReading

/-!
# Edit traces: edits in a row, and the rows of edits that can all be taken back

`Edit.applyRow` applies edits one after the other, with no operations around them, and gathers those
that take them back. A `Trace` is a row in which every edit can be taken back: what is created has a
place that JSON has a form for, and a keyframe that is removed could be added again.
-/
namespace SceneGraph

/-- What the way back from an edit depends on: numbers that can be written as JSON, and, where a
keyframe is removed, one that could be added again. -/
def Edit.Reversible (d : Document) : Edit → Prop
  | .createEntity n => (Edit.createEntity n).Finite
  | .removeKeyframe id track time _ => ∀ e, d.entity? id = some e → e.Restorable track time
  | _ => True

namespace Edit

/-- Applies edits in a row, each to what the one before has left, and gathers those that take them
back, the last one's first. The first edit that is rejected ends the row. -/
def applyRow (registry : Option Registry) : Document → List Edit →
    Except OpError (Document × List Edit)
  | d, [] => .ok (d, [])
  | d, e :: edits =>
    match e.apply registry d with
    | .error error => .error error
    | .ok a => (applyRow registry a.document edits).map fun row =>
      (row.1, row.2 ++ a.inverse :: a.sequel)

variable {registry : Option Registry} {d d₂ : Document} {e : Edit}
  {edits edits' back : List Edit}

theorem applyRow_single : applyRow registry d [e] =
    (e.apply registry d).map fun a => (a.document, a.inverse :: a.sequel) := by
  cases h : e.apply registry d <;> simp [applyRow, h, Except.map]

/-- A row of edits goes on where the row before it has come to. -/
theorem applyRow_append : applyRow registry d (edits ++ edits') =
    applyRow registry d edits >>= fun row =>
      (applyRow registry row.1 edits').map fun next => (next.1, next.2 ++ row.2) := by
  induction edits generalizing d with
  | nil => cases h : applyRow registry d edits' <;> simp [applyRow, h, Except.map]
  | cons e edits ih =>
    cases ha : e.apply registry d with
    | error error => simp only [List.cons_append, applyRow, ha]; rfl
    | ok a =>
      simp only [List.cons_append, applyRow, ha, ih]
      cases applyRow registry a.document edits with
      | error error => rfl
      | ok row => cases h : applyRow registry row.1 edits' <;> simp [h, Except.map]

theorem applyRow_append_ok_iff : applyRow registry d (edits ++ edits') = .ok (d₂, back) ↔
    ∃ d₁ earlier later, applyRow registry d edits = .ok (d₁, earlier) ∧
      applyRow registry d₁ edits' = .ok (d₂, later) ∧ back = later ++ earlier := by
  simp only [applyRow_append, bind_ok_iff, map_ok_iff, Prod.exists, Prod.mk.injEq]
  constructor
  · rintro ⟨d₁, earlier, he, _, later, hl, rfl, rfl⟩
    exact ⟨d₁, earlier, later, he, hl, rfl⟩
  · rintro ⟨d₁, earlier, later, he, hl, rfl⟩
    exact ⟨d₁, earlier, he, d₂, later, hl, rfl, rfl⟩

end Edit

/-- Edits accepted one after the other, and those that take them back, the last one's first. -/
inductive Trace (registry : Option Registry) :
    Document → List Edit → Document → List Edit → Prop
  | nil {d : Document} : Trace registry d [] d []
  | cons {d d' : Document} {e : Edit} {edits back : List Edit} {a : Applied}
      (hr : e.Reversible d) (ha : e.apply registry d = .ok a)
      (ht : Trace registry a.document edits d' back) :
      Trace registry d (e :: edits) d' (back ++ a.inverse :: a.sequel)

/-- What takes an edit back is accepted and leads to a document. -/
def Applied.LeadsBack (a : Applied) (d : Document) : Prop :=
  ∃ forth, Trace none a.document (a.inverse :: a.sequel) d forth

namespace Trace
variable {registry : Option Registry} {d d₁ d₂ : Document} {e : Edit}
  {edits edits' back back' : List Edit} {a : Applied}

/-- Traces are rows of edits that can all be taken back. -/
theorem row (h : Trace registry d edits d₁ back) :
    Edit.applyRow registry d edits = .ok (d₁, back) := by
  induction h with
  | nil => rfl
  | cons hr ha _ ih => simp [Edit.applyRow, ha, ih, Except.map]

theorem of_row (hr : ∀ e ∈ edits, ∀ d, e.Reversible d)
    (h : Edit.applyRow registry d edits = .ok (d₁, back)) : Trace registry d edits d₁ back := by
  induction edits generalizing d back with
  | nil =>
    obtain ⟨rfl, rfl⟩ := Prod.mk.inj (Except.ok.inj h)
    exact .nil
  | cons e edits ih =>
    obtain ⟨he, hedits⟩ := List.forall_mem_cons.mp hr
    cases ha : e.apply registry d with
    | error error => simp [Edit.applyRow, ha] at h
    | ok a =>
      simp only [Edit.applyRow, ha, map_ok_iff, Prod.exists, Prod.mk.injEq] at h
      obtain ⟨_, later, hl, rfl, rfl⟩ := h
      exact .cons (he d) ha (ih hedits hl)

theorem append (h : Trace registry d edits d₁ back) (h' : Trace registry d₁ edits' d₂ back') :
    Trace registry d (edits ++ edits') d₂ (back' ++ back) := by
  induction h with
  | nil => simpa using h'
  | cons hr ha ht ih =>
    rw [← List.append_assoc]
    exact .cons hr ha (ih h')

/-- An edit without a sequel leads back when its inverse does. -/
theorem leadsBack {b : Applied} (hs : a.sequel = []) (hr : a.inverse.Reversible a.document)
    (hb : a.inverse.apply none a.document = .ok b) (hd : b.document = d) : a.LeadsBack d :=
  ⟨_, by rw [hs, ← hd]; exact .cons hr hb .nil⟩

end Trace
end SceneGraph

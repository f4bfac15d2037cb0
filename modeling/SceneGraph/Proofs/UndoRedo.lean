import SceneGraph.Proofs.ContentReversals
import SceneGraph.Proofs.DocumentReading
import SceneGraph.Proofs.EngineTraces

/-!
# Undo and redo: lists of operations are taken back and forth exactly

The inverses that an accepted list of operations returns are accepted, last first, and bring back
the document as it was, and what they return in turn brings forth the changed one. This takes a
trace: keyframes are not removed, and new entities are placed by numbers that have a JSON form, as
they are wherever operations were read. A lamp that is placed otherwise shows that it cannot be left
out.
-/
namespace SceneGraph

namespace Edit

def removesKeyframe : Edit → Bool
  | removeKeyframe .. => true
  | _ => false

theorem reversible_of_finite {e : Edit} (hf : e.Finite) (hk : e.removesKeyframe = false)
    (d : Document) : e.Reversible d := by
  cases e with
  | createEntity n => exact hf
  | removeKeyframe => contradiction
  | _ => trivial

end Edit

namespace Op

theorem reversible_stepsOf {ops : List Op} (hf : ∀ op ∈ ops, op.Finite)
    (hk : ∀ e ∈ stepsOf ops, e.removesKeyframe = false) (e : Edit) (he : e ∈ stepsOf ops)
    (d : Document) : e.Reversible d := by
  refine Edit.reversible_of_finite ?_ (hk e he) d
  induction ops with
  | nil => simp at he
  | cons op ops ih =>
    obtain ⟨hop, hops⟩ := List.forall_mem_cons.mp hf
    rw [stepsOf_cons] at he hk
    rcases List.mem_append.mp he with he | he
    · obtain ⟨⟨envelope, e⟩, hm, rfl⟩ := List.mem_map.mp he
      exact hop _ hm
    · exact ih hops (fun e he => hk e (List.mem_append_right _ he)) he

theorem reversible_of_wasRead {ops : List Op} (hread : ∀ op ∈ ops, op.WasRead)
    (hk : ∀ e ∈ stepsOf ops, e.removesKeyframe = false) (e : Edit) (he : e ∈ stepsOf ops)
    (d : Document) : e.Reversible d :=
  reversible_stepsOf (fun op hop => (hread op hop).finite) hk e he d

/-- A lamp is created at a place that JSON has no form for, and is put right afterwards. -/
def strayLamp : List Op :=
  [.edit .plain (.createEntity ⟨"lamp", "Lamp", some "root", none,
      some { Transform.identity with position := ⟨⟨0x7ff8000000000000⟩, 0, 0⟩ }, .nil, none, none,
      none⟩),
    .edit .plain (.write "lamp" "transform.position.x" (.real 1))]

end Op

namespace Document
variable {registry : Option Registry} {stamps : Stamps} {d d₁ : Document}
  {ops inverses : List Op} {rollbacks : List Rollback}

/-- Operations whose edits are accepted in a row are accepted together. -/
theorem applyAll_of_row (stamps : Stamps) {back : List Edit}
    (h : Edit.applyRow registry d (Op.stepsOf ops) = .ok (d₁, back)) (hu : Op.UpToDateAll ops) :
    ∃ inverses : List Op, d.applyAll registry stamps ops = ⟨d₁, .ok inverses, []⟩ ∧
      Op.stepsOf inverses.reverse = back ∧ Op.UpToDateAll inverses.reverse := by
  obtain ⟨later, hl, hs, hv⟩ := Engine.applyFrom_of_row stamps 0 [] ops hu h
  refine ⟨later.reverse, ?_, by rwa [List.reverse_reverse], by rwa [List.reverse_reverse]⟩
  rw [applyAll, hl, List.append_nil]
  rfl

/-- Operations that lead from one document to another, and can be taken back. -/
def LeadsTo (d : Document) (ops : List Op) (d' : Document) : Prop :=
  Op.UpToDateAll ops ∧ ∃ back, Trace none d (Op.stepsOf ops) d' back

/-- Operations that lead somewhere are accepted, and what they return leads back. -/
theorem LeadsTo.applyAll {d' : Document} (h : d.LeadsTo ops d') (hd : d.WellFormed)
    (stamps : Stamps) : ∃ again, d.applyAll none stamps ops = ⟨d', .ok again, []⟩ ∧
      d'.LeadsTo again.reverse d := by
  obtain ⟨hu, back, ht⟩ := h
  obtain ⟨again, ha, rfl, hv⟩ := applyAll_of_row stamps ht.row hu
  exact ⟨again, ha, hv, ht.reverse hd⟩

/-- Operations that lead somewhere are taken back by what they return, and done again by what that
returns. -/
theorem LeadsTo.back_and_forth (h : d₁.LeadsTo ops d) (hd₁ : d₁.WellFormed) (hd : d.WellFormed)
    (undoStamps redoStamps : Stamps) :
    ∃ again, d₁.applyAll none undoStamps ops = ⟨d, .ok again, []⟩ ∧
      ∃ last, d.applyAll none redoStamps again.reverse = ⟨d₁, .ok last, []⟩ := by
  obtain ⟨again, ha, hforth⟩ := h.applyAll hd₁ undoStamps
  obtain ⟨last, hl, -⟩ := hforth.applyAll hd redoStamps
  exact ⟨again, ha, last, hl⟩

/-- The inverses of accepted operations, last first, lead back. -/
theorem leadsTo_of_applyAll (hd : d.WellFormed) (hr : ∀ e ∈ Op.stepsOf ops, ∀ d, e.Reversible d)
    (h : (d.applyAll registry stamps ops).result = .ok inverses) :
    (d.applyAll registry stamps ops).document.WellFormed ∧
      (d.applyAll registry stamps ops).document.LeadsTo inverses.reverse d := by
  obtain ⟨found, hfound, rfl⟩ := map_ok_iff.mp h
  obtain ⟨later, hl, hrow, -, hu⟩ := Engine.row_of_applyFrom stamps 0 [] ops hfound
  obtain rfl : found = later := hl.trans (List.append_nil later)
  have ht := Trace.of_row hr hrow
  rw [List.reverse_reverse]
  exact ⟨ht.wellFormed hd, hu, ht.reverse hd⟩

/-- Where all edits can be taken back, accepted operations are taken back and done again. -/
theorem undo_and_redo_of_reversible (hd : d.WellFormed)
    (hr : ∀ e ∈ Op.stepsOf ops, ∀ d, e.Reversible d)
    (h : d.applyAll registry stamps ops = ⟨d₁, .ok inverses, rollbacks⟩)
    (undoStamps redoStamps : Stamps) :
    ∃ again, d₁.applyAll none undoStamps inverses.reverse = ⟨d, .ok again, []⟩ ∧
      ∃ last, d.applyAll none redoStamps again.reverse = ⟨d₁, .ok last, []⟩ := by
  obtain ⟨hd₁, hback⟩ := leadsTo_of_applyAll hd hr (congrArg Outcome.result h)
  rw [h] at hd₁ hback
  exact hback.back_and_forth hd₁ hd undoStamps redoStamps

/-- The inverses of accepted operations, last first, are accepted and bring back the document as
it was; and what they return brings forth the changed document again. New entities have to be placed
by numbers that have a JSON form. -/
theorem undo_and_redo (hd : d.WellFormed) (hf : ∀ op ∈ ops, op.Finite)
    (hk : ∀ e ∈ Op.stepsOf ops, e.removesKeyframe = false)
    (h : d.applyAll registry stamps ops = ⟨d₁, .ok inverses, rollbacks⟩)
    (undoStamps redoStamps : Stamps) :
    ∃ again, d₁.applyAll none undoStamps inverses.reverse = ⟨d, .ok again, []⟩ ∧
      ∃ last, d.applyAll none redoStamps again.reverse = ⟨d₁, .ok last, []⟩ :=
  undo_and_redo_of_reversible hd (Op.reversible_stepsOf hf hk) h undoStamps redoStamps

/-- A lamp is created below the root, renamed in a batch and deleted again. -/
theorem lamp_undo_and_redo :
    let d := ofIds "scene" "root" "Scene"
    let ops : List Op := [.edit .plain (.create "lamp" "Lamp" "root"),
      .batch .plain [.edit .plain (.write "lamp" "name" (.str "Light")),
        .edit .plain (.delete "lamp")]]
    d.WellFormed ∧ (∀ op ∈ ops, op.Finite) ∧
      (∀ e ∈ Op.stepsOf ops, e.removesKeyframe = false) ∧
      ∃ d₁ inverses, d.applyAll none .plain ops = ⟨d₁, .ok inverses, []⟩ ∧
        ∃ again, d₁.applyAll none .plain inverses.reverse = ⟨d, .ok again, []⟩ ∧
          ∃ last, d.applyAll none .plain again.reverse = ⟨d₁, .ok last, []⟩ := by
  intro d ops
  have hd : d.WellFormed := wellFormed_ofIds "scene" "root" "Scene"
  have hf : ∀ op ∈ ops, op.Finite := by decide
  have hk : ∀ e ∈ Op.stepsOf ops, e.removesKeyframe = false := by decide
  exact ⟨hd, hf, hk, _, _, rfl, undo_and_redo hd hf hk rfl .plain .plain⟩

/-- A write that puts the lamp right tells null as what it replaced, for want of a JSON form. No place
is null, so the write cannot be taken back. -/
theorem strayLamp_not_undone :
    let d := ofIds "scene" "root" "Scene"
    d.WellFormed ∧ (∀ e ∈ Op.stepsOf Op.strayLamp, e.removesKeyframe = false) ∧
      ∃ d₁ inverses rollbacks, d.applyAll none .plain Op.strayLamp = ⟨d₁, .ok inverses, rollbacks⟩ ∧
        (d₁.applyAll none .plain inverses.reverse).result.isOk = false := by
  intro d
  have hd : d.WellFormed := wellFormed_ofIds "scene" "root" "Scene"
  have hk : ∀ e ∈ Op.stepsOf Op.strayLamp, e.removesKeyframe = false := by decide
  let o := d.applyAll none .plain Op.strayLamp
  have hlost : (o.result.map fun inverses =>
      (o.document.applyAll none .plain inverses.reverse).result.isOk).toOption = some false := by
    decide +kernel
  cases ho : o.result with
  | error error => simp [ho, Except.map, Except.toOption] at hlost
  | ok inverses =>
    rw [ho] at hlost
    exact ⟨hd, hk, o.document, inverses, o.rollbacks, by rw [← ho], Option.some.inj hlost⟩

/-- Documents and operations that were read hold no other numbers, so all of these are taken back
and done again. -/
theorem undo_and_redo_of_wasRead (hd : d.WellRead) (hread : ∀ op ∈ ops, op.WasRead)
    (hk : ∀ e ∈ Op.stepsOf ops, e.removesKeyframe = false)
    (h : d.applyAll registry stamps ops = ⟨d₁, .ok inverses, rollbacks⟩)
    (undoStamps redoStamps : Stamps) :
    ∃ again, d₁.applyAll none undoStamps inverses.reverse = ⟨d, .ok again, []⟩ ∧
      ∃ last, d.applyAll none redoStamps again.reverse = ⟨d₁, .ok last, []⟩ :=
  undo_and_redo_of_reversible hd.wellFormed (Op.reversible_of_wasRead hread hk) h undoStamps
    redoStamps

end Document
end SceneGraph

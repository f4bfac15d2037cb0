import SceneGraph.Proofs.ContentReversals
import SceneGraph.Proofs.Rejections

/-!
# Keyframe removals: which of them can be taken back

Lists that were read may hold keyframes which could not be added. `keyframe_removal_undone_iff` says
that removing a keyframe can be taken back exactly when it is restorable. Otherwise its inverse is
rejected, and a batch that fails after the removal does not get rid of it.
-/
namespace SceneGraph

/-- The removal of a keyframe from the document takes one that could be added again where it stood. -/
def Document.Restorable (d : Document) (id track : String) (time : Binary64) : Prop :=
  ∃ e, d.entity? id = some e ∧ e.Restorable track time

namespace Edit
open Document
variable {d : Document} {id track : String} {time : Binary64} {a : Applied} {old : Option Json}
  {registry : Option Registry}

/-- The inverse of a removal is accepted exactly when the keyframe is restorable; then it brings
back the document, and otherwise nothing happens. -/
theorem inverse_of_removeKeyframe (h : (removeKeyframe id track time old).apply registry d = .ok a) :
    a.sequel = [] ∧ a.document ≠ d ∧
      (d.Restorable id track time → ∃ b, a.inverse.apply none a.document = .ok b ∧ b.document = d) ∧
      (¬ d.Restorable id track time → ∃ error, a.inverse.apply none a.document = .error error) := by
  obtain ⟨e, e', i, k, he, hk, rfl⟩ := applyRemoveKeyframe_ok_iff.mp h
  have he' := entity?_putEntity_self d id e'
  have hrestorable : d.Restorable id track time ↔ e.Restorable track time := by
    simp [Document.Restorable, he]
  rw [hrestorable]
  refine ⟨rfl, ?_, fun hr => ?_, fun hr => ?_⟩
  · rintro (hsame : d.putEntity id e' = d)
    rw [hsame] at he'
    exact Entity.removeKeyframe_ne hk (Option.some.inj (he'.symm.trans he))
  · have hadd := (Entity.addKeyframe_of_remove hk).mpr ⟨hr, rfl⟩
    exact ⟨_, applyAddKeyframe_ok_iff.mpr ⟨e', e, i, he', hadd, rfl⟩, putEntity_back he e'⟩
  · cases hb : applyAddKeyframe (d.putEntity id e') id track k (some i) with
    | error error => exact ⟨error, hb⟩
    | ok b =>
      obtain ⟨e₁, e₂, j, he₁, hadd, -⟩ := applyAddKeyframe_ok_iff.mp hb
      obtain rfl : e' = e₁ := Option.some.inj (he'.symm.trans he₁)
      exact absurd ((Entity.addKeyframe_of_remove hk).mp hadd).1 hr

end Edit

namespace Document
variable {registry : Option Registry} {d d₁ : Document} {stamps : Stamps} {envelope : Envelope}
  {rollbacks : List Rollback}

section Pair
variable {first second inverse again : Op} {source lost : OpError}
  (hv : envelope.version ≤ currentOpVersion)
  (hf : d.apply registry (stamps.below 0) first = ⟨d₁, .ok inverse, []⟩)
  (hr : d₁.apply registry (stamps.below 1) second = ⟨d₁, .error source, rollbacks⟩)
include hv hf hr

/-- A batch that is rejected at its second operation takes the first one back. -/
theorem batch_taken_back (hu : d₁.apply none stamps inverse = ⟨d, .ok again, []⟩) :
    d.apply registry stamps (.batch envelope [first, second]) =
      ⟨d, .error (.batchFailed 1 second.typeName source),
        rollbacks ++ [⟨1, .batchFailed 1 second.typeName source⟩]⟩ := by
  have hu' : undoing stamps d₁ inverse = ⟨d, .ok again, []⟩ := hu
  rw [apply_eq] at hf hr ⊢
  rw [Engine.applyUndoing, if_neg (Nat.not_lt.mpr hv)]
  simp [Engine.applyFrom, hf, hr, Outcome.reject, Engine.rollBack, Engine.undoAll, hu',
    Outcome.after, Outcome.map, Except.map]

/-- Where the first one cannot be taken back, what it did remains. -/
theorem batch_lost (hu : d₁.apply none stamps inverse = .reject d₁ lost) :
    d.apply registry stamps (.batch envelope [first, second]) =
      ⟨d₁, .error (.rollbackFailed (.batchFailed 1 second.typeName source) lost),
        rollbacks ++ [⟨1, .batchFailed 1 second.typeName source⟩]⟩ := by
  have hu' : undoing stamps d₁ inverse = .reject d₁ lost := hu
  rw [apply_eq] at hf hr ⊢
  rw [Engine.applyUndoing, if_neg (Nat.not_lt.mpr hv)]
  simp [Engine.applyFrom, hf, hr, Outcome.reject, Engine.rollBack, Engine.undoAll, hu',
    Outcome.after, Outcome.map, Except.map]

end Pair

variable {id track : String} {time : Binary64} {old : Option Json} {inverse : Op}

/-- Removing a keyframe can be taken back exactly when the keyframe is restorable. Otherwise its
inverse is rejected, and a batch in which the operation after the removal is rejected does not get
the keyframe back: it fails with a rollback that has failed. -/
theorem keyframe_removal_undone_iff {removed : List Rollback}
    (h : d.apply registry stamps (.edit envelope (.removeKeyframe id track time old)) =
      ⟨d₁, .ok inverse, removed⟩)
    {batchEnvelope : Envelope} (hv : batchEnvelope.version ≤ currentOpVersion)
    {batchStamps : Stamps} {next : Op} {source : OpError}
    (hr : d₁.apply registry (batchStamps.below 1) next = ⟨d₁, .error source, rollbacks⟩)
    (undoStamps : Stamps) :
    let undone := d₁.apply none undoStamps inverse
    let batch := d.apply registry batchStamps
      (.batch batchEnvelope [.edit envelope (.removeKeyframe id track time old), next])
    let cause := OpError.batchFailed 1 next.typeName source
    (d.Restorable id track time → (∃ again, undone = ⟨d, .ok again, []⟩) ∧
      batch = ⟨d, .error cause, rollbacks ++ [⟨1, cause⟩]⟩) ∧
    (¬ d.Restorable id track time → d₁ ≠ d ∧ ∃ lost, undone = .reject d₁ lost ∧
      batch = ⟨d₁, .error (.rollbackFailed cause lost), rollbacks ++ [⟨1, cause⟩]⟩) := by
  intro undone batch cause
  obtain ⟨hversion, a, ha, rfl, rfl, -⟩ := Engine.applyUndoing_edit_ok_iff.mp h
  obtain ⟨hsequel, hne, hback, hlost⟩ := Edit.inverse_of_removeKeyframe ha
  have hinverse : ∀ stamps, a.inverseOp envelope stamps =
      .edit (envelope.derive stamps.here) a.inverse := by
    intro stamps
    simp [Applied.inverseOp, hsequel]
  have hfirst : d.apply registry (batchStamps.below 0)
      (.edit envelope (.removeKeyframe id track time old)) = ⟨a.document, .ok _, []⟩ :=
    Engine.applyUndoing_edit_ok_iff.mpr ⟨hversion, a, ha, rfl, rfl, rfl⟩
  -- Undoing and rolling back both come down to the inverse edit.
  refine ⟨fun hrestorable => ?_, fun hrestorable => ?_⟩
  · obtain ⟨b, hb, rfl⟩ := hback hrestorable
    have haccepted : ∀ stamps undoStamps, a.document.apply none undoStamps
        (a.inverseOp envelope stamps) =
          ⟨b.document, .ok (b.inverseOp (envelope.derive stamps.here) undoStamps), []⟩ := by
      intro stamps undoStamps
      rw [hinverse]
      exact Engine.applyUndoing_edit_ok_iff.mpr ⟨Nat.le_refl _, b, hb, rfl, rfl, rfl⟩
    exact ⟨⟨_, haccepted _ _⟩, batch_taken_back hv hfirst hr (haccepted _ _)⟩
  · obtain ⟨lost, hb⟩ := hlost hrestorable
    have hrejected : ∀ stamps undoStamps, a.document.apply none undoStamps
        (a.inverseOp envelope stamps) = .reject a.document lost := by
      intro stamps undoStamps
      rw [hinverse]
      exact Engine.applyUndoing_edit_rejected (Nat.le_refl _) hb
    exact ⟨hne, lost, hrejected _ _, batch_lost hv hfirst hr (hrejected _ _)⟩

/-- A scene whose root is animated by one track. -/
def glowing (keyframes : List Json) : Document :=
  let bag (key : String) (value : Json) : Json := .obj (Dict.insert .nil key value)
  (ofIds "scene" "root" "Scene").putEntity "root" { Entity.ofId "root" "Root" with
    components := [(Component.ofType Component.animationType).withProperty KeyframeTrack.tracksKey
      (bag "glow" (bag KeyframeTrack.keyframesKey (.arr keyframes)))] }

/-- On a valid scene, a keyframe without a value is removed and cannot be put back, neither by
undoing the removal nor by the batch that fails after it. -/
theorem valueless_keyframe_lost :
    let d := glowing [.obj (Dict.insert .nil "time" (.int 1))]
    let removal : Op := .edit .plain (.removeKeyframe "root" "glow" 1 none)
    let next : Op := .edit .plain (.delete "root")
    let cause := OpError.batchFailed 1 "DeleteEntity" (.rootImmutable "root" "delete")
    d.isValid = true ∧ ¬ d.Restorable "root" "glow" 1 ∧ ∃ d₁ inverse,
      d.apply none .plain removal = ⟨d₁, .ok inverse, []⟩ ∧ d₁ ≠ d ∧
      ∃ lost, d₁.apply none .plain inverse = .reject d₁ lost ∧
        d.apply none .plain (.batch .plain [removal, next]) =
          ⟨d₁, .error (.rollbackFailed cause lost), [⟨1, cause⟩]⟩ := by
  intro d removal next cause
  have hlost : ¬ d.Restorable "root" "glow" 1 := by
    rintro ⟨e, he, keyframes, hkeyframes, i, k, t, hp, hk, -, -, -, hv, -⟩
    obtain rfl := Option.some.inj he
    obtain rfl := Option.some.inj hkeyframes
    obtain rfl := Option.some.inj hp
    obtain rfl := Option.some.inj hk
    exact Bool.false_ne_true hv
  have hremoved : d.apply none .plain removal = ⟨_, .ok _, []⟩ := rfl
  have hrefused : (d.apply none .plain removal).document.apply none (Stamps.plain.below 1) next =
      ⟨_, .error (.rootImmutable "root" "delete"), []⟩ := rfl
  exact ⟨by decide, hlost, _, _, hremoved,
    (keyframe_removal_undone_iff hremoved (by decide) hrefused .plain).2 hlost⟩

end Document
end SceneGraph

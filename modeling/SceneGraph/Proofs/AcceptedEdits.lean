import SceneGraph.Proofs.ComponentSlots

/-!
# Accepted edits: when properties, assets and keyframes may be changed, and what comes of it

For edits of properties, assets and keyframes, and for moves in whatever document, an equivalence
says when the edit is accepted and what it comes to then. Later proofs take edits apart with these
and do not open the functions behind them.
-/
namespace SceneGraph

theorem Document.writeProperty_ok_iff {d d' : Document} {id path : String} {value : Option Json}
    {w : PropertyWrite} : d.writeProperty id path value = .ok (d', w) ↔
      (id = documentTarget ∧ d.setProperty path value = .ok (d', w)) ∨
        (id ≠ documentTarget ∧ ∃ e e', d.entity? id = some e ∧
          e.setProperty path value = .ok (e', w) ∧ d' = d.putEntity id e') := by
  unfold writeProperty
  split
  · rename_i htarget
    simp [htarget]
  · rename_i htarget
    simp only [htarget, false_and, ne_eq, not_false_eq_true, true_and, false_or, bind_ok_iff,
      getEntity_ok_iff, Prod.exists, pure_ok_iff, Prod.mk.injEq]
    constructor
    · rintro ⟨e, he, e', w', hw, rfl, rfl⟩
      exact ⟨e, e', he, hw, rfl⟩
    · rintro ⟨e, e', he, hw, rfl⟩
      exact ⟨e, he, e', w, hw, rfl, rfl⟩

namespace Edit
open Document
variable {registry : Option Registry} {d : Document} {id path track : String}
  {index : Option Nat} {value : Option Json} {a : Applied}

theorem applySetProperty_ok_iff : applySetProperty d id path value = .ok a ↔
    ∃ d' w, d.writeProperty id path value = .ok (d', w) ∧
      a = ⟨d', .setProperty id w.inversePath w.prior.value w.current, []⟩ := by
  simp only [applySetProperty, bind_ok_iff, Prod.exists, pure_ok_iff, @eq_comm _ _ a]

theorem applyAddAsset_ok_iff {asset : Asset} : applyAddAsset d asset = .ok a ↔
    asset.id ≠ "" ∧ d.assets.find? asset.id = none ∧
      a = ⟨{ d with assets := Dict.insert d.assets asset.id asset },
        .removeAsset asset.id (some asset), []⟩ := by
  simp only [applyAddAsset, bind_ok_iff, ensure_ok_iff, exists_const, pure_ok_iff,
    Bool.not_eq_true', Ascending.not_contains_iff, @eq_comm _ _ a]
  simp

theorem applyRemoveAsset_ok_iff : applyRemoveAsset d id = .ok a ↔
    ∃ asset, d.assets.find? id = some asset ∧
      a = ⟨{ d with assets := d.assets.erase id }, .addAsset asset, []⟩ := by
  unfold applyRemoveAsset
  cases d.assets.find? id <;> simp [eq_comm]

/-- What an accepted move comes to in whatever document; of a forest, `applyReparent_ok_iff` says
more. -/
theorem reparent_outcome {q : String} (ha : applyReparent d id q index = .ok a) :
    ∃ p i i', d.parent? id = some p ∧ a = ⟨((d.updateEntity p
          fun e => { e with children := e.children.eraseIdx i }).updateEntity q
        fun e => { e with children := insertClamped e.children index id }).updateEntity id
      ({ · with parentId := some q }), .reparent id p (some i) (some q) (some i'), []⟩ := by
  obtain ⟨e, he, ha⟩ := bind_ok_iff.mp ha
  obtain ⟨-, ha⟩ := then_ok_iff.mp ha
  split at ha
  · contradiction
  · rename_i p hp
    have hparent : d.parent? id = some p := by
      rw [parent?, getEntity_ok_iff.mp he, Option.bind_some, hp]
    obtain ⟨-, ha⟩ := then_ok_iff.mp ha
    obtain ⟨-, ha⟩ := then_ok_iff.mp ha
    obtain ⟨old, -, ha⟩ := bind_ok_iff.mp ha
    split at ha
    · contradiction
    · obtain ⟨target, -, ha⟩ := bind_ok_iff.mp ha
      exact ⟨p, _, _, hparent, (pure_ok_iff.mp ha).symm⟩

theorem applyAddKeyframe_ok_iff {keyframe : Json} :
    applyAddKeyframe d id track keyframe index = .ok a ↔
    ∃ e e' i, d.entity? id = some e ∧ e.addKeyframe track keyframe index = .ok (e', i) ∧
      a = ⟨d.putEntity id e',
        .removeKeyframe id track ((Keyframe.timeOf? keyframe).getD 0) (some keyframe), []⟩ := by
  simp only [applyAddKeyframe, bind_ok_iff, getEntity_ok_iff, Prod.exists, pure_ok_iff,
    @eq_comm _ _ a, ← exists_and_left]

theorem applyRemoveKeyframe_ok_iff {time : Binary64} :
    applyRemoveKeyframe d id track time = .ok a ↔
    ∃ e e' i k, d.entity? id = some e ∧ e.removeKeyframe track time = .ok (e', i, k) ∧
      a = ⟨d.putEntity id e', .addKeyframe id track k (some i), []⟩ := by
  simp only [applyRemoveKeyframe, bind_ok_iff, getEntity_ok_iff, Prod.exists, pure_ok_iff,
    @eq_comm _ _ a, ← exists_and_left]

theorem applySetKeyframeValue_ok_iff {time : Binary64} {v : Json} :
    applySetKeyframeValue d id track time v = .ok a ↔
    ∃ e e' previous, d.entity? id = some e ∧
      e.setKeyframeValue track time v = .ok (e', previous) ∧
      a = ⟨d.putEntity id e', .setKeyframeValue id track time previous (some v), []⟩ := by
  simp only [applySetKeyframeValue, bind_ok_iff, getEntity_ok_iff, Prod.exists, pure_ok_iff,
    @eq_comm _ _ a, ← exists_and_left]

/-- Only the way back from a deletion takes several edits: a creation and then additions. -/
theorem sequel_cases {e : Edit} (ha : e.apply registry d = .ok a) : a.sequel = [] ∨
    (∃ id old, e = .deleteEntity id old) ∧ (∃ n, a.inverse = .createEntity n) ∧
      ∀ e' ∈ a.sequel, ∃ id c index, e' = .addComponent id c index := by
  cases e with
  | createEntity n =>
    obtain ⟨-, -, -, linked, -, rfl⟩ := applyCreate_ok_iff.mp ha
    exact .inl rfl
  | deleteEntity id old =>
    obtain ⟨e, -, -, -, rfl⟩ := applyDelete_ok_iff.mp ha
    refine .inr ⟨⟨id, old, rfl⟩, ⟨_, rfl⟩, fun e' he => ?_⟩
    obtain ⟨i, hi, rfl⟩ := List.mem_mapIdx.mp he
    exact ⟨_, _, _, rfl⟩
  | setProperty id path value =>
    obtain ⟨d', w, -, rfl⟩ := applySetProperty_ok_iff.mp ha
    exact .inl rfl
  | addChild p c index =>
    obtain ⟨ep, ec, -, -, -, -, -, rfl⟩ := applyAddChild_ok_iff.mp ha
    exact .inl rfl
  | removeChild p c =>
    obtain ⟨ep, ec, i, -, -, -, -, rfl⟩ := applyRemoveChild_ok_iff.mp ha
    exact .inl rfl
  | reparent id p index =>
    obtain ⟨q, i, i', -, rfl⟩ := reparent_outcome ha
    exact .inl rfl
  | addComponent id c index =>
    obtain ⟨e, -, -, -, rfl⟩ := applyAddComponent_ok_iff.mp ha
    exact .inl rfl
  | removeComponent id t index =>
    obtain ⟨e, place, c, -, -, -, -, rfl⟩ := applyRemoveComponent_ok_iff.mp ha
    exact .inl rfl
  | setComponentProperty id t path value =>
    obtain ⟨e, c, c', w, -, -, -, rfl⟩ := applySetComponentProperty_ok_iff.mp ha
    exact .inl rfl
  | addAsset asset =>
    obtain ⟨-, -, rfl⟩ := applyAddAsset_ok_iff.mp ha
    exact .inl rfl
  | removeAsset id =>
    obtain ⟨asset, -, rfl⟩ := applyRemoveAsset_ok_iff.mp ha
    exact .inl rfl
  | replaceAssetRef id t path old new =>
    obtain ⟨steps, e, c, current, -, -, -, -, -, -, rfl⟩ := applyReplaceAssetRef_ok_iff.mp ha
    exact .inl rfl
  | addKeyframe id track keyframe index =>
    obtain ⟨e, e', i, -, -, rfl⟩ := applyAddKeyframe_ok_iff.mp ha
    exact .inl rfl
  | removeKeyframe id track time =>
    obtain ⟨e, e', i, k, -, -, rfl⟩ := applyRemoveKeyframe_ok_iff.mp ha
    exact .inl rfl
  | setKeyframeValue id track time value =>
    obtain ⟨e, e', previous, -, -, rfl⟩ := applySetKeyframeValue_ok_iff.mp ha
    exact .inl rfl

end Edit
end SceneGraph

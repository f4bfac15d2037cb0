import SceneGraph.Proofs.TreeReversals

/-!
# Content reversals: what takes edits of properties, components, assets and keyframes back

For each edit that does not touch the tree it is shown that its inverse is accepted and brings the
document back. With the structural edits this makes `Edit.leadsBack`, one theorem for all kinds of
edits, and from it every trace can be gone in reverse.
-/
namespace SceneGraph

namespace Edit
open Document
variable {registry : Option Registry} {d : Document} {id path track : String} {c : Component}
  {componentType : String} {index : Option Nat} {value old : Option Json} {a : Applied}

theorem setProperty_leadsBack (h : d.WellFormed)
    (ha : (setProperty id path value old).apply registry d = .ok a) : a.LeadsBack d := by
  obtain ⟨changed, w, hw, rfl⟩ := applySetProperty_ok_iff.mp ha
  rcases writeProperty_ok_iff.mp hw with ⟨htarget, hw⟩ | ⟨htarget, e, e', he, hset, rfl⟩
  · obtain ⟨w', hw'⟩ := Document.setProperty_undo h.toReadable hw
    exact Trace.leadsBack rfl trivial (applySetProperty_ok_iff.mpr
      ⟨d, w', writeProperty_ok_iff.mpr (.inl ⟨htarget, hw'⟩), rfl⟩) rfl
  · obtain ⟨w', hw'⟩ := Entity.setProperty_undo (h.transforms he) hset
    exact Trace.leadsBack rfl trivial (applySetProperty_ok_iff.mpr ⟨_, w',
      writeProperty_ok_iff.mpr (.inr ⟨htarget, e', e, entity?_putEntity_self d id e', hw', rfl⟩),
      rfl⟩) (putEntity_back he e')

theorem addComponent_leadsBack (ha : (addComponent id c index).apply registry d = .ok a) :
    a.LeadsBack d := by
  obtain ⟨e, he, -, -, rfl⟩ := applyAddComponent_ok_iff.mp ha
  refine Trace.leadsBack rfl trivial (applyRemoveComponent_ok_iff.mpr
    ⟨{ e with components := insertClamped e.components index c }, clampIndex e.components index, c,
      ?_, rfl, ?_, rfl, rfl⟩) ?_
  · simp
  · exact getElem?_insertClamped e.components index c
  · simp only [eraseIdx_insertClamped]
    exact putEntity_back he _

theorem removeComponent_leadsBack {previous : Option Component} (h : d.Forest)
    (ha : (removeComponent id componentType index previous).apply registry d = .ok a) :
    a.LeadsBack d := by
  obtain ⟨e, place, c, he, -, hc, -, rfl⟩ := applyRemoveComponent_ok_iff.mp ha
  refine Trace.leadsBack rfl trivial (applyAddComponent_unchecked (entity?_putEntity_self d id _)
    (h.types he c (List.mem_of_getElem? hc))) ?_
  simp only [insertClamped_eraseIdx hc]
  exact putEntity_back he _

theorem setComponentProperty_leadsBack
    (ha : (setComponentProperty id componentType path value old).apply registry d = .ok a) :
    a.LeadsBack d := by
  obtain ⟨e, c, c', w, he, hc, hw, rfl⟩ := applySetComponentProperty_ok_iff.mp ha
  have htype : c'.componentType = componentType :=
    (Component.setProperty_keeps hw).trans (Entity.type_of_component? hc)
  obtain ⟨w', hw'⟩ := Component.setProperty_undo hw
  refine Trace.leadsBack rfl trivial (applySetComponentProperty_ok_iff.mpr
    ⟨e.setComponent componentType c', c', c, w', ?_, ?_, hw', rfl⟩) ?_
  · simp
  · exact Entity.component?_setComponent hc htype
  · rw [Entity.setComponent_back hc htype]
    exact putEntity_back he _

theorem addAsset_leadsBack {asset : Asset} (ha : (addAsset asset).apply registry d = .ok a) :
    a.LeadsBack d := by
  obtain ⟨-, hnew, rfl⟩ := applyAddAsset_ok_iff.mp ha
  refine Trace.leadsBack rfl trivial (applyRemoveAsset_ok_iff.mpr ⟨asset, ?_, rfl⟩) ?_
  · simp
  · simp [Ascending.erase_of_find?_none hnew]

theorem removeAsset_leadsBack {previous : Option Asset} (h : d.WellFormed)
    (ha : (removeAsset id previous).apply registry d = .ok a) : a.LeadsBack d := by
  obtain ⟨asset, hasset, rfl⟩ := applyRemoveAsset_ok_iff.mp ha
  obtain rfl : asset.id = id := h.assetIds hasset
  refine Trace.leadsBack rfl trivial
    (applyAddAsset_ok_iff.mpr ⟨h.assetNames hasset, ?_, rfl⟩) ?_
  · simp [Ascending.find?_erase]
  · simp [Dict.insert_of_find? hasset]

theorem replaceAssetRef_leadsBack {asset previous : String}
    (ha : (replaceAssetRef id componentType path previous asset).apply registry d = .ok a) :
    a.LeadsBack d := by
  obtain ⟨steps, e, c, current, hasset, hs, he, hc, hg, hcurrent, rfl⟩ :=
    applyReplaceAssetRef_ok_iff.mp ha
  have hopen := Bag.open_of_get? hg
  let written := c.properties.assign steps (some (.str asset))
  have he' := entity?_putEntity_self d id
    (e.setComponent componentType { c with properties := written })
  refine Trace.leadsBack rfl trivial (applyReplaceAssetRef_ok_iff.mpr ⟨steps, _,
    { c with properties := written }, asset, hcurrent, hs, he',
    Entity.component?_setProperties hc written, Bag.get?_assign hopen _, hasset, rfl⟩) ?_
  have hwritten : written.assign steps (some (.str current)) = c.properties := by
    rw [Bag.assign_assign hopen, ← hg, Bag.assign_get? hopen]
  simp only [hwritten, Entity.setProperties_back hc written]
  exact putEntity_back he _

theorem addKeyframe_leadsBack {keyframe : Json}
    (ha : (addKeyframe id track keyframe index).apply registry d = .ok a) : a.LeadsBack d := by
  obtain ⟨e, e', i, he, hk, rfl⟩ := applyAddKeyframe_ok_iff.mp ha
  obtain ⟨t, ht, hremove, hr⟩ := Entity.removeKeyframe_of_add hk
  have htime : (Keyframe.timeOf? keyframe).getD 0 = t := by rw [ht]; rfl
  refine Trace.leadsBack rfl (fun e₁ he₁ => ?_) (applyRemoveKeyframe_ok_iff.mpr ⟨e', e, i, keyframe,
    entity?_putEntity_self d id e', htime ▸ hremove, rfl⟩) (putEntity_back he e')
  obtain rfl : e' = e₁ := by simpa using he₁
  exact htime ▸ hr

theorem removeKeyframe_leadsBack {time : Binary64}
    (hr : (removeKeyframe id track time old).Reversible d)
    (ha : (removeKeyframe id track time old).apply registry d = .ok a) : a.LeadsBack d := by
  obtain ⟨e, e', i, k, he, hk, rfl⟩ := applyRemoveKeyframe_ok_iff.mp ha
  have hadd := (Entity.addKeyframe_of_remove hk).mpr ⟨hr e he, rfl⟩
  exact Trace.leadsBack rfl trivial (applyAddKeyframe_ok_iff.mpr ⟨e', e, i,
    entity?_putEntity_self d id e', hadd, rfl⟩) (putEntity_back he e')

theorem setKeyframeValue_leadsBack {time : Binary64} {v : Json}
    (ha : (setKeyframeValue id track time v old).apply registry d = .ok a) : a.LeadsBack d := by
  obtain ⟨e, e', previous, he, hk, rfl⟩ := applySetKeyframeValue_ok_iff.mp ha
  exact Trace.leadsBack rfl trivial (applySetKeyframeValue_ok_iff.mpr ⟨e', e, v,
    entity?_putEntity_self d id e', Entity.setKeyframeValue_back hk, rfl⟩) (putEntity_back he e')

theorem Reversible.finite {e : Edit} (h : e.Reversible d) : e.Finite := by
  cases e with
  | createEntity n => exact h
  | _ => trivial

/-- What takes an accepted edit back is accepted, and brings back the document as it was. -/
theorem leadsBack {e : Edit} (h : d.WellFormed) (hr : e.Reversible d)
    (ha : e.apply registry d = .ok a) : a.LeadsBack d := by
  cases e with
  | createEntity n => exact create_leadsBack h.toForest ha
  | deleteEntity id => exact delete_leadsBack h ha
  | setProperty id path value => exact setProperty_leadsBack h ha
  | addChild p c index => exact addChild_leadsBack h.toForest ha
  | removeChild p c => exact removeChild_leadsBack h.toForest ha
  | reparent c p index => exact reparent_leadsBack h.toForest ha
  | addComponent id c index => exact addComponent_leadsBack ha
  | removeComponent id t index => exact removeComponent_leadsBack h.toForest ha
  | setComponentProperty id t path value => exact setComponentProperty_leadsBack ha
  | addAsset asset => exact addAsset_leadsBack ha
  | removeAsset id => exact removeAsset_leadsBack h ha
  | replaceAssetRef id t path old new => exact replaceAssetRef_leadsBack ha
  | addKeyframe id track keyframe index => exact addKeyframe_leadsBack ha
  | removeKeyframe id track time => exact removeKeyframe_leadsBack hr ha
  | setKeyframeValue id track time value => exact setKeyframeValue_leadsBack ha

end Edit

namespace Trace
variable {registry : Option Registry} {d d' : Document} {edits back : List Edit}

theorem wellFormed (h : Trace registry d edits d' back) (hd : d.WellFormed) : d'.WellFormed := by
  induction h with
  | nil => exact hd
  | cons hr ha _ ih => exact ih (Edit.apply_wellFormed hd hr.finite ha)

/-- The way back is a trace as well. -/
theorem reverse (h : Trace registry d edits d' back) (hd : d.WellFormed) :
    ∃ forth, Trace none d' back d forth := by
  induction h with
  | nil => exact ⟨[], .nil⟩
  | cons hr ha _ ih =>
    obtain ⟨first, hfirst⟩ := Edit.leadsBack hd hr ha
    obtain ⟨rest, hrest⟩ := ih (Edit.apply_wellFormed hd hr.finite ha)
    exact ⟨_, hrest.append hfirst⟩

end Trace
end SceneGraph

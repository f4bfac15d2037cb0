import SceneGraph.Proofs.AcceptedEdits

/-!
# Edit moves: every edit that is accepted is a sequence of moves

The moves of `SceneGraph.Proofs.Moves` are small enough to be checked one by one. Each kind of edit
is split into moves, and so whatever moves keep is kept by edits: being a forest (`apply_forest`),
and being well formed (`apply_wellFormed`).
-/
namespace SceneGraph
open Relation (ReflTransGen)

theorem NewEntity.entity_finite (n : NewEntity) (h : ∀ t ∈ n.transform, t.isFinite = true) :
    n.entity.transform.isFinite = true := by
  show (n.transform.getD .identity).isFinite = true
  cases ht : n.transform with
  | none => decide
  | some t => exact h t ht

namespace Edit
open Document
variable {registry : Option Registry} {d : Document} {id p c : String} {index : Option Nat}
  {a : Applied} {fits : Transform → Prop}

/-- What an edit brings along in new entities fits. -/
def Brings (fits : Transform → Prop) : Edit → Prop
  | createEntity n => fits n.entity.transform
  | _ => True

private theorem amend_moves {e e' : Entity} {inverse : Edit} {sequel : List Edit}
    (he : d.entity? id = some e) (ha : e'.Amends e)
    (h : a = ⟨d.putEntity id e', inverse, sequel⟩) : ReflTransGen (Move fits) d a.document :=
  .single (h ▸ .amend he ha)

theorem ne_root (h : d.isRoot id = false) : id ≠ d.rootEntityId := by
  rintro rfl
  simp [isRoot] at h

/-- A new entity without a parent stands above no other. -/
theorem not_above_planted (h : d.Forest) {e : Entity} (he : d.entity? id = none)
    (hp : e.parentId = none) (hne : p ≠ id) :
    ¬ ReflTransGen (d.putEntity id e).outline.Parent id p := by
  intro hr
  rcases hr.cases_head with rfl | ⟨x, ⟨n, hn, hx⟩, -⟩
  · exact hne rfl
  · simp only [outline_putEntity] at hn
    split at hn
    · obtain rfl := Option.some.inj hn
      simp [hp] at hx
    · obtain ⟨m, hm, -⟩ := h.tree.listed ⟨n, hn, hx⟩
      simp [outline, he] at hm

private theorem create_moves {n : NewEntity} (h : d.Forest) (hf : fits n.entity.transform)
    (ha : applyCreate d n = .ok a) : ReflTransGen (Move fits) d a.document := by
  obtain ⟨hn, hr, he, linked, hl, rfl⟩ := applyCreate_ok_iff.mp ha
  cases hp : n.parentId with
  | none =>
    rw [hp, listChild_none_ok_iff] at hl
    exact .single (hl ▸ @Move.plant fits d n.entity hn hr he hp rfl rfl hf)
  | some p =>
    rw [hp, listChild_some_ok_iff] at hl
    obtain ⟨ep, hep, rfl⟩ := hl
    have hne : p ≠ n.entityId := by
      rintro rfl
      simp [he] at hep
    have hroot := ne_root (h.new_not_root he)
    rw [putEntity_of_update hne hp]
    have hplant := @Move.plant fits d { n.entity with parentId := none } hn hr he rfl rfl rfl hf
    refine .tail (.single hplant) (@Move.link _ _ p n.entityId ep { n.entity with parentId := none }
      _ ?_ ?_ rfl hroot (not_above_planted h he rfl hne) (perm_insertClamped _ _ _))
    · exact (entity?_putEntity d _ _ p).trans ((if_neg hne).trans hep)
    · exact (entity?_putEntity d _ _ _).trans (if_pos rfl)

private theorem delete_moves (h : d.Forest) (ha : applyDelete d id = .ok a) :
    ReflTransGen (Move fits) d a.document := by
  obtain ⟨e, he, hroot, hc, rfl⟩ := applyDelete_ok_iff.mp ha
  have hroot' := ne_root hroot
  cases hp : e.parentId with
  | none => exact .single (.uproot he hroot' hp hc)
  | some p =>
    obtain ⟨hne, ep, i, hep, hnodup, hi⟩ := h.place he hp
    have hparent : d.outline.Parent p id := ⟨_, outline_of_entity? he, hp⟩
    have hperm := perm_eraseIdx (Entity.getElem?_of_childIndex? hi)
    simp only [update_children hep (·.filter (· ≠ id)), Entity.filter_children hnodup hi,
      eraseEntity_of_update hne none]
    refine .tail (.single (.unlink hep hparent hperm))
      (@Move.uproot _ _ id { e with parentId := none } ?_ hroot' rfl hc)
    simp [entity?_turn hne, he]

private theorem addChild_moves (ha : applyAddChild d p c index = .ok a) :
    ReflTransGen (Move fits) d a.document := by
  obtain ⟨ep, ec, hp, hc, hroot, hd, hanc, rfl⟩ := applyAddChild_ok_iff.mp ha
  refine .single (.link hp hc hd (ne_root hroot) ?_ (perm_insertClamped _ _ _))
  rw [← isAncestor_iff, hanc]
  exact Bool.false_ne_true

private theorem removeChild_moves (ha : applyRemoveChild d p c = .ok a) :
    ReflTransGen (Move fits) d a.document := by
  obtain ⟨ep, ec, i, hp, hc, hparent, hi, rfl⟩ := applyRemoveChild_ok_iff.mp ha
  exact .single (.unlink hp ⟨_, outline_of_entity? hc, hparent⟩
    (perm_eraseIdx (Entity.getElem?_of_childIndex? hi)))

private theorem reparent_moves (h : d.Forest) (ha : applyReparent d c p index = .ok a) :
    ReflTransGen (Move fits) d a.document := by
  obtain ⟨ec, old, eold, i, ep, hc, hroot, hparent, hp, hanc, hold, hi, hep, rfl⟩ :=
    (applyReparent_ok_iff h.tree).mp ha
  have hedge : d.outline.Parent old c := ⟨_, outline_of_entity? hc, hparent⟩
  have hne := ne_of_parent h hedge
  refine .tail (.single (.unlink hold hedge
      (perm_eraseIdx (Entity.getElem?_of_childIndex? hi))))
    (@Move.link _ _ p c ep { ec with parentId := none } _ hep ?_ rfl ?_ ?_
      (perm_insertClamped _ _ _))
  · simp [entity?_turn hne, hc]
  · exact ne_root hroot
  · intro hr
    simp [isAncestor_iff.mpr (below_of_turn hne hc hr)] at hanc

private theorem setProperty_moves {path : String} {value : Option Json}
    (ha : applySetProperty d id path value = .ok a) : ReflTransGen (Move fits) d a.document := by
  obtain ⟨changed, w, hw, rfl⟩ := applySetProperty_ok_iff.mp ha
  rcases writeProperty_ok_iff.mp hw with ⟨-, hw⟩ | ⟨-, e, e', he, hset, rfl⟩
  · obtain ⟨-, hs, hr, he, has, hwi, hd⟩ := Document.setProperty_keeps hw
    exact .single (.describe hs hr he has hwi hd)
  · obtain ⟨hid, hp, hc, ht, hf⟩ := Entity.setProperty_keeps hset
    exact .single (.amend he ⟨hid, hp, hc, fun h => ht ▸ h, hf⟩)

/-- What an edit does to a forest is done by moves. -/
theorem apply_moves {e : Edit} (h : d.Forest) (hb : e.Brings fits)
    (ha : e.apply registry d = .ok a) : ReflTransGen (Move fits) d a.document := by
  cases e with
  | createEntity n => exact create_moves h hb ha
  | deleteEntity id => exact delete_moves h ha
  | setProperty id path value => exact setProperty_moves ha
  | addChild p c index => exact addChild_moves ha
  | removeChild p c => exact removeChild_moves ha
  | reparent c p index => exact reparent_moves h ha
  | addComponent id c index =>
    obtain ⟨e, he, ht, -, ha⟩ := applyAddComponent_ok_iff.mp ha
    refine amend_moves he (Entity.amends_components fun k hk => ?_) ha
    rcases List.mem_cons.mp ((perm_insertClamped _ _ _).mem_iff.mp hk) with rfl | hk
    · exact .inr ht
    · exact .inl hk
  | removeComponent id t index =>
    obtain ⟨e, place, c, he, -, -, -, ha⟩ := applyRemoveComponent_ok_iff.mp ha
    exact amend_moves he (Entity.amends_components fun k hk => .inl (List.mem_of_mem_eraseIdx hk)) ha
  | setComponentProperty id t path value =>
    obtain ⟨e, c, c', w, he, hc, hw, ha⟩ := applySetComponentProperty_ok_iff.mp ha
    exact amend_moves he (Entity.amends_setComponent hc
      ((Component.setProperty_keeps hw).trans (Entity.type_of_component? hc))) ha
  | addAsset asset =>
    obtain ⟨hn, -, rfl⟩ := applyAddAsset_ok_iff.mp ha
    exact .single (.addAsset hn)
  | removeAsset id =>
    obtain ⟨asset, -, rfl⟩ := applyRemoveAsset_ok_iff.mp ha
    exact .single .removeAsset
  | replaceAssetRef id t path old new =>
    obtain ⟨steps, e, c, current, -, -, he, hc, -, -, ha⟩ := applyReplaceAssetRef_ok_iff.mp ha
    exact amend_moves he (Entity.amends_setProperties hc _) ha
  | addKeyframe id track keyframe index =>
    obtain ⟨e, e', i, he, hk, ha⟩ := applyAddKeyframe_ok_iff.mp ha
    obtain ⟨time, -, hk⟩ := bind_ok_iff.mp hk
    exact amend_moves he (Entity.amends_editTrack hk) ha
  | removeKeyframe id track time =>
    obtain ⟨e, e', i, k, he, hk, ha⟩ := applyRemoveKeyframe_ok_iff.mp ha
    exact amend_moves he (Entity.amends_editTrack hk) ha
  | setKeyframeValue id track time value =>
    obtain ⟨e, e', previous, he, hk, ha⟩ := applySetKeyframeValue_ok_iff.mp ha
    exact amend_moves he (Entity.amends_editTrack hk) ha

theorem apply_forest {e : Edit} (h : d.Forest) (ha : e.apply registry d = .ok a) :
    a.document.Forest := by
  have hb : e.Brings fun _ => True := by cases e <;> trivial
  exact h.moves (apply_moves h hb ha)

theorem brings_finite {e : Edit} (h : e.Finite) : e.Brings (·.isFinite = true) := by
  cases e with
  | createEntity n => exact n.entity_finite h
  | _ => trivial

theorem apply_wellFormed {e : Edit} (h : d.WellFormed) (hf : e.Finite)
    (ha : e.apply registry d = .ok a) : a.document.WellFormed :=
  h.moves (apply_moves h.toForest (brings_finite hf) ha)

end Edit
end SceneGraph

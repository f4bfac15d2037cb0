import SceneGraph.Proofs.EditMoves
import SceneGraph.Proofs.EditTraces

/-!
# Tree reversals: what takes structural edits back is accepted

For each edit of the tree it is shown that its inverse is accepted and brings the document back:
moves are turned back, creations deleted, and a deleted entity is created again under its parent,
where it was listed, and gets its components back one by one.
-/
namespace SceneGraph
open Relation (ReflTransGen)

namespace Document
variable {d : Document} {id p c : String} {e ep ec : Entity} {children : List String}
  {parent : Option String}

theorem entity?_turn_parent (hpc : p ≠ c) (hp : d.entity? p = some ep) :
    (d.turn p children c parent).entity? p = some { ep with children } := by
  simp [entity?_turn hpc, hpc, hp]

theorem entity?_turn_child (hpc : p ≠ c) (hc : d.entity? c = some ec) :
    (d.turn p children c parent).entity? c = some { ec with parentId := parent } := by
  simp [entity?_turn hpc, hc]

theorem contains_turn {k : String} (hpc : p ≠ c) (h : d.entity? k = some e) :
    (d.turn p children c parent).contains k = true := by
  rw [contains_iff, entity?_turn hpc]
  by_cases hkc : k = c
  · subst hkc
    simp [h]
  · by_cases hkp : k = p
    · subst hkp
      simp [hpc, h]
    · simp [hkc, hkp, h]

/-- A child that was inserted is found where it was inserted. -/
theorem Forest.childIndex?_inserted {index : Option Nat}
    (h : (d.turn p (insertClamped ep.children index c) c parent).Forest) (hpc : p ≠ c)
    (hp : d.entity? p = some ep) :
    Entity.childIndex? { ep with children := insertClamped ep.children index c } c =
      some (clampIndex ep.children index) :=
  Entity.childIndex?_of_getElem?
    (h.tree.nodup (outline_of_entity? (entity?_turn_parent hpc hp)))
    (getElem?_insertClamped ep.children index c)

end Document

namespace Edit
open Document
variable {registry : Option Registry} {d : Document} {id p c : String} {index : Option Nat}
  {a : Applied}

theorem addChild_leadsBack (h : d.Forest)
    (ha : (addChild p c index).apply registry d = .ok a) : a.LeadsBack d := by
  have hd : a.document.Forest := apply_forest h ha
  obtain ⟨ep, ec, hp, hc, -, hnone, hanc, rfl⟩ := applyAddChild_ok_iff.mp ha
  have hpc : p ≠ c := ne_of_isAncestor hanc
  refine Trace.leadsBack rfl trivial (applyRemoveChild_ok_iff.mpr ⟨_, _, _,
    entity?_turn_parent hpc hp, entity?_turn_child hpc hc, rfl, hd.childIndex?_inserted hpc hp,
    rfl⟩) ?_
  rw [eraseIdx_insertClamped, ← hnone]
  exact turn_back hpc hp hc

theorem removeChild_leadsBack (h : d.Forest) (ha : (removeChild p c).apply registry d = .ok a) :
    a.LeadsBack d := by
  have hd : a.document.Forest := apply_forest h ha
  obtain ⟨ep, ec, i, hp, hc, hparent, hi, rfl⟩ := applyRemoveChild_ok_iff.mp ha
  have hedge : d.outline.Parent p c := ⟨_, outline_of_entity? hc, hparent⟩
  have hpc := ne_of_parent h hedge
  have hanc : (d.turn p (ep.children.eraseIdx i) c none).isAncestor c p = false := by
    rw [Bool.eq_false_iff, ne_eq, isAncestor_iff]
    exact h.not_above hedge hpc hc
  refine Trace.leadsBack rfl trivial (applyAddChild_ok_iff.mpr ⟨_, _, entity?_turn_parent hpc hp,
    entity?_turn_child hpc hc, h.not_root hc hparent, rfl, hanc, rfl⟩) ?_
  rw [insertClamped_eraseIdx (Entity.getElem?_of_childIndex? hi), ← hparent]
  exact turn_back hpc hp hc

theorem reparent_leadsBack {q : String} {old : Option String} {place : Option Nat} (h : d.Forest)
    (ha : (reparent c q index old place).apply registry d = .ok a) : a.LeadsBack d := by
  have hd : a.document.Forest := apply_forest h ha
  obtain ⟨ec, p, ep, i, eq, hc, hroot, hparent, hq, hanc, hp, hi, hq', rfl⟩ :=
    (applyReparent_ok_iff h.tree).mp ha
  have hedge : d.outline.Parent p c := ⟨_, outline_of_entity? hc, hparent⟩
  have hpc := ne_of_parent h hedge
  have hqc : q ≠ c := ne_of_isAncestor hanc
  -- The way back passes the document in which the entity is detached.
  let detached := d.turn p (ep.children.eraseIdx i) c none
  let children := insertClamped eq.children index c
  have hp₁ : detached.entity? p = some { ep with children := ep.children.eraseIdx i } :=
    entity?_turn_parent hpc hp
  have hc₁ : detached.entity? c = some { ec with parentId := none } := entity?_turn_child hpc hc
  have hq₂ : (detached.turn q children c (some q)).entity? q = some { eq with children } :=
    entity?_turn_parent hqc hq'
  have hc₂ : (detached.turn q children c (some q)).entity? c =
      some { ec with parentId := some q } := (entity?_turn_child hqc hc₁ :)
  have hj : Entity.childIndex? { eq with children } c = some (clampIndex eq.children index) :=
    hd.childIndex?_inserted hqc hq'
  have hdetached : (detached.turn q children c (some q)).turn q
      (children.eraseIdx (clampIndex eq.children index)) c none = detached := by
    rw [eraseIdx_insertClamped]
    exact turn_back hqc hq' hc₁
  have hanc₂ : (detached.turn q children c (some q)).isAncestor c p = false := by
    rw [Bool.eq_false_iff, ne_eq, isAncestor_iff]
    exact fun hr => h.not_above hedge hpc hc (below_of_turn hqc hc₁ hr)
  refine Trace.leadsBack rfl trivial ((applyReparent_ok_iff hd.tree).mpr ⟨_, q, _, _, _, hc₂, ?_,
    rfl, contains_turn hqc hp₁, hanc₂, hq₂, hj, hdetached.symm ▸ hp₁, rfl⟩) ?_
  · exact hroot
  · rw [hdetached, insertClamped_eraseIdx (Entity.getElem?_of_childIndex? hi), ← hparent]
    exact turn_back hpc hp hc

/-- Deleting a new entity below a parent removes it from its place among the children. -/
private theorem eraseEntity_of_linked {ep e : Entity} (h : d.Forest) (he : d.entity? c = none)
    (hp : d.entity? p = some ep) (hparent : e.parentId = some p)
    (hd : ((d.updateEntity p ({ · with children := insertClamped ep.children index c })).putEntity c
      e).Forest) :
    (((d.updateEntity p ({ · with children := insertClamped ep.children index c })).putEntity c
      e).updateEntity p fun q => { q with children := q.children.filter (· ≠ c) }).eraseEntity c =
        d := by
  have hpc : p ≠ c := by
    rintro rfl
    simp [hp] at he
  have hfresh : c ∉ ep.children := fun hm => by
    obtain ⟨m, hm, -⟩ := h.tree.pointsBack (outline_of_entity? hp) c hm
    simp [outline, he] at hm
  rw [putEntity_of_update hpc hparent] at hd ⊢
  generalize hplanted : d.putEntity c { e with parentId := none } = planted at hd ⊢
  have hp₁ : planted.entity? p = some ep := by
    simp [← hplanted, hpc, hp]
  have hc₁ : planted.entity? c = some { e with parentId := none } := by
    simp [← hplanted]
  have hp₂ := @entity?_turn_parent planted p c ep (insertClamped ep.children index c) (some p)
    hpc hp₁
  have hnodup : (insertClamped ep.children index c).Nodup :=
    hd.tree.nodup (outline_of_entity? hp₂)
  have hi := hd.childIndex?_inserted hpc hp₁
  rw [update_children hp₂ (·.filter (· ≠ c)), Entity.filter_children hnodup hi,
    eraseIdx_insertClamped, eraseEntity_of_update hpc none, turn_back hpc hp₁ hc₁, ← hplanted]
  exact eraseEntity_putEntity he _

theorem create_leadsBack {n : NewEntity} (h : d.Forest)
    (ha : (createEntity n).apply registry d = .ok a) : a.LeadsBack d := by
  have hd : a.document.Forest := apply_forest h ha
  obtain ⟨-, -, he, linked, hl, rfl⟩ := applyCreate_ok_iff.mp ha
  have hnew : (linked.putEntity n.entityId n.entity).entity? n.entityId = some n.entity := by simp
  cases hp : n.parentId with
  | none =>
    rw [hp, listChild_none_ok_iff] at hl
    subst hl
    refine Trace.leadsBack rfl trivial
      (applyDelete_ok_iff.mpr ⟨_, hnew, h.new_not_root he, rfl, rfl⟩) ?_
    simp only [NewEntity.entity, hp]
    exact eraseEntity_putEntity he _
  | some p =>
    rw [hp, listChild_some_ok_iff] at hl
    obtain ⟨ep, hep, rfl⟩ := hl
    refine Trace.leadsBack rfl trivial
      (applyDelete_ok_iff.mpr ⟨_, hnew, h.new_not_root he, rfl, rfl⟩) ?_
    have hparent : n.entity.parentId = some p := hp
    simp only [hparent]
    exact eraseEntity_of_linked h he hep hparent hd

/-- Below its parent, or detached, an entity that was taken away is listed where it was. -/
private theorem listChild_of_deletion {e : Entity} (h : d.Forest) (he : d.entity? id = some e) :
    ∃ linked, Document.listChild ((match e.parentId with
        | none => d
        | some p => d.updateEntity p fun q =>
          { q with children := q.children.filter (· ≠ id) }).eraseEntity id) e.parentId
        ((e.parentId.bind d.entity?).bind (·.childIndex? id)) id = .ok linked ∧
      ∀ e', linked.putEntity id e' = d.putEntity id e' := by
  cases hp : e.parentId with
  | none => exact ⟨_, listChild_none_ok_iff.mpr rfl, fun e' => putEntity_eraseEntity d id e'⟩
  | some p =>
    obtain ⟨hne, ep, i, hep, hnodup, hi⟩ := h.place he hp
    have hget := Entity.getElem?_of_childIndex? hi
    simp only [Option.bind_some, hep, hi, update_children hep (·.filter (· ≠ id)),
      Entity.filter_children hnodup hi]
    generalize hrest :
      (d.updateEntity p ({ · with children := ep.children.eraseIdx i })).eraseEntity id = rest
    have hp₁ : rest.entity? p = some { ep with children := ep.children.eraseIdx i } := by
      simp [← hrest, hne, hep]
    refine ⟨_, listChild_some_ok_iff.mpr ⟨_, hp₁, rfl⟩, fun e' => ?_⟩
    rw [insertClamped_eraseIdx hget, ← hrest]
    refine eq_of_entity? fun k => ?_
    change (Document.putEntity (updateEntity _ p _) id e').entity? k = (d.putEntity id e').entity? k
    simp only [entity?_putEntity, entity?_updateEntity, entity?_eraseEntity]
    by_cases hk : k = id
    · simp [hk]
    · by_cases hkp : k = p
      · simp [hkp, hne, hep]
      · simp [hk, hkp]

private theorem append_component {e : Entity} {c : Component} (he : d.entity? id = some e)
    (ht : c.componentType ≠ "") :
    ∃ b, (addComponent id c (some e.components.length)).apply none d = .ok b ∧
      b.document = d.putEntity id { e with components := e.components ++ [c] } := by
  refine ⟨_, applyAddComponent_unchecked he ht, ?_⟩
  simp [insertClamped, clampIndex]

/-- Components that are added one by one behind those already there make up the entity. -/
private theorem components_lead_back {e : Entity} (he : d.entity? id = some e)
    (ht : ∀ c ∈ e.components, c.componentType ≠ "") {before after : List Component}
    (hc : e.components = before ++ after) :
    ∃ forth, Trace none (d.putEntity id { e with components := before })
      (after.mapIdx fun i c => .addComponent id c (some (before.length + i))) d forth := by
  induction after generalizing before with
  | nil =>
    have hall : d.putEntity id { e with components := before } = d := by
      rw [← (List.append_nil before ▸ hc :)]
      exact putEntity_self he
    exact ⟨[], by rw [hall]; exact .nil⟩
  | cons c after ih =>
    obtain ⟨b, hb, hdocument⟩ := @append_component (d.putEntity id { e with components := before })
      id { e with components := before } c (by simp) (ht c (by simp [hc]))
    obtain ⟨forth, hforth⟩ := @ih (before ++ [c]) (by simp [hc])
    rw [putEntity_putEntity] at hdocument
    refine ⟨forth ++ b.inverse :: b.sequel, ?_⟩
    rw [List.mapIdx_cons]
    refine .cons trivial hb ?_
    rw [hdocument]
    simpa [Nat.add_assoc, Nat.add_comm 1] using hforth

/-- Under an id that may be given, a deleted entity is created again, and then it gets its
components back. -/
theorem delete_recreated (h : d.Forest) (ha : applyDelete d id = .ok a) (hn : id ≠ "")
    (hr : id ≠ documentTarget) :
    ∃ b forth, a.inverse.apply none a.document = .ok b ∧ Trace none b.document a.sequel d forth := by
  obtain ⟨e, he, hroot, hc, rfl⟩ := applyDelete_ok_iff.mp ha
  obtain rfl : e.id = id := h.ids he
  obtain ⟨linked, hl, hput⟩ := listChild_of_deletion h he
  obtain ⟨forth, hforth⟩ := components_lead_back he (h.types he) (List.nil_append _).symm
  refine ⟨_, forth, applyCreate_ok_iff.mpr ⟨hn, hr, ?_, linked, hl, rfl⟩, ?_⟩
  · exact (entity?_eraseEntity _ e.id e.id).trans (if_pos rfl)
  · have hentity : ∀ place, (NewEntity.ofEntity e place).entity = { e with components := [] } := by
      intro place
      simp [NewEntity.ofEntity, NewEntity.entity, hc]
    rw [hentity]
    simpa [NewEntity.ofEntity, hput] using hforth

theorem delete_leadsBack {old : Option Entity} (h : d.WellFormed)
    (ha : (deleteEntity id old).apply registry d = .ok a) : a.LeadsBack d := by
  obtain ⟨e, he, hroot, -, heq⟩ := applyDelete_ok_iff.mp ha
  obtain ⟨hn, hr⟩ := h.names he (ne_root hroot)
  obtain ⟨b, forth, hb, ht⟩ := delete_recreated h.toForest ha hn hr
  refine ⟨_, .cons ?_ hb ht⟩
  rw [heq]
  exact fun t ht => Option.some.inj ht ▸ h.transforms he

end Edit
end SceneGraph

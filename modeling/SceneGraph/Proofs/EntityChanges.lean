import SceneGraph.Proofs.AcceptedEdits

/-!
# Entity changes: what an accepted edit keeps of every entity and asset, in whatever document

The moves of `SceneGraph.Proofs.Moves` start from a forest. What is kept here is kept in documents
whose entities form no tree, too.
-/
namespace SceneGraph

/-- What an entity keeps when it is changed: a transform that is finite stays so, and of no
singleton type are there more components than before, unless there is one where there was none. -/
structure Entity.Descends (registry : Option Registry) (e' e : Entity) : Prop where
  finite : e.transform.isFinite = true → e'.transform.isFinite = true
  single : ∀ r ∈ registry, ∀ t, r.isSingleton t = true →
    e'.countComponents t ≤ max 1 (e.countComponents t)

namespace Entity
variable {registry : Option Registry} {e e' e'' : Entity} {componentType t : String}
  {c c' : Component} {index : Option Nat} {i : Nat}

theorem countComponents_insertClamped :
    countComponents { e with components := insertClamped e.components index c } t =
      e.countComponents t + if c.componentType = t then 1 else 0 := by
  rw [countComponents, (perm_insertClamped _ _ _).countP_eq, List.countP_cons]
  simp [countComponents]

theorem countComponents_eraseIdx_le :
    countComponents { e with components := e.components.eraseIdx i } t ≤ e.countComponents t :=
  List.Sublist.countP_le (List.eraseIdx_sublist e.components i)

theorem countComponents_setComponent (h : e.component? componentType = some c)
    (hc : c'.componentType = componentType) :
    (e.setComponent componentType c').countComponents t = e.countComponents t := by
  obtain ⟨i, hi, hget⟩ := component?_iff.mp h
  obtain ⟨hlt, rfl⟩ := List.getElem?_eq_some_iff.mp hget
  rw [setComponent_eq hi, countComponents, List.countP_set hlt, hc, ← type_of_component? h]
  by_cases ht : e.components[i].componentType = t
  · have hpos : 0 < e.countComponents t :=
      List.countP_pos_iff.mpr ⟨_, List.getElem_mem hlt, decide_eq_true ht⟩
    simp only [ht, decide_true, if_true]
    exact Nat.sub_add_cancel hpos
  · simp [ht, countComponents]

namespace Descends

/-- Nothing is lost where the components of each type stay as many. -/
theorem of_counts (ht : e.transform.isFinite = true → e'.transform.isFinite = true)
    (hc : ∀ t, e'.countComponents t ≤ e.countComponents t) : e'.Descends registry e :=
  ⟨ht, fun _ _ t _ => (hc t).trans (Nat.le_max_right _ _)⟩

/-- The place in the tree may change in any way. -/
theorem of_same (ht : e'.transform = e.transform) (hc : e'.components = e.components) :
    e'.Descends registry e :=
  of_counts (fun h => ht ▸ h) fun t => Nat.le_of_eq (by rw [countComponents, countComponents, hc])

theorem refl (e : Entity) : e.Descends registry e := of_same rfl rfl

theorem trans (h : e''.Descends registry e') (h' : e'.Descends registry e) :
    e''.Descends registry e := by
  refine ⟨fun hf => h.finite (h'.finite hf), fun r hr t ht => ?_⟩
  have hlater := h.single r hr t ht
  have hearlier := h'.single r hr t ht
  omega

theorem setComponent (h : e.component? componentType = some c)
    (hc : c'.componentType = componentType) :
    (e.setComponent componentType c').Descends registry e := by
  refine of_counts (fun hf => ?_) fun t => Nat.le_of_eq (countComponents_setComponent h hc)
  obtain ⟨i, hi, -⟩ := component?_iff.mp h
  rw [setComponent_eq hi]
  exact hf

theorem setProperties (h : e.component? componentType = some c) (properties : Bag) :
    (e.setComponent componentType { c with properties }).Descends registry e :=
  setComponent h (show c.componentType = componentType from type_of_component? h)

theorem editTrack {β : Type} {track : String}
    {change : List Json → Except OpError (List Json × β)} {x : β}
    (h : e.editTrack track change = .ok (e', x)) : e'.Descends registry e := by
  obtain ⟨c, keyframes, changed, hc, -, -, rfl⟩ := editTrack_ok_iff.mp h
  exact setProperties hc _

theorem setProperty {text : String} {value : Option Json} {w : PropertyWrite}
    (h : e.setProperty text value = .ok (e', w)) : e'.Descends registry e := by
  obtain ⟨-, -, -, hc, hf⟩ := setProperty_keeps h
  exact of_counts hf fun t => Nat.le_of_eq (by rw [countComponents, countComponents, hc])

/-- A component that is added under a registry is the first of its type, if that is a singleton
type. -/
theorem attach (h : ∀ r ∈ registry, r.isSingleton c.componentType = true →
      e.countComponents c.componentType = 0) :
    Descends registry { e with components := insertClamped e.components index c } e := by
  refine ⟨fun hf => hf, fun r hr t ht => ?_⟩
  rw [countComponents_insertClamped]
  by_cases hc : c.componentType = t
  · rw [if_pos hc, ← hc, h r hr (hc ▸ ht)]
    exact Nat.le_max_left 1 _
  · rw [if_neg hc]
    exact Nat.le_max_right 1 _

end Descends
end Entity

/-- Every entity of the one document is one of the other, changed or not, and every asset is one of
the other. -/
structure Document.Descends (registry : Option Registry) (d' d : Document) : Prop where
  entities : ∀ ⦃id e'⦄, d'.entity? id = some e' →
    ∃ e, d.entity? id = some e ∧ e'.Descends registry e
  assets : ∀ ⦃id asset⦄, d'.assets.find? id = some asset → d.assets.find? id = some asset

namespace Document.Descends
variable {registry : Option Registry} {d d' d'' : Document} {id : String} {e e' : Entity}

theorem refl (d : Document) : d.Descends registry d :=
  ⟨fun _ e he => ⟨e, he, .refl e⟩, fun _ _ h => h⟩

theorem trans (h : d''.Descends registry d') (h' : d'.Descends registry d) :
    d''.Descends registry d := by
  refine ⟨fun id e'' he'' => ?_, fun id asset ha => h'.assets (h.assets ha)⟩
  obtain ⟨e', he', hlater⟩ := h.entities he''
  obtain ⟨e, he, hearlier⟩ := h'.entities he'
  exact ⟨e, he, hlater.trans hearlier⟩

theorem of_same (h : d'.entities = d.entities) (ha : d'.assets = d.assets) :
    d'.Descends registry d := by
  refine ⟨fun id e he => ?_, fun id asset hfind => ha ▸ hfind⟩
  rw [entity?, h] at he
  exact ⟨e, he, .refl e⟩

theorem putEntity (he : d.entity? id = some e) (h : e'.Descends registry e) :
    (d.putEntity id e').Descends registry d := by
  refine ⟨fun k x hx => ?_, fun _ _ ha => ha⟩
  rw [entity?_putEntity] at hx
  split at hx
  · rename_i hk
    obtain rfl := Option.some.inj hx
    exact ⟨e, hk ▸ he, h⟩
  · exact ⟨x, hx, .refl x⟩

theorem updateEntity {f : Entity → Entity} (h : d'.Descends registry d)
    (hf : ∀ e, (f e).Descends registry e) : (d'.updateEntity id f).Descends registry d := by
  refine ⟨fun k x hx => ?_, h.assets⟩
  rw [entity?_updateEntity] at hx
  split at hx
  · rename_i hk
    obtain ⟨e', he', rfl⟩ := Option.map_eq_some_iff.mp hx
    obtain ⟨e, he, hd⟩ := h.entities he'
    exact ⟨e, hk ▸ he, (hf e').trans hd⟩
  · exact h.entities hx

theorem eraseEntity (d : Document) (id : String) : (d.eraseEntity id).Descends registry d := by
  refine ⟨fun k x hx => ?_, fun _ _ ha => ha⟩
  rw [entity?_eraseEntity] at hx
  split at hx
  · contradiction
  · exact ⟨x, hx, .refl x⟩

theorem eraseAsset (d : Document) (id : String) :
    Descends registry { d with assets := d.assets.erase id } d := by
  refine ⟨fun _ x hx => ⟨x, hx, .refl x⟩, fun k asset ha => ?_⟩
  rw [Ascending.find?_erase] at ha
  split at ha
  · contradiction
  · exact ha

theorem turn (d : Document) (p : String) (children : List String) (c : String)
    (parent : Option String) : (d.turn p children c parent).Descends registry d :=
  .updateEntity (.updateEntity (refl d) fun _ => .of_same rfl rfl) fun _ => .of_same rfl rfl

theorem listChild {parent : Option String} {index : Option Nat} {child : String}
    (h : d.listChild parent index child = .ok d') : d'.Descends registry d := by
  cases parent with
  | none =>
    rw [listChild_none_ok_iff] at h
    exact h ▸ refl d
  | some p =>
    obtain ⟨ep, -, rfl⟩ := listChild_some_ok_iff.mp h
    exact .updateEntity (refl d) fun _ => .of_same rfl rfl

end Document.Descends

namespace Edit
open Document
variable {registry : Option Registry} {d : Document} {a : Applied}

/-- Apart from an entity or an asset that the edit brings along, every one after an accepted edit
descends from one before it. -/
theorem apply_descends {e : Edit} (ha : e.apply registry d = .ok a) :
    a.document.Descends registry d ∨
      (∃ (n : NewEntity) (linked : Document), e = .createEntity n ∧ linked.Descends registry d ∧
        a.document = linked.putEntity n.entityId n.entity) ∨
      ∃ asset, e = .addAsset asset ∧
        a.document = { d with assets := Dict.insert d.assets asset.id asset } := by
  cases e with
  | createEntity n =>
    obtain ⟨-, -, -, linked, hl, rfl⟩ := applyCreate_ok_iff.mp ha
    exact .inr (.inl ⟨n, linked, rfl, .listChild hl, rfl⟩)
  | deleteEntity id =>
    obtain ⟨e, -, -, -, rfl⟩ := applyDelete_ok_iff.mp ha
    refine .inl ((Descends.eraseEntity _ id).trans ?_)
    split
    · exact .refl d
    · exact .updateEntity (.refl d) fun _ => .of_same rfl rfl
  | setProperty id path value =>
    obtain ⟨d', w, hw, rfl⟩ := applySetProperty_ok_iff.mp ha
    rcases writeProperty_ok_iff.mp hw with ⟨-, hset⟩ | ⟨-, e, e', he, hset, rfl⟩
    · obtain ⟨-, -, -, hentities, hassets, -⟩ := Document.setProperty_keeps hset
      exact .inl (.of_same hentities hassets)
    · exact .inl (.putEntity he (.setProperty hset))
  | addChild p c index =>
    obtain ⟨ep, ec, -, -, -, -, -, rfl⟩ := applyAddChild_ok_iff.mp ha
    exact .inl (.turn d p _ c _)
  | removeChild p c =>
    obtain ⟨ep, ec, i, -, -, -, -, rfl⟩ := applyRemoveChild_ok_iff.mp ha
    exact .inl (.turn d p _ c _)
  | reparent id p index =>
    obtain ⟨q, i, i', -, rfl⟩ := reparent_outcome ha
    exact .inl (.updateEntity (.updateEntity (.updateEntity (.refl d) fun _ => .of_same rfl rfl)
      fun _ => .of_same rfl rfl) fun _ => .of_same rfl rfl)
  | addComponent id c index =>
    obtain ⟨e, he, -, hsingle, rfl⟩ := applyAddComponent_ok_iff.mp ha
    exact .inl (.putEntity he (.attach hsingle))
  | removeComponent id t index =>
    obtain ⟨e, place, c, he, -, -, -, rfl⟩ := applyRemoveComponent_ok_iff.mp ha
    exact .inl (.putEntity he (.of_counts (fun hf => hf) fun t =>
      Entity.countComponents_eraseIdx_le))
  | setComponentProperty id t path value =>
    obtain ⟨e, c, c', w, he, hc, hw, rfl⟩ := applySetComponentProperty_ok_iff.mp ha
    exact .inl (.putEntity he (.setComponent hc
      ((Component.setProperty_keeps hw).trans (Entity.type_of_component? hc))))
  | addAsset asset =>
    obtain ⟨-, -, rfl⟩ := applyAddAsset_ok_iff.mp ha
    exact .inr (.inr ⟨asset, rfl, rfl⟩)
  | removeAsset id =>
    obtain ⟨asset, -, rfl⟩ := applyRemoveAsset_ok_iff.mp ha
    exact .inl (.eraseAsset d id)
  | replaceAssetRef id t path old new =>
    obtain ⟨steps, e, c, current, -, -, he, hc, -, -, rfl⟩ := applyReplaceAssetRef_ok_iff.mp ha
    exact .inl (.putEntity he (.setProperties hc _))
  | addKeyframe id track keyframe index =>
    obtain ⟨e, e', i, he, hk, rfl⟩ := applyAddKeyframe_ok_iff.mp ha
    obtain ⟨time, -, hk⟩ := bind_ok_iff.mp hk
    exact .inl (.putEntity he (.editTrack hk))
  | removeKeyframe id track time =>
    obtain ⟨e, e', i, k, he, hk, rfl⟩ := applyRemoveKeyframe_ok_iff.mp ha
    exact .inl (.putEntity he (.editTrack hk))
  | setKeyframeValue id track time value =>
    obtain ⟨e, e', previous, he, hk, rfl⟩ := applySetKeyframeValue_ok_iff.mp ha
    exact .inl (.putEntity he (.editTrack hk))

end Edit
end SceneGraph

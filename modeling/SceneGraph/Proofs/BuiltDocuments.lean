import SceneGraph.DocumentBuilding
import SceneGraph.Proofs.Groupings
import SceneGraph.Proofs.ValidDocuments

/-!
# Built documents: building without checks does what accepted edits do

A `Draft` is an entity as it is put together step by step. Drafts that come parent first are added
to a document without any check, and the edits that construct the same entities are accepted and
bring forth the same document, which is valid. It makes no difference how these edits are grouped.
-/
namespace SceneGraph

/-- A step in drafting an entity. -/
inductive DraftStep
  | parent (id : String)
  | position (v : Vec3)
  | scale (v : Vec3)
  | transform (t : Transform)
  | component (c : Component)
  | tag (text : String)
  | hide
  | lock
  | tuning (engine key : String) (value : Json)

namespace DraftStep

def apply (e : Entity) : DraftStep → Entity
  | parent id => e.withParent id
  | position v => e.withPosition v
  | scale v => e.withScale v
  | transform t => e.withTransform t
  | component c => e.withComponent c
  | tag text => e.withTag text
  | hide => e.hidden
  | lock => e.lock
  | tuning engine key value => e.withTuning engine key value

@[simp] theorem children_apply (e : Entity) (step : DraftStep) :
    (step.apply e).children = e.children := by
  cases step <;> rfl

@[simp] theorem id_apply (e : Entity) (step : DraftStep) : (step.apply e).id = e.id := by
  cases step <;> rfl

end DraftStep

/-- An entity as it is drafted, step by step, before it joins a document. -/
structure Draft where
  id : String
  name : String
  steps : List DraftStep

namespace Draft

def entity (draft : Draft) : Entity := draft.steps.foldl DraftStep.apply (.ofId draft.id draft.name)

private theorem foldl_keeps (e : Entity) (steps : List DraftStep) :
    (steps.foldl DraftStep.apply e).id = e.id ∧
      (steps.foldl DraftStep.apply e).children = e.children := by
  induction steps generalizing e with
  | nil => exact ⟨rfl, rfl⟩
  | cons step steps ih =>
    obtain ⟨hid, hchildren⟩ := ih (step.apply e)
    exact ⟨hid.trans (step.id_apply e), hchildren.trans (step.children_apply e)⟩

@[simp] theorem id_entity (draft : Draft) : draft.entity.id = draft.id := (foldl_keeps _ _).1

@[simp] theorem children_entity (draft : Draft) : draft.entity.children = [] := (foldl_keeps _ _).2

/-- What makes a draft fit to join a document that holds certain entities. -/
structure Joins (draft : Draft) (known : List String) : Prop where
  nonempty : draft.id ≠ ""
  unreserved : draft.id ≠ documentTarget
  new : draft.id ∉ known
  parent : ∃ p ∈ known, draft.entity.parentId = some p
  types : ∀ c ∈ draft.entity.components, c.componentType ≠ ""

/-- Every draft is new and comes after its parent. -/
def ParentFirst : (known : List String) → List Draft → Prop
  | _, [] => True
  | known, draft :: drafts => draft.Joins known ∧ ParentFirst (draft.id :: known) drafts

end Draft

/-- The creation appends what the entity is, save its components. Fields that a new entity has
anyway may be left out. -/
structure NewEntity.Carries (n : NewEntity) (e : Entity) : Prop where
  entityId : n.entityId = e.id
  name : n.name = e.name
  parentId : n.parentId = e.parentId
  index : n.index = none
  transform : n.transform.getD .identity = e.transform
  tags : n.tags = e.tags
  visible : n.visible.getD true = e.visible
  locked : n.locked.getD false = e.locked
  tuning : n.tuning = e.tuning

namespace NewEntity
variable {n : NewEntity} {e : Entity}

theorem carries_ofEntity (e : Entity) : (ofEntity e none).Carries e :=
  ⟨rfl, rfl, rfl, rfl, rfl, rfl, rfl, rfl, rfl⟩

theorem Carries.entity_eq (h : n.Carries e) (hc : e.children = []) :
    n.entity = { e with components := [] } := by
  simp only [entity, h.entityId, h.name, h.parentId, h.transform, h.tags, h.visible, h.locked,
    h.tuning, ← hc]

end NewEntity

namespace Edit
variable {registry : Option Registry} {d d' : Document} {e : Edit} {a : Applied}
  {edits back : List Edit}

/-- The creation of an entity and then its components one by one, each as the last. -/
def construct (n : NewEntity) (components : List Component) : List Edit :=
  .createEntity n :: components.map (.attach n.entityId)

theorem applyRow_cons_ok (ha : e.apply registry d = .ok a)
    (h : applyRow registry a.document edits = .ok (d', back)) :
    applyRow registry d (e :: edits) = .ok (d', back ++ a.inverse :: a.sequel) := by
  simp only [applyRow, ha, h, Except.map]

theorem forest_of_row (hd : d.Forest) (h : applyRow registry d edits = .ok (d', back)) :
    d'.Forest := by
  induction edits generalizing d back with
  | nil =>
    obtain ⟨rfl, -⟩ := Prod.mk.inj (Except.ok.inj h)
    exact hd
  | cons e edits ih =>
    have hsplit : applyRow registry d ([e] ++ edits) = .ok (d', back) := h
    obtain ⟨d₁, _, _, hfirst, hrest, -⟩ := applyRow_append_ok_iff.mp hsplit
    rw [applyRow_single] at hfirst
    obtain ⟨a, ha, hd₁⟩ := map_ok_iff.mp hfirst
    obtain ⟨rfl, -⟩ := Prod.mk.inj hd₁
    exact ih (apply_forest hd ha) hrest

end Edit

@[simp] theorem insertClamped_none {α : Type} (items : List α) (x : α) :
    insertClamped items none x = items ++ [x] :=
  List.insertIdx_length_self

namespace Document
variable {d : Document} {draft : Draft} {n : NewEntity} {known : List String} {id p : String}
  {e ep : Entity}

/-- The document's entities are the known ones. -/
def Knows (d : Document) (known : List String) : Prop := ∀ id, d.contains id = true ↔ id ∈ known

theorem knows_ofIds (document root name : String) : (ofIds document root name).Knows [root] := by
  intro id
  rw [contains_iff, entity?_ofIds, List.mem_singleton]
  split <;> simp_all

theorem addEntity_eq (hp : e.parentId = some p) : d.addEntity e =
    (d.updateEntity p fun q => { q with children := q.children ++ [e.id] }).putEntity e.id e := by
  simp only [addEntity, hp, updateEntity, putEntity]

theorem entity?_addEntity (hp : e.parentId = some p) (k : String) : (d.addEntity e).entity? k =
    if k = e.id then some e
    else if k = p then (d.entity? p).map fun q => { q with children := q.children ++ [e.id] }
    else d.entity? k := by
  rw [addEntity_eq hp, entity?_putEntity, entity?_updateEntity]

theorem knows_addEntity (h : d.Knows known) (hp : e.parentId = some p) (hk : p ∈ known) :
    (d.addEntity e).Knows (e.id :: known) := by
  intro k
  obtain ⟨q, hq⟩ := contains_iff.mp ((h p).mpr hk)
  rw [contains_iff, entity?_addEntity hp, List.mem_cons, ← h k, contains_iff]
  by_cases hke : k = e.id
  · simp [hke]
  · rw [if_neg hke]
    by_cases hkp : k = p
    · simp [hkp, hq]
    · simp [hke, hkp]

/-- Components that are attached one by one all come to stand behind those before. -/
theorem applyRow_attach (he : d.entity? id = some e) (components : List Component)
    (ht : ∀ c ∈ components, c.componentType ≠ "") :
    ∃ back, Edit.applyRow none d (components.map (.attach id)) =
      .ok (d.putEntity id { e with components := e.components ++ components }, back) := by
  induction components generalizing d e with
  | nil => exact ⟨[], by simp [Edit.applyRow, putEntity_self he]⟩
  | cons c components ih =>
    obtain ⟨hc, hrest⟩ := List.forall_mem_cons.mp ht
    have hattach : Edit.apply none d (.attach id c) =
        .ok ⟨d.putEntity id { e with components := e.components ++ [c] },
          .removeComponent id c.componentType (some (clampIndex e.components none)) (some c),
          []⟩ := by
      rw [← insertClamped_none]
      exact Edit.applyAddComponent_unchecked he hc
    obtain ⟨back, hrow⟩ :=
      ih (entity?_putEntity_self d id { e with components := e.components ++ [c] }) hrest
    rw [putEntity_putEntity] at hrow
    simp only [List.append_assoc, List.singleton_append] at hrow
    exact ⟨_, Edit.applyRow_cons_ok hattach hrow⟩

/-- The edits that construct an entity are accepted wherever its draft may join, and do what adding
it does. -/
theorem applyRow_construct (h : d.Knows known) (hj : draft.Joins known)
    (hn : n.Carries draft.entity) :
    ∃ back, Edit.applyRow none d (Edit.construct n draft.entity.components) =
      .ok (d.addEntity draft.entity, back) := by
  obtain ⟨p, hp, hparent⟩ := hj.parent
  obtain ⟨ep, hep⟩ := contains_iff.mp ((h p).mpr hp)
  have hid : n.entityId = draft.id := hn.entityId.trans draft.id_entity
  have hentity := hn.entity_eq draft.children_entity
  have hnone : d.entity? draft.id = none :=
    not_contains_iff.mp (Bool.eq_false_iff.mpr fun hc => hj.new ((h _).mp hc))
  let linked := d.updateEntity p fun q => { q with children := q.children ++ [draft.id] }
  have hlinked : d.listChild n.parentId n.index draft.id = .ok linked := by
    rw [hn.parentId, hparent, hn.index]
    refine listChild_some_ok_iff.mpr ⟨ep, hep, updateEntity_congr fun q hq => ?_⟩
    rw [insertClamped_none, Option.some.inj (hep.symm.trans hq)]
  have hcreate : Edit.apply none d (.createEntity n) = .ok ⟨linked.putEntity draft.id n.entity,
      .deleteEntity draft.id (some n.entity), []⟩ := by
    refine Edit.applyCreate_ok_iff.mpr ⟨hid ▸ hj.nonempty, hid ▸ hj.unreserved, hid ▸ hnone, ?_⟩
    exact ⟨linked, hid ▸ hlinked, by rw [hid]⟩
  obtain ⟨back, hrow⟩ := applyRow_attach (entity?_putEntity_self linked draft.id n.entity)
    draft.entity.components hj.types
  have hwhole : { n.entity with components := n.entity.components ++ draft.entity.components } =
      draft.entity := by
    rw [hentity]
    rfl
  rw [putEntity_putEntity, hwhole] at hrow
  rw [Edit.construct, hid, addEntity_eq hparent, draft.id_entity]
  exact ⟨_, Edit.applyRow_cons_ok hcreate hrow⟩

/-- A valid document stays valid, for the entity added has a parent. -/
theorem isValid_addEntity (hd : d.isValid = true) (h : d.Knows known) (hj : draft.Joins known) :
    (d.addEntity draft.entity).isValid = true := by
  obtain ⟨hforest, hroot⟩ := isValid_iff.mp hd
  obtain ⟨back, hrow⟩ := applyRow_construct h hj (NewEntity.carries_ofEntity draft.entity)
  refine isValid_iff.mpr ⟨Edit.forest_of_row hforest hrow, fun k e he hnone => ?_⟩
  obtain ⟨p, -, hp⟩ := hj.parent
  change k = d.rootEntityId
  rw [entity?_addEntity hp] at he
  split at he
  · obtain rfl := Option.some.inj he
    rw [hp] at hnone
    contradiction
  · split at he
    · rename_i hk
      obtain ⟨q, hq, rfl⟩ := Option.map_eq_some_iff.mp he
      exact hk ▸ hroot p q hq hnone
    · exact hroot k e he hnone

/-- Drafts that come parent first are added to a valid document just as their edits construct
them. -/
theorem applyRow_constructAll (creation : Draft → NewEntity) {drafts : List Draft}
    (hd : d.isValid = true) (h : d.Knows known) (hf : Draft.ParentFirst known drafts)
    (hc : ∀ draft ∈ drafts, (creation draft).Carries draft.entity) :
    (drafts.foldl (fun d draft => d.addEntity draft.entity) d).isValid = true ∧
      ∃ back, Edit.applyRow none d (drafts.flatMap fun draft =>
          Edit.construct (creation draft) draft.entity.components) =
        .ok (drafts.foldl (fun d draft => d.addEntity draft.entity) d, back) := by
  induction drafts generalizing d known with
  | nil => exact ⟨hd, [], rfl⟩
  | cons draft drafts ih =>
    obtain ⟨hj, hrest⟩ := hf
    obtain ⟨hfirst, hlater⟩ := List.forall_mem_cons.mp hc
    obtain ⟨p, hp, hparent⟩ := hj.parent
    have hknows := draft.id_entity ▸ knows_addEntity h hparent hp
    obtain ⟨back, hrow⟩ := applyRow_construct h hj hfirst
    obtain ⟨hvalid, later, hrows⟩ := ih (isValid_addEntity hd h hj) hknows hrest hlater
    exact ⟨hvalid, _, Edit.applyRow_append_ok_iff.mpr ⟨_, _, _, hrow, hrows, rfl⟩⟩

/-- Built parent first, a document is valid, and it is what the edits that construct the same
entities bring forth from a new document, applied together or one at a time, in batches or not. -/
theorem built_eq_applied (d₀ : Document) (id root : String) {drafts : List Draft}
    (hf : Draft.ParentFirst [root] drafts) {creation : Draft → NewEntity}
    (hc : ∀ draft ∈ drafts, (creation draft).Carries draft.entity) {ops : List Op}
    (hsteps : Op.stepsOf ops = drafts.flatMap fun draft =>
      Edit.construct (creation draft) draft.entity.components)
    (hu : Op.UpToDateAll ops) (stamps : Stamps) :
    let built := drafts.foldl (fun d draft => d.addEntity draft.entity) (d₀.restart id root)
    built.isValid = true ∧
      (∃ inverses, (ofIds id root d₀.name).applyAll none stamps ops = ⟨built, .ok inverses, []⟩) ∧
      (ofIds id root d₀.name).applyEach none stamps 0 ops = .ok built := by
  intro built
  have hnew : (d₀.restart id root).isValid = true := by
    refine isValid_iff.mpr ⟨forest_ofIds id root d₀.name, fun k e he _ => ?_⟩
    rw [restart, entity?_ofIds] at he
    split at he
    · assumption
    · contradiction
  obtain ⟨hvalid, back, hrow⟩ :=
    applyRow_constructAll creation hnew (knows_ofIds id root d₀.name) hf hc
  rw [← hsteps] at hrow
  obtain ⟨inverses, happlied, -⟩ := applyAll_of_row stamps hrow hu
  exact ⟨hvalid, ⟨inverses, happlied⟩, applyEach_of_row 0 hu hrow⟩

/-- A tuned lamp with a light, and in it a hidden bulb that its creation says least about. -/
theorem lamp_built_eq_applied :
    let lamp : Draft := ⟨"lamp", "Lamp", [.parent "root", .component (.ofType "Light"),
      .tag "bright", .tuning "engine" "glow" (.bool true)]⟩
    let bulb : Draft := ⟨"bulb", "Bulb", [.parent "lamp", .hide]⟩
    let creation (draft : Draft) : NewEntity :=
      if draft.id = "bulb" then
        ⟨"bulb", "Bulb", some "lamp", none, none, .nil, some false, none, none⟩
      else .ofEntity draft.entity none
    let ops : List Op := [.edit .plain (.createEntity (.ofEntity lamp.entity none)),
      .batch .plain [.edit .plain (.attach "lamp" (.ofType "Light")),
        .edit .plain (.createEntity (creation bulb))]]
    let built := ((ofIds "doc" "root" "Scene").addEntity lamp.entity).addEntity bulb.entity
    Draft.ParentFirst ["root"] [lamp, bulb] ∧
      (∀ draft ∈ [lamp, bulb], (creation draft).Carries draft.entity) ∧
      (Op.stepsOf ops = [lamp, bulb].flatMap fun draft =>
        Edit.construct (creation draft) draft.entity.components) ∧ Op.UpToDateAll ops ∧
      built.isValid = true ∧
      (∃ inverses, (ofIds "doc" "root" "Scene").applyAll none .plain ops =
        ⟨built, .ok inverses, []⟩) ∧
      (ofIds "doc" "root" "Scene").applyEach none .plain 0 ops = .ok built := by
  intro lamp bulb creation ops built
  have hf : Draft.ParentFirst ["root"] [lamp, bulb] :=
    ⟨⟨by decide, by decide, by decide, ⟨"root", by decide, rfl⟩, by decide⟩,
      ⟨by decide, by decide, by decide, ⟨"lamp", by decide, rfl⟩, by decide⟩, trivial⟩
  have hc : ∀ draft ∈ [lamp, bulb], (creation draft).Carries draft.entity := by
    intro draft hdraft
    rcases List.mem_pair.mp hdraft with rfl | rfl
    · exact NewEntity.carries_ofEntity lamp.entity
    · exact ⟨rfl, rfl, rfl, rfl, rfl, rfl, rfl, rfl, rfl⟩
  have hu : Op.UpToDateAll ops := by
    simp [ops, Op.UpToDateAll, Op.UpToDate, Envelope.plain, Envelope.fresh]
  exact ⟨hf, hc, rfl, hu,
    built_eq_applied (ofIds "old" "top" "Scene") "doc" "root" hf hc rfl hu .plain⟩

end Document
end SceneGraph

import SceneGraph.Proofs.EngineRuns
import SceneGraph.Proofs.Relocations

/-!
# Footprints: what an edit can change, and what a whole run of edits can

For each kind of edit it is stated which entities it touches, what it keeps of them, and what of the
document it may change (`Confined`). An accepted operation is a run of its edits, each confined in
the document that it finds. So whatever an operation changes, some edit of it was allowed to.
-/
namespace SceneGraph

namespace Edit

/-- The ids of entities that the edit names. -/
def names : Edit → List String
  | createEntity n => n.entityId :: n.parentId.toList
  | addChild parent child _ | removeChild parent child => [parent, child]
  | reparent id newParent _ _ _ => [id, newParent]
  | addAsset _ | removeAsset _ _ => []
  | deleteEntity id _ | setProperty id _ _ _ | addComponent id _ _ | removeComponent id _ _ _
  | setComponentProperty id _ _ _ _ | replaceAssetRef id _ _ _ _ | addKeyframe id _ _ _
  | removeKeyframe id _ _ _ | setKeyframeValue id _ _ _ _ => [id]

/-- The parent that is to lose a child which is deleted or moved away. -/
def bereaved? (d : Document) : Edit → Option String
  | deleteEntity id _ | reparent id _ _ _ _ => d.parent? id
  | _ => none

def Touches (d : Document) (e : Edit) (id : String) : Prop := id ∈ e.names ∨ e.bereaved? d = some id

/-- The id of the asset that the edit adds or removes. -/
def asset? : Edit → Option String
  | addAsset a => some a.id
  | removeAsset id _ => some id
  | _ => none

/-- The edit writes what the document says of itself. -/
def WritesDocument : Edit → Prop
  | setProperty id _ _ _ => id = documentTarget
  | _ => False

/-- The entity without what an edit of this kind may change of it: the place in the tree, the
components, or what property paths address. -/
def kept (x : Entity) : Edit → Entity
  | createEntity _ | deleteEntity _ _ | addChild _ _ _ | removeChild _ _ | reparent _ _ _ _ _ =>
    { x with parentId := none, children := [] }
  | setProperty _ _ _ _ => { Entity.ofId x.id "" with
      parentId := x.parentId, children := x.children, components := x.components }
  | addAsset _ | removeAsset _ _ => x
  | addComponent _ _ _ | removeComponent _ _ _ _ | setComponentProperty _ _ _ _ _
  | replaceAssetRef _ _ _ _ _ | addKeyframe _ _ _ _ | removeKeyframe _ _ _ _
  | setKeyframeValue _ _ _ _ _ => { x with components := [] }

/-- The documents before and after the edit differ in nothing but what it may change. -/
structure Confined (e : Edit) (d d' : Document) : Prop where
  id : d'.id = d.id
  schemaVersion : d'.schemaVersion = d.schemaVersion
  rootEntityId : d'.rootEntityId = d.rootEntityId
  wiring : d'.wiring = d.wiring
  touched : ∀ ⦃id⦄, d'.entity? id ≠ d.entity? id → e.Touches d id
  fields : ∀ ⦃id x x'⦄, d.entity? id = some x → d'.entity? id = some x' → e.kept x' = e.kept x
  assets : ∀ ⦃id⦄, d'.assets.find? id ≠ d.assets.find? id → e.asset? = some id
  settings : ¬ e.WritesDocument → d'.name = d.name ∧ d'.environment = d.environment ∧
    d'.gameSettings = d.gameSettings ∧ d'.metadata = d.metadata

open Document

namespace Confined
variable {e : Edit} {d d' : Document} {id : String} {x' : Entity}

theorem refl (e : Edit) (d : Document) : e.Confined d d where
  id := rfl
  schemaVersion := rfl
  rootEntityId := rfl
  wiring := rfl
  touched := fun _ hne => absurd rfl hne
  fields := fun id x x' hx hx' => by rw [Option.some.inj (hx.symm.trans hx')]
  assets := fun _ hne => absurd rfl hne
  settings := fun _ => ⟨rfl, rfl, rfl, rfl⟩

/-- Entities that the edit touches may be put in, changed and erased, as long as the edit keeps of
them what it has to keep. -/
theorem entities (h : e.Confined d d') (ht : e.Touches d id) {entities : Dict Entity}
    (hothers : ∀ k, k ≠ id → entities.find? k = d'.entity? k)
    (hx : ∀ x x', d.entity? id = some x → entities.find? id = some x' → e.kept x' = e.kept x) :
    e.Confined d { d' with entities } where
  id := h.id
  schemaVersion := h.schemaVersion
  rootEntityId := h.rootEntityId
  wiring := h.wiring
  touched := fun k hne => by
    by_cases hk : k = id
    · exact hk ▸ ht
    · exact h.touched (hothers k hk ▸ hne)
  fields := fun k x x' hd hd' => by
    by_cases hk : k = id
    · subst hk
      exact hx x x' hd hd'
    · exact h.fields hd ((hothers k hk).symm.trans hd')
  assets := h.assets
  settings := h.settings

theorem putEntity (h : e.Confined d d') (ht : e.Touches d id)
    (hx : ∀ x, d.entity? id = some x → e.kept x' = e.kept x) :
    e.Confined d (d'.putEntity id x') := by
  refine h.entities ht (fun k hk => ?_) fun x y hd hd' => ?_
  · exact (entity?_putEntity d' id x' k).trans (if_neg hk)
  · obtain rfl := Option.some.inj ((entity?_putEntity_self d' id x').symm.trans hd')
    exact hx x hd

theorem updateEntity (h : e.Confined d d') (ht : e.Touches d id) {f : Entity → Entity}
    (hf : ∀ x, e.kept (f x) = e.kept x) : e.Confined d (d'.updateEntity id f) := by
  refine h.entities ht (fun k hk => ?_) fun x y hd hd' => ?_
  · exact (entity?_updateEntity d' id f k).trans (if_neg hk)
  · have hupdated := (entity?_updateEntity d' id f id).symm.trans hd'
    rw [if_pos rfl] at hupdated
    obtain ⟨x', hx', rfl⟩ := Option.map_eq_some_iff.mp hupdated
    rw [hf, h.fields hd hx']

theorem eraseEntity (h : e.Confined d d') (ht : e.Touches d id) :
    e.Confined d (d'.eraseEntity id) := by
  refine h.entities ht (fun k hk => ?_) fun x y hd hd' => ?_
  · exact (entity?_eraseEntity d' id k).trans (if_neg hk)
  · have herased := (entity?_eraseEntity d' id id).symm.trans hd'
    rw [if_pos rfl] at herased
    contradiction

end Confined

section Apply
variable {registry : Option Registry} {d : Document} {a : Applied}

private theorem without_setComponent (x : Entity) (componentType : String) (c : Component) :
    ({ x.setComponent componentType c with components := [] } : Entity) =
      { x with components := [] } := by
  unfold Entity.setComponent
  split <;> rfl

private theorem without_editTrack {β : Type} {x x' : Entity} {track : String}
    {change : List Json → Except OpError (List Json × β)} {y : β}
    (h : x.editTrack track change = .ok (x', y)) :
    ({ x' with components := [] } : Entity) = { x with components := [] } := by
  obtain ⟨c, keyframes, changed, -, -, -, rfl⟩ := Entity.editTrack_ok_iff.mp h
  exact without_setComponent x _ _

/-- An edit that puts one entity in place of one that it names. -/
private theorem put_confined {e : Edit} {id : String} {x x' : Entity} (hn : id ∈ e.names)
    (hx : d.entity? id = some x) (hk : e.kept x' = e.kept x) :
    e.Confined d (d.putEntity id x') :=
  (Confined.refl e d).putEntity (.inl hn) fun _ hy => by rw [hk, Option.some.inj (hx.symm.trans hy)]

private theorem create_confined {n : NewEntity} (ha : applyCreate d n = .ok a) :
    (createEntity n).Confined d a.document := by
  obtain ⟨-, -, hnew, linked, hl, rfl⟩ := applyCreate_ok_iff.mp ha
  have hlinked : (createEntity n).Confined d linked := by
    cases hp : n.parentId with
    | none =>
      rw [hp, listChild_none_ok_iff] at hl
      exact hl ▸ .refl _ d
    | some p =>
      rw [hp, listChild_some_ok_iff] at hl
      obtain ⟨ep, -, rfl⟩ := hl
      exact (Confined.refl _ d).updateEntity (.inl (by simp [names, hp])) fun _ => rfl
  refine hlinked.putEntity (.inl List.mem_cons_self) fun x hx => ?_
  rw [hnew] at hx
  contradiction

private theorem delete_confined {id : String} {old : Option Entity}
    (ha : applyDelete d id = .ok a) : (deleteEntity id old).Confined d a.document := by
  obtain ⟨x, hx, -, -, rfl⟩ := applyDelete_ok_iff.mp ha
  refine Confined.eraseEntity ?_ (.inl List.mem_cons_self)
  split
  · exact .refl _ d
  · rename_i p hp
    have hparent : (deleteEntity id old).bereaved? d = some p := (parent?_of_entity? hx).trans hp
    exact (Confined.refl _ d).updateEntity (.inr hparent) fun _ => rfl

private theorem setProperty_confined {id path : String} {value previous : Option Json}
    (ha : applySetProperty d id path value = .ok a) :
    (setProperty id path value previous).Confined d a.document := by
  obtain ⟨d', w, hw, rfl⟩ := applySetProperty_ok_iff.mp ha
  rcases writeProperty_ok_iff.mp hw with ⟨htarget, hset⟩ | ⟨-, x, x', hx, hset, rfl⟩
  · obtain ⟨hid, hs, hr, hentities, hassets, hwiring, -⟩ := Document.setProperty_keeps hset
    have hsame : ∀ k, d'.entity? k = d.entity? k := fun k => by rw [entity?, entity?, hentities]
    exact {
      id := hid
      schemaVersion := hs
      rootEntityId := hr
      wiring := hwiring
      touched := fun k hne => absurd (hsame k) hne
      fields := fun k x x' hx hx' => by rw [Option.some.inj (hx.symm.trans (hsame k ▸ hx'))]
      assets := fun k hne => absurd (congrArg (·.find? k) hassets) hne
      settings := fun hwrites => absurd htarget hwrites }
  · obtain ⟨hid, hp, hc, ht, -⟩ := Entity.setProperty_keeps hset
    refine put_confined List.mem_cons_self hx ?_
    simp only [kept, hid, hp, hc, ht]

private theorem reparent_confined {id q : String} {index oldIndex : Option Nat}
    {old : Option String} (ha : applyReparent d id q index = .ok a) :
    (reparent id q index old oldIndex).Confined d a.document := by
  obtain ⟨p, i, i', hp, rfl⟩ := reparent_outcome ha
  have hunlinked := (Confined.refl (reparent id q index old oldIndex) d).updateEntity
    (f := fun x => { x with children := x.children.eraseIdx i }) (.inr hp) fun _ => rfl
  have hlinked := hunlinked.updateEntity
    (f := fun x => { x with children := insertClamped x.children index id })
    (.inl (List.mem_cons_of_mem _ List.mem_cons_self)) fun _ => rfl
  exact hlinked.updateEntity (.inl List.mem_cons_self) fun _ => rfl

private theorem turn_confined {e : Edit} {p c : String} (hnames : e.names = [p, c])
    (hkept : ∀ x, e.kept x = { x with parentId := none, children := [] }) (children : List String)
    (parent : Option String) : e.Confined d (d.turn p children c parent) := by
  have hfirst := (Confined.refl e d).updateEntity (f := ({ · with children }))
    (.inl (show p ∈ e.names by simp [hnames])) fun x => by simp only [hkept]
  exact hfirst.updateEntity (.inl (by simp [hnames])) fun x => by simp only [hkept]

private theorem assets_confined {e : Edit} {assets : Dict Asset}
    (h : ∀ id, assets.find? id ≠ d.assets.find? id → e.asset? = some id) :
    e.Confined d { d with assets } :=
  { Confined.refl e d with assets := h }

/-- Whatever the document, an accepted edit changes nothing but what it may. -/
theorem apply_confined {e : Edit} (ha : e.apply registry d = .ok a) : e.Confined d a.document := by
  cases e with
  | createEntity n => exact create_confined ha
  | deleteEntity id => exact delete_confined ha
  | setProperty id path value => exact setProperty_confined ha
  | addChild p c index =>
    obtain ⟨ep, ec, -, -, -, -, -, rfl⟩ := applyAddChild_ok_iff.mp ha
    exact turn_confined rfl (fun _ => rfl) _ _
  | removeChild p c =>
    obtain ⟨ep, ec, i, -, -, -, -, rfl⟩ := applyRemoveChild_ok_iff.mp ha
    exact turn_confined rfl (fun _ => rfl) _ _
  | reparent id p index => exact reparent_confined ha
  | addComponent id c index =>
    obtain ⟨x, hx, -, -, rfl⟩ := applyAddComponent_ok_iff.mp ha
    exact put_confined List.mem_cons_self hx rfl
  | removeComponent id t index =>
    obtain ⟨x, place, c, hx, -, -, -, rfl⟩ := applyRemoveComponent_ok_iff.mp ha
    exact put_confined List.mem_cons_self hx rfl
  | setComponentProperty id t path value =>
    obtain ⟨x, c, c', w, hx, -, -, rfl⟩ := applySetComponentProperty_ok_iff.mp ha
    exact put_confined List.mem_cons_self hx (without_setComponent x t c')
  | addAsset asset =>
    obtain ⟨-, -, rfl⟩ := applyAddAsset_ok_iff.mp ha
    refine assets_confined fun id hne => congrArg some ?_
    by_contra hid
    exact hne ((Dict.find?_insert d.assets asset.id asset id).trans (if_neg (Ne.symm hid)))
  | removeAsset id =>
    obtain ⟨asset, -, rfl⟩ := applyRemoveAsset_ok_iff.mp ha
    refine assets_confined fun k hne => congrArg some ?_
    by_contra hid
    exact hne ((Ascending.find?_erase d.assets id k).trans (if_neg (Ne.symm hid)))
  | replaceAssetRef id t path old new =>
    obtain ⟨steps, x, c, current, -, -, hx, -, -, -, rfl⟩ := applyReplaceAssetRef_ok_iff.mp ha
    exact put_confined List.mem_cons_self hx (without_setComponent x t _)
  | addKeyframe id track keyframe index =>
    obtain ⟨x, x', i, hx, hk, rfl⟩ := applyAddKeyframe_ok_iff.mp ha
    obtain ⟨time, -, hk⟩ := bind_ok_iff.mp hk
    exact put_confined List.mem_cons_self hx (without_editTrack hk)
  | removeKeyframe id track time =>
    obtain ⟨x, x', i, k, hx, hk, rfl⟩ := applyRemoveKeyframe_ok_iff.mp ha
    exact put_confined List.mem_cons_self hx (without_editTrack hk)
  | setKeyframeValue id track time value =>
    obtain ⟨x, x', previous, hx, hk, rfl⟩ := applySetKeyframeValue_ok_iff.mp ha
    exact put_confined List.mem_cons_self hx (without_editTrack hk)

end Apply

end Edit

/-- One edit of a run, with the documents before and after it. -/
structure RunStep where
  before : Document
  edit : Edit
  after : Document

namespace Document

/-- Edits accepted one after the other, from one document to another. -/
inductive Run (registry : Option Registry) : Document → List RunStep → Document → Prop
  | nil (d : Document) : Run registry d [] d
  | cons {d d' : Document} {e : Edit} {a : Applied} {run : List RunStep}
      (ha : e.apply registry d = .ok a) (h : Run registry a.document run d') :
      Run registry d (⟨d, e, a.document⟩ :: run) d'

variable {registry : Option Registry} {stamps : Stamps} {d d' : Document} {run : List RunStep}
  {edits back : List Edit} {op : Op}

theorem run_of_row (h : Edit.applyRow registry d edits = .ok (d', back)) :
    ∃ run, Run registry d run d' ∧ run.map RunStep.edit = edits := by
  induction edits generalizing d back with
  | nil =>
    obtain ⟨rfl, -⟩ := Prod.mk.inj (Except.ok.inj h)
    exact ⟨[], .nil d, rfl⟩
  | cons e edits ih =>
    cases ha : e.apply registry d with
    | error error => simp [Edit.applyRow, ha] at h
    | ok a =>
      simp only [Edit.applyRow, ha, map_ok_iff, Prod.exists, Prod.mk.injEq] at h
      obtain ⟨_, later, hl, rfl, -⟩ := h
      obtain ⟨run, hrun, rfl⟩ := ih hl
      exact ⟨_, .cons ha hrun, rfl⟩

/-- An operation is accepted as a run of its edits. -/
theorem run_of_accepts (h : d.Accepts registry stamps op d') :
    ∃ run, Run registry d run d' ∧ run.map RunStep.edit = op.steps := by
  obtain ⟨inverse, rollbacks, h⟩ := h
  have hresult : (d.apply registry stamps op).result = .ok inverse := by rw [h]
  obtain ⟨hrow, -⟩ := Engine.row_of_applyUndoing stamps op hresult
  have hdocument : (d.apply registry stamps op).document = d' := by rw [h]
  rw [← hdocument]
  exact run_of_row hrow

namespace Run

theorem confined (h : Run registry d run d') :
    ∀ step ∈ run, step.edit.Confined step.before step.after := by
  induction h with
  | nil => simp
  | cons ha _ ih => exact List.forall_mem_cons.mpr ⟨Edit.apply_confined ha, ih⟩

theorem forest (h : Run registry d run d') (hd : d.Forest) : d'.Forest := by
  induction h with
  | nil => exact hd
  | cons ha _ ih => exact ih (Edit.apply_forest hd ha)

/-- What a run changes, some step of it changes. -/
theorem exists_change {α : Type} {f : Document → α} (h : Run registry d run d')
    (hne : f d' ≠ f d) : ∃ step ∈ run, f step.after ≠ f step.before := by
  induction h with
  | nil => exact absurd rfl hne
  | @cons d d' e a run ha _ ih =>
    by_cases hfirst : f a.document = f d
    · obtain ⟨step, hmem, hstep⟩ := ih (hfirst ▸ hne)
      exact ⟨step, List.mem_cons_of_mem _ hmem, hstep⟩
    · exact ⟨_, List.mem_cons_self, hfirst⟩

theorem unchanged {α : Type} {f : Document → α} (h : Run registry d run d')
    (hf : ∀ step ∈ run, f step.after = f step.before) : f d' = f d := by
  by_contra hne
  obtain ⟨step, hmem, hstep⟩ := h.exists_change hne
  exact hstep (hf step hmem)

end Run

/-- An accepted operation runs its edits one after the other, and each of them, in the document that
it finds, changes nothing but what an edit of its kind may change. So the operation changes only
entities that one of them names or takes a child from, only assets that one of them names, and what
the document says of itself only if one of them writes it. -/
theorem footprint_of_accepts (hd : d.Forest) (h : d.Accepts registry stamps op d') :
    ∃ run, Run registry d run d' ∧ run.map RunStep.edit = op.steps ∧
      (∀ step ∈ run, step.edit.Confined step.before step.after) ∧
      d'.id = d.id ∧ d'.schemaVersion = d.schemaVersion ∧ d'.rootEntityId = d.rootEntityId ∧
      d'.wiring = d.wiring ∧
      (∀ id, d'.entity? id ≠ d.entity? id → ∃ step ∈ run, step.edit.Touches step.before id) ∧
      (∀ id x x', d.entity? id = some x → d'.entity? id = some x' → x'.id = x.id) ∧
      (∀ id, d'.assets.find? id ≠ d.assets.find? id → ∃ e ∈ op.steps, e.asset? = some id) ∧
      ((∀ e ∈ op.steps, ¬ e.WritesDocument) → d'.name = d.name ∧
        d'.environment = d.environment ∧ d'.gameSettings = d.gameSettings ∧
        d'.metadata = d.metadata) := by
  obtain ⟨run, hrun, hsteps⟩ := run_of_accepts h
  have hc := hrun.confined
  have hmem : ∀ step ∈ run, step.edit ∈ op.steps := fun step hs => by
    rw [← hsteps]
    exact List.mem_map_of_mem hs
  have hd' := hrun.forest hd
  refine ⟨run, hrun, hsteps, hc, hrun.unchanged fun s hs => (hc s hs).id,
    hrun.unchanged fun s hs => (hc s hs).schemaVersion,
    hrun.unchanged fun s hs => (hc s hs).rootEntityId,
    hrun.unchanged fun s hs => (hc s hs).wiring, fun id hne => ?_, fun id x x' hx hx' => ?_,
    fun id hne => ?_, fun hnone => ?_⟩
  · obtain ⟨step, hs, hstep⟩ := hrun.exists_change (f := (·.entity? id)) hne
    exact ⟨step, hs, (hc step hs).touched hstep⟩
  · rw [hd.ids hx, hd'.ids hx']
  · obtain ⟨step, hs, hstep⟩ := hrun.exists_change (f := (·.assets.find? id)) hne
    exact ⟨step.edit, hmem step hs, (hc step hs).assets hstep⟩
  · have hsettings := fun s hs => (hc s hs).settings (hnone _ (hmem s hs))
    exact ⟨hrun.unchanged fun s hs => (hsettings s hs).1,
      hrun.unchanged fun s hs => (hsettings s hs).2.1,
      hrun.unchanged fun s hs => (hsettings s hs).2.2.1,
      hrun.unchanged fun s hs => (hsettings s hs).2.2.2⟩

/-- A nest is built in the oak, which is then moved to the pond. The root, which no edit names, has
lost the oak. -/
theorem garden_footprint :
    let op : Op := .batch .plain [.edit .plain (.create "nest" "Nest" "oak"),
      .batch .plain [.edit .plain (.move "oak" "pond")]]
    garden.Forest ∧ ∃ d' run, garden.Accepts none .plain op d' ∧ Run none garden run d' ∧
      run.map RunStep.edit = op.steps ∧
      (∀ step ∈ run, step.edit.Confined step.before step.after) ∧
      d'.entity? "root" ≠ garden.entity? "root" ∧
      (∃ step ∈ run, step.edit.Touches step.before "root") ∧ d'.name = garden.name := by
  intro op
  have hd : garden.Forest := (isValid_iff.mp (by decide)).1
  have hlost : ((garden.apply none .plain op).document.entity? "root").map (·.children) ≠
      (garden.entity? "root").map (·.children) := by decide
  obtain ⟨inverse, hinverse⟩ : ∃ inverse, (garden.apply none .plain op).result = .ok inverse :=
    ⟨_, rfl⟩
  have haccepts : garden.Accepts none .plain op (garden.apply none .plain op).document :=
    ⟨inverse, (garden.apply none .plain op).rollbacks, by rw [← hinverse]⟩
  obtain ⟨run, hrun, hsteps, hc, -, -, -, -, htouched, -, -, hsettings⟩ :=
    footprint_of_accepts hd haccepts
  have hroot : (garden.apply none .plain op).document.entity? "root" ≠ garden.entity? "root" :=
    fun hsame => hlost (by rw [hsame])
  have hwrites : ∀ e ∈ op.steps, ¬ e.WritesDocument := by
    simp [op, Edit.WritesDocument, Edit.create, Edit.move]
  exact ⟨hd, _, run, haccepts, hrun, hsteps, hc, hroot, htouched _ hroot, (hsettings hwrites).1⟩

end Document
end SceneGraph

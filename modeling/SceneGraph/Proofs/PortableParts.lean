import SceneGraph.Proofs.NodeChanges
import SceneGraph.Proofs.RootedTrees
import SceneGraph.Proofs.RoundTrips

/-!
# Portable parts: what of a document its scene depends on, and what it does not

Two valid documents compile to the same scene if and only if they have the same version and the same
portable part. What is left, tags, locks, metadata and notes of editors, is a `Decoration` that can
be exchanged freely without any change of the scene.
-/
namespace SceneGraph

/-- What documents hold that scenes do not carry: metadata, and for each entity its tags, its lock,
and what editors have noted at its components. -/
structure Decoration where
  metadata : Bag
  tags : String → TextSet
  locked : String → Bool
  editorMeta : String → Nat → Option Bag

namespace Decoration

def decorateEntity (x : Decoration) (e : Entity) : Entity :=
  { e with
    tags := x.tags e.id
    locked := x.locked e.id
    components := e.components.mapIdx fun i c => { c with editorMeta := x.editorMeta e.id i } }

/-- The decoration that a document has. -/
def ofDocument (d : Document) : Decoration where
  metadata := d.metadata
  tags id := ((d.entity? id).map (·.tags)).getD .nil
  locked id := ((d.entity? id).map (·.locked)).getD false
  editorMeta id i := ((d.entity? id).bind (·.components[i]?)).bind (·.editorMeta)

theorem portableEntity_decorateEntity (x : Decoration) (e : Entity) :
    Document.portableEntity (x.decorateEntity e) = Document.portableEntity e := by
  have hcomponents :
      (e.components.mapIdx fun i c => { c with editorMeta := x.editorMeta e.id i }).map
        Document.portableComponent = e.components.map Document.portableComponent := by
    refine List.ext_getElem? fun i => ?_
    simp only [List.getElem?_map, List.getElem?_mapIdx, Option.map_map]
    rfl
  simp only [Document.portableEntity, decorateEntity, hcomponents]

end Decoration

theorem SceneNode.ofEntity_portableEntity (e : Entity) :
    ofEntity (Document.portableEntity e) = ofEntity e := by
  simp only [ofEntity, Document.portableEntity, List.map_map]
  rfl

namespace Document
variable {d d₁ d₂ : Document} {id : String} {e e₁ e₂ : Entity}

/-- Puts a decoration in place of the one that the document has. -/
def decorate (d : Document) (x : Decoration) : Document :=
  { d with
    metadata := x.metadata
    entities := d.entities.mapValues x.decorateEntity }

theorem entity?_decorate (d : Document) (x : Decoration) (id : String) :
    (d.decorate x).entity? id = (d.entity? id).map x.decorateEntity :=
  Ascending.find?_mapValues x.decorateEntity d.entities id

theorem size_portable (d : Document) : d.portable.entities.size = d.entities.size := by
  have hlist : ∀ {low : Option String} (entries : Ascending Entity low),
      (entries.mapValues portableEntity).toList.length = entries.toList.length := by
    intro low entries
    induction entries with
    | nil => rfl
    | cons key above e rest ih => simp [Ascending.mapValues, Ascending.toList, ih]
  exact hlist d.entities

theorem breadthFirst_portable (d : Document) : d.portable.breadthFirst = d.breadthFirst := by
  have hchildren : d.portable.childrenOf = d.childrenOf := by
    funext id
    rw [childrenOf, childrenOf, entity?_portable]
    cases d.entity? id <;> rfl
  rw [breadthFirst, breadthFirst, size_portable, generations_congr hchildren]
  rfl

theorem sceneNodes_portable (d : Document) : d.portable.sceneNodes = d.sceneNodes := by
  rw [sceneNodes, sceneNodes, breadthFirst_portable]
  refine List.filterMap_congr fun id _ => ?_
  rw [entity?_portable, Option.map_map]
  cases d.entity? id with
  | none => rfl
  | some e => exact congrArg some (SceneNode.ofEntity_portableEntity e)

/-- The scene of the portable part is that of the document, but for the version it comes from. -/
theorem scene_portable (d : Document) :
    d.portable.scene = { d.scene with sourceSchemaVersion := currentSchemaVersion } := by
  simp only [scene, sceneNodes_portable]
  rfl

theorem scene_eq_of_portable_eq (hv : d₁.schemaVersion = d₂.schemaVersion)
    (hp : d₁.portable = d₂.portable) : d₁.scene = d₂.scene :=
  calc d₁.scene
      = { d₁.portable.scene with sourceSchemaVersion := d₁.schemaVersion } := by
        rw [scene_portable]
        rfl
    _ = { d₂.portable.scene with sourceSchemaVersion := d₂.schemaVersion } := by rw [hv, hp]
    _ = d₂.scene := by
        rw [scene_portable]
        rfl

theorem portable_decorate (d : Document) (x : Decoration) :
    (d.decorate x).portable = d.portable := by
  have hentities : (d.decorate x).portable.entities = d.portable.entities := by
    refine Ascending.ext_find? fun id => ?_
    change (d.decorate x).portable.entity? id = d.portable.entity? id
    rw [entity?_portable, entity?_portable, entity?_decorate, Option.map_map]
    exact congrArg (Option.map · _) (funext x.portableEntity_decorateEntity)
  calc (d.decorate x).portable
      = { d.portable with entities := (d.decorate x).portable.entities } := rfl
    _ = d.portable := by rw [hentities]

/-- An entity is found where it was, in the same place of the tree and with components of the same
types. -/
private theorem entity_of_decorate {x : Decoration} (he : (d.decorate x).entity? id = some e) :
    ∃ e₀, d.entity? id = some e₀ ∧ e.id = e₀.id ∧ e.parentId = e₀.parentId ∧
      e.children = e₀.children ∧ ∀ c ∈ e.components, ∃ c₀ ∈ e₀.components,
        c.componentType = c₀.componentType := by
  rw [entity?_decorate] at he
  obtain ⟨e₀, he₀, rfl⟩ := Option.map_eq_some_iff.mp he
  refine ⟨e₀, he₀, rfl, rfl, rfl, fun c hc => ?_⟩
  obtain ⟨i, hi, rfl⟩ := List.mem_mapIdx.mp hc
  exact ⟨_, List.getElem_mem hi, rfl⟩

private theorem decorated_entity (x : Decoration) (he : d.entity? id = some e) :
    (d.decorate x).entity? id = some (x.decorateEntity e) := by
  rw [entity?_decorate, he]
  rfl

theorem above?_decorate (d : Document) (x : Decoration) (steps : Nat) (id : String) :
    (d.decorate x).above? steps id = d.above? steps id := by
  induction steps generalizing id with
  | zero => rfl
  | succ steps ih =>
    have hparent : (d.decorate x).parent? id = d.parent? id := by
      rw [parent?, parent?, entity?_decorate]
      cases d.entity? id <;> rfl
    rw [above?, above?, hparent]
    exact congrArg _ (funext ih)

/-- Validation does not look at decorations. -/
theorem isValid_decorate (x : Decoration) (hd : d.isValid = true) :
    (d.decorate x).isValid = true := by
  have h := isValid_iff_rootedTree.mp hd
  refine isValid_iff_rootedTree.mpr {
    schema := h.schema, assetIds := h.assetIds, wires := h.wires, ids := fun id e he => ?_,
    types := fun id e he c hc => ?_, root := ?_, parents := fun id e he hne => ?_,
    children := fun id e he c hc => ?_, upward := fun id e he => ?_ }
  · obtain ⟨e₀, he₀, hid, -⟩ := entity_of_decorate he
    exact hid.trans (h.ids he₀)
  · obtain ⟨e₀, he₀, -, -, -, htypes⟩ := entity_of_decorate he
    obtain ⟨c₀, hc₀, ht⟩ := htypes c hc
    exact ht ▸ h.types he₀ c₀ hc₀
  · obtain ⟨e, he, hp⟩ := h.root
    exact ⟨_, decorated_entity x he, hp⟩
  · obtain ⟨e₀, he₀, -, hp, -⟩ := entity_of_decorate he
    obtain ⟨parent, p, hparent, hentity, hcount⟩ := h.parents he₀ hne
    exact ⟨parent, _, hp.trans hparent, decorated_entity x hentity, hcount⟩
  · obtain ⟨e₀, he₀, -, -, hchildren, -⟩ := entity_of_decorate he
    obtain ⟨child, hchild, hp⟩ := h.children he₀ c (hchildren ▸ hc)
    exact ⟨_, decorated_entity x hchild, hp⟩
  · obtain ⟨e₀, he₀, -⟩ := entity_of_decorate he
    obtain ⟨steps, hsteps⟩ := h.upward he₀
    exact ⟨steps, (above?_decorate d x steps id).trans hsteps⟩

/-- An entity with the tags, the lock and the notes of another is that other, when their portable
parts are the same. -/
private theorem decorateEntity_of_portable_eq (hp : portableEntity e₁ = portableEntity e₂)
    (he : d₂.entity? e₁.id = some e₂) :
    (Decoration.ofDocument d₂).decorateEntity e₁ = e₂ := by
  have hcomponents : (e₁.components.mapIdx fun i c =>
      { c with editorMeta := (Decoration.ofDocument d₂).editorMeta e₁.id i }) = e₂.components := by
    refine List.ext_getElem? fun i => ?_
    have hi := congrArg (·.components[i]?) hp
    simp only [portableEntity, List.getElem?_map] at hi
    simp only [List.getElem?_mapIdx, Decoration.ofDocument, he, Option.bind_some]
    cases h₂ : e₂.components[i]? with
    | none =>
      rw [h₂, Option.map_none, Option.map_eq_none_iff] at hi
      rw [hi]
      rfl
    | some c₂ =>
      rw [h₂] at hi
      obtain ⟨c₁, h₁, hc⟩ := Option.map_eq_some_iff.mp hi
      rw [h₁]
      simp only [portableComponent, Component.mk.injEq] at hc
      exact congrArg some (Component.mk.injEq .. ▸ ⟨hc.1, hc.2.1, hc.2.2.1, rfl⟩)
  calc (Decoration.ofDocument d₂).decorateEntity e₁
      = { portableEntity e₁ with tags := e₂.tags, locked := e₂.locked
                                 components := e₂.components } := by
        rw [Decoration.decorateEntity, hcomponents]
        simp only [Decoration.ofDocument, he, Option.map_some, Option.getD_some]
        rfl
    _ = e₂ := by rw [hp]; rfl

/-- Documents with the same portable part differ in their decorations alone. -/
theorem decorate_ofDocument (hids : ∀ {id e}, d₁.entity? id = some e → e.id = id)
    (hv : d₁.schemaVersion = d₂.schemaVersion) (hp : d₁.portable = d₂.portable) :
    d₁.decorate (.ofDocument d₂) = d₂ := by
  have hentities : (d₁.decorate (.ofDocument d₂)).entities = d₂.entities := by
    refine Ascending.ext_find? fun id => ?_
    change (d₁.decorate (.ofDocument d₂)).entity? id = d₂.entity? id
    have hportable : (d₁.entity? id).map portableEntity = (d₂.entity? id).map portableEntity := by
      rw [← entity?_portable, ← entity?_portable, hp]
    rw [entity?_decorate]
    cases h₁ : d₁.entity? id with
    | none =>
      rw [h₁] at hportable
      exact (Option.map_eq_none_iff.mp hportable.symm).symm
    | some e₁ =>
      rw [h₁] at hportable
      obtain ⟨e₂, h₂, he⟩ := Option.map_eq_some_iff.mp hportable.symm
      rw [h₂]
      exact congrArg some (decorateEntity_of_portable_eq he.symm (hids h₁ ▸ h₂))
  calc d₁.decorate (.ofDocument d₂)
      = { d₁.portable with
          schemaVersion := d₁.schemaVersion
          metadata := d₂.metadata
          entities := (d₁.decorate (.ofDocument d₂)).entities } := rfl
    _ = d₂ := by
        rw [hentities, hv, hp]
        rfl

theorem compile_congr (h₁ : d₁.isValid = true) (h₂ : d₂.isValid = true)
    (hs : d₁.scene = d₂.scene) (options : CompileOptions) :
    d₁.compile options = d₂.compile options := by
  have hwiring : d₁.wiring = d₂.wiring := congrArg (·.wires) hs
  have hends : ∀ index, d₁.looseEnds index = d₂.looseEnds index := fun index => by
    rw [looseEnds, looseEnds, hwiring]
  rw [compile_eq h₁, compile_eq h₂, hs, hends]

theorem compile_decorate (hd : d.isValid = true) (x : Decoration) (options : CompileOptions) :
    (d.decorate x).compile options = d.compile options :=
  compile_congr (isValid_decorate x hd) hd
    (scene_eq_of_portable_eq rfl (portable_decorate d x)) options

theorem portable_eq_of_scene_eq (h₁ : d₁.isValid = true) (h₂ : d₂.isValid = true)
    (hg₁ : ∀ g ∈ d₁.gameSettings, g.Separate) (hg₂ : ∀ g ∈ d₂.gameSettings, g.Separate)
    (hs : d₁.scene = d₂.scene) : d₁.portable = d₂.portable :=
  Except.ok.inj <|
    calc Except.ok d₁.portable
        = d₁.scene.decompile := (decompile_scene h₁ hg₁).symm
      _ = d₂.scene.decompile := by rw [hs]
      _ = .ok d₂.portable := decompile_scene h₂ hg₂

/-- Two valid documents compile to the same scene if and only if they have the same schema version
and the same portable part, which is if and only if one is the other in another decoration. Under
no options does compiling, or the hash of what it makes, depend on a decoration. -/
theorem compile_eq_iff_portable_eq (h₁ : d₁.isValid = true) (h₂ : d₂.isValid = true)
    (hg₁ : ∀ g ∈ d₁.gameSettings, g.Separate) (hg₂ : ∀ g ∈ d₂.gameSettings, g.Separate) :
    ∃ c₁ c₂, d₁.compile .default = .ok c₁ ∧ d₂.compile .default = .ok c₂ ∧
      (c₁.scene = c₂.scene ↔
        d₁.schemaVersion = d₂.schemaVersion ∧ d₁.portable = d₂.portable) ∧
      (d₁.compile .default = d₂.compile .default ↔ ∃ x, d₁.decorate x = d₂) ∧
      ∀ x options, (d₁.decorate x).compile options = d₁.compile options ∧
        ∀ c, (d₁.decorate x).compile options = .ok c →
          c.scene.contentHash = c₁.scene.contentHash := by
  have hscene : d₁.scene = d₂.scene ↔
      d₁.schemaVersion = d₂.schemaVersion ∧ d₁.portable = d₂.portable := by
    constructor
    · intro hs
      exact ⟨congrArg (·.sourceSchemaVersion) hs, portable_eq_of_scene_eq h₁ h₂ hg₁ hg₂ hs⟩
    · intro h
      exact scene_eq_of_portable_eq h.1 h.2
  refine ⟨_, _, compile_default h₁, compile_default h₂, hscene, ?_, fun x options => ?_⟩
  · constructor
    · intro hc
      rw [compile_default h₁, compile_default h₂, Except.ok.injEq] at hc
      have h := hscene.mp (congrArg (·.scene) hc)
      exact ⟨_, decorate_ofDocument (fun he => (isValid_iff.mp h₁).1.ids he) h.1 h.2⟩
    · intro ⟨x, hx⟩
      rw [← hx, compile_decorate h₁]
  · refine ⟨compile_decorate h₁ x options, fun c hc => ?_⟩
    rw [compile_decorate h₁, compile_eq h₁] at hc
    split at hc
    · exact absurd hc nofun
    · rw [← Except.ok.inj hc]

/-- The furnished scene without decoration. -/
def undecorated : Document := furnished.decorate (.ofDocument furnished.portable)

theorem furnished_compile_eq_undecorated :
    furnished.isValid = true ∧ undecorated.isValid = true ∧
      (∀ g ∈ furnished.gameSettings, g.Separate) ∧ (∀ g ∈ undecorated.gameSettings, g.Separate) ∧
      furnished ≠ undecorated ∧ ∃ c₁ c₂, furnished.compile .default = .ok c₁ ∧
        undecorated.compile .default = .ok c₂ ∧ c₁.scene = c₂.scene := by
  have hvalid : furnished.isValid = true := by decide
  have hplain := isValid_decorate (.ofDocument furnished.portable) hvalid
  have hsettings : ∀ g ∈ furnished.gameSettings, g.Separate := by
    rintro g ⟨⟩
    exact ⟨by decide, by decide⟩
  obtain ⟨c₁, c₂, h₁, h₂, hscene, -⟩ :=
    compile_eq_iff_portable_eq hvalid hplain hsettings hsettings
  exact ⟨hvalid, hplain, hsettings, hsettings, by decide, c₁, c₂, h₁, h₂,
    hscene.mpr ⟨rfl, (portable_decorate furnished _).symm⟩⟩

end Document
end SceneGraph

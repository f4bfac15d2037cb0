import SceneGraph.SceneCompilation
import SceneGraph.Proofs.ValidScenes
import SceneGraph.Proofs.WalkOrder
import SceneGraph.Proofs.ValueReading

/-!
# What a valid document compiles to

`Document.scene` is the scene that a document makes, with the nodes in the order of the walk and
each at the place that the index states. It is shown to be valid when the document is, and
`compile_eq` says that compiling a valid document comes to it, unless wires stand in the way.
-/
namespace SceneGraph

namespace Document

/-- The nodes of the entities in the order of the walk. -/
def sceneNodes (d : Document) : List SceneNode :=
  d.breadthFirst.filterMap fun id => (d.entity? id).map .ofEntity

/-- The scene that the document makes. -/
def scene (d : Document) : CompiledScene where
  id := d.id
  name := d.name
  sourceSchemaVersion := d.schemaVersion
  nodes := d.sceneNodes
  nodeIndex := Dict.ofList (d.sceneNodes.mapIdx fun i n => (n.id, i))
  rootNodeId := d.rootEntityId
  assets := d.assets.values
  wires := d.wiring
  environment := d.environment
  gameSettings := d.gameSettings.map (·.toBag)

variable {d : Document} {i : Nat} {n : SceneNode}

/-- A step that succeeds on every element yields the list of the results. -/
private theorem mapM_eq_filterMap {α β ε : Type} {f : α → Except ε β} {g : α → Option β}
    {items : List α} (h : ∀ a ∈ items, ∃ b, f a = .ok b ∧ g a = some b) :
    items.mapM f = .ok (items.filterMap g) := by
  induction items with
  | nil => rfl
  | cons a items ih =>
    obtain ⟨b, hf, hg⟩ := h a List.mem_cons_self
    rw [List.mapM_cons, hf, ih fun a ha => h a (List.mem_cons_of_mem _ ha), List.filterMap_cons, hg]
    rfl

theorem Forest.assets_ids (h : d.Forest) : d.assets.values.map (·.id) = d.assets.keys := by
  rw [Ascending.values, Ascending.keys, List.map_map]
  exact List.map_congr_left fun entry he => h.assetIds (Ascending.mem_toList_iff.mp he)

section Valid
variable (hd : d.isValid = true)
include hd

private theorem entity?_of_walk {id : String} (h : id ∈ d.breadthFirst) :
    ∃ e, d.entity? id = some e ∧ e.id = id := by
  obtain ⟨e, he⟩ := contains_iff.mp ((mem_breadthFirst hd).mp h)
  exact ⟨e, he, (isValid_iff.mp hd).1.ids he⟩

theorem sceneNodes_ids : d.sceneNodes.map (·.id) = d.breadthFirst := by
  rw [sceneNodes, List.map_filterMap]
  refine (List.filterMap_congr fun id hid => ?_).trans (List.filterMap_some)
  obtain ⟨e, he, hid⟩ := entity?_of_walk hd hid
  simp [he, SceneNode.ofEntity, hid]

theorem getElem?_sceneNodes_id (i : Nat) :
    (d.sceneNodes[i]?).map (·.id) = d.breadthFirst[i]? := by
  rw [← List.getElem?_map, sceneNodes_ids hd]

theorem mem_sceneNodes : n ∈ d.sceneNodes ↔ ∃ id e, d.entity? id = some e ∧ .ofEntity e = n := by
  simp only [sceneNodes, List.mem_filterMap, mem_breadthFirst hd, contains_iff,
    Option.map_eq_some_iff]
  constructor
  · rintro ⟨id, -, h⟩
    exact ⟨id, h⟩
  · rintro ⟨id, e, he, hn⟩
    exact ⟨id, ⟨e, he⟩, e, he, hn⟩

theorem getElem?_sceneNodes : d.sceneNodes[i]? = some n ↔
    ∃ id e, d.breadthFirst[i]? = some id ∧ d.entity? id = some e ∧ .ofEntity e = n := by
  have hforest := (isValid_iff.mp hd).1
  have hplace := getElem?_sceneNodes_id hd i
  -- An entity is found under the id of its node, and the nodes have the ids of the walk.
  have hnode : ∀ {n}, n ∈ d.sceneNodes → ∃ e, d.entity? n.id = some e ∧ .ofEntity e = n := by
    intro n hn
    obtain ⟨id, e, he, rfl⟩ := (mem_sceneNodes hd).mp hn
    obtain rfl := hforest.ids he
    exact ⟨e, he, rfl⟩
  constructor
  · intro h
    obtain ⟨e, he, hn⟩ := hnode (List.mem_of_getElem? h)
    exact ⟨n.id, e, by rw [← hplace, h]; rfl, he, hn⟩
  · rintro ⟨id, e, hid, he, rfl⟩
    rw [← hplace] at hid
    obtain ⟨m, hm, rfl⟩ := Option.map_eq_some_iff.mp hid
    obtain ⟨e', he', rfl⟩ := hnode (List.mem_of_getElem? hm)
    rw [hm, Option.some.inj (he'.symm.trans he)]

theorem nodeIndex_eq :
    d.scene.nodeIndex = Dict.ofList (d.breadthFirst.mapIdx fun i id => (id, i)) := by
  refine congrArg Dict.ofList (List.ext_getElem? fun i => ?_)
  simp only [← sceneNodes_ids hd, List.getElem?_mapIdx, List.getElem?_map, Option.map_map]
  rfl

theorem walk_eq : d.walk = .ok d.sceneNodes := by
  have hlength : d.sceneNodes.length = d.entities.size := by
    rw [← length_breadthFirst hd, ← sceneNodes_ids hd, List.length_map]
  rw [walk, mapM_eq_filterMap fun id hid => ?_]
  · change (if d.sceneNodes.length ≠ _ then _ else _) = _
    rw [if_neg (not_not_intro hlength)]
    rfl
  · obtain ⟨e, he, -⟩ := entity?_of_walk hd hid
    exact ⟨.ofEntity e, by simp [he]⟩

/-- The index of the scene states the places of the walk. -/
theorem indexOf?_scene {id : String} :
    d.scene.indexOf? id = some i ↔ d.breadthFirst[i]? = some id := by
  have hkeys : (d.breadthFirst.mapIdx fun i id => (id, i)).map (·.1) = d.breadthFirst := by
    refine List.ext_getElem? fun i => ?_
    simp [Function.comp_def]
  rw [CompiledScene.indexOf?, nodeIndex_eq hd,
    Dict.find?_ofList_iff (hkeys.symm ▸ d.breadthFirst_nodup)]
  simp only [List.mem_iff_getElem?, List.getElem?_mapIdx, Option.map_eq_some_iff, Prod.mk.injEq]
  constructor
  · rintro ⟨j, id, hid, rfl, rfl⟩
    exact hid
  · exact fun hid => ⟨i, id, hid, rfl, rfl⟩

theorem parentId_root {e : Entity} (he : d.entity? d.rootEntityId = some e) :
    e.parentId = none := by
  obtain ⟨n, hn, hnone⟩ := (isValid_iff.mp hd).1.tree.root
  obtain ⟨e', he', rfl⟩ := Option.map_eq_some_iff.mp hn
  exact Option.some.inj (he'.symm.trans he) ▸ hnone

/-- Every node but the first stands after the node of its parent, which lists it once. -/
theorem parent_of_sceneNodes (hn : d.sceneNodes[i]? = some n) (hi : 0 < i) :
    ∃ j p, j < i ∧ d.sceneNodes[j]? = some p ∧ n.parentId = some p.id ∧
      p.childIds.count n.id = 1 := by
  obtain ⟨hforest, hroot⟩ := isValid_iff.mp hd
  obtain ⟨id, e, hid, he, rfl⟩ := (getElem?_sceneNodes hd).mp hn
  obtain rfl := hforest.ids he
  cases hp : e.parentId with
  | none =>
    rw [hroot e.id e he hp] at hid
    obtain ⟨hi', hroot'⟩ := List.getElem?_eq_some_iff.mp hid
    obtain ⟨h0, hfirst⟩ := List.getElem?_eq_some_iff.mp (breadthFirst_zero hd)
    have hzero := (List.Nodup.getElem_inj_iff d.breadthFirst_nodup).mp (hroot'.trans hfirst.symm)
    exact absurd hzero (Nat.ne_of_gt hi)
  | some p =>
    have hparent : d.parent? e.id = some p := by simp [parent?, he, hp]
    obtain ⟨j, hj, hpj⟩ := parent_listed_before hd hid hparent
    obtain ⟨m, hm, hcount⟩ := hforest.tree.listed ⟨_, outline_of_entity? he, hp⟩
    obtain ⟨ep, hep, rfl⟩ := Option.map_eq_some_iff.mp hm
    refine ⟨j, .ofEntity ep, hj, (getElem?_sceneNodes hd).mpr ⟨p, ep, hpj, hep, rfl⟩, ?_, hcount⟩
    exact hp.trans (congrArg some (hforest.ids hep).symm)

theorem child_of_sceneNodes (hn : n ∈ d.sceneNodes) {c : String} (hc : c ∈ n.childIds) :
    ∃ child ∈ d.sceneNodes, child.id = c ∧ child.parentId = some n.id := by
  obtain ⟨hforest, -⟩ := isValid_iff.mp hd
  obtain ⟨id, e, he, rfl⟩ := (mem_sceneNodes hd).mp hn
  obtain rfl := hforest.ids he
  obtain ⟨m, hm, hp⟩ := hforest.tree.pointsBack (outline_of_entity? he) c hc
  obtain ⟨child, hchild, rfl⟩ := Option.map_eq_some_iff.mp hm
  exact ⟨.ofEntity child, (mem_sceneNodes hd).mpr ⟨c, child, hchild, rfl⟩, hforest.ids hchild, hp⟩

/-- The scene of a valid document is valid. -/
theorem scene_ordered : d.scene.Ordered := by
  obtain ⟨hforest, -⟩ := isValid_iff.mp hd
  constructor
  case ids => exact sceneNodes_ids hd ▸ d.breadthFirst_nodup
  case index =>
    intro id i
    rw [indexOf?_scene hd, ← getElem?_sceneNodes_id hd]
    rfl
  case root =>
    obtain ⟨e, he⟩ := contains_iff.mp (contains_root hd)
    exact ⟨.ofEntity e, (getElem?_sceneNodes hd).mpr ⟨_, e, breadthFirst_zero hd, he, rfl⟩,
      hforest.ids he, parentId_root hd he⟩
  case parents => exact fun i n hn hi => parent_of_sceneNodes hd hn hi
  case children => exact fun n hn c hc => child_of_sceneNodes hd hn hc
  case types =>
    intro n hn c hc
    obtain ⟨id, e, he, rfl⟩ := (mem_sceneNodes hd).mp hn
    obtain ⟨component, hcomponent, rfl⟩ := List.mem_map.mp hc
    exact hforest.types he component hcomponent
  case assetIds => exact hforest.assets_ids ▸ d.assets.keys_nodup
  case wires => exact hforest.wires

/-- A valid document compiles to its scene, unless wires have to lead to entities and one does
not. -/
theorem compile_eq (options : CompileOptions) :
    d.compile options = match if options.strictWires then (d.looseEnds d.scene.nodeIndex).head?
        else none with
      | some loose => .error (.unresolvedWire loose.wire loose.entity)
      | none => .ok ⟨d.scene, d.looseEnds d.scene.nodeIndex⟩ := by
  have hissues : d.scene.issues = [] := CompiledScene.issues_eq_nil_iff.mpr (scene_ordered hd)
  have hchecked : (options.validateOutput && !d.scene.issues.isEmpty) = false := by simp [hissues]
  have hsteps : d.compile options =
      match if options.strictWires then (d.looseEnds d.scene.nodeIndex).head? else none with
      | some loose => .error (.unresolvedWire loose.wire loose.entity)
      | none => if options.validateOutput && !d.scene.issues.isEmpty
        then .error (.invalidScene d.scene.issues)
        else .ok ⟨d.scene, d.looseEnds d.scene.nodeIndex⟩ := by
    have hindex : Dict.ofList (d.sceneNodes.mapIdx fun i n => (n.id, i)) = d.scene.nodeIndex := rfl
    simp only [compile, hd, walk_eq hd, bind, Except.bind, hindex]
    cases options.strictWires with
    | false => rfl
    | true => cases (d.looseEnds d.scene.nodeIndex).head? <;> rfl
  rw [hsteps, hchecked]
  rfl

theorem compile_default : d.compile .default = .ok ⟨d.scene, d.looseEnds d.scene.nodeIndex⟩ :=
  compile_eq hd .default

end Valid

/-- Whatever compiles is valid, and makes its scene. -/
theorem scene_of_compile {options : CompileOptions} {c : Compilation}
    (h : d.compile options = .ok c) : c.scene = d.scene := by
  cases hd : d.isValid with
  | false => simp [compile, hd, bind, Except.bind] at h
  | true =>
    rw [compile_eq hd] at h
    split at h
    · contradiction
    · rw [← Except.ok.inj h]

end Document
end SceneGraph

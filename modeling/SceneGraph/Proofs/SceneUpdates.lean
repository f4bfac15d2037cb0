import SceneGraph.SceneCompilation
import SceneGraph.SceneDeltas
import SceneGraph.Proofs.ComponentSlots
import SceneGraph.Proofs.NodeChanges

/-!
# Scene updates: what a renderer that holds a scene does with a delta

`CompiledScene.follow` applies a delta to a scene without looking at any document: it puts parts of
a transform in place, or writes a property or a piece of the environment. Changing a node in this
way is what amending its entity is to the scene.
-/
namespace SceneGraph

/-- Puts the stated parts in place. -/
def PartialTransform.onto (p : PartialTransform) (t : Transform) : Transform :=
  ⟨p.position.getD t.position, p.rotation.getD t.rotation, p.scale.getD t.scale⟩

/-- Writes a property of the first component of a type. -/
def SceneNode.writeProperty (n : SceneNode) (componentType text : String) (value : Json) :
    Option SceneNode := do
  let path ← (Path.ofText text).toOption
  let i ← n.components.findIdx? (·.componentType = componentType)
  let c ← n.components[i]?
  let properties ← (Bag.put c.properties path (some value)).toOption
  return { n with components := n.components.set i { c with properties } }

namespace CompiledScene

/-- Changes the node under an id, and nothing else. -/
def changeNode (s : CompiledScene) (id : String) (change : SceneNode → Option SceneNode) :
    Option CompiledScene := do
  let i ← s.indexOf? id
  let n ← s.nodes[i]?
  let changed ← change n
  return { s with nodes := s.nodes.set i changed }

/-- Writes into the stored form of the environment, which has to be complete again afterwards. -/
def writeEnvironment (s : CompiledScene) (text : String) (value : Json) :
    Option CompiledScene := do
  let path ← (Path.ofText text).toOption
  let stored ← s.environment.layout.toJson.asObject?
  let written ← (Bag.put stored path (some value)).toOption
  let environment ← ((Environment.reader .strict).fromJson (.obj written)).toOption
  return { s with environment }

/-- Follows a delta without looking at the document, if it is possible. -/
def follow (s : CompiledScene) : Delta → Option CompiledScene
  | .nodeTransform id p => s.changeNode id fun n => some { n with transform := p.onto n.transform }
  | .nodeVisibility id visible => s.changeNode id fun n => some { n with visible }
  | .componentProperty id componentType property value =>
    s.changeNode id (·.writeProperty componentType property value)
  | .environment path value => s.writeEnvironment path value
  | .fullRebuild => none

end CompiledScene

/-- Amending an entity is to the scene what changing its node in the same way is. -/
theorem Document.changeNode_amended {d : Document} {id : String} {e e' : Entity}
    {change : SceneNode → Option SceneNode} (he : d.entity? id = some e) (ha : e'.Amends e)
    (hd : d.isValid = true) (hc : change (.ofEntity e) = some (.ofEntity e')) :
    d.scene.changeNode id change = some (d.putEntity id e').scene := by
  obtain ⟨i, hi, hn, hs⟩ := scene_amended he ha hd
  simp [CompiledScene.changeNode, hi, hn, hc, hs]

/-- A property written in a component is written in the same component of the node. -/
theorem SceneNode.writeProperty_ofEntity {e : Entity} {componentType text : String}
    {value : Json} {c : Component} {path : Path} {properties : Bag}
    (hc : e.component? componentType = some c) (hp : Path.ofText text = .ok path)
    (hput : Bag.put c.properties path (some value) = .ok properties) :
    (ofEntity e).writeProperty componentType text value =
      some (ofEntity (e.setComponent componentType { c with properties })) := by
  obtain ⟨i, hi, hget⟩ := Entity.component?_iff.mp hc
  have hfirst : (ofEntity e).components.findIdx? (·.componentType = componentType) = some i := by
    rw [ofEntity, List.findIdx?_map]
    exact hi
  have hnode : (ofEntity e).components[i]? = some (.ofComponent c) := by
    simp [ofEntity, hget]
  rw [Entity.setComponent_eq hi]
  simp only [writeProperty, hp, hfirst, hnode, Except.toOption, Option.bind_eq_bind,
    Option.bind_some, NodeComponent.ofComponent, hput]
  simp [ofEntity, List.map_set, NodeComponent.ofComponent]

end SceneGraph

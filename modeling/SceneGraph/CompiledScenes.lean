import SceneGraph.Documents
import SceneGraph.Identifiers

/-!
# Compiled scenes: explicit, and sorted parents first

A `CompiledScene` lists its nodes with every field stated, and holds an index from ids to positions.
Here stand its records with their layouts and strict readers, the look-up of nodes, and the digest
of a scene, which is that of its compact text.
-/
namespace SceneGraph

/-- A component as a renderer sees it. -/
structure NodeComponent where
  componentType : String
  properties : Bag
  tuning : Option Tuning
  deriving DecidableEq, BEq

namespace NodeComponent

def ofComponent (c : Component) : NodeComponent := ⟨c.componentType, c.properties, c.tuning⟩
def toComponent (c : NodeComponent) : Component := ⟨c.componentType, c.properties, c.tuning, none⟩

def layout (c : NodeComponent) : Layout :=
  .record ([("type", .str c.componentType), ("properties", .bag c.properties)] ++
    Layout.whenPresent "tuning" Tuning.layout c.tuning)

def shape : Shape NodeComponent :=
  NodeComponent.mk <$> .required "type" .string <*> .required "properties" .bag <*>
    .optional "tuning" Tuning.reader

def reader : Reader NodeComponent := shape.record Shape.refused

end NodeComponent

structure SceneNode where
  id : String
  name : String
  parentId : Option String
  childIds : List String
  transform : Transform
  components : List NodeComponent
  visible : Bool
  tuning : Option Tuning
  deriving DecidableEq, BEq

namespace SceneNode

def ofEntity (e : Entity) : SceneNode where
  id := e.id
  name := e.name
  parentId := e.parentId
  childIds := e.children
  transform := e.transform
  components := e.components.map .ofComponent
  visible := e.visible
  tuning := e.tuning

def toEntity (n : SceneNode) : Entity where
  id := n.id
  name := n.name
  parentId := n.parentId
  children := n.childIds
  components := n.components.map (·.toComponent)
  tags := .nil
  transform := n.transform
  visible := n.visible
  locked := false
  tuning := n.tuning

def layout (n : SceneNode) : Layout :=
  .record ([("id", .str n.id), ("name", .str n.name), ("parentId", .nullable .str n.parentId),
    ("childIds", .strings n.childIds), ("transform", n.transform.layout),
    ("components", .list (n.components.map (·.layout))), ("visible", .bool n.visible)] ++
    Layout.whenPresent "tuning" Tuning.layout n.tuning)

def shape : Shape SceneNode :=
  SceneNode.mk <$> .required "id" .string <*> .required "name" .string <*>
    .required "parentId" (.nullable .string) <*> .required "childIds" (.list .string) <*>
    .required "transform" Transform.reader <*>
    .required "components" (.list NodeComponent.reader) <*> .required "visible" .bool <*>
    .optional "tuning" Tuning.reader

def reader : Reader SceneNode := shape.record Shape.refused

end SceneNode

namespace Asset

/-- In compiled scenes fields without a value are written as null. -/
def explicitLayout (a : Asset) : Layout :=
  .record [("id", .str a.id), ("type", .str a.assetType.name), ("name", .str a.name),
    ("uri", .nullable .str a.uri), ("data", .nullable .value a.data), ("metadata", .bag a.metadata)]

def explicitShape : Shape Asset :=
  Asset.mk <$> .required "id" .string <*> .required "type" AssetType.reader <*>
    .required "name" .string <*> .required "uri" (.nullable .string) <*>
    .required "data" (.nullable .json) <*> .required "metadata" .bag

def explicitReader : Reader Asset := explicitShape.record Shape.refused

end Asset

namespace EventWire

def explicitReader : Reader EventWire :=
  (shapeWith (.required "parameters" .bag)).record Shape.refused

end EventWire

/-- A compiled scene. `nodeIndex` holds the position of each node. -/
structure CompiledScene where
  id : String
  name : String
  sourceSchemaVersion : Nat
  nodes : List SceneNode
  nodeIndex : Dict Nat
  rootNodeId : String
  assets : List Asset
  wires : List EventWire
  environment : Environment
  gameSettings : Option Bag
  deriving DecidableEq, BEq

namespace CompiledScene

def layout (s : CompiledScene) : Layout :=
  .record [("id", .str s.id), ("name", .str s.name),
    ("sourceSchemaVersion", .nat s.sourceSchemaVersion),
    ("nodes", .list (s.nodes.map (·.layout))), ("nodeIndex", .dict .nat s.nodeIndex),
    ("rootNodeId", .str s.rootNodeId), ("assets", .list (s.assets.map (·.explicitLayout))),
    ("wires", .list (s.wires.map (·.layout))), ("environment", s.environment.layout),
    ("gameSettings", .nullable .bag s.gameSettings)]

def shape : Shape CompiledScene :=
  CompiledScene.mk <$> .required "id" .string <*> .required "name" .string <*>
    .required "sourceSchemaVersion" (.naturalBelow UInt32.size) <*>
    .required "nodes" (.list SceneNode.reader) <*> .required "nodeIndex" (.dict .natural) <*>
    .required "rootNodeId" .string <*> .required "assets" (.list Asset.explicitReader) <*>
    .required "wires" (.list EventWire.explicitReader) <*>
    .required "environment" (Environment.reader .strict) <*>
    .required "gameSettings" (.nullable .bag)

def reader : Reader CompiledScene := shape.record Shape.refused

def indexOf? (s : CompiledScene) (id : String) : Option Nat := s.nodeIndex.find? id

/-- The node at the position that the index states for an id. -/
def node? (s : CompiledScene) (id : String) : Option SceneNode :=
  (s.indexOf? id).bind fun i => s.nodes[i]?

def root? (s : CompiledScene) : Option SceneNode := s.node? s.rootNodeId

/-- The digest of the compact text. -/
def contentHash (s : CompiledScene) : Sha256.Digest := Sha256.ofText s.layout.text

end CompiledScene
end SceneGraph

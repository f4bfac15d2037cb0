import SceneGraph.SceneValidation

/-!
# Documents compiled to scenes, and scenes turned back into documents

`Document.compile` lists the entities of a valid document breadth first as the nodes of a scene, and
`CompiledScene.decompile` makes a document of a valid scene. `Document.portable` is the part of a
document that survives both.
-/
namespace SceneGraph

inductive CompileError
  | invalidDocument (issues : List DocumentIssue)
  | invalidScene (issues : List SceneIssue)
  | unresolvedWire (wire entity : String)
  | settings (fault : Fault)
  deriving DecidableEq

namespace CompileError

def join (messages : List String) : String := String.intercalate "\n  " messages

def message : CompileError → String
  | invalidDocument issues =>
    "document failed validation:\n  " ++ join (issues.map (·.message))
  | invalidScene issues =>
    "canonical IR failed validation:\n  " ++ join (issues.map (·.message))
  | unresolvedWire wire entity =>
    "wire '" ++ wire ++ "' references missing entity '" ++ entity ++ "'"
  | settings fault => "serialization error: " ++ fault.message

/-- The messages of the error and of the errors that led to it, outermost first. -/
def causes : CompileError → List String
  | e@(settings fault) => [e.message, fault.message]
  | e => [e.message]

end CompileError

/-- Whether the compiled scene is checked again, and whether wires must lead to entities. -/
structure CompileOptions where
  validateOutput : Bool
  strictWires : Bool
  deriving DecidableEq

namespace CompileOptions

def default : CompileOptions := ⟨true, false⟩

def reader : Reader CompileOptions :=
  Shape.record (CompileOptions.mk <$> .defaulted "validate_output" .bool default.validateOutput <*>
    .defaulted "strict_wires" .bool default.strictWires) Shape.ignored

end CompileOptions

/-- The end of a wire that leads to no entity. -/
structure LooseEnd where
  wire : String
  entity : String
  deriving DecidableEq

/-- A scene, and the loose ends of its wires in order. -/
structure Compilation where
  scene : CompiledScene
  looseEnds : List LooseEnd

namespace Document

/-- The nodes in breadth-first order; every entity must be among them. -/
def walk (d : Document) : Except CompileError (List SceneNode) := do
  let nodes ← d.breadthFirst.mapM fun id =>
    match d.entity? id with
    | some e => .ok (SceneNode.ofEntity e)
    | none => .error (.invalidDocument [.listedButMissing id])
  let total := d.entities.size
  if nodes.length ≠ total then
    throw (.invalidDocument [.someUnreachable (total - nodes.length) total])
  return nodes

def looseEnds (d : Document) (index : Dict Nat) : List LooseEnd :=
  d.wiring.flatMap fun w =>
    w.endpoints.flatMap fun entity => issueUnless (index.contains entity) ⟨w.id, entity⟩

/-- Compiles a valid document. -/
def compile (d : Document) (options : CompileOptions) : Except CompileError Compilation := do
  if !d.isValid then throw (.invalidDocument d.issues)
  let nodes ← d.walk
  let nodeIndex := Dict.ofList (nodes.mapIdx fun i n => (n.id, i))
  let looseEnds := d.looseEnds nodeIndex
  if options.strictWires then
    if let some loose := looseEnds.head? then throw (.unresolvedWire loose.wire loose.entity)
  let scene : CompiledScene := {
    id := d.id
    name := d.name
    sourceSchemaVersion := d.schemaVersion
    nodes := nodes
    nodeIndex := nodeIndex
    rootNodeId := d.rootEntityId
    assets := d.assets.values
    wires := d.wiring
    environment := d.environment
    gameSettings := d.gameSettings.map (·.toBag) }
  if options.validateOutput && !scene.issues.isEmpty then throw (.invalidScene scene.issues)
  return ⟨scene, looseEnds⟩

def portableComponent (c : Component) : Component := { c with editorMeta := none }

def portableEntity (e : Entity) : Entity :=
  { e with tags := .nil, locked := false, components := e.components.map portableComponent }

/-- The part of a document that a compiled scene carries. Tags, locks, metadata and editor
decoration are left out, and the schema version is the current one. -/
def portable (d : Document) : Document :=
  { d with
    schemaVersion := currentSchemaVersion
    metadata := .nil
    entities := d.entities.mapValues portableEntity }

end Document

namespace CompiledScene

/-- Turns a scene back into the document that it carries. -/
def decompile (s : CompiledScene) : Except CompileError Document := do
  if !s.issues.isEmpty then throw (.invalidScene s.issues)
  let gameSettings ← match s.gameSettings with
    | none => .ok none
    | some bag =>
      match GameSettings.reader.fromJson (.obj bag) with
      | .ok settings => .ok (some settings)
      | .error fault => .error (.settings fault)
  let d : Document := {
    id := s.id
    name := s.name
    schemaVersion := currentSchemaVersion
    rootEntityId := s.rootNodeId
    entities := Dict.ofList (s.nodes.map fun n => (n.id, n.toEntity))
    assets := Dict.ofList (s.assets.map fun a => (a.id, a))
    wiring := s.wires
    environment := s.environment
    gameSettings := gameSettings
    metadata := .nil }
  if !d.isValid then throw (.invalidDocument d.issues)
  return d

end CompiledScene
end SceneGraph

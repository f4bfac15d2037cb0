import SceneGraph.Documents
import SceneGraph.ComponentRegistries
import SceneGraph.QuotedText

/-!
# What is wrong with a document

A `DocumentIssue` is one way in which a document fails to be a scene tree: its root, the parents and
the children lists of its entities, the types of components, and what cannot be reached from the
root. `issues` lists all of them in a fixed order, and a document is valid when there are none.
Components that a registry wants single are checked apart.
-/
namespace SceneGraph

/-- A way in which a document fails to be a scene tree. -/
inductive DocumentIssue
  | newerSchema (version : Nat)
  | entityKey (key id : String)
  | rootMissing (root : String)
  | rootHasParent (root : String)
  | parentMissing (id parent : String)
  | listedByParent (id parent : String) (times : Nat)
  | noParent (id : String)
  | childRepeated (id child : String)
  | childMissing (id child : String)
  | childElsewhere (id child : String) (parent : Option String)
  | emptyComponentType (id : String) (index : Nat)
  | unreachable (id : String)
  | assetKey (key id : String)
  | wireRepeated (index : Nat) (id : String)
  | singletonRepeated (id componentType : String) (times : Nat)
  | listedButMissing (id : String)
  | someUnreachable (count total : Nat)
  deriving DecidableEq

namespace DocumentIssue

def place : DocumentIssue → String
  | newerSchema _ => "schemaVersion"
  | entityKey key _ => "entities." ++ key
  | rootMissing _ => "rootEntityId"
  | rootHasParent root => "entities." ++ root ++ ".parentId"
  | parentMissing id _ | noParent id => "entities." ++ id ++ ".parentId"
  | listedByParent _ parent _ => "entities." ++ parent ++ ".children"
  | childRepeated id _ | childMissing id _ | childElsewhere id _ _ =>
    "entities." ++ id ++ ".children"
  | emptyComponentType id index => "entities." ++ id ++ ".components[" ++ index.repr ++ "]"
  | unreachable id | listedButMissing id => "entities." ++ id
  | assetKey key _ => "assets." ++ key
  | wireRepeated index _ => "wiring[" ++ index.repr ++ "]"
  | singletonRepeated id _ _ => "entities." ++ id ++ ".components"
  | someUnreachable _ _ => "entities"

def reason : DocumentIssue → String
  | newerSchema version => "schema version " ++ version.repr ++
      " is newer than supported version " ++ currentSchemaVersion.repr
  | entityKey key id => "entity keyed '" ++ key ++ "' has id '" ++ id ++ "'"
  | rootMissing root => "root entity '" ++ root ++ "' does not exist"
  | rootHasParent _ => "root entity must not have a parent"
  | parentMissing _ parent => "parent '" ++ parent ++ "' does not exist"
  | listedByParent id parent times => "parent '" ++ parent ++ "' lists '" ++ id ++ "' " ++
      times.repr ++ " times (expected once)"
  | noParent _ => "non-root entity has no parent"
  | childRepeated _ child => "duplicate child '" ++ child ++ "'"
  | childMissing _ child => "child '" ++ child ++ "' does not exist"
  | childElsewhere _ child parent =>
    "child '" ++ child ++ "' points at parent " ++ QuotedText.option parent
  | emptyComponentType _ _ => "component type must not be empty"
  | unreachable id => "entity '" ++ id ++ "' is not reachable from the root"
  | assetKey key id => "asset keyed '" ++ key ++ "' has id '" ++ id ++ "'"
  | wireRepeated _ id => "duplicate wire id '" ++ id ++ "'"
  | singletonRepeated _ componentType times =>
    "singleton component '" ++ componentType ++ "' attached " ++ times.repr ++ " times"
  | listedButMissing id => "entity '" ++ id ++ "' is listed but does not exist"
  | someUnreachable count total => count.repr ++ " of " ++ total.repr ++
      " entities are unreachable from the root"

def message (i : DocumentIssue) : String :=
  "schema error: " ++ i.reason ++ " (at " ++ i.place ++ ")"

end DocumentIssue

/-- The issue, when the condition fails. -/
def issueUnless {α : Type} (condition : Bool) (issue : α) : List α :=
  if condition then [] else [issue]

/-- The texts that have already been seen or come a second time are left out. -/
def freshAmong (seen : List String) : List String → List String
  | [] => []
  | text :: rest =>
    if seen.contains text then freshAmong seen rest else text :: freshAmong (text :: seen) rest

/-- Positions and texts of those that have come before. -/
def repeatedAmong (seen : List String) (index : Nat) : List String → List (Nat × String)
  | [] => []
  | text :: rest =>
    if seen.contains text then (index, text) :: repeatedAmong seen (index + 1) rest
    else repeatedAmong (text :: seen) (index + 1) rest

namespace Document

def childrenOf (d : Document) (id : String) : List String :=
  match d.entity? id with
  | some e => e.children
  | none => []

/-- The ids of one generation that are new, then those of the next generations. -/
def generations (d : Document) : Nat → (seen ids : List String) → List String
  | 0, _, _ => []
  | n + 1, seen, ids =>
    match freshAmong seen ids with
    | [] => []
    | fresh => fresh ++ d.generations n (fresh ++ seen) (fresh.flatMap d.childrenOf)

/-- The ids reached from the root through children lists, breadth first. There are no more
generations with entities in them than there are entities. -/
def breadthFirst (d : Document) : List String :=
  d.generations d.entities.size [] [d.rootEntityId]

def rootIssues (d : Document) : List DocumentIssue :=
  match d.root? with
  | none => [.rootMissing d.rootEntityId]
  | some root => issueUnless root.parentId.isNone (.rootHasParent root.id)

def parentIssues (d : Document) (e : Entity) : List DocumentIssue :=
  match e.parentId with
  | none => issueUnless (e.id = d.rootEntityId) (.noParent e.id)
  | some parent =>
    match d.entity? parent with
    | none => [.parentMissing e.id parent]
    | some p =>
      let times := p.children.countP (· = e.id)
      issueUnless (times = 1) (.listedByParent e.id parent times)

/-- A listed child has to exist and to name its parent. -/
def childIssue (d : Document) (e : Entity) (child : String) : List DocumentIssue :=
  match d.entity? child with
  | none => [.childMissing e.id child]
  | some c => issueUnless (c.parentId = some e.id) (.childElsewhere e.id child c.parentId)

def childIssues (d : Document) (e : Entity) (seen : List String) : List String → List DocumentIssue
  | [] => []
  | child :: rest =>
    if seen.contains child then .childRepeated e.id child :: d.childIssues e seen rest
    else d.childIssue e child ++ d.childIssues e (child :: seen) rest

def componentTypeIssues (e : Entity) : List DocumentIssue :=
  (e.components.mapIdx fun i c =>
    issueUnless (!c.componentType.isEmpty) (.emptyComponentType e.id i)).flatten

def entityIssues (d : Document) (e : Entity) : List DocumentIssue :=
  d.parentIssues e ++ d.childIssues e [] e.children ++ componentTypeIssues e

def reachabilityIssues (d : Document) : List DocumentIssue :=
  if d.entities.contains d.rootEntityId then
    let reached := d.breadthFirst
    d.entities.keys.flatMap fun key => issueUnless (reached.contains key) (.unreachable key)
  else []

/-- Every way in which the document fails to be a well-formed scene tree, in a fixed order. -/
def issues (d : Document) : List DocumentIssue :=
  issueUnless (d.schemaVersion ≤ currentSchemaVersion) (.newerSchema d.schemaVersion) ++
  d.entities.toList.flatMap (fun (key, e) => issueUnless (key = e.id) (.entityKey key e.id)) ++
  d.rootIssues ++ d.entities.values.flatMap d.entityIssues ++ d.reachabilityIssues ++
  d.assets.toList.flatMap (fun (key, a) => issueUnless (key = a.id) (.assetKey key a.id)) ++
  (repeatedAmong [] 0 (d.wiring.map (·.id))).map fun (index, id) => .wireRepeated index id

def isValid (d : Document) : Bool := d.issues.isEmpty

def singletonIssues (r : Registry) (e : Entity) : List DocumentIssue :=
  (TextSet.ofList (e.components.map (·.componentType))).keys.flatMap fun componentType =>
    let times := e.countComponents componentType
    issueUnless (times ≤ 1 || !r.isSingleton componentType)
      (.singletonRepeated e.id componentType times)

/-- The singleton types that some entity has more than one component of. -/
def componentIssues (d : Document) (r : Registry) : List DocumentIssue :=
  d.entities.values.flatMap (singletonIssues r)

end Document
end SceneGraph

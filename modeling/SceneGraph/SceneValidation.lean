import SceneGraph.CompiledScenes
import SceneGraph.DocumentValidation

/-!
# What is wrong with a compiled scene

A `SceneIssue` is one way in which a scene breaks its contract: there is a root that comes first,
the index states every position, parents come before their children, and parents and children name
each other. `issues` lists all of them in a fixed order.
-/
namespace SceneGraph

/-- A way in which a compiled scene breaks its structural contract. -/
inductive SceneIssue
  | noNodes
  | firstIsNotRoot (first root : String)
  | rootHasParent (root : String)
  | nodeRepeated (id : String)
  | indexElsewhere (id : String) (stated actual : Nat)
  | notIndexed (id : String)
  | indexSize (entries nodes : Nat)
  | noParent (id : String)
  | parentMissing (id parent : String)
  | parentNotBefore (parent : String) (parentAt : Nat) (child : String) (childAt : Nat)
  | listedByParent (parent id : String) (times : Nat)
  | childElsewhere (id child : String) (parent : Option String)
  | emptyComponentType (id : String)
  | assetRepeated (id : String)
  | wireRepeated (id : String)
  deriving DecidableEq

namespace SceneIssue

def reason : SceneIssue → String
  | noNodes => "scene has no nodes"
  | firstIsNotRoot first root => "first node is '" ++ first ++ "', expected root '" ++ root ++ "'"
  | rootHasParent root => "root node '" ++ root ++ "' has a parent"
  | nodeRepeated id => "duplicate node id '" ++ id ++ "'"
  | indexElsewhere id stated actual => "nodeIndex maps '" ++ id ++ "' to " ++ stated.repr ++
      ", but it is at " ++ actual.repr
  | notIndexed id => "node '" ++ id ++ "' missing from nodeIndex"
  | indexSize entries nodes =>
    "nodeIndex has " ++ entries.repr ++ " entries for " ++ nodes.repr ++ " nodes"
  | noParent id => "non-root node '" ++ id ++ "' has no parent"
  | parentMissing id parent => "node '" ++ id ++ "' references missing parent '" ++ parent ++ "'"
  | parentNotBefore parent parentAt child childAt => "parent '" ++ parent ++ "' (at " ++
      parentAt.repr ++ ") does not precede child '" ++ child ++ "' (at " ++ childAt.repr ++ ")"
  | listedByParent parent id times => "parent '" ++ parent ++ "' lists '" ++ id ++ "' " ++
      times.repr ++ " times (expected once)"
  | childElsewhere id child parent => "node '" ++ id ++ "' lists child '" ++ child ++
      "' whose parent is " ++ QuotedText.option parent
  | emptyComponentType id => "node '" ++ id ++ "' has a component with an empty type"
  | assetRepeated id => "duplicate asset id '" ++ id ++ "'"
  | wireRepeated id => "duplicate wire id '" ++ id ++ "'"

def message (i : SceneIssue) : String := "IR validation error: " ++ i.reason

end SceneIssue

namespace CompiledScene

def rootIssues (s : CompiledScene) : List SceneIssue :=
  match s.nodes with
  | [] => [.noNodes]
  | first :: _ =>
    issueUnless (first.id = s.rootNodeId) (.firstIsNotRoot first.id s.rootNodeId) ++
    issueUnless first.parentId.isNone (.rootHasParent first.id)

/-- Each node stands once, at the position that the index states. -/
def indexIssues (s : CompiledScene) (seen : List String) (i : Nat) :
    List SceneNode → List SceneIssue
  | [] => []
  | n :: rest =>
    issueUnless (!seen.contains n.id) (.nodeRepeated n.id) ++
    (match s.indexOf? n.id with
      | some stated => issueUnless (stated = i) (.indexElsewhere n.id stated i)
      | none => [.notIndexed n.id]) ++
    s.indexIssues (n.id :: seen) (i + 1) rest

def parentIssues (s : CompiledScene) (i : Nat) (n : SceneNode) : List SceneIssue :=
  match n.parentId with
  | none => issueUnless (i = 0) (.noParent n.id)
  | some parent =>
    match s.indexOf? parent with
    | none => [.parentMissing n.id parent]
    | some p =>
      let times := match s.nodes[p]? with
        | some node => node.childIds.countP (· = n.id)
        | none => 0
      issueUnless (p < i) (.parentNotBefore parent p n.id i) ++
      issueUnless (times = 1) (.listedByParent parent n.id times)

def childIssues (s : CompiledScene) (n : SceneNode) : List SceneIssue :=
  n.childIds.flatMap fun child =>
    let parent := (s.node? child).bind (·.parentId)
    issueUnless (parent = some n.id) (.childElsewhere n.id child parent)

def nodeIssues (s : CompiledScene) (i : Nat) (n : SceneNode) : List SceneIssue :=
  s.parentIssues i n ++ s.childIssues n ++
    issueUnless (n.components.all fun c => !c.componentType.isEmpty) (.emptyComponentType n.id)

/-- Every way in which the scene breaks its contract, in a fixed order. -/
def issues (s : CompiledScene) : List SceneIssue :=
  s.rootIssues ++ s.indexIssues [] 0 s.nodes ++
  issueUnless (s.nodeIndex.size = s.nodes.length) (.indexSize s.nodeIndex.size s.nodes.length) ++
  (s.nodes.mapIdx s.nodeIssues).flatten ++
  (repeatedAmong [] 0 (s.assets.map (·.id))).map (fun (_, id) => .assetRepeated id) ++
  (repeatedAmong [] 0 (s.wires.map (·.id))).map fun (_, id) => .wireRepeated id

end CompiledScene
end SceneGraph

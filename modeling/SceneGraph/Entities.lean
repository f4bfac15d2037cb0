import SceneGraph.Components

/-!
# Entities, the nodes of the scene tree

An `Entity` names its parent and lists its children and has components. Look-ups and replacements
concern the first component of a type.
-/
namespace SceneGraph

/-- An entity. Only the root and detached entities have no parent. -/
structure Entity where
  id : String
  name : String
  parentId : Option String
  children : List String
  components : List Component
  tags : TextSet
  transform : Transform
  visible : Bool
  locked : Bool
  tuning : Option Tuning
  deriving DecidableEq, BEq

namespace Entity

def ofId (id name : String) : Entity where
  id := id
  name := name
  parentId := none
  children := []
  components := []
  tags := .nil
  transform := .identity
  visible := true
  locked := false
  tuning := none

def layout (e : Entity) : Layout :=
  .record ([("id", .str e.id), ("name", .str e.name), ("parentId", .nullable .str e.parentId),
    ("children", .strings e.children), ("components", .list (e.components.map (·.layout))),
    ("tags", .strings e.tags.keys), ("transform", e.transform.layout),
    ("visible", .bool e.visible), ("locked", .bool e.locked)] ++
    Layout.whenPresent "tuning" Tuning.layout e.tuning)

def shape : Shape Entity :=
  Entity.mk <$> .required "id" .string <*> .required "name" .string <*>
    .optional "parentId" .string <*> .defaulted "children" (.list .string) [] <*>
    .defaulted "components" (.list Component.reader) [] <*> .defaulted "tags" .textSet .nil <*>
    .defaulted "transform" Transform.reader .identity <*> .defaulted "visible" .bool true <*>
    .defaulted "locked" .bool false <*> .optional "tuning" Tuning.reader

def reader : Reader Entity := shape.record Shape.ignored

/-- The first component of the type. -/
def component? (e : Entity) (componentType : String) : Option Component :=
  e.components.find? (·.componentType = componentType)

def componentIndex? (e : Entity) (componentType : String) : Option Nat :=
  e.components.findIdx? (·.componentType = componentType)

def countComponents (e : Entity) (componentType : String) : Nat :=
  e.components.countP (·.componentType = componentType)

/-- Puts a component in place of the first one of the type. -/
def setComponent (e : Entity) (componentType : String) (c : Component) : Entity :=
  match e.componentIndex? componentType with
  | some i => { e with components := e.components.set i c }
  | none => e

def childIndex? (e : Entity) (child : String) : Option Nat := e.children.findIdx? (· = child)

def withTuning (e : Entity) (engine key : String) (value : Json) : Entity :=
  { e with tuning := some (Tuning.set e.tuning engine key value) }

end Entity
end SceneGraph

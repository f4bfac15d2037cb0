import SceneGraph.Documents

/-!
# Documents built step by step, without the checks of edits

Entities, assets and wires are added to a document as they are given. Entities are built up field by
field before they are added, and an entity that names a parent becomes its last child.
-/
namespace SceneGraph

namespace Entity

def withParent (e : Entity) (parent : String) : Entity := { e with parentId := some parent }

def withPosition (e : Entity) (v : Vec3) : Entity :=
  { e with transform := { e.transform with position := v } }

def withScale (e : Entity) (v : Vec3) : Entity :=
  { e with transform := { e.transform with scale := v } }

def withTransform (e : Entity) (t : Transform) : Entity := { e with transform := t }

def withComponent (e : Entity) (c : Component) : Entity :=
  { e with components := e.components ++ [c] }

def withTag (e : Entity) (tag : String) : Entity := { e with tags := Dict.insert e.tags tag () }
def hidden (e : Entity) : Entity := { e with visible := false }
def lock (e : Entity) : Entity := { e with locked := true }

end Entity

namespace Document

/-- Starts over under new ids; only the name stays. -/
def restart (d : Document) (id rootEntityId : String) : Document := ofIds id rootEntityId d.name

/-- Adds an entity as the last child of its parent, which should be there already. -/
def addEntity (d : Document) (e : Entity) : Document :=
  let linked := match e.parentId with
    | none => d.entities
    | some parent => Dict.modify d.entities parent fun p => { p with children := p.children ++ [e.id] }
  { d with entities := Dict.insert linked e.id e }

def addAsset (d : Document) (a : Asset) : Document :=
  { d with assets := Dict.insert d.assets a.id a }

def addWire (d : Document) (w : EventWire) : Document := { d with wiring := d.wiring ++ [w] }

def withMetadata (d : Document) (key : String) (value : Json) : Document :=
  { d with metadata := Dict.insert d.metadata key value }

end Document
end SceneGraph

import SceneGraph.Entities
import SceneGraph.Assets
import SceneGraph.Environments

/-!
# Scene documents: an entity tree with its assets, wiring and settings

A `Document` holds entities and assets by id. Here it is written and read, and there are two walks
from an entity towards the root: `isAncestor` looks for an id, and `ancestry` lists what it passes.
Both take as many steps as there are entities and no more.
-/
namespace SceneGraph

/-- Gameplay settings: two known ones, and any others as they come. -/
structure GameSettings where
  cameraMode : Option String
  spawnPointId : Option String
  extra : Bag
  deriving DecidableEq, BEq

namespace GameSettings

def empty : GameSettings := ⟨none, none, .nil⟩

def layout (g : GameSettings) : Layout :=
  .record (Layout.whenPresent "cameraMode" .str g.cameraMode ++
    Layout.whenPresent "spawnPointId" .str g.spawnPointId ++
    g.extra.toList.map fun entry => (entry.1, .value entry.2))

/-- The settings as one bag, the known ones among the others. -/
def toBag (g : GameSettings) : Bag := (g.layout.toJson.asObject?).getD .nil

def known : Shape (Option String × Option String) :=
  Prod.mk <$> .optional "cameraMode" .string <*> .optional "spawnPointId" .string

/-- Known settings are read by name; all other members are kept. -/
def reader : Reader GameSettings
  | origin, .obj members closed => do
    let (cameraMode, spawnPointId) ← known.readMembers Shape.kept origin members closed
    let extra ← Source.toMembers .nil (known.others members)
    return ⟨cameraMode, spawnPointId, extra⟩
  | _, .tooDeep => .error .malformed
  | _, x => .error x.otherKind

end GameSettings

/-- The schema version of every document written here. -/
def currentSchemaVersion : Nat := 1

/-- The id by which edits address fields of the document itself. -/
def documentTarget : String := "__document__"

structure Document where
  id : String
  name : String
  schemaVersion : Nat
  rootEntityId : String
  entities : Dict Entity
  assets : Dict Asset
  wiring : List EventWire
  environment : Environment
  gameSettings : Option GameSettings
  metadata : Bag
  deriving DecidableEq, BEq

namespace Document

/-- A document that holds nothing but its root. -/
def ofIds (id rootEntityId name : String) : Document where
  id := id
  name := name
  schemaVersion := currentSchemaVersion
  rootEntityId := rootEntityId
  entities := Dict.insert .nil rootEntityId (.ofId rootEntityId "Root")
  assets := .nil
  wiring := []
  environment := .default
  gameSettings := none
  metadata := .nil

def layout (d : Document) : Layout :=
  .record ([("id", .str d.id), ("name", .str d.name), ("schemaVersion", .nat d.schemaVersion),
    ("rootEntityId", .str d.rootEntityId), ("entities", .dict Entity.layout d.entities),
    ("assets", .dict Asset.layout d.assets), ("wiring", .list (d.wiring.map (·.layout))),
    ("environment", d.environment.layout)] ++
    Layout.whenPresent "gameSettings" GameSettings.layout d.gameSettings ++
    [("metadata", .bag d.metadata)])

def shape : Shape Document :=
  Document.mk <$> .required "id" .string <*> .required "name" .string <*>
    .defaulted "schemaVersion" (.naturalBelow UInt32.size) currentSchemaVersion <*>
    .required "rootEntityId" .string <*> .required "entities" (.dict Entity.reader) <*>
    .defaulted "assets" (.dict Asset.reader) .nil <*>
    .defaulted "wiring" (.list EventWire.reader) [] <*>
    .defaulted "environment" (Environment.reader .lenient) .default <*>
    .optional "gameSettings" GameSettings.reader <*> .defaulted "metadata" .bag .nil

def reader : Reader Document := shape.record Shape.ignored

def entity? (d : Document) (id : String) : Option Entity := d.entities.find? id
def root? (d : Document) : Option Entity := d.entity? d.rootEntityId
def isRoot (d : Document) (id : String) : Bool := d.rootEntityId == id

/-- The parent that an entity names, whether or not it exists. -/
def parent? (d : Document) (id : String) : Option String := (d.entity? id).bind (·.parentId)

/-- Follows parents for at most `steps` steps, looking for an id. -/
def reaches (d : Document) (ancestor : String) : Nat → String → Bool
  | 0, id => id == ancestor
  | steps + 1, id =>
    id == ancestor || match d.parent? id with
      | some parent => d.reaches ancestor steps parent
      | none => false

/-- Whether an id stands on the way up from an entity, itself included. The walk takes no more
steps than there are entities, so it ends on cyclic chains too. -/
def isAncestor (d : Document) (ancestor id : String) : Bool :=
  d.reaches ancestor d.entities.size id

/-- The ids from an entity upwards, at most `steps + 1` of them. -/
def climb (d : Document) : Nat → Entity → List String
  | 0, e => [e.id]
  | steps + 1, e =>
    e.id :: match e.parentId.bind d.entity? with
      | some parent => d.climb steps parent
      | none => []

/-- The ids on the way from an entity up to the root, itself first. -/
def ancestry (d : Document) (id : String) : List String :=
  match d.entity? id with
  | some e => d.climb d.entities.size e
  | none => []

end Document
end SceneGraph

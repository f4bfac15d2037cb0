import SceneGraph.Transforms

/-!
# Assets and event wires

An `Asset` is kept elsewhere or inline and has one of the types of `AssetType`. An `EventWire` binds
an event of one entity to an action of another. Both are given with the layout in which they are
written and the reader that takes them back.
-/
namespace SceneGraph

inductive AssetType
  | mesh
  | texture
  | material
  | audio
  | animation
  | script
  | prefab
  | other
  deriving DecidableEq

namespace AssetType

def name : AssetType → String
  | mesh => "mesh"
  | texture => "texture"
  | material => "material"
  | audio => "audio"
  | animation => "animation"
  | script => "script"
  | prefab => "prefab"
  | other => "other"

def all : List (String × AssetType) :=
  [mesh, texture, material, audio, animation, script, prefab, other].map fun t => (t.name, t)

def reader : Reader AssetType := .choice all

end AssetType

/-- An asset, kept elsewhere (`uri`) or inline (`data`). -/
structure Asset where
  id : String
  assetType : AssetType
  name : String
  uri : Option String
  data : Option Json
  metadata : Bag
  deriving DecidableEq, BEq

namespace Asset

def layout (a : Asset) : Layout :=
  .record ([("id", .str a.id), ("type", .str a.assetType.name), ("name", .str a.name)] ++
    Layout.whenPresent "uri" .str a.uri ++ Layout.whenPresent "data" .value a.data ++
    [("metadata", .bag a.metadata)])

def shape : Shape Asset :=
  Asset.mk <$> .required "id" .string <*> .required "type" AssetType.reader <*>
    .required "name" .string <*> .optional "uri" .string <*> .optional "data" .json <*>
    .defaulted "metadata" .bag .nil

def reader : Reader Asset := shape.record Shape.ignored

end Asset

/-- A declared binding of one entity's event to another's action. -/
structure EventWire where
  id : String
  sourceEntityId : String
  sourceEvent : String
  targetEntityId : String
  targetAction : String
  parameters : Bag
  deriving DecidableEq, BEq

namespace EventWire

/-- The entities at both ends, source first. -/
def endpoints (w : EventWire) : List String := [w.sourceEntityId, w.targetEntityId]

def layout (w : EventWire) : Layout :=
  .record [("id", .str w.id), ("sourceEntityId", .str w.sourceEntityId),
    ("sourceEvent", .str w.sourceEvent), ("targetEntityId", .str w.targetEntityId),
    ("targetAction", .str w.targetAction), ("parameters", .bag w.parameters)]

/-- The fields of a wire, with its parameters read as stated. -/
def shapeWith (parameters : Shape Bag) : Shape EventWire :=
  EventWire.mk <$> .required "id" .string <*> .required "sourceEntityId" .string <*>
    .required "sourceEvent" .string <*> .required "targetEntityId" .string <*>
    .required "targetAction" .string <*> parameters

def shape : Shape EventWire := shapeWith (.defaulted "parameters" .bag .nil)

def reader : Reader EventWire := shape.record Shape.ignored

end EventWire
end SceneGraph

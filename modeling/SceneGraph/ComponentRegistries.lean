import SceneGraph.Readers
import SceneGraph.JsonLayouts

/-!
# Component types and what editors know of their fields

A `Registry` holds descriptors of component types: the kinds, defaults and ranges of their fields,
and whether an entity may have more than one of them. Types are registered one by one, and a name is
taken once only. `Registry.builtin` holds the types that come with the library.
-/
namespace SceneGraph

/-- The kind of a component field. -/
inductive FieldKind
  | number (min max : Option Binary64)
  | boolean
  | string
  | color
  | vec3
  | choice (options : List String)
  | assetRef (assetType : String)
  | entityRef
  | json
  deriving DecidableEq, BEq

namespace FieldKind

def fields : FieldKind → List (String × Layout)
  | number min max => ("kind", .str "number") :: Layout.whenPresent "min" .real min ++
      Layout.whenPresent "max" .real max
  | boolean => [("kind", .str "boolean")]
  | string => [("kind", .str "string")]
  | color => [("kind", .str "color")]
  | vec3 => [("kind", .str "vec3")]
  | choice options => [("kind", .str "enum"), ("options", .strings options)]
  | assetRef assetType => [("kind", .str "assetRef"), ("assetType", .str assetType)]
  | entityRef => [("kind", .str "entityRef")]
  | json => [("kind", .str "json")]

def reader : Reader FieldKind := .tagged "kind" [
  ("number", number <$> .optional "min" .real <*> .optional "max" .real),
  ("boolean", pure boolean), ("string", pure string), ("color", pure color), ("vec3", pure vec3),
  ("enum", choice <$> .required "options" (.list .string)),
  ("assetRef", assetRef <$> .required "assetType" .string),
  ("entityRef", pure entityRef), ("json", pure json)]

def range (min max : Binary64) : FieldKind := number (some min) (some max)

end FieldKind

/-- One property of a component type. -/
structure FieldDescriptor where
  name : String
  kind : FieldKind
  default : Json
  deriving DecidableEq, BEq

namespace FieldDescriptor

def layout (f : FieldDescriptor) : Layout :=
  .record ([("name", .str f.name)] ++ f.kind.fields ++ [("default", .value f.default)])

def shape : Shape (String × Json) :=
  Prod.mk <$> .required "name" .string <*> .required "default" .json

/-- The kind is spread among the members of the descriptor. -/
def reader : Reader FieldDescriptor
  | origin, .obj members closed => do
    let (name, default) ← shape.readMembers Shape.kept origin members closed
    let kind ← FieldKind.reader .deferred (.obj (shape.others members) true)
    return ⟨name, kind, default⟩
  | _, .tooDeep => .error .malformed
  | _, x => .error x.otherKind

end FieldDescriptor

/-- What is known of a component type. An entity has at most one component of a singleton type. -/
structure ComponentDescriptor where
  typeName : String
  singleton : Bool
  category : String
  fields : List FieldDescriptor
  deriving DecidableEq, BEq

namespace ComponentDescriptor

def layout (c : ComponentDescriptor) : Layout :=
  .record [("typeName", .str c.typeName), ("singleton", .bool c.singleton),
    ("category", .str c.category), ("fields", .list (c.fields.map (·.layout)))]

def reader : Reader ComponentDescriptor :=
  Shape.record (ComponentDescriptor.mk <$> .required "typeName" .string <*>
    .required "singleton" .bool <*> .required "category" .string <*>
    .required "fields" (.list FieldDescriptor.reader)) Shape.ignored

def describe (c : ComponentDescriptor) : String :=
  c.typeName ++ " (" ++ c.category ++ ")" ++ if c.singleton then " [singleton]" else ""

def field? (c : ComponentDescriptor) (name : String) : Option FieldDescriptor :=
  c.fields.find? (·.name = name)

/-- Every field's default; of fields with one name the last counts. -/
def defaults (c : ComponentDescriptor) : Bag :=
  Dict.ofList (c.fields.map fun f => (f.name, f.default))

end ComponentDescriptor

inductive RegistryError
  | emptyTypeName
  | alreadyRegistered (typeName : String)
  deriving DecidableEq

namespace RegistryError

def message : RegistryError → String
  | emptyTypeName => "registry error: component type name must not be empty"
  | alreadyRegistered typeName =>
    "registry error: component type '" ++ typeName ++ "' is already registered"

end RegistryError

/-- The known component types by name. -/
structure Registry where
  descriptors : Dict ComponentDescriptor
  deriving DecidableEq

namespace Registry

def empty : Registry := ⟨.nil⟩

def register (r : Registry) (c : ComponentDescriptor) : Except RegistryError Registry :=
  if c.typeName.isEmpty then .error .emptyTypeName
  else if r.descriptors.contains c.typeName then .error (.alreadyRegistered c.typeName)
  else .ok ⟨Dict.insert r.descriptors c.typeName c⟩

def get? (r : Registry) (typeName : String) : Option ComponentDescriptor :=
  r.descriptors.find? typeName

/-- Types that are not known are no singletons. -/
def isSingleton (r : Registry) (typeName : String) : Bool :=
  match r.get? typeName with
  | some c => c.singleton
  | none => false

def defaults? (r : Registry) (typeName : String) : Option Bag := (r.get? typeName).map (·.defaults)

def field? (r : Registry) (typeName field : String) : Option FieldDescriptor :=
  (r.get? typeName).bind (·.field? field)

/-- The options of a field that offers a choice. -/
def options? (r : Registry) (typeName field : String) : Option (List String) :=
  match r.field? typeName field with
  | some ⟨_, .choice options, _⟩ => some options
  | _ => none

def types (r : Registry) : List String := r.descriptors.keys

open FieldKind in
/-- The component types that come with the library. -/
def builtinDescriptors : List ComponentDescriptor := [
  ⟨"MeshRenderer", false, "rendering", [
    ⟨"primitive", choice ["box", "sphere", "cylinder", "capsule", "plane", "cone", "torus"],
      .str "box"⟩,
    ⟨"meshAssetId", assetRef "mesh", .null⟩, ⟨"castShadows", boolean, .bool true⟩,
    ⟨"receiveShadows", boolean, .bool true⟩]⟩,
  ⟨"Material", false, "rendering", [
    ⟨"baseColor", color, .str "#ffffff"⟩, ⟨"metallic", range 0 1, Json.real 0⟩,
    ⟨"roughness", range 0 1, Json.real 0.5⟩, ⟨"emissive", color, .str "#000000"⟩,
    ⟨"opacity", range 0 1, Json.real 1⟩, ⟨"textureAssetId", assetRef "texture", .null⟩]⟩,
  ⟨"Light", true, "rendering", [
    ⟨"lightType", choice ["directional", "point", "spot"], .str "point"⟩,
    ⟨"color", color, .str "#ffffff"⟩, ⟨"intensity", range 0 100, Json.real 1⟩,
    ⟨"range", number none none, Json.real 10⟩, ⟨"angle", range 0 180, Json.real 45⟩,
    ⟨"castShadows", boolean, .bool false⟩]⟩,
  ⟨"Camera", true, "rendering", [
    ⟨"projection", choice ["perspective", "orthographic"], .str "perspective"⟩,
    ⟨"fov", range 1 179, Json.real 60⟩, ⟨"near", number none none, Json.real 0.1⟩,
    ⟨"far", number none none, Json.real 1000⟩]⟩,
  ⟨"RigidBody", true, "physics", [
    ⟨"bodyType", choice ["dynamic", "static", "kinematic"], .str "dynamic"⟩,
    ⟨"mass", range 0 10000, Json.real 1⟩, ⟨"gravityScale", number none none, Json.real 1⟩]⟩,
  ⟨"Collider", false, "physics", [
    ⟨"shape", choice ["box", "sphere", "capsule", "mesh"], .str "box"⟩,
    ⟨"size", vec3, .obj (Dict.ofList [("x", Json.real 1), ("y", Json.real 1), ("z", Json.real 1)])⟩,
    ⟨"isTrigger", boolean, .bool false⟩]⟩,
  ⟨"AudioSource", false, "audio", [
    ⟨"audioAssetId", assetRef "audio", .null⟩, ⟨"volume", range 0 1, Json.real 1⟩,
    ⟨"loop", boolean, .bool false⟩, ⟨"autoplay", boolean, .bool false⟩]⟩,
  ⟨"Animation", true, "animation", [
    ⟨"tracks", json, .obj .nil⟩, ⟨"autoplay", boolean, .bool true⟩, ⟨"loop", boolean, .bool true⟩]⟩,
  ⟨"Script", false, "logic", [
    ⟨"scriptAssetId", assetRef "script", .null⟩, ⟨"params", json, .obj .nil⟩]⟩,
  ⟨"SpawnPoint", false, "gameplay", [
    ⟨"team", string, .str ""⟩, ⟨"target", entityRef, .null⟩]⟩]

def builtin : Registry :=
  ⟨Dict.ofList (builtinDescriptors.map fun c => (c.typeName, c))⟩

end Registry
end SceneGraph

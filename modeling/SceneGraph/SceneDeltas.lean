import SceneGraph.Operations

/-!
# The cheapest renderer update that reflects an operation

A `Delta` says what a renderer that shows a scene has to do after an operation. It is made of the
operation alone. Writes of one property can be followed by a small update, and all else asks for a
full rebuild.
-/
namespace SceneGraph

/-- The parts of a transform that change; the others stay as they are. -/
structure PartialTransform where
  position : Option Vec3
  rotation : Option Quat
  scale : Option Vec3
  deriving DecidableEq, BEq

namespace PartialTransform

def layout (t : PartialTransform) : Layout :=
  .record (Layout.whenPresent "position" Vec3.layout t.position ++
    Layout.whenPresent "rotation" Quat.layout t.rotation ++
    Layout.whenPresent "scale" Vec3.layout t.scale)

def shape : Shape PartialTransform :=
  PartialTransform.mk <$> .optional "position" Vec3.reader <*> .optional "rotation" Quat.reader <*>
    .optional "scale" Vec3.reader

def reader : Reader PartialTransform := shape.record Shape.ignored

def ofTransform (t : Transform) : PartialTransform := ⟨some t.position, some t.rotation, some t.scale⟩

end PartialTransform

/-- What a renderer has to do. Whatever is no single property write asks for a full rebuild. -/
inductive Delta
  | nodeTransform (nodeId : String) (transform : PartialTransform)
  | nodeVisibility (nodeId : String) (visible : Bool)
  | componentProperty (nodeId componentKey property : String) (value : Json)
  | environment (path : String) (value : Json)
  | fullRebuild
  deriving DecidableEq, BEq

namespace Delta

def layout : Delta → Layout
  | nodeTransform nodeId transform => .record
    [("type", .str "NodeTransform"), ("nodeId", .str nodeId), ("transform", transform.layout)]
  | nodeVisibility nodeId visible => .record
    [("type", .str "NodeVisibility"), ("nodeId", .str nodeId), ("visible", .bool visible)]
  | componentProperty nodeId componentKey property value => .record
    [("type", .str "ComponentProperty"), ("nodeId", .str nodeId),
      ("componentKey", .str componentKey), ("property", .str property), ("value", .value value)]
  | environment path value => .record
    [("type", .str "Environment"), ("path", .str path), ("value", .value value)]
  | fullRebuild => .record [("type", .str "FullRebuild")]

def reader : Reader Delta := .tagged "type" [
  ("NodeTransform", nodeTransform <$> .required "nodeId" .string <*>
    .required "transform" PartialTransform.reader),
  ("NodeVisibility", nodeVisibility <$> .required "nodeId" .string <*> .required "visible" .bool),
  ("ComponentProperty", componentProperty <$> .required "nodeId" .string <*>
    .required "componentKey" .string <*> .required "property" .string <*> .required "value" .json),
  ("Environment", environment <$> .required "path" .string <*> .required "value" .json),
  ("FullRebuild", pure fullRebuild)]

def isFullRebuild (d : Delta) : Bool := d = fullRebuild

/-- The transform parts that a write at a path states, if the value reads as such. -/
def transformPart? (path : String) (value : Json) : Option PartialTransform :=
  match path with
  | "transform" => (Transform.reader.fromJson value).toOption.map .ofTransform
  | "transform.position" => (Vec3.reader.fromJson value).toOption.map (⟨some ·, none, none⟩)
  | "transform.rotation" => (Quat.reader.fromJson value).toOption.map (⟨none, some ·, none⟩)
  | "transform.scale" => (Vec3.reader.fromJson value).toOption.map (⟨none, none, some ·⟩)
  | _ => none

/-- What follows a beginning, if the text begins so and goes on. -/
def remainder? (beginning text : String) : Option String :=
  let rest := text.toList.drop beginning.length
  if beginning.toList.isPrefixOf text.toList && !rest.isEmpty then some (String.ofList rest)
  else none

def ofPropertyWrite (id path : String) (value : Json) : Delta :=
  if id = documentTarget then
    match remainder? "environment." path with
    | some rest => environment rest value
    | none => fullRebuild
  else if path = "visible" then
    match value.asBool? with
    | some visible => nodeVisibility id visible
    | none => fullRebuild
  else
    match transformPart? path value with
    | some transform => nodeTransform id transform
    | none => fullRebuild

def ofEdit : Edit → Delta
  | .setProperty id path (some value) _ => ofPropertyWrite id path value
  | .setComponentProperty id componentType path (some value) _ =>
    componentProperty id componentType path value
  | _ => fullRebuild

/-- Classifies an operation by itself, without any document. -/
def ofOp : Op → Delta
  | .edit _ e => ofEdit e
  | .batch _ _ => fullRebuild

end Delta
end SceneGraph

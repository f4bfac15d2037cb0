import SceneGraph.Documents
import SceneGraph.PropertyPaths

/-!
# Operations: edits in envelopes, and batches of them

An `Edit` is one atomic change, and an `Op` is an edit or a batch of operations, in an envelope that
says who made it and when. Here is how both are written and how the payload of each type is read,
and here are the errors that an operation can be rejected for, with their messages.
-/
namespace SceneGraph

/-- Who produced an operation. -/
inductive Author
  | user
  | ai
  | system
  | replay
  deriving DecidableEq

namespace Author

def name : Author → String
  | user => "user"
  | ai => "ai"
  | system => "system"
  | replay => "replay"

def reader : Reader Author := .choice ([user, ai, system, replay].map fun a => (a.name, a))

end Author

/-- The payload version of every operation written here. -/
def currentOpVersion : Nat := 1

structure Envelope where
  id : String
  /-- Milliseconds since 1970. -/
  timestamp : Nat
  origin : Author
  version : Nat
  deriving DecidableEq

/-- What a fresh envelope is stamped with. -/
structure Stamp where
  id : String
  timestamp : Nat

namespace Envelope

def fresh (stamp : Stamp) (origin : Author) : Envelope :=
  ⟨stamp.id, stamp.timestamp, origin, currentOpVersion⟩

/-- An envelope for operations that are told apart by nothing but their edits. -/
def plain : Envelope := fresh ⟨"op", 0⟩ .user

end Envelope

/-- An entity to be created. Without a parent it is detached, without an index it comes last, and
the other fields left out take the values of a new entity. -/
structure NewEntity where
  entityId : String
  name : String
  parentId : Option String
  index : Option Nat
  transform : Option Transform
  tags : TextSet
  visible : Option Bool
  locked : Option Bool
  tuning : Option Tuning
  deriving DecidableEq, BEq

/-- One atomic change to a document. Previous values are there for the reader of a log; applying
an edit never looks at them. An absent value removes, which is not the same as writing null. -/
inductive Edit
  | createEntity (entity : NewEntity)
  | deleteEntity (entityId : String) (previousState : Option Entity)
  | setProperty (entityId path : String) (value previousValue : Option Json)
  | addChild (parentId childId : String) (index : Option Nat)
  | removeChild (parentId childId : String)
  | reparent (entityId newParentId : String) (newIndex : Option Nat) (oldParentId : Option String)
      (oldIndex : Option Nat)
  | addComponent (entityId : String) (component : Component) (index : Option Nat)
  | removeComponent (entityId componentType : String) (index : Option Nat)
      (previousComponent : Option Component)
  | setComponentProperty (entityId componentType propertyPath : String)
      (value previousValue : Option Json)
  | addAsset (asset : Asset)
  | removeAsset (assetId : String) (previousAsset : Option Asset)
  | replaceAssetRef (entityId componentType propertyPath oldAssetId newAssetId : String)
  | addKeyframe (entityId trackName : String) (keyframe : Json) (index : Option Nat)
  | removeKeyframe (entityId trackName : String) (time : Binary64) (previousKeyframe : Option Json)
  | setKeyframeValue (entityId trackName : String) (time : Binary64) (value : Json)
      (previousValue : Option Json)
  deriving DecidableEq, BEq

namespace Edit

def typeName : Edit → String
  | createEntity .. => "CreateEntity"
  | deleteEntity .. => "DeleteEntity"
  | setProperty .. => "SetProperty"
  | addChild .. => "AddChild"
  | removeChild .. => "RemoveChild"
  | reparent .. => "Reparent"
  | addComponent .. => "AddComponent"
  | removeComponent .. => "RemoveComponent"
  | setComponentProperty .. => "SetComponentProperty"
  | addAsset .. => "AddAsset"
  | removeAsset .. => "RemoveAsset"
  | replaceAssetRef .. => "ReplaceAssetRef"
  | addKeyframe .. => "AddKeyframe"
  | removeKeyframe .. => "RemoveKeyframe"
  | setKeyframeValue .. => "SetKeyframeValue"

/-- Creates an entity at the end of its parent's children. -/
def create (entityId name parentId : String) : Edit :=
  .createEntity ⟨entityId, name, some parentId, none, none, .nil, none, none, none⟩

def delete (entityId : String) : Edit := .deleteEntity entityId none

def write (entityId path : String) (value : Json) : Edit :=
  .setProperty entityId path (some value) none

/-- Moves an entity to the end of another parent's children. -/
def move (entityId newParentId : String) : Edit := .reparent entityId newParentId none none none

def attach (entityId : String) (component : Component) : Edit :=
  .addComponent entityId component none

/-- Takes away the first component of a type. -/
def detach (entityId componentType : String) : Edit :=
  .removeComponent entityId componentType none none

def writeComponent (entityId componentType propertyPath : String) (value : Json) : Edit :=
  .setComponentProperty entityId componentType propertyPath (some value) none

open Layout in
/-- The payload. Fields with nothing to say are left out, except the parent of a new entity. -/
def fields : Edit → List (String × Layout)
  | createEntity e =>
    [("entityId", str e.entityId), ("name", str e.name), ("parentId", nullable str e.parentId)] ++
      whenPresent "index" nat e.index ++ whenPresent "transform" Transform.layout e.transform ++
      (if e.tags.toList.isEmpty then [] else [("tags", strings e.tags.keys)]) ++
      whenPresent "visible" bool e.visible ++ whenPresent "locked" bool e.locked ++
      whenPresent "tuning" Tuning.layout e.tuning
  | deleteEntity entityId previousState =>
    ("entityId", str entityId) :: whenPresent "previousState" Entity.layout previousState
  | setProperty entityId path v previous =>
    [("entityId", str entityId), ("path", str path)] ++ whenPresent "value" value v ++
      whenPresent "previousValue" value previous
  | addChild parentId childId index =>
    [("parentId", str parentId), ("childId", str childId)] ++ whenPresent "index" nat index
  | removeChild parentId childId => [("parentId", str parentId), ("childId", str childId)]
  | reparent entityId newParentId newIndex oldParentId oldIndex =>
    [("entityId", str entityId), ("newParentId", str newParentId)] ++
      whenPresent "newIndex" nat newIndex ++ whenPresent "oldParentId" str oldParentId ++
      whenPresent "oldIndex" nat oldIndex
  | addComponent entityId component index =>
    [("entityId", str entityId), ("component", component.layout)] ++ whenPresent "index" nat index
  | removeComponent entityId componentType index previous =>
    [("entityId", str entityId), ("componentType", str componentType)] ++
      whenPresent "index" nat index ++ whenPresent "previousComponent" Component.layout previous
  | setComponentProperty entityId componentType propertyPath v previous =>
    [("entityId", str entityId), ("componentType", str componentType),
      ("propertyPath", str propertyPath)] ++ whenPresent "value" value v ++
      whenPresent "previousValue" value previous
  | addAsset asset => [("asset", asset.layout)]
  | removeAsset assetId previous =>
    ("assetId", str assetId) :: whenPresent "previousAsset" Asset.layout previous
  | replaceAssetRef entityId componentType propertyPath oldAssetId newAssetId =>
    [("entityId", str entityId), ("componentType", str componentType),
      ("propertyPath", str propertyPath), ("oldAssetId", str oldAssetId),
      ("newAssetId", str newAssetId)]
  | addKeyframe entityId trackName keyframe index =>
    [("entityId", str entityId), ("trackName", str trackName), ("keyframe", value keyframe)] ++
      whenPresent "index" nat index
  | removeKeyframe entityId trackName time previous =>
    [("entityId", str entityId), ("trackName", str trackName), ("time", real time)] ++
      whenPresent "previousKeyframe" value previous
  | setKeyframeValue entityId trackName time v previous =>
    [("entityId", str entityId), ("trackName", str trackName), ("time", real time),
      ("value", value v)] ++ whenPresent "previousValue" value previous

def index : Shape (Option Nat) := .optional "index" .natural
def entityId : Shape String := .required "entityId" .string
def componentType : Shape String := .required "componentType" .string
def propertyPath : Shape String := .required "propertyPath" .string
def trackName : Shape String := .required "trackName" .string

/-- How the payload of each type is read. -/
def shapes : List (String × Shape Edit) := [
  ("CreateEntity", createEntity <$> (NewEntity.mk <$> entityId <*> .required "name" .string <*>
    .optional "parentId" .string <*> index <*> .optional "transform" Transform.reader <*>
    .defaulted "tags" .textSet .nil <*> .optional "visible" .bool <*> .optional "locked" .bool <*>
    .optional "tuning" Tuning.reader)),
  ("DeleteEntity", deleteEntity <$> entityId <*> .optional "previousState" Entity.reader),
  ("SetProperty", setProperty <$> entityId <*> .required "path" .string <*> .present "value" <*>
    .present "previousValue"),
  ("AddChild", addChild <$> .required "parentId" .string <*> .required "childId" .string <*> index),
  ("RemoveChild", removeChild <$> .required "parentId" .string <*> .required "childId" .string),
  ("Reparent", reparent <$> entityId <*> .required "newParentId" .string <*>
    .optional "newIndex" .natural <*> .optional "oldParentId" .string <*>
    .optional "oldIndex" .natural),
  ("AddComponent", addComponent <$> entityId <*> .required "component" Component.reader <*> index),
  ("RemoveComponent", removeComponent <$> entityId <*> componentType <*> index <*>
    .optional "previousComponent" Component.reader),
  ("SetComponentProperty", setComponentProperty <$> entityId <*> componentType <*> propertyPath <*>
    .present "value" <*> .present "previousValue"),
  ("AddAsset", addAsset <$> .required "asset" Asset.reader),
  ("RemoveAsset", removeAsset <$> .required "assetId" .string <*>
    .optional "previousAsset" Asset.reader),
  ("ReplaceAssetRef", replaceAssetRef <$> entityId <*> componentType <*> propertyPath <*>
    .required "oldAssetId" .string <*> .required "newAssetId" .string),
  ("AddKeyframe", addKeyframe <$> entityId <*> trackName <*> .required "keyframe" .json <*> index),
  ("RemoveKeyframe", removeKeyframe <$> entityId <*> trackName <*> .required "time" .real <*>
    .optional "previousKeyframe" .json),
  ("SetKeyframeValue", setKeyframeValue <$> entityId <*> trackName <*> .required "time" .real <*>
    .required "value" .json <*> .present "previousValue")]

end Edit

/-- An operation: one edit, or a batch that is applied or rejected as a whole. -/
inductive Op
  | edit (envelope : Envelope) (edit : Edit)
  | batch (envelope : Envelope) (ops : List Op)

namespace Op

def batchType : String := "BatchOp"

/-- Every type of operation, in declaration order. -/
def typeNames : List String := Edit.shapes.map (·.1) ++ [batchType]

def envelope : Op → Envelope
  | .edit envelope _ | .batch envelope _ => envelope

def typeName : Op → String
  | .edit _ e => e.typeName
  | .batch _ _ => batchType

def isBatch : Op → Bool
  | .edit _ _ => false
  | .batch _ _ => true

def mapEnvelope (f : Envelope → Envelope) : Op → Op
  | .edit envelope e => .edit (f envelope) e
  | .batch envelope ops => .batch (f envelope) ops

def withVersion (version : Nat) (op : Op) : Op := op.mapEnvelope ({ · with version := version })

/-- The wire form: the envelope, the type, the payload. -/
def wrap (envelope : Envelope) (typeName : String) (payload : Layout) : Layout :=
  .record [("id", .str envelope.id), ("timestamp", .nat envelope.timestamp),
    ("origin", .str envelope.origin.name), ("version", .nat envelope.version),
    ("type", .str typeName), ("payload", payload)]

mutual
def layout : Op → Layout
  | .edit envelope e => wrap envelope e.typeName (.record e.fields)
  | .batch envelope ops => wrap envelope batchType (.record [("ops", .list (layouts ops))])

def layouts : List Op → List Layout
  | [] => []
  | op :: ops => layout op :: layouts ops
end

mutual
/-- Equality of contents, with numbers compared by value. -/
def same : Op → Op → Bool
  | .edit envelope e, .edit envelope' e' => envelope = envelope' && e == e'
  | .batch envelope ops, .batch envelope' ops' => envelope = envelope' && sameOps ops ops'
  | _, _ => false

def sameOps : List Op → List Op → Bool
  | [], [] => true
  | op :: ops, op' :: ops' => same op op' && sameOps ops ops'
  | _, _ => false
end

instance : BEq Op := ⟨same⟩

mutual
/-- The edits of an operation in the order in which they run. -/
def edits : Op → List (Envelope × Edit)
  | .edit envelope e => [(envelope, e)]
  | .batch _ ops => editsOf ops

def editsOf : List Op → List (Envelope × Edit)
  | [] => []
  | op :: ops => edits op ++ editsOf ops
end

/-- The same edits without any grouping. -/
def flatten (ops : List Op) : List Op := (editsOf ops).map fun (envelope, e) => .edit envelope e

end Op

/-- Why an operation is rejected. All but the failures of batches arise before the document is
touched. -/
inductive OpError
  | entityNotFound (id : String)
  | entityExists (id : String)
  | parentNotFound (id : String)
  | reservedId (id : String)
  | rootImmutable (id action : String)
  | hasChildren (id : String) (count : Nat)
  | circularReparent (entity newParent : String)
  | detached (id : String)
  | alreadyAttached (child parent : String)
  | notAChild (parent child : String)
  | componentNotFound (entity componentType : String)
  | emptyComponentType
  | singletonViolation (entity componentType : String)
  | assetNotFound (id : String)
  | assetExists (id : String)
  | trackNotFound (entity track : String)
  | keyframeNotFound (track : String) (time : Binary64)
  | keyframeExists (track : String) (time : Binary64)
  | path (error : PathError)
  | invalidValue (path message : String)
  | unsupportedVersion (version supported : Nat)
  | missingMigration (opType : String) (version : Nat)
  | migrationFailed (opType : String) (version : Nat) (message : String)
  | unknownOpType (opType : String)
  | malformedPayload (opType message : String)
  | nestedTooDeep
  | batchFailed (index : Nat) (opType : String) (source : OpError)
  | rollbackFailed (cause source : OpError)
  | serialization (fault : Fault)
  deriving DecidableEq

namespace OpError

def message : OpError → String
  | entityNotFound id => "entity not found: " ++ id
  | entityExists id => "entity already exists: " ++ id
  | parentNotFound id => "parent entity not found: " ++ id
  | reservedId id => "'" ++ id ++ "' is reserved and cannot be used as an entity id"
  | rootImmutable id action => "cannot " ++ action ++ " the root entity '" ++ id ++ "'"
  | hasChildren id count =>
    "entity '" ++ id ++ "' still has " ++ count.repr ++ " children; delete them first"
  | circularReparent entity newParent =>
    "circular reparent: " ++ entity ++ " is an ancestor of " ++ newParent
  | detached id => "entity '" ++ id ++ "' is detached from the tree"
  | alreadyAttached child parent =>
    "entity '" ++ child ++ "' already has parent '" ++ parent ++ "'"
  | notAChild parent child => "'" ++ child ++ "' is not a child of '" ++ parent ++ "'"
  | componentNotFound entity componentType =>
    "entity '" ++ entity ++ "' has no component of type '" ++ componentType ++ "'"
  | emptyComponentType => "component type must not be empty"
  | singletonViolation entity componentType =>
    "entity '" ++ entity ++ "' already has singleton component '" ++ componentType ++ "'"
  | assetNotFound id => "asset not found: " ++ id
  | assetExists id => "asset already exists: " ++ id
  | trackNotFound entity track =>
    "animation track '" ++ track ++ "' not found on entity '" ++ entity ++ "'"
  | keyframeNotFound track time =>
    "no keyframe at time " ++ time.messageText ++ " in track '" ++ track ++ "'"
  | keyframeExists track time =>
    "a keyframe already exists at time " ++ time.messageText ++ " in track '" ++ track ++ "'"
  | path error => "invalid property path: " ++ error.message
  | invalidValue field reason => "invalid value for '" ++ field ++ "': " ++ reason
  | unsupportedVersion version supported =>
    "op version " ++ version.repr ++ " is newer than supported version " ++ supported.repr
  | missingMigration opType version =>
    "no migration registered for " ++ opType ++ " from version " ++ version.repr
  | migrationFailed opType version message =>
    "migrating " ++ opType ++ " from version " ++ version.repr ++ " failed: " ++ message
  | unknownOpType opType => "unknown op type '" ++ opType ++ "'"
  | malformedPayload opType message => "malformed " ++ opType ++ " payload: " ++ message
  | nestedTooDeep => "batches are nested too deep"
  | batchFailed index opType source =>
    "sub-op " ++ index.repr ++ " (" ++ opType ++ ") failed: " ++ source.message
  | rollbackFailed cause source =>
    "rollback failed after '" ++ cause.message ++ "': " ++ source.message
  | serialization fault => "serialization error: " ++ fault.message

/-- The innermost error, looking through batches. -/
def rootCause : OpError → OpError
  | batchFailed _ _ source => source.rootCause
  | e => e

/-- The messages of the error and of the errors that led to it, outermost first. -/
def causes : OpError → List String
  | e@(batchFailed _ _ source) | e@(rollbackFailed _ source) => e.message :: source.causes
  | e@(path error) => [e.message, error.message]
  | e@(serialization fault) => [e.message, fault.message]
  | e => [e.message]

end OpError

instance : Coe PathError OpError := ⟨OpError.path⟩

end SceneGraph

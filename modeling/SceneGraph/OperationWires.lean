import SceneGraph.Operations
import SceneGraph.QuotedText

/-!
# Stored operations and the upgrade of old payloads

An operation is stored as an `OpWire`: its envelope, its type, and a payload whose version may be an
old one. `Migrations` bring payloads up to date step by step before they are read. A batch holds its
members in their stored form, so reading nests, within a limit.
-/
namespace SceneGraph

/-- Brings a payload from one version to the next, or says why it cannot. -/
abbrev MigrationStep := Json → Except String Json

/-- The known upgrades, by type and the version they start from; the first for a key counts. -/
structure Migrations where
  steps : List ((String × Nat) × MigrationStep)

namespace Migrations

/-- Version 1 is the first payload shape, so there is nothing to upgrade yet. -/
def builtin : Migrations := ⟨[]⟩

/-- A later step for the same key takes the place of an earlier one. -/
def register (m : Migrations) (opType : String) (version : Nat) (step : MigrationStep) :
    Migrations :=
  ⟨((opType, version), step) :: m.steps.filter fun entry => entry.1 ≠ (opType, version)⟩

def step? (m : Migrations) (opType : String) (version : Nat) : Option MigrationStep :=
  m.steps.lookup (opType, version)

def size (m : Migrations) : Nat := m.steps.length
def isEmpty (m : Migrations) : Bool := m.steps.isEmpty

/-- Runs the steps of the versions in a list. -/
def run (m : Migrations) (opType : String) : List Nat → Json → Except OpError Json
  | [], payload => .ok payload
  | version :: versions, payload =>
    match m.step? opType version with
    | none => .error (.missingMigration opType version)
    | some step =>
      match step payload with
      | .error message => .error (.migrationFailed opType version message)
      | .ok payload => m.run opType versions payload

/-- Brings a payload up to the current version. -/
def upgrade (m : Migrations) (opType : String) (version : Nat) (payload : Json) :
    Except OpError Json :=
  if currentOpVersion < version then .error (.unsupportedVersion version currentOpVersion)
  else m.run opType (List.range' version (currentOpVersion - version)) payload

/-- The keys in ascending order. -/
def keys (m : Migrations) : List (String × Nat) :=
  (m.steps.map (·.1)).mergeSort fun a b => a.1 < b.1 || (a.1 = b.1 && a.2 ≤ b.2)

/-- The table as it is shown to a developer. -/
def describe (m : Migrations) : String :=
  let key := fun (opType, version) => "(" ++ QuotedText.quoted opType ++ ", " ++ Nat.repr version ++ ")"
  "Migrations \x7b steps: [" ++ String.intercalate ", " (m.keys.map key) ++ "] \x7d"

end Migrations

/-- An operation as stored, its payload not yet read. Without a version it has the current one. -/
structure OpWire where
  id : String
  timestamp : Nat
  origin : Author
  version : Option Nat
  opType : String
  payload : Json
  deriving DecidableEq, BEq

namespace OpWire

def shape : Shape OpWire :=
  OpWire.mk <$> .required "id" .string <*> .required "timestamp" .natural <*>
    .defaulted "origin" Author.reader .user <*> .optional "version" (.naturalBelow UInt32.size) <*>
    .required "type" .string <*> .defaulted "payload" .json .null

def reader : Reader OpWire := shape.record Shape.ignored

def layout (w : OpWire) : Layout :=
  .record ([("id", .str w.id), ("timestamp", .nat w.timestamp), ("origin", .str w.origin.name)] ++
    Layout.whenPresent "version" .nat w.version ++
    [("type", .str w.opType), ("payload", .value w.payload)])

/-- The stored form of an operation. -/
def ofOp (op : Op) : Except OpError OpWire :=
  (reader.fromJson op.layout.toJson).mapError .serialization

def versionOrCurrent (w : OpWire) : Nat := w.version.getD currentOpVersion

/-- The envelope of the operation read from it. -/
def envelope (w : OpWire) : Envelope := ⟨w.id, w.timestamp, w.origin, currentOpVersion⟩

end OpWire

namespace Json

mutual
/-- How many containers stand inside each other at most. -/
def depth : Json → Nat
  | .arr items => depthItems items + 1
  | .obj members => depthMembers members + 1
  | .null | .bool _ | .num _ | .str _ => 0

def depthItems : List Json → Nat
  | [] => 0
  | x :: xs => max (depth x) (depthItems xs)

def depthMembers : {low : Option String} → Ascending Json low → Nat
  | _, .nil => 0
  | _, .cons _ _ v rest => max (depth v) (depthMembers rest)
end

end Json

namespace Edit

/-- Reads the payload of an operation that is no batch. -/
def ofPayload (opType : String) (payload : Json) : Except OpError Edit :=
  match shapes.lookup opType with
  | none => .error (.unknownOpType opType)
  | some shape =>
    (shape.object Shape.ignored .deferred (.ofJson payload)).mapError
      fun fault => .malformedPayload opType fault.message

end Edit

namespace Op

/-- The members of a batch in its payload. -/
def members (payload : Json) : Except OpError (List Json) :=
  match (payload.member? "ops").bind (·.asArray?) with
  | some ops => .ok ops
  | none => .error (.malformedPayload batchType "missing 'ops' array")

/-- Reads a stored operation, bringing old payloads up to the current version. The members of a
batch are read with the same table, each at its own version. Batches may be nested `limit` deep. -/
def ofWire (m : Migrations) : (limit : Nat) → OpWire → Except OpError Op
  | limit, w => do
    if !typeNames.contains w.opType then throw (.unknownOpType w.opType)
    let payload ← m.upgrade w.opType w.versionOrCurrent w.payload
    if w.opType = batchType then
      let ops ← members payload
      match limit with
      | 0 => throw .nestedTooDeep
      | limit + 1 =>
        let ops ← ops.mapM fun sub => do
          let wire ← (OpWire.reader.fromJson sub).mapError
            fun fault => OpError.malformedPayload batchType fault.message
          ofWire m limit wire
        return .batch w.envelope ops
    else
      return .edit w.envelope (← Edit.ofPayload w.opType payload)

/-- Reads a stored operation of the current version; its payload says how deep batches nest. -/
def ofCurrentWire (w : OpWire) : Except OpError Op := ofWire .builtin (w.payload.depth + 1) w

/-- Reads an operation from text with the given upgrades. -/
def ofText (m : Migrations) (limit : Nat) (text : String) : Except OpError Op := do
  let wire ← (OpWire.reader.fromText text).mapError OpError.serialization
  ofWire m limit wire

/-- Reads a current operation as a part of a text: faults of the operation come before anything
that follows it. -/
def parse (text : String) : Except String Op := do
  let given := Source.ofText text
  let wire ← (OpWire.reader .text given.source).mapError (·.message)
  let op ← (ofCurrentWire wire).mapError (·.message)
  if given.excess then throw Fault.malformed.message
  return op

end Op
end SceneGraph

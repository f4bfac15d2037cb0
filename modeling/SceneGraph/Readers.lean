import SceneGraph.JsonParsing

/-!
# Readers: typed data from sources

A `Reader` turns a source into typed data or names the first fault that it meets. A `Shape`
describes the fields of a record, which can be given by name or by position. A field can be
required, have a default, be optional, or be told from null.
-/
namespace SceneGraph

/-- Reads typed data, or names the first fault in the order of the source. -/
abbrev Reader (α : Type) := Origin → Source → Except Fault α

namespace Reader
variable {α β : Type}

def map (f : α → β) (read : Reader α) : Reader β := fun origin x => (read origin x).map f

def string : Reader String
  | _, .str s => .ok s
  | _, x => .error x.otherKind

def bool : Reader Bool
  | _, .bool b => .ok b
  | _, x => .error x.otherKind

/-- Any number reads as a binary64 number, save an integer beyond the largest finite one. -/
def real : Reader Binary64
  | _, .num n => if n.toBinary64.isFinite then .ok n.toBinary64 else .error .mismatch
  | _, x => .error x.otherKind

/-- A float is no natural number, not even a whole one. -/
def natural : Reader Nat
  | _, .num n => match n.toNat? with
    | some n => .ok n
    | none => .error .mismatch
  | _, x => .error x.otherKind

def naturalBelow (bound : Nat) : Reader Nat := fun origin x => do
  let n ← natural origin x
  if n < bound then return n else throw .mismatch

def json : Reader Json := fun _ x => x.toJson

def nullable (read : Reader α) : Reader (Option α)
  | _, .null => .ok none
  | origin, x => (read origin x).map some

/-- Reads a container; one nested too deep is no container at all. -/
def list (read : Reader α) : Reader (List α)
  | origin, .arr items closed => do
    let items ← items.mapM (read origin)
    Source.closing closed
    return items
  | _, .tooDeep => .error .malformed
  | _, x => .error x.otherKind

def entries (read : Reader α) (origin : Origin) :
    Dict α → List (String × Source) → Except Fault (Dict α)
  | dict, [] => .ok dict
  | dict, (name, x) :: rest => do
    let value ← read origin x
    entries read origin (dict.insert name value) rest

/-- Reads a dictionary; of entries with one key the last counts. -/
def dict (read : Reader α) : Reader (Dict α)
  | origin, .obj members closed => do
    let dict ← entries read origin .nil members
    Source.closing closed
    return dict
  | _, .tooDeep => .error .malformed
  | _, x => .error x.otherKind

def bag : Reader Bag := dict json
def textSet : Reader TextSet := (list string).map TextSet.ofList

/-- Reads one of some named alternatives: its name, or an object with the name as its only member
and nothing in it. -/
def choice (alternatives : List (String × α)) : Reader α
  | _, .str name => named name
  | .text, .obj members closed =>
    match members with
    | [] => .error .malformed
    | (name, x) :: rest => do
      let choice ← named name
      match x with
      | .null => if rest.isEmpty && closed then return choice else throw .malformed
      | x => throw x.otherKind
  | .text, _ => .error .malformed
  | origin, .obj [(name, x)] _ => do
    let choice ← named name
    match origin, x with
    | _, .null => return choice
    | .deferred, .obj [] _ => return choice
    | _, _ => throw .mismatch
  | _, .obj _ _ => .error .mismatch
  | _, x => .error x.otherKind
where
  named (name : String) : Except Fault α :=
    match alternatives.lookup name with
    | some choice => .ok choice
    | none => .error (.unknownVariant name)

end Reader

/-- The fields of a record in declaration order: a check for each, and the record from the sources
of its fields, either by name or by position. -/
structure Shape (α : Type) where
  checks : List (String × Reader Unit)
  build : Origin → (String → Option Source) → Except Fault α
  positional : Origin → List Source → Bool → Except Fault (α × List Source)

namespace Shape
variable {α β : Type}

instance : Functor Shape where
  map f s := {
    checks := s.checks
    build := fun origin find => (s.build origin find).map f
    positional := fun origin items closed =>
      (s.positional origin items closed).map fun (a, rest) => (f a, rest) }

instance : Pure Shape where
  pure a := {
    checks := []
    build := fun _ _ => .ok a
    positional := fun _ items _ => .ok (a, items) }

instance : Seq Shape where
  seq f s := {
    checks := f.checks ++ (s ()).checks
    build := fun origin find => do
      let g ← f.build origin find
      let a ← (s ()).build origin find
      return g a
    positional := fun origin items closed => do
      let (g, items) ← f.positional origin items closed
      let (a, items) ← (s ()).positional origin items closed
      return (g a, items) }

/-- One field. `absent` stands for a field that an object leaves out, `short` for one that an array
is too short to hold. -/
def field (name : String) (read : Reader α) (absent short : Except Fault α) : Shape α where
  checks := [(name, fun origin x => (read origin x).map fun _ => ())]
  build := fun origin find =>
    match find name with
    | some x => read origin x
    | none => absent
  positional := fun origin items closed =>
    match items with
    | x :: rest => (read origin x).map (·, rest)
    | [] => if closed then short.map (·, []) else .error .malformed

def required (name : String) (read : Reader α) : Shape α :=
  field name read (.error (.missingField name)) (.error .mismatch)

def defaulted (name : String) (read : Reader α) (default : α) : Shape α :=
  field name read (.ok default) (.ok default)

/-- A field that may be left out, or be null. -/
def optional (name : String) (read : Reader α) : Shape (Option α) :=
  defaulted name (Reader.nullable read) none

/-- A field that may be left out; null is a value of its own. -/
def present (name : String) : Shape (Option Json) :=
  defaulted name (Reader.json.map some) none

/-- How members that are no field of the record are met. -/
abbrev Others := String → Source → Except Fault Unit

def refused : Others := fun name _ => .error (.unknownField name)
def ignored : Others := fun _ x => x.skip
def kept : Others := fun _ x => x.toJson.map fun _ => ()

/-- Meets every member in order. No field may come twice. -/
def scan (checks : List (String × Reader Unit)) (others : Others) (origin : Origin) :
    List String → List (String × Source) → Except Fault Unit
  | _, [] => .ok ()
  | seen, (name, x) :: rest =>
    match checks.lookup name with
    | some check => do
      if seen.contains name then throw (.duplicateField name)
      check origin x
      scan checks others origin (name :: seen) rest
    | none => do
      others name x
      scan checks others origin seen rest

def readMembers (shape : Shape α) (others : Others) (origin : Origin)
    (members : List (String × Source)) (closed : Bool) : Except Fault α := do
  scan shape.checks others origin [] members
  Source.closing closed
  shape.build origin fun name => members.lookup name

def readItems (shape : Shape α) (origin : Origin) (items : List Source) (closed : Bool) :
    Except Fault α := do
  let (a, rest) ← shape.positional origin items closed
  if !rest.isEmpty then throw (if origin = .text then .malformed else .mismatch)
  Source.closing closed
  return a

/-- A record given as an object only. -/
def object (shape : Shape α) (others : Others) : Reader α
  | origin, .obj members closed => shape.readMembers others origin members closed
  | _, .tooDeep => .error .malformed
  | _, x => .error x.otherKind

/-- A record given as an object, or as an array of its fields in declaration order. -/
def record (shape : Shape α) (others : Others) : Reader α
  | origin, .arr items closed => shape.readItems origin items closed
  | origin, x => shape.object others origin x

/-- The members that are no field of the record. -/
def others {β : Type} (shape : Shape β) (members : List (String × Source)) :
    List (String × Source) :=
  members.filter fun (name, _) => (shape.checks.lookup name).isNone

end Shape

namespace Reader
variable {α : Type}

/-- The alternative that a tag names. Where the tag was held back, its number will do. -/
def tagName (names : List String) (origin : Origin) : Source → Except Fault String
  | .str name => if names.contains name then .ok name else .error (.unknownVariant name)
  | .num n =>
    match origin, n.toNat?.bind fun i => names[i]? with
    | .deferred, some name => .ok name
    | _, _ => .error .mismatch
  | x => .error x.otherKind

/-- Reads one of some records, named by a tag among its members or by the first item. -/
def tagged (tag : String) (records : List (String × Shape α)) : Reader α
  | origin, .obj members closed => do
    let find := tagName (records.map (·.1)) origin
    Shape.scan [(tag, fun _ x => (find x).map fun _ => ())] Shape.kept origin [] members
    Source.closing closed
    match members.lookup tag with
    | none => throw (.missingField tag)
    | some x =>
      let rest := members.filter (·.1 ≠ tag)
      read (← find x) (.obj rest true)
  | origin, .arr (x :: rest) closed => do
    let name ← tagName (records.map (·.1)) origin x
    Source.skipItems rest
    Source.closing closed
    read name (.arr rest true)
  | _, .arr [] closed => do
    Source.closing closed
    throw (.missingField tag)
  | _, .tooDeep => .error .malformed
  | _, x => .error x.otherKind
where
  read (name : String) (x : Source) : Except Fault α :=
    match records.lookup name with
    | some shape => shape.record Shape.ignored .deferred x
    | none => .error (.unknownVariant name)

/-- Reads a JSON value. -/
def fromJson (read : Reader α) (j : Json) : Except Fault α := read .value (.ofJson j)

/-- Reads a text that holds the data and nothing else. -/
def fromText (read : Reader α) (text : String) : Except Fault α := do
  let given := Source.ofText text
  let a ← read .text given.source
  if given.excess then throw .malformed
  return a

end Reader
end SceneGraph

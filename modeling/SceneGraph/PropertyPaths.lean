import SceneGraph.JsonValues

/-!
# Dotted paths into property bags

A path is spelled as a text with points in it and leads through nested objects of a bag. Along it a
value is found (`get?`), the state that a write would replace is told (`prior`), and a value is
written or removed (`put`).
-/
namespace SceneGraph

inductive PathError
  | empty
  | emptySegment (path : String)
  | notAnObject (path segment : String)
  | unknown (path : String)
  deriving DecidableEq

namespace PathError

def message : PathError → String
  | empty => "property path is empty"
  | emptySegment path => "property path '" ++ path ++ "' has an empty segment"
  | notAnObject path segment =>
    "cannot descend into '" ++ segment ++ "' of '" ++ path ++ "': not an object"
  | unknown path => "unknown property path '" ++ path ++ "'"

end PathError

/-- The way to a key through nested objects. -/
abbrev Path := List String

namespace Path

def dotted (path : Path) : String := String.intercalate "." path

/-- Cuts a text at every mark. -/
def segments (mark : Char) : List Char → List (List Char)
  | [] => [[]]
  | c :: rest =>
    if c = mark then [] :: segments mark rest
    else match segments mark rest with
      | [] => [[c]]
      | segment :: more => (c :: segment) :: more

def ofText (text : String) : Except PathError Path :=
  if text.isEmpty then .error .empty
  else
    let path := (segments '.' text.toList).map String.ofList
    if path.any (·.isEmpty) then .error (.emptySegment text) else .ok path

end Path

namespace Bag

/-- The value at a path, if every step exists. -/
def get? (bag : Bag) : Path → Option Json
  | [] => none
  | [key] => bag.find? key
  | key :: next :: path =>
    match bag.find? key with
    | some (.obj inner) => get? inner (next :: path)
    | _ => none

/-- The state that a write is about to replace: the value at a path, or the shallowest key on the
way that is missing. -/
structure Prior where
  path : Path
  value : Option Json
  deriving DecidableEq

/-- Walks down as far as there are objects; the error is the segment that holds something else. -/
def priorBelow (bag : Bag) (key : String) : Path → Except String Prior
  | [] => .ok ⟨[key], bag.find? key⟩
  | next :: path =>
    match bag.find? key with
    | none => .ok ⟨[key], none⟩
    | some (.obj inner) =>
      (priorBelow inner next path).map fun prior => { prior with path := key :: prior.path }
    | some _ => .error key

def prior (bag : Bag) : Path → Except PathError Prior
  | [] => .error .empty
  | key :: path =>
    (priorBelow bag key path).mapError (.notAnObject (Path.dotted (key :: path)))

def putBelow (bag : Bag) (key : String) (value : Option Json) : Path → Except String Bag
  | [] =>
    match value with
    | some v => .ok (Dict.insert bag key v)
    | none => .ok (bag.erase key)
  | next :: path =>
    match bag.find? key, value with
    | none, none => .ok bag
    | none, some _ => do
      let inner ← putBelow .nil next value path
      return Dict.insert bag key (.obj inner)
    | some (.obj inner), _ => do
      let inner ← putBelow inner next value path
      return Dict.insert bag key (.obj inner)
    | some _, _ => .error key

/-- Writes a value at a path, making the objects that are missing on the way, or removes the key
when there is no value. A key whose parents are missing is removed already. -/
def put (bag : Bag) (path : Path) (value : Option Json) : Except PathError Bag :=
  match path with
  | [] => .error .empty
  | key :: rest => (putBelow bag key value rest).mapError (.notAnObject (Path.dotted path))

end Bag
end SceneGraph

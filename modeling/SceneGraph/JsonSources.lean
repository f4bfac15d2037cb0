import SceneGraph.JsonValues

/-!
# Sources: JSON as it is given, in the order of the text and with its faults in place

A `Source` is what a reader reads: the members of objects stand in the order of the text, may come
twice, and a container may be broken off by a fault. `ofJson` takes a value for a source, `toJson`
turns a source into a value, and `skip` passes over what nobody asks for.
-/
namespace SceneGraph

/-- Why data does not read as the type asked for. -/
inductive Fault
  | malformed
  | missingField (name : String)
  | duplicateField (name : String)
  | unknownField (name : String)
  | unknownVariant (name : String)
  | mismatch
  deriving DecidableEq

namespace Fault

def message : Fault → String
  | malformed => "malformed JSON"
  | missingField name => "missing field \x60" ++ name ++ "\x60"
  | duplicateField name => "duplicate field \x60" ++ name ++ "\x60"
  | unknownField name => "unknown field \x60" ++ name ++ "\x60"
  | unknownVariant name => "unknown variant \x60" ++ name ++ "\x60"
  | mismatch => "invalid data"

end Fault

/-- JSON as given. A container that the text ends or breaks off inside is not closed. `broken`
stands where no value begins, `unreadable` for a scalar that has a shape but no value (a lone
surrogate, a number beyond range), `tooDeep` for a container nested beyond the limit. -/
inductive Source
  | null
  | bool (b : Bool)
  | num (n : Number)
  | str (s : String)
  | arr (items : List Source) (closed : Bool)
  | obj (members : List (String × Source)) (closed : Bool)
  | unreadable
  | tooDeep
  | broken

/-- Where data comes from: a text, a value, or a value held back until its tag was known. -/
inductive Origin
  | text
  | value
  | deferred
  deriving DecidableEq

namespace Source

mutual
def ofJson : Json → Source
  | .null => .null
  | .bool b => .bool b
  | .num n => .num n
  | .str s => .str s
  | .arr items => .arr (ofItems items) true
  | .obj members => .obj (ofMembers members) true

def ofItems : List Json → List Source
  | [] => []
  | x :: xs => ofJson x :: ofItems xs

def ofMembers : {low : Option String} → Ascending Json low → List (String × Source)
  | _, .nil => []
  | _, .cons k _ v rest => (k, ofJson v) :: ofMembers rest
end

def closing (closed : Bool) : Except Fault Unit := if closed then .ok () else .error .malformed

mutual
/-- The value given. Of members with one name the last counts. -/
def toJson : Source → Except Fault Json
  | .null => .ok .null
  | .bool b => .ok (.bool b)
  | .num n => .ok (.num n)
  | .str s => .ok (.str s)
  | .arr items closed => do
    let items ← toItems items
    closing closed
    return .arr items
  | .obj members closed => do
    let members ← toMembers .nil members
    closing closed
    return .obj members
  | .unreadable | .tooDeep | .broken => .error .malformed

def toItems : List Source → Except Fault (List Json)
  | [] => .ok []
  | x :: xs => do
    let item ← toJson x
    return item :: (← toItems xs)

def toMembers (read : Bag) : List (String × Source) → Except Fault Bag
  | [] => .ok read
  | (name, x) :: rest => do
    let value ← toJson x
    toMembers (read.insert name value) rest
end

mutual
/-- Passes over data that is not read: only its shape counts. -/
def skip : Source → Except Fault Unit
  | .arr items closed => do
    skipItems items
    closing closed
  | .obj members closed => do
    skipMembers members
    closing closed
  | .broken => .error .malformed
  | .null | .bool _ | .num _ | .str _ | .unreadable | .tooDeep => .ok ()

def skipItems : List Source → Except Fault Unit
  | [] => .ok ()
  | x :: xs => do
    skip x
    skipItems xs

def skipMembers : List (String × Source) → Except Fault Unit
  | [] => .ok ()
  | (_, x) :: rest => do
    skip x
    skipMembers rest
end

/-- What is wrong with data of another kind than the one asked for. -/
def otherKind : Source → Fault
  | .unreadable | .broken => .malformed
  | _ => .mismatch

end Source
end SceneGraph

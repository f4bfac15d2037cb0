import SceneGraph.Dictionaries
import SceneGraph.Binary64

/-!
# JSON values with ordered members and exact numbers

A number is an integer or a float, and the two are told apart even where they have one value.
Equality is decidable, and `same` compares contents with numbers by value.
-/
namespace SceneGraph

/-- Integers and binary64 numbers are kept apart: 1 and 1.0 are different numbers. -/
inductive Number
  | int (n : Int)
  | float (x : Binary64) (finite : x.isFinite = true)
  deriving DecidableEq

namespace Number

/-- The binary64 number nearest to the value. -/
def toBinary64 : Number → Binary64
  | .int n => Binary64.ofInt n
  | .float x _ => x

def toNat? : Number → Option Nat
  | .int n => if 0 ≤ n then some n.toNat else none
  | .float _ _ => none

instance : BEq Number := ⟨fun
  | .int m, .int n => m == n
  | .float x _, .float y _ => x == y
  | _, _ => false⟩

end Number

/-- A JSON value. Members of an object stand in key order, so equal contents are equal values. -/
inductive Json
  | null
  | bool (b : Bool)
  | num (n : Number)
  | str (s : String)
  | arr (items : List Json)
  | obj (members : Ascending Json none)
  deriving Inhabited

/-- An open property bag. -/
abbrev Bag := Dict Json

namespace Json

/-- A number that is not finite has no JSON form but null. -/
def real (x : Binary64) : Json := if h : x.isFinite = true then .num (.float x h) else .null

def int (n : Int) : Json := .num (.int n)
def nat (n : Nat) : Json := .num (.int n)

theorem real_of_finite {x : Binary64} (h : x.isFinite = true) :
    real x = .num (.float x h) := by simp [real, h]

def member? (key : String) : Json → Option Json
  | .obj members => members.find? key
  | _ => none

def asObject? : Json → Option Bag
  | .obj members => some members
  | _ => none

def asArray? : Json → Option (List Json)
  | .arr items => some items
  | _ => none

def asString? : Json → Option String
  | .str s => some s
  | _ => none

def asBool? : Json → Option Bool
  | .bool b => some b
  | _ => none

def asNumber? : Json → Option Number
  | .num n => some n
  | _ => none

def asReal? (j : Json) : Option Binary64 := j.asNumber?.map (·.toBinary64)

mutual
def decEq : (a b : Json) → Decidable (a = b)
  | .null, .null => isTrue rfl
  | .bool a, .bool b =>
    if h : a = b then isTrue (by rw [h]) else isFalse fun e => h (by injection e)
  | .num a, .num b =>
    if h : a = b then isTrue (by rw [h]) else isFalse fun e => h (by injection e)
  | .str a, .str b =>
    if h : a = b then isTrue (by rw [h]) else isFalse fun e => h (by injection e)
  | .arr a, .arr b =>
    match decEqItems a b with
    | isTrue h => isTrue (by rw [h])
    | isFalse h => isFalse fun e => h (by injection e)
  | .obj a, .obj b =>
    match decEqMembers a b with
    | isTrue h => isTrue (by rw [h])
    | isFalse h => isFalse fun e => h (by injection e)
  | .null, .bool _ | .null, .num _ | .null, .str _ | .null, .arr _ | .null, .obj _
  | .bool _, .null | .bool _, .num _ | .bool _, .str _ | .bool _, .arr _ | .bool _, .obj _
  | .num _, .null | .num _, .bool _ | .num _, .str _ | .num _, .arr _ | .num _, .obj _
  | .str _, .null | .str _, .bool _ | .str _, .num _ | .str _, .arr _ | .str _, .obj _
  | .arr _, .null | .arr _, .bool _ | .arr _, .num _ | .arr _, .str _ | .arr _, .obj _
  | .obj _, .null | .obj _, .bool _ | .obj _, .num _ | .obj _, .str _ | .obj _, .arr _ =>
    isFalse nofun

def decEqItems : (a b : List Json) → Decidable (a = b)
  | [], [] => isTrue rfl
  | [], _ :: _ | _ :: _, [] => isFalse nofun
  | x :: xs, y :: ys =>
    match decEq x y with
    | isFalse h => isFalse fun e => h (by injection e)
    | isTrue hx =>
      match decEqItems xs ys with
      | isFalse h => isFalse fun e => h (by injection e)
      | isTrue hs => isTrue (by rw [hx, hs])

def decEqMembers : {low : Option String} → (a b : Ascending Json low) → Decidable (a = b)
  | _, .nil, .nil => isTrue rfl
  | _, .nil, .cons .. => isFalse nofun
  | _, .cons .., .nil => isFalse nofun
  | _, .cons k _ v rest, .cons k' _ v' rest' =>
    if hk : k = k' then
      match decEq v v' with
      | isFalse h => isFalse fun e => h (by injection e)
      | isTrue hv =>
        match decEqMembers rest (hk ▸ rest') with
        | isFalse h => isFalse fun e => h (by subst hk; injection e)
        | isTrue hr => isTrue (by subst hk hv; rw [hr])
    else isFalse fun e => hk (by injection e)
end

instance : DecidableEq Json := decEq

mutual
/-- Equality of contents, with numbers compared by value. -/
def same : Json → Json → Bool
  | .null, .null => true
  | .bool a, .bool b => a == b
  | .num a, .num b => a == b
  | .str a, .str b => a == b
  | .arr a, .arr b => sameItems a b
  | .obj a, .obj b => sameMembers a b
  | _, _ => false

def sameItems : List Json → List Json → Bool
  | [], [] => true
  | x :: xs, y :: ys => same x y && sameItems xs ys
  | _, _ => false

def sameMembers : {low low' : Option String} → Ascending Json low → Ascending Json low' → Bool
  | _, _, .nil, .nil => true
  | _, _, .cons k _ v rest, .cons k' _ v' rest' => k == k' && same v v' && sameMembers rest rest'
  | _, _, _, _ => false
end

instance : BEq Json := ⟨same⟩

end Json
end SceneGraph

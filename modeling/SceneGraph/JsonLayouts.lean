import SceneGraph.JsonValues

/-!
# Layouts: JSON with record fields in a stated order, and their text

A `Layout` is what is about to be written: plain values, lists, and records whose fields keep their
order. It has a compact text and a text in lines, and as a value it is the JSON that is stored
(`toJson`).
-/
namespace SceneGraph

/-- Data about to be written. A record keeps the order in which its fields are given; the value it
denotes forgets that order. -/
inductive Layout
  | value (j : Json)
  | list (items : List Layout)
  | record (fields : List (String × Layout))

namespace Layout

def null : Layout := .value .null
def str (s : String) : Layout := .value (.str s)
def bool (b : Bool) : Layout := .value (.bool b)
def real (x : Binary64) : Layout := .value (Json.real x)
def nat (n : Nat) : Layout := .value (Json.nat n)
def bag (members : Bag) : Layout := .value (.obj members)
def strings (texts : List String) : Layout := .list (texts.map str)

def nullable {α : Type} (f : α → Layout) : Option α → Layout
  | none => null
  | some a => f a

def dict {α : Type} (f : α → Layout) (entries : Dict α) : Layout :=
  .record (entries.toList.map fun entry => (entry.1, f entry.2))

/-- A field that is left out when there is nothing to write. -/
def whenPresent {α : Type} (name : String) (f : α → Layout) : Option α → List (String × Layout)
  | none => []
  | some a => [(name, f a)]

mutual
/-- The value written: its objects hold the fields in key order, the last of a name winning. -/
def toJson : Layout → Json
  | .value j => j
  | .list items => .arr (toJsonItems items)
  | .record fields => .obj (Dict.ofList (toJsonFields fields))

def toJsonItems : List Layout → List Json
  | [] => []
  | x :: xs => toJson x :: toJsonItems xs

def toJsonFields : List (String × Layout) → List (String × Json)
  | [] => []
  | (name, x) :: rest => (name, toJson x) :: toJsonFields rest
end

theorem toJsonItems_eq_map (items : List Layout) : toJsonItems items = items.map toJson := by
  induction items with
  | nil => rfl
  | cons x xs ih => simp [toJsonItems, ih]

theorem toJsonFields_eq_map (fields : List (String × Layout)) :
    toJsonFields fields = fields.map fun field => (field.1, field.2.toJson) := by
  induction fields with
  | nil => rfl
  | cons x xs ih => simp [toJsonFields, ih]

end Layout

/-- How containers are set: on one line, or one item a line indented by two blanks a level. -/
inductive Style
  | compact
  | pretty
  deriving DecidableEq

namespace JsonText

def hexDigit (n : Nat) : Char := "0123456789abcdef".toList.getD n '0'

def escape (c : Char) : String :=
  match c with
  | '"' => "\\\""
  | '\\' => "\\\\"
  | '\n' => "\\n"
  | '\r' => "\\r"
  | '\t' => "\\t"
  | c =>
    if c.toNat = 8 then "\\b"
    else if c.toNat = 12 then "\\f"
    else if c.toNat < 32 then
      "\\u00" ++ String.ofList [hexDigit (c.toNat / 16), hexDigit (c.toNat % 16)]
    else String.singleton c

def quoted (s : String) : String := "\"" ++ String.join (s.toList.map escape) ++ "\""

def number : Number → String
  | .int n => if n < 0 then "-" ++ Nat.repr n.natAbs else Nat.repr n.natAbs
  | .float x _ => x.dataText

def newline (depth : Nat) : String := "\n" ++ String.ofList (List.replicate (2 * depth) ' ')

/-- A container at a depth; an empty one is just its brackets. -/
def block (style : Style) (depth : Nat) (opening closing : String) (items : List String) : String :=
  if items.isEmpty then opening ++ closing
  else match style with
    | .compact => opening ++ String.intercalate "," items ++ closing
    | .pretty => opening ++ newline (depth + 1) ++
        String.intercalate ("," ++ newline (depth + 1)) items ++ newline depth ++ closing

def member (style : Style) (name text : String) : String :=
  quoted name ++ (match style with | .compact => ":" | .pretty => ": ") ++ text

end JsonText

namespace Json
open JsonText

mutual
def render (style : Style) (depth : Nat) : Json → String
  | .null => "null"
  | .bool b => if b then "true" else "false"
  | .num n => number n
  | .str s => quoted s
  | .arr items => block style depth "[" "]" (renderItems style (depth + 1) items)
  | .obj members => block style depth "\x7b" "\x7d" (renderMembers style (depth + 1) members)

def renderItems (style : Style) (depth : Nat) : List Json → List String
  | [] => []
  | x :: xs => render style depth x :: renderItems style depth xs

def renderMembers (style : Style) (depth : Nat) :
    {low : Option String} → Ascending Json low → List String
  | _, .nil => []
  | _, .cons k _ v rest => member style k (render style depth v) :: renderMembers style depth rest
end

def text (j : Json) : String := j.render .compact 0

end Json

namespace Layout
open JsonText

mutual
def render (style : Style) (depth : Nat) : Layout → String
  | .value j => j.render style depth
  | .list items => block style depth "[" "]" (renderItems style (depth + 1) items)
  | .record fields => block style depth "\x7b" "\x7d" (renderFields style (depth + 1) fields)

def renderItems (style : Style) (depth : Nat) : List Layout → List String
  | [] => []
  | x :: xs => render style depth x :: renderItems style depth xs

def renderFields (style : Style) (depth : Nat) : List (String × Layout) → List String
  | [] => []
  | (name, x) :: rest => member style name (render style depth x) :: renderFields style depth rest
end

def text (x : Layout) : String := x.render .compact 0
def prettyText (x : Layout) : String := x.render .pretty 0

end Layout
end SceneGraph

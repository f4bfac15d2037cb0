import SceneGraph.Dictionaries
import SceneGraph.TomlScalars

/-!
# Documents of TOML 1.1, as tables of tables

A document is read line by line into nested tables. Tables come to be through headers, through keys
with points, or in braces, and `TomlTableKind` records which, as it decides who may still add to
them.
-/
namespace SceneGraph

/-- How a table came to be, which decides who may still add to it. -/
inductive TomlTableKind
  | implied
  | headed
  | dotted
  | inline
  deriving DecidableEq

/-- An array of headed tables holds the last one first. -/
inductive TomlValue
  | scalar (value : TomlScalar)
  | array (items : List TomlValue)
  | table (kind : TomlTableKind) (entries : Ascending TomlValue none)
  | tables (items : List (Ascending TomlValue none))

abbrev TomlTable := Dict TomlValue

namespace TomlValue

mutual
/-- Whether a value holds no number out of range. -/
def isReadable : TomlValue → Bool
  | scalar s => s ≠ .outOfRange
  | array items => areReadable items
  | table _ entries => entriesReadable entries
  | tables items => tablesReadable items

def areReadable : List TomlValue → Bool
  | [] => true
  | v :: vs => isReadable v && areReadable vs

def entriesReadable : {low : Option String} → Ascending TomlValue low → Bool
  | _, .nil => true
  | _, .cons _ _ v rest => isReadable v && entriesReadable rest

def tablesReadable : List (Ascending TomlValue none) → Bool
  | [] => true
  | t :: ts => entriesReadable t && tablesReadable ts
end

end TomlValue

namespace Toml

def isKeyChar (c : Char) : Bool := c.isAlphanum || c = '_' || c = '-'

def key (cs : List Char) : Option (String × List Char) :=
  match cs with
  | '"' :: rest => (quoted rest).map fun (name, rest) => (String.ofList name, rest)
  | '\'' :: rest => (literal rest).map fun (name, rest) => (String.ofList name, rest)
  | cs =>
    let name := cs.takeWhile isKeyChar
    if name.isEmpty then none else some (String.ofList name, cs.drop name.length)

/-- How many keys may stand in a row, and how deep values may be nested. -/
def limit : Nat := 80

/-- Reads at most so many keys with points between them, and the blanks after them. -/
def keysWithin : (count : Nat) → List Char → Option (List String × List Char)
  | 0, _ => none
  | count + 1, cs => do
    let (first, rest) ← key (skipBlanks cs)
    match skipBlanks rest with
    | '.' :: rest => do
      let (others, rest) ← keysWithin count rest
      return (first :: others, rest)
    | rest => return ([first], rest)

def keys (cs : List Char) : Option (List String × List Char) := keysWithin limit cs

/-- Whether keys with points between them may lead through a table, or, at the end of the way, into
it. Tables with a header or with braces of their own are closed to them, and nothing is put into a
table that only the headers of others have made. -/
def TomlTableKind.admits (kind : TomlTableKind) (atEnd : Bool) : Bool :=
  kind = .dotted || (kind = .implied && !atEnd)

/-- Changes the table that keys with points between them lead to, and makes the tables on the way.
The way may go through the last table of an array, but does not end there. -/
def enterDotted (t : TomlTable) (change : TomlTable → Option TomlTable) :
    List String → Option TomlTable
  | [] => change t
  | key :: keys =>
    match t.find? key with
    | none => do
      let inner ← enterDotted .nil change keys
      return Dict.insert t key (.table .dotted inner)
    | some (.table kind inner) => do
      if !TomlTableKind.admits kind keys.isEmpty then none
      let inner ← enterDotted inner change keys
      return Dict.insert t key (.table kind inner)
    | some (.tables (current :: earlier)) => do
      if keys.isEmpty then none
      let current ← enterDotted current change keys
      return Dict.insert t key (.tables (current :: earlier))
    | some _ => none

/-- Changes the table that the keys of a header lead to, and makes the tables on the way. -/
def enterHeaded (t : TomlTable) (change : TomlTable → Option TomlTable) :
    List String → Option TomlTable
  | [] => change t
  | key :: keys =>
    match t.find? key with
    | none => do
      let inner ← enterHeaded .nil change keys
      return Dict.insert t key (.table .implied inner)
    | some (.table kind inner) => do
      if kind = .inline then none
      let inner ← enterHeaded inner change keys
      return Dict.insert t key (.table kind inner)
    | some (.tables (current :: earlier)) => do
      let current ← enterHeaded current change keys
      return Dict.insert t key (.tables (current :: earlier))
    | some _ => none

/-- Sets a key that is not there yet. -/
def set (t : TomlTable) (keys : List String) (value : TomlValue) : Option TomlTable := do
  let last ← keys.getLast?
  enterDotted t (fun inner =>
    if inner.contains last then none else some (Dict.insert inner last value)) keys.dropLast

/-- Opens the table of a header. A table may have one header only. -/
def openTable (name : String) (t : TomlTable) : Option TomlTable :=
  match t.find? name with
  | none => some (Dict.insert t name (.table .headed .nil))
  | some (.table .implied inner) => some (Dict.insert t name (.table .headed inner))
  | some _ => none

/-- Opens one more table in an array of tables. -/
def openItem (name : String) (t : TomlTable) : Option TomlTable :=
  match t.find? name with
  | none => some (Dict.insert t name (.tables [.nil]))
  | some (.tables items) => some (Dict.insert t name (.tables (.nil :: items)))
  | some _ => none

/-- A way to read a value. -/
abbrev ValueReader := List Char → Option (TomlValue × List Char)

/-- Reads the rest of an array, whose items so far are held last first. The fuel bounds how many
items follow. -/
def array (item : ValueReader) : Nat → List TomlValue → ValueReader
  | 0, _, _ => none
  | fuel + 1, items, cs => do
    match ← skipSpace cs with
    | ']' :: rest => return (.array items.reverse, rest)
    | rest => do
      let (next, rest) ← item rest
      match ← skipSpace rest with
      | ',' :: rest => array item fuel (next :: items) rest
      | ']' :: rest => return (.array (next :: items).reverse, rest)
      | _ => none

/-- Reads the rest of a table in braces. Space may stand between keys and values, but not between
one key and the next. -/
def braces (item : ValueReader) : Nat → TomlTable → ValueReader
  | 0, _, _ => none
  | fuel + 1, t, cs => do
    match ← skipSpace cs with
    | '\x7d' :: rest => return (.table .inline t, rest)
    | rest => do
      let (names, rest) ← keys rest
      let (next, rest) ← item (← skipSpace (← expect '=' (← skipSpace rest)))
      let t ← set t names next
      match ← skipSpace rest with
      | ',' :: rest => braces item fuel t rest
      | '\x7d' :: rest => return (.table .inline t, rest)
      | _ => none

/-- Reads a value that is nested no deeper than said. -/
def valueWithin : (depth : Nat) → ValueReader
  | 0, cs => (scalar cs).map fun (s, rest) => (.scalar s, rest)
  | depth + 1, cs =>
    match cs with
    | '[' :: rest => array (valueWithin depth) cs.length [] rest
    | '\x7b' :: rest => braces (valueWithin depth) cs.length .nil rest
    | cs => (scalar cs).map fun (s, rest) => (.scalar s, rest)

def value : ValueReader := valueWithin limit

/-- What has been read of a document: its tables, and the header that is in force. -/
structure Reading where
  tables : TomlTable
  header : List String

/-- Reads the keys of a header and the rest of its line. -/
def header (closing : List Char) (cs : List Char) : Option (List String × List Char) := do
  let (names, rest) ← keys cs
  if closing.isPrefixOf rest then return (names, ← endLine (rest.drop closing.length)) else none

/-- Enters the table of a header, which `enter` opens under the last of its keys. -/
def Reading.enter (r : Reading) (names : List String)
    (enter : String → TomlTable → Option TomlTable) : Option Reading := do
  let tables ← enterHeaded r.tables (enter (← names.getLast?)) names.dropLast
  return ⟨tables, names⟩

def entry (r : Reading) (cs : List Char) : Option (Reading × List Char) :=
  match cs with
  | '[' :: '[' :: rest => do
    let (names, rest) ← header [']', ']'] rest
    return (← r.enter names openItem, rest)
  | '[' :: rest => do
    let (names, rest) ← header [']'] rest
    return (← r.enter names openTable, rest)
  | cs => do
    let (names, rest) ← keys cs
    let (item, rest) ← value (skipBlanks (← expect '=' rest))
    let tables ← enterHeaded r.tables (fun t => set t names item) r.header
    return ({ r with tables }, ← endLine rest)

def entries : Nat → Reading → List Char → Option TomlTable
  | 0, _, _ => none
  | fuel + 1, r, cs => do
    match ← skipSpace cs with
    | [] => return r.tables
    | rest => do
      let (r, rest) ← entry r rest
      entries fuel r rest

/-- Reads a document, before which a byte order mark may stand. -/
def parse (text : String) : Option TomlTable :=
  let cs := match text.toList with
    | '\ufeff' :: rest => rest
    | cs => cs
  entries (cs.length + 1) ⟨.nil, []⟩ cs

end Toml
end SceneGraph

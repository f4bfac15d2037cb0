import SceneGraph.Folders
import SceneGraph.SceneCompilation
import SceneGraph.TomlDocuments

/-!
# Configurations, and their files

A `Configuration` says how scenes are compiled, how results are printed and what is logged. It is
read from a TOML table, in which every field may be left out, and is written as the text of such a
table.
-/
namespace SceneGraph

structure Configuration where
  compile : CompileOptions
  pretty : Bool
  logFilter : String
  deriving DecidableEq

/-- Why there is no configuration: its file cannot be read, or its text is not well formed. -/
inductive ConfigurationError
  | unreadable (error : FileError)
  | malformed
  deriving DecidableEq

/-- The messages of the errors that led to this, outermost first. -/
def ConfigurationError.causes : ConfigurationError → List String
  | unreadable error => ["IO error: " ++ error.message, error.message]
  | malformed => ["config error: the text is not well formed"]

namespace Toml

def boolean? : TomlValue → Option Bool
  | .scalar (.boolean b) => some b
  | _ => none

def string? : TomlValue → Option String
  | .scalar (.string s) => some s
  | _ => none

/-- A table of which only some fields are wanted. The others have to be readable all the same. -/
def only (fields : List String) (t : TomlTable) : Option TomlTable :=
  if t.toList.all fun (name, v) => fields.contains name || v.isReadable then some t else none

/-- The entries of a section with given fields. Arrays list the values of the fields in order, and
what follows those is not read. A moment says nothing about any field. -/
def section? (fields : List String) : TomlValue → Option TomlTable
  | .table _ entries => only fields entries
  | .array items => some (Dict.ofList (fields.zip items))
  | .tables items => some (Dict.ofList (fields.zip (items.reverse.map (.table .headed))))
  | .scalar .moment => some .nil
  | .scalar _ => none

/-- A field that has a value of its own where none is given. -/
def field (t : TomlTable) (name : String) (read : TomlValue → Option α) (given : α) : Option α :=
  match t.find? name with
  | none => some given
  | some value => read value

/-- The escaped form of a character in quotes. -/
def escape (c : Char) : List Char :=
  match c with
  | '"' => ['\\', '"']
  | '\\' => ['\\', '\\']
  | '\n' => ['\\', 'n']
  | '\r' => ['\\', 'r']
  | c =>
    if isControl c then
      ['\\', 'x', Nat.digitChar (c.toNat / 16), Nat.digitChar (c.toNat % 16)]
    else [c]

def quote (text : String) : String :=
  String.ofList ('"' :: text.toList.flatMap escape ++ ['"'])

end Toml

namespace Configuration

def default : Configuration := ⟨CompileOptions.default, true, "info"⟩

def fileName : String := "ecson.toml"

/-- Unknown sections and unknown keys are let pass. -/
def ofToml? (t : TomlTable) : Option Configuration := do
  let t ← Toml.only ["compile", "output", "log"] t
  let compile ← Toml.field t "compile" (Toml.section? ["validate_output", "strict_wires"]) .nil
  let output ← Toml.field t "output" (Toml.section? ["pretty"]) .nil
  let log ← Toml.field t "log" (Toml.section? ["filter"]) .nil
  let validateOutput ←
    Toml.field compile "validate_output" Toml.boolean? default.compile.validateOutput
  let strictWires ← Toml.field compile "strict_wires" Toml.boolean? default.compile.strictWires
  let pretty ← Toml.field output "pretty" Toml.boolean? default.pretty
  let logFilter ← Toml.field log "filter" Toml.string? default.logFilter
  return ⟨⟨validateOutput, strictWires⟩, pretty, logFilter⟩

def ofText (text : String) : Except ConfigurationError Configuration :=
  match (Toml.parse text).bind ofToml? with
  | some c => .ok c
  | none => .error .malformed

/-- Reads a configuration from what reading its file has brought. -/
def ofFile : Except FileError String → Except ConfigurationError Configuration
  | .ok text => ofText text
  | .error error => .error (.unreadable error)

/-- As `ofFile`, but a file that is not there stands for the default. -/
def ofFileOrDefault : Except FileError String → Except ConfigurationError Configuration
  | .error .missing => .ok default
  | read => ofFile read

def truth (b : Bool) : String := if b then "true" else "false"

/-- The text of a configuration's file. -/
def render (c : Configuration) : String :=
  String.intercalate "\n" [
    "[compile]",
    "validate_output = " ++ truth c.compile.validateOutput,
    "strict_wires = " ++ truth c.compile.strictWires,
    "",
    "[output]",
    "pretty = " ++ truth c.pretty,
    "",
    "[log]",
    "filter = " ++ Toml.quote c.logFilter,
    ""]

def layout (c : Configuration) : Layout :=
  .record [
    ("compile", .record [
      ("validate_output", .bool c.compile.validateOutput),
      ("strict_wires", .bool c.compile.strictWires)]),
    ("output", .record [("pretty", .bool c.pretty)]),
    ("log", .record [("filter", .str c.logFilter)])]

end Configuration
end SceneGraph

import SceneGraph.CommandLines
import SceneGraph.Configurations
import SceneGraph.DocumentBuilding
import SceneGraph.EditEngine
import SceneGraph.OperationWires
import SceneGraph.SceneDeltas

/-!
# Commands carried out

`Command.run` carries a command out over any files that can be read and written by name, and gives
the text to be printed. What can go wrong is a `CommandError`, whose report lists the errors that
led to it. A `Response` is what the program as a whole makes of its arguments.
-/
namespace SceneGraph

/-- What a file that is read should hold. -/
inductive FileContent
  | document
  | scene
  | ops
  deriving DecidableEq

def FileContent.name : FileContent → String
  | document => "document"
  | scene => "IR"
  | ops => "ops"

/-- The path of a compilation is that of its source, where it is the aim of the command. -/
inductive CommandError
  | noConfiguration (error : ConfigurationError)
  | unread (content : FileContent) (path : String) (error : FileError)
  | unparsed (content : FileContent) (path : String) (fault : Fault)
  | malformedOp (index : Nat) (fault : Fault)
  | undecodedOp (index : Nat) (error : OpError)
  | uncompiled (path : Option String) (error : CompileError)
  | undecompiled (path : Option String) (error : CompileError)
  | rejected (error : OpError)
  | invalid (issues : List DocumentIssue)
  | changed (path : String)
  | unwritten (path : String) (error : FileError)

namespace CommandError

def message : CommandError → String
  | noConfiguration _ => "failed to load config"
  | unread content path _ => "failed to read " ++ content.name ++ ": " ++ path
  | unparsed content path _ => "failed to parse " ++ content.name ++ ": " ++ path
  | malformedOp index _ => "op " ++ toString index ++ " is malformed"
  | undecodedOp index _ => "op " ++ toString index ++ " could not be decoded"
  | uncompiled (some path) _ => "failed to compile " ++ path
  | uncompiled none _ => "compile failed"
  | undecompiled (some path) _ => "failed to decompile " ++ path
  | undecompiled none _ => "decompile failed"
  | rejected _ => "ops were rejected; the document was not changed"
  | invalid issues => "Validation errors:\n  " ++ CompileError.join (issues.map (·.message))
  | changed path => "round trip changed portable fields of " ++ path
  | unwritten path _ => "failed to write " ++ path

/-- The messages of the errors that led to this one, outermost first. -/
def causes : CommandError → List String
  | noConfiguration error => error.causes
  | unread _ _ error | unwritten _ error => [error.message]
  | unparsed _ _ fault | malformedOp _ fault => [fault.message]
  | undecodedOp _ error | rejected error => error.causes
  | uncompiled _ error | undecompiled _ error => error.causes
  | invalid _ | changed _ => []

def lines (text : String) : List String := (Path.segments '\n' text.toList).map String.ofList
def blanks (n : Nat) : String := String.ofList (List.replicate n ' ')

/-- Puts a text in front of the first line, and blanks in front of the others. -/
def hanging (first : String) (width : Nat) (text : String) : List String :=
  (lines text).mapIdx fun i line => if i = 0 then first ++ line else blanks width ++ line

/-- A number that ends in the fifth column. -/
def numbered (n : Nat) : String := blanks (5 - (toString n).length) ++ toString n ++ ": "

/-- The lines of the report of an error. Several causes are numbered. -/
def report (e : CommandError) : List String :=
  lines ("Error: " ++ e.message) ++
    match e.causes with
    | [] => []
    | [cause] => "" :: "Caused by:" :: hanging "    " 4 cause
    | causes =>
      "" :: "Caused by:" :: (causes.mapIdx fun i cause => hanging (numbered i) 7 cause).flatten

end CommandError

/-- A part of a command, which reads and writes files and may fail. -/
abbrev Running (m : Type → Type) := ExceptT CommandError m

namespace Running

variable {m : Type → Type} [Monad m] [MonadFiles m] {α ε : Type}

def orFail (result : Except ε α) (failure : ε → CommandError) : Running m α :=
  match result with
  | .ok a => return a
  | .error e => throw (failure e)

def readText (content : FileContent) (path : String) : Running m String := do
  orFail (← MonadFiles.readFile (m := m) path) (.unread content path)

def readAs (reader : Reader α) (content : FileContent) (path : String) : Running m α := do
  orFail (reader.fromText (← readText content path)) (.unparsed content path)

def readDocument (path : String) : Running m Document := readAs Document.reader .document path

/-- Reads a list of operations, or a single one that stands alone. -/
def readOps (path : String) : Running m (List Op) := do
  let items := match ← readAs Reader.json .ops path with
    | .arr items => items
    | single => [single]
  items.zipIdx.mapM fun (item, index) => do
    let wire ← orFail (OpWire.reader.fromJson item) (.malformedOp index)
    orFail (Op.ofCurrentWire wire) (.undecodedOp index)

/-- Writes a result to a file, or gives the text to be printed. -/
def present (c : Configuration) (output : Option String) (result : Layout) : Running m String := do
  let text := (if c.pretty then result.prettyText else result.text) ++ "\n"
  match output with
  | none => return text
  | some path =>
    orFail (← MonadFiles.writeFile (m := m) path text) (.unwritten path)
    return ""

end Running

namespace Command

variable {m : Type → Type} [Monad m] [MonadFiles m]

open Running

/-- A new document. Missing ids are taken from the stamps. -/
def create (stamps : Stamps) (name : String) (id rootId : Option String) : Document :=
  .ofIds (id.getD (stamps.below 0).here.id) (rootId.getD (stamps.below 1).here.id) name

def runValidate (path : String) : Running m String := do
  let d ← readDocument path
  if !d.isValid then throw (.invalid d.issues)
  let issues := d.componentIssues .builtin
  if !issues.isEmpty then throw (.invalid issues)
  return path ++ ": ok (" ++ toString d.entities.size ++ " entities, " ++
    toString d.assets.size ++ " assets, " ++ toString d.wiring.length ++ " wires)\n"

def runApply (c : Configuration) (stamps : Stamps) (document ops : String)
    (output inverseOutput : Option String) (checked : Bool) : Running m String := do
  let d ← readDocument document
  let ops ← readOps ops
  let outcome := d.applyAll (if checked then some .builtin else none) stamps ops
  let inverses ← orFail outcome.result .rejected
  if let some path := inverseOutput then
    discard (present c (some path) (.list (inverses.reverse.map (·.layout))))
  present c output outcome.document.layout

def runRoundTrip (c : Configuration) (path : String) : Running m String := do
  let d ← readDocument path
  let compiled ← orFail (d.compile c.compile) (.uncompiled none)
  let back ← orFail compiled.scene.decompile (.undecompiled none)
  if back != d.portable then throw (.changed path)
  return path ++ ": portable subset preserved (" ++ toString compiled.scene.nodes.length ++
    " nodes)\n"

/-- Carries out a command. The result is the text to be printed. -/
def run (c : Configuration) (stamps : Stamps) : Command → Running m String
  | new name id rootId output => present c output (create stamps name id rootId).layout
  | validate document => runValidate document
  | compile document output strictWires => do
    let d ← readDocument document
    let options := { c.compile with strictWires := c.compile.strictWires || strictWires }
    let compiled ← orFail (d.compile options) (.uncompiled document)
    present c output compiled.scene.layout
  | decompile scene output => do
    let s ← readAs CompiledScene.reader .scene scene
    let d ← orFail s.decompile (.undecompiled scene)
    present c output d.layout
  | apply document ops output inverseOutput checked =>
    runApply c stamps document ops output inverseOutput checked
  | classify ops output => do
    let ops ← readOps ops
    present c output (.list (ops.map fun op => (Delta.ofOp op).layout))
  | roundTrip document => runRoundTrip c document
  | hash document => do
    let d ← readDocument document
    let compiled ← orFail (d.compile c.compile) (.uncompiled none)
    return compiled.scene.contentHash.hex ++ "\n"

end Command

namespace CommandLine

variable {m : Type → Type} [Monad m] [MonadFiles m]

def readConfiguration (l : CommandLine) : Running m Configuration := do
  match l.configuration with
  | some path => Running.orFail (Configuration.ofFile (← MonadFiles.readFile (m := m) path)) .noConfiguration
  | none =>
    let read ← MonadFiles.readFile (m := m) Configuration.fileName
    Running.orFail (Configuration.ofFileOrDefault read) .noConfiguration

def run (stamps : Stamps) (l : CommandLine) : Running m String := do
  l.command.run (← l.readConfiguration) stamps

end CommandLine

/-- What comes of a command line: an exit code, the text printed, and what went wrong. -/
structure Response where
  exitCode : Nat
  printed : String
  error : Option CommandError

namespace Response

def versionText : String := "ecson 0.1.5\n"

def helpText : String :=
  "Usage: ecson [--config FILE] COMMAND\n\nCommands:\n" ++
  String.join (CommandLine.commandRules.map fun rule => "  " ++ rule.name ++ "\n")

def ofInterruption : Interruption → Response
  | .version => ⟨0, versionText, none⟩
  | .help => ⟨0, helpText, none⟩
  | .misuse => ⟨2, "", none⟩

def ofArguments {m : Type → Type} [Monad m] [MonadFiles m] (stamps : Stamps)
    (texts : List String) : m Response := do
  match CommandLine.ofArguments texts with
  | .error interruption => return ofInterruption interruption
  | .ok line =>
    match ← (line.run stamps : Running m String).run with
    | .ok printed => return ⟨0, printed, none⟩
    | .error error => return ⟨1, "", some error⟩

end Response
end SceneGraph

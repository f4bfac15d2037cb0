/-!
# Command lines

A line of arguments names a `Command` and what it is done with. `Reading` goes through the arguments
from left to right by the rules of the command (`commandRules`): which options it knows, which have
a value, and how many places it has. What comes of it is a `CommandLine`, or the reason why there is
none.
-/
namespace SceneGraph

/-- Files are named by their paths. Results go to a file or are printed. -/
inductive Command
  | new (name : String) (id rootId output : Option String)
  | validate (document : String)
  | compile (document : String) (output : Option String) (strictWires : Bool)
  | decompile (scene : String) (output : Option String)
  | apply (document ops : String) (output inverseOutput : Option String) (checked : Bool)
  | classify (ops : String) (output : Option String)
  | roundTrip (document : String)
  | hash (document : String)
  deriving DecidableEq

/-- A command, and the file of its configuration if one is named. -/
structure CommandLine where
  configuration : Option String
  command : Command
  deriving DecidableEq

/-- Why a command line leads to no command. -/
inductive Interruption
  | version
  | help
  | misuse
  deriving DecidableEq

/-- What may be given for an option or in a place. A path is not empty, a switch has no value, and
some options stop everything. -/
inductive ArgumentKind
  | switch
  | text
  | path
  | stop (interruption : Interruption)
  deriving DecidableEq

namespace ArgumentKind

def hasValue : ArgumentKind → Bool
  | text | path => true
  | switch | stop _ => false

def accepts (kind : ArgumentKind) (value : String) : Bool := kind ≠ path || value ≠ ""

end ArgumentKind

structure OptionRule where
  name : String
  letter : Option Char
  kind : ArgumentKind

/-- What has been given so far: options last first, places in order. -/
structure Arguments where
  options : List (String × String)
  places : List String

structure CommandRule where
  name : String
  options : List OptionRule
  places : List ArgumentKind
  build : Arguments → Option Command

namespace Arguments

def value? (a : Arguments) (name : String) : Option String := a.options.lookup name
def has (a : Arguments) (name : String) : Bool := (a.value? name).isSome

/-- Every option is given once at most. -/
def addOption (a : Arguments) (rule : OptionRule) (value : String) :
    Except Interruption Arguments :=
  match rule.kind with
  | .stop interruption => .error interruption
  | kind =>
    if a.has rule.name || !kind.accepts value then .error .misuse
    else .ok { a with options := (rule.name, value) :: a.options }

def addPlace (a : Arguments) (kinds : List ArgumentKind) (value : String) :
    Except Interruption Arguments :=
  match kinds[a.places.length]? with
  | none => .error .misuse
  | some kind =>
    if kind.accepts value then .ok { a with places := a.places ++ [value] } else .error .misuse

end Arguments

namespace CommandLine

def helpRule : OptionRule := ⟨"help", some 'h', .stop .help⟩
def versionRule : OptionRule := ⟨"version", some 'V', .stop .version⟩
def configurationRule : OptionRule := ⟨"config", none, .path⟩
def outputRule : OptionRule := ⟨"output", some 'o', .path⟩

/-- The command of a single file. -/
def ofFile (command : String → Command) (a : Arguments) : Option Command :=
  match a.places with
  | [file] => some (command file)
  | _ => none

def commandRules : List CommandRule := [
  ⟨"new", [⟨"id", none, .text⟩, ⟨"root-id", none, .text⟩, outputRule], [.text],
    fun a => ofFile (.new · (a.value? "id") (a.value? "root-id") (a.value? "output")) a⟩,
  ⟨"validate", [], [.path], ofFile .validate⟩,
  ⟨"compile", [outputRule, ⟨"strict-wires", none, .switch⟩], [.path],
    fun a => ofFile (.compile · (a.value? "output") (a.has "strict-wires")) a⟩,
  ⟨"decompile", [outputRule], [.path], fun a => ofFile (.decompile · (a.value? "output")) a⟩,
  ⟨"apply", [outputRule, ⟨"inverse-out", none, .path⟩, ⟨"checked", none, .switch⟩],
    [.path, .path], fun a =>
      match a.places with
      | [document, ops] =>
        some (.apply document ops (a.value? "output") (a.value? "inverse-out") (a.has "checked"))
      | _ => none⟩,
  ⟨"classify", [outputRule], [.path], fun a => ofFile (.classify · (a.value? "output")) a⟩,
  ⟨"roundtrip", [], [.path], ofFile .roundTrip⟩,
  ⟨"hash", [], [.path], ofFile .hash⟩]

/-- The form of one argument. The value of an option may be attached to it or follow it. -/
inductive Form
  | place (value : String)
  | option (rule : OptionRule) (attached : Option String)
  | unknown

/-- A value after an equals sign, if there is one. -/
def afterEquals : List Char → Option String
  | '=' :: value => some (String.ofList value)
  | _ => none

/-- A value attached to a letter, before which an equals sign may stand. -/
def afterLetter : List Char → Option String
  | [] => none
  | '=' :: value | value => some (String.ofList value)

def form (rules : List OptionRule) (text : String) : Form :=
  match text.toList with
  | '-' :: '-' :: cs =>
    let name := cs.takeWhile (· ≠ '=')
    match rules.find? (·.name = String.ofList name) with
    | some rule => .option rule (afterEquals (cs.drop name.length))
    | none => .unknown
  | '-' :: c :: cs =>
    match rules.find? (·.letter = some c) with
    | some rule => .option rule (if rule.kind.hasValue then afterLetter cs else none)
    | none => .unknown
  | _ => .place text

/-- Whether a text can be the value of the option before it. -/
def isValue (text : String) : Bool :=
  match text.toList with
  | '-' :: _ :: _ => false
  | _ => true

/-- Arguments being read. An option may be waiting for its value, and after two dashes there are
places only. -/
structure Reading where
  given : Arguments
  awaiting : Option OptionRule
  placesOnly : Bool

def Reading.start : Reading := ⟨⟨[], []⟩, none, false⟩

def Reading.add (rules : List OptionRule) (places : List ArgumentKind) (r : Reading)
    (text : String) : Except Interruption Reading :=
  match r.awaiting with
  | some rule =>
    if isValue text then do return ⟨← r.given.addOption rule text, none, false⟩ else .error .misuse
  | none =>
    if r.placesOnly then do return { r with given := ← r.given.addPlace places text }
    else if text = "--" then .ok { r with placesOnly := true }
    else match form rules text with
      | .place value => do return { r with given := ← r.given.addPlace places value }
      | .unknown => .error .misuse
      | .option rule attached =>
        if rule.kind.hasValue then
          match attached with
          | some value => do return { r with given := ← r.given.addOption rule value }
          | none => .ok { r with awaiting := some rule }
        else if attached.isSome then .error .misuse
        else do return { r with given := ← r.given.addOption rule "" }

/-- Reads the arguments after the name of a command. A configuration named there comes before one
named earlier. -/
def ofCommand (configuration : Option String) (rule : CommandRule) (texts : List String) :
    Except Interruption CommandLine := do
  let r ← texts.foldlM
    (Reading.add (rule.options ++ [configurationRule, helpRule]) rule.places) .start
  match r.awaiting, rule.build r.given with
  | none, some command => return ⟨r.given.value? "config" <|> configuration, command⟩
  | _, _ => throw .misuse

/-- Reads the name of a command and the arguments after it. -/
def ofNamed (configuration : Option String) (name : String) (texts : List String) :
    Except Interruption CommandLine :=
  match commandRules.find? (·.name = name) with
  | some rule => ofCommand configuration rule texts
  | none =>
    if name = "help" && texts.length ≤ 1 &&
        texts.all (fun text => text = "help" || commandRules.any (·.name = text)) then
      .error .help
    else .error .misuse

/-- Reads the arguments before the name of a command, and then the others. -/
def ofReading (r : Reading) : List String → Except Interruption CommandLine
  | [] => .error .misuse
  | text :: texts =>
    let rules := [configurationRule, helpRule, versionRule]
    match r.awaiting.isNone && !r.placesOnly && text ≠ "--", form rules text with
    | true, .place name => ofNamed (r.given.value? "config") name texts
    | _, _ => do ofReading (← r.add rules [] text) texts

def ofArguments (texts : List String) : Except Interruption CommandLine := ofReading .start texts

end CommandLine
end SceneGraph

import SceneGraph.Operations

/-!
# Property writes through the data form of a field

A property of an entity or of the document is written through the JSON of the field that it belongs
to, and the field is then read anew, so a write is refused where the outcome does not fit. A
`PropertyWrite` reports what was replaced and what is there now. Components have open properties,
which are written as they are.
-/
namespace SceneGraph

/-- What a write replaced, and what now stands in its place. -/
structure PropertyWrite where
  prior : Bag.Prior
  current : Option Json
  deriving DecidableEq

namespace PropertyWrite

/-- The path that a write must address to undo this one. -/
def inversePath (w : PropertyWrite) : String := w.prior.path.dotted

/-- Writes into a bag. -/
def inBag (bag : Bag) (path : Path) (value : Option Json) :
    Except PathError (Bag × PropertyWrite) := do
  let prior ← bag.prior path
  let written ← bag.put path value
  return (written, ⟨prior, Bag.get? written prior.path⟩)

/-- Writes into one field: `path` starts with the name of the field and goes on inside its data
form. The field must still read as its type afterwards. -/
def inField {α : Type} (read : Reader α) (stored : Json) (text : String) (path : Path)
    (value : Option Json) : Except OpError (α × PropertyWrite) := do
  let root := path.headD ""
  let bag : Bag := if stored = .null then .nil else Dict.insert .nil root stored
  let (written, write) ← (inBag bag path value).mapError OpError.path
  let field ← (read.fromJson ((written.find? root).getD .null)).mapError
    fun fault => .invalidValue text fault.message
  return (field, write)

def refuseRemoval (text : String) (removable : Bool) (value : Option Json) : Except OpError Unit :=
  if value.isNone && !removable then .error (.invalidValue text "this field cannot be removed")
  else .ok ()

/-- The path that a text spells, when it may be written. `removable?` tells of the paths that lead
somewhere whether what stands there may be removed. -/
def address (removable? : Path → Option Bool) (text : String) (value : Option Json) :
    Except OpError Path := do
  let path ← (Path.ofText text).mapError OpError.path
  match removable? path with
  | some removable =>
    refuseRemoval text removable value
    return path
  | none => throw (.path (.unknown text))

end PropertyWrite

namespace Entity

/-- Whether a path addresses a property of an entity that may be removed; structure and components
are not addressed by paths at all. -/
def removable? : Path → Option Bool
  | ["name"] | ["visible"] | ["locked"] | ["tags"] | ["transform"] => some false
  | ["transform", part] =>
    if ["position", "rotation", "scale"].contains part then some false else none
  | ["transform", part, axis] =>
    if (["position", "scale"].contains part && ["x", "y", "z"].contains axis) ||
        (part = "rotation" && ["x", "y", "z", "w"].contains axis) then some false
    else none
  | "tuning" :: _ => some true
  | _ => none

def tagsLayout (e : Entity) : Layout := .strings e.tags.keys

open PropertyWrite in
/-- Writes, or removes, what an address leads to in the field that it starts with. -/
def writeField (e : Entity) (text : String) (path : Path) (value : Option Json) :
    Except OpError (Entity × PropertyWrite) := do
  match path.headD "" with
  | "name" =>
    let (name, write) ← inField Reader.string (.str e.name) text path value
    return ({ e with name }, write)
  | "visible" =>
    let (visible, write) ← inField Reader.bool (.bool e.visible) text path value
    return ({ e with visible }, write)
  | "locked" =>
    let (locked, write) ← inField Reader.bool (.bool e.locked) text path value
    return ({ e with locked }, write)
  | "tags" =>
    let (tags, write) ← inField Reader.textSet e.tagsLayout.toJson text path value
    return ({ e with tags }, write)
  | "transform" =>
    let (transform, write) ← inField Transform.reader e.transform.layout.toJson text path value
    return ({ e with transform }, write)
  | _ =>
    let (tuning, write) ← inField (.nullable Tuning.reader)
      (Layout.nullable Tuning.layout e.tuning).toJson text path value
    return ({ e with tuning }, write)

/-- Writes, or removes, a property of an entity. -/
def setProperty (e : Entity) (text : String) (value : Option Json) :
    Except OpError (Entity × PropertyWrite) := do
  let path ← PropertyWrite.address removable? text value
  e.writeField text path value

end Entity

namespace Document

/-- Whether a path addresses a property of the document that may be removed. Environment paths
must be there already. -/
def removable? (d : Document) : Path → Option Bool
  | ["name"] => some false
  | ["environment"] => some false
  | "environment" :: key :: rest =>
    match d.environment.layout.toJson with
    | .obj bag => if (Bag.get? bag (key :: rest)).isSome then some false else none
    | _ => none
  | "gameSettings" :: _ => some true
  | "metadata" :: rest => some (!rest.isEmpty)
  | _ => none

open PropertyWrite in
/-- Writes, or removes, what an address leads to in the field that it starts with. -/
def writeField (d : Document) (text : String) (path : Path) (value : Option Json) :
    Except OpError (Document × PropertyWrite) := do
  match path.headD "" with
  | "name" =>
    let (name, write) ← inField Reader.string (.str d.name) text path value
    return ({ d with name }, write)
  | "environment" =>
    let (environment, write) ←
      inField (Environment.reader .lenient) d.environment.layout.toJson text path value
    return ({ d with environment }, write)
  | "gameSettings" =>
    let (gameSettings, write) ← inField (.nullable GameSettings.reader)
      (Layout.nullable GameSettings.layout d.gameSettings).toJson text path value
    return ({ d with gameSettings }, write)
  | _ =>
    let (metadata, write) ← inField Reader.bag (.obj d.metadata) text path value
    return ({ d with metadata }, write)

/-- Writes, or removes, a property of the document itself. -/
def setProperty (d : Document) (text : String) (value : Option Json) :
    Except OpError (Document × PropertyWrite) := do
  let path ← PropertyWrite.address d.removable? text value
  d.writeField text path value

end Document

/-- Writes, or removes, a property in an open bag. -/
def Bag.setProperty (bag : Bag) (text : String) (value : Option Json) :
    Except OpError (Bag × PropertyWrite) := do
  let path ← (Path.ofText text).mapError OpError.path
  (PropertyWrite.inBag bag path value).mapError OpError.path

/-- Writes, or removes, a property of a component. -/
def Component.setProperty (c : Component) (text : String) (value : Option Json) :
    Except OpError (Component × PropertyWrite) := do
  let (properties, write) ← c.properties.setProperty text value
  return ({ c with properties }, write)

end SceneGraph

import SceneGraph.Operations

/-!
# Keyframe lists of animation tracks

A track stores its keyframes as plain JSON in the properties of a component. They are added at the
place of their time or at a stated one, removed, and given other values.
-/
namespace SceneGraph

namespace KeyframeTrack

/-- The property of an animation component under which its tracks stand. -/
def tracksKey : String := "tracks"
def keyframesKey : String := "keyframes"

def path (track : String) : Path := [tracksKey, track, keyframesKey]

/-- Whether a stored keyframe is the one at a time; times are compared by value. -/
def isAt (time : Binary64) (keyframe : Json) : Bool :=
  match Keyframe.timeOf? keyframe with
  | some t => t == time
  | none => false

/-- The first keyframe at a time. -/
def position? (keyframes : List Json) (time : Binary64) : Option Nat :=
  keyframes.findIdx? (isAt time)

/-- Where a keyframe goes: before the first one that is later, or at the end. -/
def landing (keyframes : List Json) (time : Binary64) : Option Nat → Nat
  | some index => min index keyframes.length
  | none => (keyframes.findIdx? fun k => match Keyframe.timeOf? k with
    | some t => time.lt t
    | none => false).getD keyframes.length

def invalid (track message : String) : OpError := .invalidValue (path track).dotted message

/-- The time of a keyframe that may be stored. -/
def admitted (track : String) (keyframe : Json) : Except OpError Binary64 :=
  match Keyframe.timeOf? keyframe with
  | none => .error (invalid track "keyframe needs a numeric 'time'")
  | some time =>
    if !time.isFinite || time.lt 0 then
      .error (invalid track "keyframe time must be a finite, non-negative number")
    else if (keyframe.member? "value").isNone then
      .error (invalid track "keyframe needs a 'value'")
    else .ok time

/-- Adds a keyframe at a time that is still free. Also returns the index it came to stand at. -/
def add (track : String) (keyframe : Json) (time : Binary64) (index : Option Nat)
    (keyframes : List Json) : Except OpError (List Json × Nat) :=
  if (position? keyframes time).isSome then .error (.keyframeExists track time)
  else
    let at' := landing keyframes time index
    .ok (keyframes.insertIdx at' keyframe, at')

/-- Removes the keyframe at a time. Also returns the index it stood at, and the keyframe. -/
def remove (track : String) (time : Binary64) (keyframes : List Json) :
    Except OpError (List Json × Nat × Json) :=
  match position? keyframes time with
  | none => .error (.keyframeNotFound track time)
  | some at' => .ok (keyframes.eraseIdx at', at', keyframes.getD at' .null)

/-- Puts a value in place of the one that the keyframe at a time has, which is returned. -/
def setValue (track : String) (time : Binary64) (value : Json) (keyframes : List Json) :
    Except OpError (List Json × Json) :=
  match position? keyframes time with
  | none => .error (.keyframeNotFound track time)
  | some at' =>
    match keyframes[at']? with
    | some (.obj keyframe) =>
      match keyframe.find? "value" with
      | some previous =>
        .ok (keyframes.set at' (.obj (Dict.insert keyframe "value" value)), previous)
      | none =>
        .error (invalid track ("keyframe at time " ++ time.messageText ++ " has no 'value'"))
    | _ => .error (.keyframeNotFound track time)

end KeyframeTrack

namespace Entity
open KeyframeTrack

/-- Changes the keyframes of a track of the first animation component. -/
def editTrack {α : Type} (e : Entity) (track : String)
    (change : List Json → Except OpError (List Json × α)) : Except OpError (Entity × α) := do
  let some animation := e.component? Component.animationType
    | throw (.componentNotFound e.id Component.animationType)
  let some (.arr keyframes) := Bag.get? animation.properties (path track)
    | throw (.trackNotFound e.id track)
  let (keyframes, result) ← change keyframes
  let properties ← (Bag.put animation.properties (path track) (some (.arr keyframes))).mapError
    OpError.path
  return (e.setComponent Component.animationType { animation with properties }, result)

def addKeyframe (e : Entity) (track : String) (keyframe : Json) (index : Option Nat) :
    Except OpError (Entity × Nat) := do
  let time ← admitted track keyframe
  e.editTrack track (KeyframeTrack.add track keyframe time index)

def removeKeyframe (e : Entity) (track : String) (time : Binary64) :
    Except OpError (Entity × Nat × Json) :=
  e.editTrack track (KeyframeTrack.remove track time)

def setKeyframeValue (e : Entity) (track : String) (time : Binary64) (value : Json) :
    Except OpError (Entity × Json) :=
  e.editTrack track (KeyframeTrack.setValue track time value)

end Entity
end SceneGraph

import SceneGraph.Transforms

/-!
# Components, engine tuning and keyframes

A `Component` has a type and an open bag of properties. `Tuning` holds values for single engines,
and a `Keyframe` is one point of an animation track, which stores it as plain JSON.
-/
namespace SceneGraph

/-- Values meant for one engine only, by engine name. -/
abbrev Tuning := Dict Bag

namespace Tuning

def layout (tuning : Tuning) : Layout := .dict .bag tuning
def reader : Reader Tuning := .dict .bag

def set (tuning : Option Tuning) (engine key : String) (value : Json) : Tuning :=
  let tuning := tuning.getD .nil
  let bag := (tuning.find? engine).getD .nil
  Dict.insert tuning engine (Dict.insert bag key value)

end Tuning

/-- A typed component. Its properties are open; `editorMeta` is decoration for editors. -/
structure Component where
  componentType : String
  properties : Bag
  tuning : Option Tuning
  editorMeta : Option Bag
  deriving DecidableEq, BEq

namespace Component

def ofType (componentType : String) : Component := ⟨componentType, .nil, none, none⟩

def layout (c : Component) : Layout :=
  .record ([("type", .str c.componentType), ("properties", .bag c.properties)] ++
    Layout.whenPresent "tuning" Tuning.layout c.tuning ++
    Layout.whenPresent "editorMeta" .bag c.editorMeta)

def shape : Shape Component :=
  Component.mk <$> .required "type" .string <*> .defaulted "properties" .bag .nil <*>
    .optional "tuning" Tuning.reader <*> .optional "editorMeta" .bag

def reader : Reader Component := shape.record Shape.ignored

def withProperty (c : Component) (key : String) (value : Json) : Component :=
  { c with properties := Dict.insert c.properties key value }

def withTuning (c : Component) (engine key : String) (value : Json) : Component :=
  { c with tuning := some (Tuning.set c.tuning engine key value) }

/-- The type of component that owns keyframe tracks. -/
def animationType : String := "Animation"

def isAnimation (c : Component) : Bool := c.componentType == animationType

end Component

/-- How a keyframe leads to the next one. -/
inductive Interpolation
  | linear
  | step
  | cubicSpline
  deriving DecidableEq

namespace Interpolation

def all : List (String × Interpolation) :=
  [("linear", linear), ("step", step), ("cubicSpline", cubicSpline)]

def name : Interpolation → String
  | linear => "linear"
  | step => "step"
  | cubicSpline => "cubicSpline"

def reader : Reader Interpolation := .choice all

end Interpolation

structure Keyframe where
  time : Binary64
  value : Json
  interpolation : Interpolation
  deriving DecidableEq, BEq

namespace Keyframe

def layout (k : Keyframe) : Layout :=
  .record [("time", .real k.time), ("value", .value k.value),
    ("interpolation", .str k.interpolation.name)]

/-- The form in which a track stores the keyframe. -/
def toJson (k : Keyframe) : Json := k.layout.toJson

def shape : Shape Keyframe :=
  Keyframe.mk <$> .required "time" .real <*> .required "value" .json <*>
    .defaulted "interpolation" Interpolation.reader .linear

def reader : Reader Keyframe := shape.record Shape.ignored

/-- The time of a stored keyframe, if it has a number there. -/
def timeOf? (stored : Json) : Option Binary64 := (stored.member? "time").bind (·.asReal?)

end Keyframe
end SceneGraph

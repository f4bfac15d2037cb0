import SceneGraph.Transforms

/-!
# Scene-wide environment

The skybox, the fog, the ambient light and gravity make up an `Environment`. Each part can be read
in two ways, which `Completeness` tells apart: leniently, where missing fields have defaults, or
strictly, where every field has to be stated.
-/
namespace SceneGraph

inductive SkyboxType
  | color
  | gradient
  | image
  | hdri
  deriving DecidableEq

namespace SkyboxType

def name : SkyboxType → String
  | color => "color"
  | gradient => "gradient"
  | image => "image"
  | hdri => "hdri"

def reader : Reader SkyboxType :=
  .choice ([color, gradient, image, hdri].map fun t => (t.name, t))

end SkyboxType

inductive FogType
  | linear
  | exponential
  | exponential2
  deriving DecidableEq

namespace FogType

def name : FogType → String
  | linear => "linear"
  | exponential => "exponential"
  | exponential2 => "exponential2"

def reader : Reader FogType :=
  .choice ([linear, exponential, exponential2].map fun t => (t.name, t))

end FogType

structure Skybox where
  skyboxType : SkyboxType
  color : Option String
  uri : Option String
  deriving DecidableEq, BEq

structure Fog where
  enabled : Bool
  fogType : FogType
  color : String
  near : Binary64
  far : Binary64
  density : Binary64
  deriving DecidableEq, BEq

structure AmbientLight where
  color : String
  intensity : Binary64
  deriving DecidableEq, BEq

structure Environment where
  skybox : Skybox
  fog : Fog
  ambientLight : AmbientLight
  gravity : Vec3
  deriving DecidableEq, BEq

/-- Fields of the environment are read in one of two ways: in documents a field that is left out
takes its default, in compiled scenes every field must be there. -/
inductive Completeness
  | lenient
  | strict
  deriving DecidableEq

namespace Completeness
variable {α : Type}

def field (c : Completeness) (name : String) (read : Reader α) (default : α) : Shape α :=
  match c with
  | .lenient => .defaulted name read default
  | .strict => .required name read

end Completeness

namespace Skybox

def default : Skybox := ⟨.color, some "#87ceeb", none⟩

def layout (s : Skybox) : Layout :=
  .record [("type", .str s.skyboxType.name), ("color", .nullable .str s.color),
    ("uri", .nullable .str s.uri)]

def shape (c : Completeness) : Shape Skybox :=
  Skybox.mk <$> c.field "type" SkyboxType.reader default.skyboxType <*>
    c.field "color" (.nullable .string) default.color <*>
    c.field "uri" (.nullable .string) default.uri

def reader (c : Completeness) : Reader Skybox := (shape c).record Shape.refused

end Skybox

namespace Fog

def default : Fog := ⟨false, .linear, "#cccccc", 10, 100, 0.01⟩

def layout (f : Fog) : Layout :=
  .record [("enabled", .bool f.enabled), ("type", .str f.fogType.name), ("color", .str f.color),
    ("near", .real f.near), ("far", .real f.far), ("density", .real f.density)]

def shape (c : Completeness) : Shape Fog :=
  Fog.mk <$> c.field "enabled" .bool default.enabled <*>
    c.field "type" FogType.reader default.fogType <*> c.field "color" .string default.color <*>
    c.field "near" .real default.near <*> c.field "far" .real default.far <*>
    c.field "density" .real default.density

def reader (c : Completeness) : Reader Fog := (shape c).record Shape.refused

end Fog

namespace AmbientLight

def default : AmbientLight := ⟨"#ffffff", 0.5⟩

def layout (l : AmbientLight) : Layout :=
  .record [("color", .str l.color), ("intensity", .real l.intensity)]

def shape (c : Completeness) : Shape AmbientLight :=
  AmbientLight.mk <$> c.field "color" .string default.color <*>
    c.field "intensity" .real default.intensity

def reader (c : Completeness) : Reader AmbientLight := (shape c).record Shape.refused

end AmbientLight

namespace Environment

def default : Environment := ⟨.default, .default, .default, ⟨0, -9.81, 0⟩⟩

def layout (e : Environment) : Layout :=
  .record [("skybox", e.skybox.layout), ("fog", e.fog.layout),
    ("ambientLight", e.ambientLight.layout), ("gravity", e.gravity.layout)]

def shape (c : Completeness) : Shape Environment :=
  Environment.mk <$> c.field "skybox" (Skybox.reader c) default.skybox <*>
    c.field "fog" (Fog.reader c) default.fog <*>
    c.field "ambientLight" (AmbientLight.reader c) default.ambientLight <*>
    c.field "gravity" Vec3.reader default.gravity

def reader (c : Completeness) : Reader Environment := (shape c).record Shape.refused

def isFinite (e : Environment) : Bool :=
  e.fog.near.isFinite && e.fog.far.isFinite && e.fog.density.isFinite &&
    e.ambientLight.intensity.isFinite && e.gravity.isFinite

end Environment
end SceneGraph

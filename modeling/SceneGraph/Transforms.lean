import SceneGraph.Readers
import SceneGraph.JsonLayouts

/-!
# Vectors, rotations and transforms

A `Transform` is a position, a rotation and a scale, each with all its components. Numbers are kept
as given, and `isFinite` says whether all of them have a JSON form.
-/
namespace SceneGraph

structure Vec3 where
  x : Binary64
  y : Binary64
  z : Binary64
  deriving DecidableEq, BEq

namespace Vec3

def zero : Vec3 := ⟨0, 0, 0⟩
def one : Vec3 := ⟨1, 1, 1⟩

def layout (v : Vec3) : Layout :=
  .record [("x", .real v.x), ("y", .real v.y), ("z", .real v.z)]

def shape : Shape Vec3 :=
  Vec3.mk <$> .required "x" .real <*> .required "y" .real <*> .required "z" .real

def reader : Reader Vec3 := shape.record Shape.refused

def isFinite (v : Vec3) : Bool := v.x.isFinite && v.y.isFinite && v.z.isFinite

end Vec3

/-- A rotation quaternion, stored as given and never normalised. -/
structure Quat where
  x : Binary64
  y : Binary64
  z : Binary64
  w : Binary64
  deriving DecidableEq, BEq

namespace Quat

def identity : Quat := ⟨0, 0, 0, 1⟩

/-- Squared length, summed from left to right. -/
def lengthSquared (q : Quat) : Binary64 := q.x * q.x + q.y * q.y + q.z * q.z + q.w * q.w

def layout (q : Quat) : Layout :=
  .record [("x", .real q.x), ("y", .real q.y), ("z", .real q.z), ("w", .real q.w)]

def shape : Shape Quat :=
  Quat.mk <$> .required "x" .real <*> .required "y" .real <*> .required "z" .real <*>
    .required "w" .real

def reader : Reader Quat := shape.record Shape.refused

def isFinite (q : Quat) : Bool := q.x.isFinite && q.y.isFinite && q.z.isFinite && q.w.isFinite

end Quat

structure Transform where
  position : Vec3
  rotation : Quat
  scale : Vec3
  deriving DecidableEq, BEq

namespace Transform

/-- At the origin, not rotated, in unit scale. -/
def identity : Transform := ⟨.zero, .identity, .one⟩

def layout (t : Transform) : Layout :=
  .record [("position", t.position.layout), ("rotation", t.rotation.layout),
    ("scale", t.scale.layout)]

def shape : Shape Transform :=
  Transform.mk <$> .required "position" Vec3.reader <*> .required "rotation" Quat.reader <*>
    .required "scale" Vec3.reader

def reader : Reader Transform := shape.record Shape.refused

def isFinite (t : Transform) : Bool :=
  t.position.isFinite && t.rotation.isFinite && t.scale.isFinite

end Transform
end SceneGraph

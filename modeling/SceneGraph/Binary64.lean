/-!
# Binary floating-point numbers of 64 bits, held as their bits

Numbers are read from decimal digits by rounding to the nearest, a half going to the even neighbour,
and are written with the fewest digits that read back. All of this is integer arithmetic on
significands and exponents. Data and messages show numbers in two different ways, `dataText` and
`messageText`.
-/
namespace SceneGraph

/-- A binary64 number is its 64 bits: `=` tells 0 from -0, while `==` compares values, so it
identifies the two zeros and tells NaN from itself. -/
structure Binary64 where
  bits : UInt64
  deriving DecidableEq, Inhabited

namespace Binary64

/-- The bits of infinity; all magnitudes below are finite, all above are NaN. -/
def infinityBits : Nat := 0x7FF0000000000000

def signBit : Nat := 0x8000000000000000

/-- The bit before the fraction, which all but the smallest numbers have without writing it. -/
def hiddenBit : Nat := 0x10000000000000

def isNegative (x : Binary64) : Bool := signBit ≤ x.bits.toNat
def magnitude (x : Binary64) : Nat := x.bits.toNat % signBit
def isFinite (x : Binary64) : Bool := x.magnitude < infinityBits
def isNaN (x : Binary64) : Bool := infinityBits < x.magnitude
def isZero (x : Binary64) : Bool := x.magnitude = 0

def ofMagnitude (negative : Bool) (magnitude : Nat) : Binary64 :=
  ⟨UInt64.ofNat (magnitude + if negative then signBit else 0)⟩

/-- Magnitudes grow with the bits, so this integer orders all numbers that are not NaN. -/
def order (x : Binary64) : Int := if x.isNegative then -x.magnitude else x.magnitude

def lt (x y : Binary64) : Bool := !x.isNaN && !y.isNaN && x.order < y.order

instance : BEq Binary64 := ⟨fun x y => !x.isNaN && !y.isNaN && x.order == y.order⟩

/-- A finite nonzero number is its significand times a power of two. -/
def significand (x : Binary64) : Nat :=
  if x.magnitude < hiddenBit then x.magnitude else x.magnitude % hiddenBit + hiddenBit

def exponent (x : Binary64) : Int :=
  if x.magnitude < hiddenBit then -1074 else (x.magnitude / hiddenBit : Nat) - 1075

def toFloat (x : Binary64) : Float := Float.ofBits x.bits
def ofFloat (x : Float) : Binary64 := ⟨x.toBits⟩

instance : Add Binary64 := ⟨fun x y => ofFloat (x.toFloat + y.toFloat)⟩
instance : Mul Binary64 := ⟨fun x y => ofFloat (x.toFloat * y.toFloat)⟩
instance : Neg Binary64 := ⟨fun x => ofMagnitude (!x.isNegative) x.magnitude⟩

/-- The power of two that leaves 53 bits of `num / den`, or the least one there is. -/
def scale (num den : Nat) : Int :=
  let guess : Int := (Nat.log2 num : Int) - Nat.log2 den - 52
  let reaches (k : Int) : Bool := den <<< (52 + k).toNat ≤ num <<< (-(52 + k)).toNat
  max (if reaches guess then guess else guess - 1) (-1074)

/-- `num / den` rounded to the nearest integer, a half going to the even neighbour. -/
def roundDiv (num den : Nat) : Nat :=
  let q := num / den
  let r := num % den
  if 2 * r < den then q else if den < 2 * r then q + 1 else q + q % 2

/-- The nearest number to `num / den`; `none` when that is beyond the largest finite one. -/
def ofRatio? (negative : Bool) (num den : Nat) : Option Binary64 :=
  if num = 0 then some (ofMagnitude negative 0)
  else
    let k := scale num den
    let q := roundDiv (num <<< (-k).toNat) (den <<< k.toNat)
    let magnitude := if q < hiddenBit then q else (k + 1074).toNat * hiddenBit + q
    if magnitude < infinityBits then some (ofMagnitude negative magnitude) else none

/-- A power of ten, where negative powers count as none. -/
def tenTo (power : Int) : Nat := Nat.pow 10 power.toNat

/-- The nearest number to `digits` times a power of ten. Powers so far out that they settle the
answer are not computed. -/
def ofDecimal? (negative : Bool) (digits : Nat) (power : Int) : Option Binary64 :=
  let places := (Nat.log2 digits / 3 : Nat) + 1
  if digits = 0 || power + places < -330 then some (ofMagnitude negative 0)
  else if 310 < power then none
  else ofRatio? negative (digits * tenTo power) (tenTo (-power))

def infinity (negative : Bool) : Binary64 := ofMagnitude negative infinityBits

def ofDecimal (negative : Bool) (digits : Nat) (power : Int) : Binary64 :=
  (ofDecimal? negative digits power).getD (infinity negative)

def ofInt (n : Int) : Binary64 := ofDecimal (n < 0) n.natAbs 0

instance (n : Nat) : OfNat Binary64 n := ⟨ofDecimal false n 0⟩
instance : OfScientific Binary64 := ⟨fun digits negated power =>
  ofDecimal false digits (if negated then -power else power)⟩

/-- The least power of ten above a positive `num / den`. -/
def decimalPlace (num den : Nat) : Int :=
  let guess : Int := (((Nat.log2 num : Int) - Nat.log2 den) * 30103).fdiv 100000 - 1
  let below (k : Int) : Bool := num * tenTo (-k) < den * tenTo k
  ([guess, guess + 1, guess + 2].find? below).getD (guess + 3)

/-- A positive decimal number: digits times a power of ten. -/
structure Decimal where
  digits : Nat
  power : Int
  deriving DecidableEq

/-- The reals that round to a finite nonzero number, as bounds over a common unit
`2 ^ (exponent - 2)`: the lower bound, four times the significand, and the upper bound. -/
def window (x : Binary64) : Nat × Nat × Nat :=
  let m := x.significand
  let below := if m = hiddenBit && x.magnitude ≥ 2 * hiddenBit then 1 else 2
  (4 * m - below, 4 * m, 4 * m + 2)

/-- The decimal of `count` digits nearest to a finite nonzero number, if it reads back. -/
def decimalOf? (x : Binary64) (count : Nat) : Option Decimal :=
  let (low, mid, high) := x.window
  let unit := x.exponent - 2
  let num := mid <<< unit.toNat
  let den := 1 <<< (-unit).toNat
  let power := decimalPlace num den - count
  let up := tenTo (-power)
  let down := tenTo power
  let digits := (num * up) / (den * down)
  let fits (d : Nat) : Bool :=
    let scaled := d * down * den
    let lower := (low <<< unit.toNat) * up
    let upper := (high <<< unit.toNat) * up
    if x.significand % 2 = 0 then lower ≤ scaled && scaled ≤ upper else lower < scaled && scaled < upper
  let nearest := roundDiv (num * up) (den * down)
  if fits nearest then some ⟨nearest, power⟩
  else if fits digits then some ⟨digits, power⟩
  else if fits (digits + 1) then some ⟨digits + 1, power⟩
  else none

/-- The decimal with the fewest digits that reads back, the nearest of those. -/
def shortest (x : Binary64) : Decimal :=
  ((List.range 17).findSome? fun n => x.decimalOf? (n + 1)).getD ⟨0, 0⟩

end Binary64

/-- Drops trailing zeros of the digits into the power. -/
def Binary64.Decimal.digitText (d : Binary64.Decimal) : String :=
  let text := (Nat.repr d.digits).toList.reverse.dropWhile (· == '0') |>.reverse
  String.ofList text

namespace Binary64

/-- The digits, and how many of them stand before the point. -/
def digitsAndPoint (x : Binary64) : String × Int :=
  let d := x.shortest
  (d.digitText, (Nat.repr d.digits).length + d.power)

def zeros (n : Int) : String := String.ofList (List.replicate n.toNat '0')

/-- The plain form with `whole` after a number without a fractional part. -/
def plain (digits : String) (point : Int) (whole : String) : String :=
  if point ≤ 0 then "0." ++ zeros (-point) ++ digits
  else if digits.length ≤ point then digits ++ zeros (point - digits.length) ++ whole
  else String.ofList (digits.toList.take point.toNat) ++ "." ++ String.ofList (digits.toList.drop point.toNat)

def signed (x : Binary64) (text : String) : String := if x.isNegative then "-" ++ text else text

/-- Data form of a finite number: plain with a fractional part when 10^-5 ≤ |x| < 10^16, else one
digit before the point and a signed exponent. -/
def dataText (x : Binary64) : String :=
  if x.isZero then x.signed "0.0"
  else
    let (digits, point) := x.digitsAndPoint
    if -5 < point && point ≤ 16 then x.signed (plain digits point ".0")
    else
      let head := String.ofList (digits.toList.take 1)
      let tail := String.ofList (digits.toList.drop 1)
      let exponent := point - 1
      x.signed (head ++ (if tail.isEmpty then "" else "." ++ tail) ++ "e" ++
        (if exponent < 0 then "-" else "+") ++ Nat.repr exponent.natAbs)

/-- Message form of a number: never an exponent, no fractional part when it is whole. -/
def messageText (x : Binary64) : String :=
  if x.isNaN then "NaN"
  else if !x.isFinite then x.signed "inf"
  else if x.isZero then x.signed "0"
  else
    let (digits, point) := x.digitsAndPoint
    x.signed (plain digits point "")

end Binary64
end SceneGraph

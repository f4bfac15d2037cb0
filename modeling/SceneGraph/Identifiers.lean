/-!
# Digests, and the identifiers that are made of them

`Sha256` is the digest of a text or of bytes: the message is padded, cut into blocks of 64 bytes and
compressed block by block. The 32 first digits of the digest of a text are the identifier that
belongs to it, and `Identifier.isGenerated` tells texts of that shape from names that people give.
-/
namespace SceneGraph.Sha256

/-- A digest: eight words of 32 bits. -/
structure Digest where
  words : List UInt32
  deriving DecidableEq

def roundConstants : List UInt32 := [
  0x428a2f98, 0x71374491, 0xb5c0fbcf, 0xe9b5dba5, 0x3956c25b, 0x59f111f1, 0x923f82a4, 0xab1c5ed5,
  0xd807aa98, 0x12835b01, 0x243185be, 0x550c7dc3, 0x72be5d74, 0x80deb1fe, 0x9bdc06a7, 0xc19bf174,
  0xe49b69c1, 0xefbe4786, 0x0fc19dc6, 0x240ca1cc, 0x2de92c6f, 0x4a7484aa, 0x5cb0a9dc, 0x76f988da,
  0x983e5152, 0xa831c66d, 0xb00327c8, 0xbf597fc7, 0xc6e00bf3, 0xd5a79147, 0x06ca6351, 0x14292967,
  0x27b70a85, 0x2e1b2138, 0x4d2c6dfc, 0x53380d13, 0x650a7354, 0x766a0abb, 0x81c2c92e, 0x92722c85,
  0xa2bfe8a1, 0xa81a664b, 0xc24b8b70, 0xc76c51a3, 0xd192e819, 0xd6990624, 0xf40e3585, 0x106aa070,
  0x19a4c116, 0x1e376c08, 0x2748774c, 0x34b0bcb5, 0x391c0cb3, 0x4ed8aa4a, 0x5b9cca4f, 0x682e6ff3,
  0x748f82ee, 0x78a5636f, 0x84c87814, 0x8cc70208, 0x90befffa, 0xa4506ceb, 0xbef9a3f7, 0xc67178f2]

/-- The eight working words. -/
structure State where
  a : UInt32
  b : UInt32
  c : UInt32
  d : UInt32
  e : UInt32
  f : UInt32
  g : UInt32
  h : UInt32

def start : State := ⟨0x6a09e667, 0xbb67ae85, 0x3c6ef372, 0xa54ff53a, 0x510e527f, 0x9b05688c,
  0x1f83d9ab, 0x5be0cd19⟩

def rotate (x : UInt32) (n : UInt32) : UInt32 := (x >>> n) ||| (x <<< (32 - n))

def round (s : State) (constant word : UInt32) : State :=
  let sum1 := rotate s.e 6 ^^^ rotate s.e 11 ^^^ rotate s.e 25
  let choice := (s.e &&& s.f) ^^^ ((~~~ s.e) &&& s.g)
  let first := s.h + sum1 + choice + constant + word
  let sum0 := rotate s.a 2 ^^^ rotate s.a 13 ^^^ rotate s.a 22
  let majority := (s.a &&& s.b) ^^^ (s.a &&& s.c) ^^^ (s.b &&& s.c)
  ⟨first + (sum0 + majority), s.a, s.b, s.c, s.d + first, s.e, s.f, s.g⟩

/-- Appends the next word of the schedule. -/
def extend (schedule : Array UInt32) : Array UInt32 :=
  let n := schedule.size
  let back (k : Nat) : UInt32 := schedule.getD (n - k) 0
  let s0 := rotate (back 15) 7 ^^^ rotate (back 15) 18 ^^^ (back 15 >>> 3)
  let s1 := rotate (back 2) 17 ^^^ rotate (back 2) 19 ^^^ (back 2 >>> 10)
  schedule.push (back 16 + s0 + back 7 + s1)

def schedule (block : Array UInt32) : Array UInt32 :=
  (List.range 48).foldl (fun words _ => extend words) block

def compress (s : State) (block : Array UInt32) : State :=
  let t := (List.zip roundConstants (schedule block).toList).foldl
    (fun t (constant, word) => round t constant word) s
  ⟨s.a + t.a, s.b + t.b, s.c + t.c, s.d + t.d, s.e + t.e, s.f + t.f, s.g + t.g, s.h + t.h⟩

/-- The message with a one bit, zeros, and its length in bits in eight bytes. -/
def pad (bytes : ByteArray) : ByteArray :=
  let zeros := (119 - bytes.size % 64) % 64
  let length := 8 * bytes.size
  let padded := (List.range zeros).foldl (fun b _ => b.push 0) (bytes.push 0x80)
  (List.range 8).foldl (fun b i => b.push (UInt8.ofNat (length >>> (8 * (7 - i))))) padded

def word (bytes : ByteArray) (at' : Nat) : UInt32 :=
  (List.range 4).foldl (fun w i => (w <<< 8) ||| ((bytes[at' + i]?.getD 0).toUInt32)) 0

def block (bytes : ByteArray) (index : Nat) : Array UInt32 :=
  ((List.range 16).map fun i => word bytes (64 * index + 4 * i)).toArray

def ofBytes (bytes : ByteArray) : Digest :=
  let padded := pad bytes
  let s := (List.range (padded.size / 64)).foldl (fun s i => compress s (block padded i)) start
  ⟨[s.a, s.b, s.c, s.d, s.e, s.f, s.g, s.h]⟩

/-- The digest of a text's UTF-8 bytes. -/
def ofText (text : String) : Digest := ofBytes text.toUTF8

namespace Digest

def bytes (d : Digest) : List Nat :=
  d.words.flatMap fun w => [24, 16, 8, 0].map fun shift => (w.toNat >>> shift) % 256

def hexByte (n : Nat) : String :=
  let digit (k : Nat) : Char := "0123456789abcdef".toList.getD k '0'
  String.ofList [digit (n / 16), digit (n % 16)]

def hex (d : Digest) : String := String.join (d.bytes.map hexByte)

end Digest
end SceneGraph.Sha256

namespace SceneGraph.Identifier

def length : Nat := 32

def isHexDigit (c : Char) : Bool :=
  c.isDigit || ('a' ≤ c && c ≤ 'f') || ('A' ≤ c && c ≤ 'F')

/-- Whether a text has the shape of a generated identifier. -/
def isGenerated (id : String) : Bool := id.utf8ByteSize = length && id.toList.all isHexDigit

/-- The identifier that belongs to a text. -/
def ofText (text : String) : String := String.ofList ((Sha256.ofText text).hex.toList.take length)

end SceneGraph.Identifier

import SceneGraph.JsonSources

/-!
# From text to sources: a token machine under a stack machine

The text is cut into tokens by one machine, a character at a time, and the tokens are put together
by another that holds the containers still open. Each is a fold over its input. A fault of the text
is left in the source at the place where it was met.
-/
namespace SceneGraph

inductive Token
  | mark (c : Char)
  | scalar (value : Source)
  | fault

namespace Token

/-- How far a number has been read. -/
inductive Digits
  | minus
  | zero
  | whole
  | point
  | fraction
  | exponentMark
  | exponentSign
  | exponent
  deriving DecidableEq

namespace Digits

/-- The part that a character continues a number into, if it does. -/
def next? (part : Digits) (c : Char) : Option Digits :=
  let afterWhole :=
    if c = '.' then some point else if c = 'e' || c = 'E' then some exponentMark else none
  match part with
  | minus => if c = '0' then some zero else if c.isDigit then some whole else none
  | zero => afterWhole
  | whole => if c.isDigit then some whole else afterWhole
  | point => if c.isDigit then some fraction else none
  | fraction =>
    if c.isDigit then some fraction else if c = 'e' || c = 'E' then some exponentMark else none
  | exponentMark =>
    if c.isDigit then some exponent else if c = '+' || c = '-' then some exponentSign else none
  | exponentSign | exponent => if c.isDigit then some exponent else none

/-- A number may end here. -/
def complete : Digits → Bool
  | zero | whole | fraction | exponent => true
  | _ => false

end Digits

def digitsValue (digits : List Char) : Nat :=
  digits.foldl (fun n c => 10 * n + (c.toNat - '0'.toNat)) 0

/-- Reads a well-formed numeral: an integer when it has neither point nor exponent and fits in 64
bits, else the nearest binary64 number. Minus zero is a float. -/
def numeral (text : List Char) : Source :=
  let negative := text.head? = some '-'
  let unsigned := if negative then text.drop 1 else text
  let whole := unsigned.takeWhile Char.isDigit
  let afterWhole := unsigned.drop whole.length
  let fraction :=
    if afterWhole.head? = some '.' then (afterWhole.drop 1).takeWhile Char.isDigit else []
  let mark := afterWhole.dropWhile fun c => c = '.' || c.isDigit
  let exponent := mark.drop 1
  let exponentDigits := exponent.dropWhile fun c => c = '+' || c = '-'
  let power : Int :=
    (if exponent.head? = some '-' then -1 else 1) * (digitsValue exponentDigits : Int)
  let value := digitsValue whole
  if afterWhole.isEmpty && !negative && value < UInt64.size then .num (.int value)
  else if afterWhole.isEmpty && negative && value ≠ 0 && value ≤ UInt64.size / 2 then
    .num (.int (-value))
  else
    match Binary64.ofDecimal? negative (digitsValue (whole ++ fraction)) (power - fraction.length) with
    | some x => if h : x.isFinite = true then .num (.float x h) else .unreadable
    | none => .unreadable

def isHighSurrogate (unit : Nat) : Bool := 0xD800 ≤ unit && unit < 0xDC00
def isLowSurrogate (unit : Nat) : Bool := 0xDC00 ≤ unit && unit < 0xE000

/-- Characters from code units: a high surrogate joins with the low one after it, and no surrogate
may stand alone. -/
def joinSurrogates? : List Nat → Option (List Char)
  | [] => some []
  | high :: rest =>
    if isHighSurrogate high then
      match rest with
      | low :: rest =>
        if isLowSurrogate low then
          (joinSurrogates? rest).map
            (Char.ofNat (0x10000 + (high - 0xD800) * 0x400 + (low - 0xDC00)) :: ·)
        else none
      | [] => none
    else if isLowSurrogate high then none
    else (joinSurrogates? rest).map (Char.ofNat high :: ·)

def quotedText (units : List Nat) : Source :=
  match joinSurrogates? units with
  | some chars => .str (String.ofList chars)
  | none => .unreadable

def hexValue? (c : Char) : Option Nat :=
  if c.isDigit then some (c.toNat - '0'.toNat)
  else if 'a' ≤ c && c ≤ 'f' then some (c.toNat - 'a'.toNat + 10)
  else if 'A' ≤ c && c ≤ 'F' then some (c.toNat - 'A'.toNat + 10)
  else none

def escapeValue? : Char → Option Nat
  | '"' => some 34
  | '\\' => some 92
  | '/' => some 47
  | 'b' => some 8
  | 'f' => some 12
  | 'n' => some 10
  | 'r' => some 13
  | 't' => some 9
  | _ => none

/-- What the machine is in the middle of. Characters read so far are held last first. -/
inductive Mode
  | blank
  | word (rest : List Char) (value : Source)
  | number (part : Digits) (read : List Char)
  | text (read : List Nat)
  | escape (read : List Nat)
  | unit (read : List Nat) (digits value : Nat)
  | failed

def begin (c : Char) : List Token × Mode :=
  match c with
  | ' ' | '\n' | '\r' | '\t' => ([], .blank)
  | '[' | ']' | ',' | ':' => ([.mark c], .blank)
  | '"' => ([], .text [])
  | 'n' => ([], .word "ull".toList .null)
  | 't' => ([], .word "rue".toList (.bool true))
  | 'f' => ([], .word "alse".toList (.bool false))
  | '-' => ([], .number .minus [c])
  | '0' => ([], .number .zero [c])
  | c =>
    if c = '\x7b' || c = '\x7d' then ([.mark c], .blank)
    else if c.isDigit then ([], .number .whole [c])
    else ([.fault], .failed)

def step (mode : Mode) (c : Char) : List Token × Mode :=
  match mode with
  | .blank => begin c
  | .word [] _ => ([.fault], .failed)
  | .word (next :: rest) value =>
    if c ≠ next then ([.fault], .failed)
    else if rest.isEmpty then ([.scalar value], .blank)
    else ([], .word rest value)
  | .number part read =>
    match part.next? c with
    | some part => ([], .number part (c :: read))
    | none =>
      if !part.complete || (part = .zero && c.isDigit) then ([.fault], .failed)
      else
        let (tokens, mode) := begin c
        (.scalar (numeral read.reverse) :: tokens, mode)
  | .text read =>
    if c = '"' then ([.scalar (quotedText read.reverse)], .blank)
    else if c = '\\' then ([], .escape read)
    else if c.toNat < 32 then ([.fault], .failed)
    else ([], .text (c.toNat :: read))
  | .escape read =>
    if c = 'u' then ([], .unit read 0 0)
    else match escapeValue? c with
      | some value => ([], .text (value :: read))
      | none => ([.fault], .failed)
  | .unit read digits value =>
    match hexValue? c with
    | none => ([.fault], .failed)
    | some digit =>
      if digits = 3 then ([], .text ((16 * value + digit) :: read))
      else ([], .unit read (digits + 1) (16 * value + digit))
  | .failed => ([], .failed)

def finish : Mode → List Token
  | .blank | .failed => []
  | .number part read => if part.complete then [.scalar (numeral read.reverse)] else [.fault]
  | .word _ _ | .text _ | .escape _ | .unit _ _ _ => [.fault]

/-- The tokens of a text up to its first fault. -/
def ofText (text : String) : Array Token :=
  let (tokens, mode) := text.toList.foldl (fun (tokens, mode) c =>
    let (more, mode) := step mode c
    (tokens ++ more, mode)) ((#[] : Array Token), Mode.blank)
  tokens ++ finish mode

end Token

namespace Source

/-- Containers may be nested this deep. -/
def depthLimit : Nat := 127

/-- A container that is still open. Items are held last first; `key` waits for its value. -/
inductive Frame
  | arr (items : List Source)
  | obj (members : List (String × Source)) (key : Option String)

namespace Frame

def add (value : Source) : Frame → Frame
  | .arr items => .arr (value :: items)
  | .obj members (some key) => .obj ((key, value) :: members) none
  | .obj members none => .obj members none

/-- The container that ends here, at the given depth. -/
def leave (depth : Nat) (closed : Bool) (frame : Frame) : Source :=
  if depthLimit < depth then .tooDeep
  else match frame with
    | .arr items => .arr items.reverse closed
    | .obj members none => .obj members.reverse closed
    | .obj members (some key) => .obj ((key, .broken) :: members).reverse closed

end Frame

inductive Expected
  | value
  | itemOrEnd
  | keyOrEnd
  | key
  | colon
  | commaOrEnd
  | nothing
  deriving DecidableEq

/-- What has been read: the open containers, innermost first, or the finished value. -/
structure Reading where
  frames : List Frame
  expected : Expected
  value : Option Source
  excess : Bool

namespace Reading

def start : Reading := ⟨[], .value, none, false⟩

/-- A value is complete: it goes into the innermost open container. -/
def put (r : Reading) (value : Source) : Reading :=
  match r.frames with
  | [] => { r with expected := .nothing, value := some value }
  | frame :: frames => { r with frames := frame.add value :: frames, expected := .commaOrEnd }

def close (r : Reading) : Reading :=
  match r.frames with
  | [] => r
  | frame :: frames => { r with frames }.put (frame.leave (frames.length + 1) true)

/-- Leaves every open container where it stands. -/
def breakOff : List Frame → Option Source → Source
  | [], value => value.getD .broken
  | frame :: frames, value =>
    let frame := match value with
      | none => frame
      | some value => frame.add value
    breakOff frames (some (frame.leave (frames.length + 1) false))

def fail (r : Reading) : Reading :=
  ⟨[], .nothing, some (breakOff r.frames none), false⟩

def step (r : Reading) (token : Token) : Reading :=
  match r.expected, token with
  | .nothing, _ => { r with excess := true }
  | .value, .scalar value => r.put value
  | .itemOrEnd, .scalar value => r.put value
  | .itemOrEnd, .mark ']' => r.close
  | .commaOrEnd, .mark c =>
    match r.frames, c with
    | .arr _ :: _, ',' => { r with expected := .value }
    | .obj _ _ :: _, ',' => { r with expected := .key }
    | .arr _ :: _, ']' => r.close
    | .obj _ _ :: _, '\x7d' => r.close
    | _, _ => r.fail
  | .colon, .mark ':' => { r with expected := .value }
  | .keyOrEnd, .mark '\x7d' => r.close
  | .keyOrEnd, .scalar (.str key) | .key, .scalar (.str key) =>
    match r.frames with
    | .obj members _ :: frames =>
      { r with frames := .obj members (some key) :: frames, expected := .colon }
    | _ => r.fail
  | .value, .mark c | .itemOrEnd, .mark c =>
    if c = '[' then { r with frames := .arr [] :: r.frames, expected := .itemOrEnd }
    else if c = '\x7b' then { r with frames := .obj [] none :: r.frames, expected := .keyOrEnd }
    else r.fail
  | _, _ => r.fail

end Reading

/-- A text read as data, and whether anything but blanks follows the data. -/
structure Text where
  source : Source
  excess : Bool

def ofText (text : String) : Text :=
  let r := (Token.ofText text).foldl Reading.step Reading.start
  match r.value with
  | some source => ⟨source, r.excess⟩
  | none => ⟨Reading.breakOff r.frames none, false⟩

end Source
end SceneGraph

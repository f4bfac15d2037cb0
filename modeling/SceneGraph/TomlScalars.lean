import SceneGraph.Binary64

/-!
# The scalars of TOML 1.1: strings, numbers, truth values and moments

Each kind of scalar has a reader that takes it from the front of a text. Strings, integers and truth
values are kept, while floats and moments are only checked. Blanks, comments and line ends are
passed over here, too.
-/
namespace SceneGraph

/-- The numbers after a point, and the parts of a moment, are checked and not kept. A number out of
range may stand in a document but cannot be read from it. -/
inductive TomlScalar
  | string (text : String)
  | integer (value : Int)
  | float
  | outOfRange
  | boolean (value : Bool)
  | moment
  deriving DecidableEq

namespace Toml

def isBlank (c : Char) : Bool := c = ' ' || c = '\t'

/-- Control characters other than the tab have no place in strings and comments. -/
def isControl (c : Char) : Bool := (c.toNat < 32 && c ≠ '\t') || c.toNat = 127

def skipBlanks (cs : List Char) : List Char := cs.dropWhile isBlank

/-- The text after a line end. -/
def newline? : List Char → Option (List Char)
  | '\n' :: rest => some rest
  | '\r' :: '\n' :: rest => some rest
  | _ => none

def startsNewline (cs : List Char) : Bool := (newline? cs).isSome

/-- Passes over a comment up to the end of its line. -/
def skipComment : List Char → Option (List Char)
  | [] => some []
  | c :: rest =>
    if startsNewline (c :: rest) then some (c :: rest)
    else if isControl c then none
    else skipComment rest

/-- Passes over the rest of a line, which may hold no more than a comment. -/
def endLine (cs : List Char) : Option (List Char) := do
  let rest ← match skipBlanks cs with
    | '#' :: rest => skipComment rest
    | rest => some rest
  if rest.isEmpty then return [] else newline? rest

/-- Passes over at most `count` lines of blanks and comments. -/
def skipLines : Nat → List Char → Option (List Char)
  | 0, cs => some cs
  | count + 1, cs => do
    let rest ← match skipBlanks cs with
      | '#' :: rest => skipComment rest
      | rest => some rest
    match newline? rest with
    | some rest => skipLines count rest
    | none => return rest

/-- Passes over blanks, comments and line ends. -/
def skipSpace (cs : List Char) : Option (List Char) := skipLines (cs.length + 1) cs

def hexValue? (c : Char) : Option Nat :=
  if c.isDigit then some (c.toNat - '0'.toNat)
  else if 'a' ≤ c && c ≤ 'f' then some (c.toNat - 'a'.toNat + 10)
  else if 'A' ≤ c && c ≤ 'F' then some (c.toNat - 'A'.toNat + 10)
  else none

def numeral (base : Nat) (cs : List Char) : Nat :=
  cs.foldl (fun n c => base * n + (hexValue? c).getD 0) 0

/-- The character with a code point given in hexadecimal digits. -/
def codePoint? (cs : List Char) : Option Char :=
  if cs.all (fun c => (hexValue? c).isSome) && (numeral 16 cs).isValidChar then
    some (Char.ofNat (numeral 16 cs))
  else none

def escape? : Char → Option Char
  | 'b' => some '\x08'
  | 't' => some '\t'
  | 'n' => some '\n'
  | 'f' => some '\x0c'
  | 'r' => some '\r'
  | 'e' => some '\x1b'
  | '"' => some '"'
  | '\\' => some '\\'
  | _ => none

/-- Puts a character before the text that was read after it. -/
def before (c : Char) (read : List Char × List Char) : List Char × List Char :=
  (c :: read.1, read.2)

/-- Reads a quoted string after its opening quote. -/
def quoted : List Char → Option (List Char × List Char)
  | '"' :: rest => some ([], rest)
  | '\\' :: 'x' :: a :: b :: rest => do return before (← codePoint? [a, b]) (← quoted rest)
  | '\\' :: 'u' :: a :: b :: c :: d :: rest => do
    return before (← codePoint? [a, b, c, d]) (← quoted rest)
  | '\\' :: 'U' :: a :: b :: c :: d :: e :: f :: g :: h :: rest => do
    return before (← codePoint? [a, b, c, d, e, f, g, h]) (← quoted rest)
  | '\\' :: c :: rest => do return before (← escape? c) (← quoted rest)
  | c :: rest => if isControl c then none else (quoted rest).map (before c)
  | [] => none

/-- Reads a string without escapes after its opening quote. -/
def literal : List Char → Option (List Char × List Char)
  | '\'' :: rest => some ([], rest)
  | c :: rest => if isControl c then none else (literal rest).map (before c)
  | [] => none

/-- Three quotes end a string of several lines; up to two more before them belong to it. -/
def closing? (quote : Char) (cs : List Char) : Option (List Char × List Char) :=
  let quotes := min 5 (cs.takeWhile (· = quote)).length
  if 3 ≤ quotes then some (List.replicate (quotes - 3) quote, cs.drop quotes) else none

/-- Reads a quoted string of several lines after its opening quotes. A backslash at the end of a
line swallows the space up to the next text, which is what `trimming` says. -/
def quotedLines (trimming : Bool) (cs : List Char) : Option (List Char × List Char) :=
  match closing? '"' cs with
  | some read => some read
  | none =>
    match cs with
    | '\\' :: 'x' :: a :: b :: rest => do
      return before (← codePoint? [a, b]) (← quotedLines false rest)
    | '\\' :: 'u' :: a :: b :: c :: d :: rest => do
      return before (← codePoint? [a, b, c, d]) (← quotedLines false rest)
    | '\\' :: 'U' :: a :: b :: c :: d :: e :: f :: g :: h :: rest => do
      return before (← codePoint? [a, b, c, d, e, f, g, h]) (← quotedLines false rest)
    | '\\' :: c :: rest =>
      if startsNewline (skipBlanks (c :: rest)) then quotedLines true rest
      else do return before (← escape? c) (← quotedLines false rest)
    | '\r' :: '\n' :: rest =>
      if trimming then quotedLines true rest
      else (quotedLines false rest).map (before '\r' ∘ before '\n')
    | c :: rest =>
      if trimming && (isBlank c || c = '\n') then quotedLines true rest
      else if isControl c && c ≠ '\n' then none
      else (quotedLines false rest).map (before c)
    | [] => none

/-- Reads a string of several lines without escapes after its opening quotes. -/
def literalLines (cs : List Char) : Option (List Char × List Char) :=
  match closing? '\'' cs with
  | some read => some read
  | none =>
    match cs with
    | '\r' :: '\n' :: rest => (literalLines rest).map (before '\r' ∘ before '\n')
    | c :: rest =>
      if isControl c && c ≠ '\n' then none else (literalLines rest).map (before c)
    | [] => none

/-- A line end right after the opening quotes does not count. -/
def dropNewline (cs : List Char) : List Char := (newline? cs).getD cs

def string (cs : List Char) : Option (String × List Char) :=
  let read := match cs with
    | '"' :: '"' :: '"' :: rest => quotedLines false (dropNewline rest)
    | '\'' :: '\'' :: '\'' :: rest => literalLines (dropNewline rest)
    | '"' :: rest => quoted rest
    | '\'' :: rest => literal rest
    | _ => none
  read.map fun (text, rest) => (String.ofList text, rest)

/-- Digits of a kind; single underscores may stand between them. -/
def digits? (isDigit : Char → Bool) : List Char → Option (List Char)
  | [] => none
  | [c] => if isDigit c then some [c] else none
  | c :: '_' :: rest => if isDigit c then (digits? isDigit rest).map (c :: ·) else none
  | c :: rest => if isDigit c then (digits? isDigit rest).map (c :: ·) else none

/-- Decimal digits, of which only a lone one may start with a zero. -/
def decimalDigits? (cs : List Char) : Option (List Char) :=
  match digits? Char.isDigit cs with
  | some ('0' :: _ :: _) => none
  | digits => digits

def sign (cs : List Char) : Bool × List Char :=
  match cs with
  | '-' :: rest => (true, rest)
  | '+' :: rest => (false, rest)
  | cs => (false, cs)

def signed (negative : Bool) (n : Nat) : Int := if negative then -n else n

def integer? (cs : List Char) : Option Int :=
  match cs with
  | '0' :: 'x' :: rest =>
    (digits? (fun c => (hexValue? c).isSome) rest).map fun ds => numeral 16 ds
  | '0' :: 'o' :: rest =>
    (digits? (fun c => '0' ≤ c && c ≤ '7') rest).map fun ds => numeral 8 ds
  | '0' :: 'b' :: rest =>
    (digits? (fun c => c = '0' || c = '1') rest).map fun ds => numeral 2 ds
  | cs => (decimalDigits? (sign cs).2).map fun ds => signed (sign cs).1 (numeral 10 ds)

/-- One more than the largest integer, which has 128 bits. -/
def integerBound : Nat := 0x100000000000000000000000000000000

/-- Integers have 128 bits, with a sign or without. -/
def ofInteger (n : Int) : TomlScalar :=
  if -(integerBound / 2 : Nat) ≤ n && n < integerBound then .integer n else .outOfRange

/-- The digits after a point, which may be missing together with it. -/
def fraction? : List Char → Option (List Char)
  | [] => some []
  | _ :: rest => digits? Char.isDigit rest

/-- The power of ten after a letter, which may be missing together with it. -/
def exponent? : List Char → Option Int
  | [] => some 0
  | _ :: rest =>
    (digits? Char.isDigit (sign rest).2).map fun ds => signed (sign rest).1 (numeral 10 ds)

/-- A number with a fraction, an exponent or both. -/
def decimal? (cs : List Char) : Option TomlScalar := do
  let (negative, cs) := sign cs
  let mantissa := cs.takeWhile fun c => c ≠ 'e' && c ≠ 'E'
  let whole := mantissa.takeWhile (· ≠ '.')
  if whole.length = cs.length then none
  let wholeDigits ← decimalDigits? whole
  let fraction ← fraction? (mantissa.drop whole.length)
  let exponent ← exponent? (cs.drop mantissa.length)
  match Binary64.ofDecimal? negative (numeral 10 (wholeDigits ++ fraction))
      (exponent - fraction.length) with
  | some _ => return .float
  | none => return .outOfRange

def float? (cs : List Char) : Option TomlScalar :=
  if (sign cs).2 = "inf".toList || (sign cs).2 = "nan".toList then some .float else decimal? cs

def twoDigits (cs : List Char) : Option (Nat × List Char) :=
  match cs with
  | a :: b :: rest => if a.isDigit && b.isDigit then some (numeral 10 [a, b], rest) else none
  | _ => none

def expect (c : Char) (cs : List Char) : Option (List Char) :=
  match cs with
  | d :: rest => if d = c then some rest else none
  | [] => none

def daysIn (year month : Nat) : Nat :=
  if month = 2 then
    if year % 4 = 0 && (year % 100 ≠ 0 || year % 400 = 0) then 29 else 28
  else if month = 4 || month = 6 || month = 9 || month = 11 then 30
  else 31

/-- Passes over a date. -/
def date (cs : List Char) : Option (List Char) := do
  let (century, cs) ← twoDigits cs
  let (year, cs) ← twoDigits cs
  let (month, cs) ← twoDigits (← expect '-' cs)
  let (day, cs) ← twoDigits (← expect '-' cs)
  if 1 ≤ month && month ≤ 12 && 1 ≤ day && day ≤ daysIn (100 * century + year) month then
    return cs
  else none

/-- Passes over a part of a second. -/
def secondPart (cs : List Char) : Option (List Char) :=
  match cs with
  | '.' :: c :: rest => if c.isDigit then some (rest.dropWhile Char.isDigit) else none
  | '.' :: [] => none
  | cs => some cs

/-- Passes over a time of day, whose seconds may be left out. -/
def time (cs : List Char) : Option (List Char) := do
  let (hour, cs) ← twoDigits cs
  let (minute, cs) ← twoDigits (← expect ':' cs)
  if 23 < hour || 59 < minute then none
  else match cs with
    | ':' :: cs => do
      let (second, cs) ← twoDigits cs
      if 60 < second then none else secondPart cs
    | cs => return cs

/-- Passes over the distance from universal time, which may be left out. -/
def offset (cs : List Char) : Option (List Char) :=
  match cs with
  | 'Z' :: rest | 'z' :: rest => some rest
  | '+' :: rest | '-' :: rest => do
    let (hour, rest) ← twoDigits rest
    let (minute, rest) ← twoDigits (← expect ':' rest)
    if hour ≤ 23 && minute ≤ 59 then return rest else none
  | cs => some cs

def isDate (cs : List Char) : Bool := date cs = some []

/-- Whether a text is a date, a time, or both with or without an offset. -/
def isMoment (cs : List Char) : Bool :=
  match date cs with
  | some [] => true
  | some (c :: rest) =>
    (c = 'T' || c = 't' || c = ' ') && (time rest).bind offset = some []
  | none => time cs = some []

/-- Letters, digits and marks that scalars other than strings are made of. -/
def isScalarChar (c : Char) : Bool :=
  c.isAlphanum || c = '_' || c = '-' || c = '+' || c = '.' || c = ':'

/-- Reads a scalar that is no string. A blank between a date and a time belongs to it. -/
def plainScalar (cs : List Char) : Option (TomlScalar × List Char) :=
  let first := cs.takeWhile isScalarChar
  let rest := cs.drop first.length
  let second := match rest with
    | ' ' :: c :: tail =>
      if c.isDigit && isDate first then ' ' :: (c :: tail).takeWhile isScalarChar else []
    | _ => []
  let token := first ++ second
  let rest := rest.drop second.length
  if token = "true".toList then some (.boolean true, rest)
  else if token = "false".toList then some (.boolean false, rest)
  else if isMoment token then some (.moment, rest)
  else match integer? token with
    | some n => some (ofInteger n, rest)
    | none => (float? token).map (·, rest)

def scalar (cs : List Char) : Option (TomlScalar × List Char) :=
  match cs with
  | '"' :: _ | '\'' :: _ => (string cs).map fun (text, rest) => (.string text, rest)
  | cs => plainScalar cs

end Toml
end SceneGraph

import Postal.Bounds
import Postal.Json.Error
import Postal.Json.Node

/-!
# The meaning of strings and numbers.

A string means its characters, with pairs of surrogates put together. A number means a whole number
if it is written as one and fits into a word; otherwise it means a float.
-/

namespace Postal.Json

/-! ## Strings. -/

/-- What a broken string is refused for; a proper one for nothing. -/
def StringEnd.error? : StringEnd → Option Error
  | .closed => none
  | .eof => some .eofString
  | .control => some .controlCharacter
  | .escapeEof => some .eofString
  | .badEscape => some .badEscape
  | .hexEof => some .eofString
  | .badHex => some .badEscape

/-- What a string is refused for that ends where the second half of a pair should come. -/
def StringEnd.errorInPair : StringEnd → Error
  | .eof => .eofString
  | .escapeEof => .eofString
  | .hexEof => .eofString
  | .badHex => .badEscape
  | _ => .endOfHexEscape

/-- Whether a unit is the first half of a pair. -/
def isHighSurrogate (n : Nat) : Bool := 0xd800 ≤ n && n ≤ 0xdbff

/-- Whether a unit is the second half of a pair. -/
def isLowSurrogate (n : Nat) : Bool := 0xdc00 ≤ n && n ≤ 0xdfff

/-- The character of a pair. -/
def pairChar (high low : Nat) : Char :=
  Char.ofNat (0x10000 + (high - 0xd800) * 0x400 + (low - 0xdc00))

/-- The characters of a string; `high` is the first half of a pair that is still open. -/
def readPieces (ending : StringEnd) : Option Nat → List Piece → Except Error (List Char)
  | none, [] =>
    match ending.error? with
    | some e => .error e
    | none => .ok []
  | some _, [] => .error ending.errorInPair
  | none, .plain c :: ps => (readPieces ending none ps).map (c :: ·)
  | none, .escaped c :: ps => (readPieces ending none ps).map (c :: ·)
  | none, .unit n :: ps =>
    if isLowSurrogate n then .error .loneSurrogate
    else if isHighSurrogate n then readPieces ending (some n) ps
    else (readPieces ending none ps).map (Char.ofNat n :: ·)
  | some high, .unit n :: ps =>
    if isLowSurrogate n then (readPieces ending none ps).map (pairChar high n :: ·)
    else .error .loneSurrogate
  | some _, _ :: _ => .error .endOfHexEscape

/-- The text of a string. -/
def Quoted.text (q : Quoted) : Except Error String :=
  (readPieces q.ending none q.pieces).map String.ofList

/-! ## Numbers. -/

/-- What a number means. -/
inductive Number where
  | natural (n : Nat)
  /-- The number below zero with this size. -/
  | negative (size : Nat)
  | float (x : Float)

/-- What a number is refused for that breaks off. -/
def NumberEnd.error? : NumberEnd → Option Error
  | .complete => none
  | .eof => some .eofValue
  | .junk => some .badNumber

/-- The value of decimal digits. -/
def decimalValue (ds : List Char) : Nat := Nat.ofDigitChars 10 ds 0

/-- Digits as long as their value fits into a word, and how many do not. -/
def significand (start : Nat) : List Char → Nat × Nat
  | [] => (start, 0)
  | d :: ds =>
    let next := start * 10 + (d.toNat - '0'.toNat)
    if next ≤ wordMax then significand next ds else (start, (d :: ds).length)

/-- A whole power of ten as a float, for exponents up to 308. -/
def powerOfTen (n : Nat) : Float := Float.ofScientific 1 false n

/-- A significand times a power of ten. The scale is applied in steps of at most 308 places, each
with its own rounding. -/
def scaleFloat (x : Float) (exponent : Int) : Except Error Float :=
  if 0 ≤ exponent then
    if x == 0.0 then .ok x
    else if 308 < exponent then .error .numberOutOfRange
    else
      let y := x * powerOfTen exponent.toNat
      if y.isInf then .error .numberOutOfRange else .ok y
  else down x (-exponent).toNat
where
  /-- Makes a number smaller by so many places. -/
  down (x : Float) (places : Nat) : Except Error Float :=
    if h : places ≤ 308 then .ok (x / powerOfTen places)
    else if x == 0.0 then .ok x
    else down (x / powerOfTen 308) (places - 308)
  termination_by places

/-- The greatest exponent that can be written. -/
def exponentMax : Nat := Nat.pow 2 31 - 1

/-- The float that a number means. -/
def Numeral.float (n : Numeral) : Except Error Float := do
  let (whole, beyond) := significand 0 n.digits
  let (value, lost) :=
    match n.fraction with
    | none => (whole, 0)
    | some ds => significand whole ds
  let places : Int := beyond - (((n.fraction.getD []).length - lost : Nat) : Int)
  let size ←
    match n.exponent with
    | none => scaleFloat (Float.ofNat value) places
    | some (negative, ds) =>
      let exponent := decimalValue ds
      if exponentMax < exponent then
        if value = 0 || negative then .ok 0.0 else .error .numberOutOfRange
      else
        scaleFloat (Float.ofNat value)
          (places + if negative then -(exponent : Int) else exponent)
  .ok (if n.negative then -size else size)

/-- What a number means. -/
def Numeral.number (n : Numeral) : Except Error Number :=
  match n.ending.error? with
  | some e => .error e
  | none =>
    match n.fraction, n.exponent with
    | none, none =>
      let value := decimalValue n.digits
      if wordMax < value then n.float.map .float
      else if !n.negative then .ok (.natural value)
      else if 0 < value && value ≤ Nat.pow 2 63 then .ok (.negative value)
      else .ok (.float (-(Float.ofNat value)))
    | _, _ => n.float.map .float

/-- What was found when a number stands in the wrong place. -/
def Number.found : Number → Found
  | .natural n => .integer n
  | .negative n => .integer (-(n : Int))
  | .float x => .float x

end Postal.Json

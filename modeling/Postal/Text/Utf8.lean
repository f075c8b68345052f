/-!
# UTF-8.

Bytes as characters, as far as they are any: a byte that no character starts with, or that a broken
character starts with, stands for itself.
-/

namespace Postal.Text

/-- A character, or a byte that belongs to none. -/
inductive Utf8Part where
  | char (c : Char)
  | stray (b : UInt8)
  deriving DecidableEq, Repr

/-- Whether a byte goes on with a character. -/
def isContinuation (b : UInt8) : Bool := 0x80 ≤ b && b ≤ 0xbf

/-- The six bits of a byte that goes on with a character. -/
def continuationBits (b : UInt8) : Nat := b.toNat % 64

/-- The character of two bytes. -/
def char2? (a b : UInt8) : Option Char :=
  if 0xc2 ≤ a && a ≤ 0xdf && isContinuation b then
    some (Char.ofNat (a.toNat % 32 * 64 + continuationBits b))
  else none

/-- The character of three bytes. Longer forms than needed and surrogates are none. -/
def char3? (a b c : UInt8) : Option Char :=
  if 0xe0 ≤ a && a ≤ 0xef && isContinuation b && isContinuation c &&
      (a != 0xe0 || 0xa0 ≤ b) && (a != 0xed || b ≤ 0x9f) then
    some (Char.ofNat ((a.toNat % 16 * 64 + continuationBits b) * 64 + continuationBits c))
  else none

/-- The character of four bytes, up to the last code point. -/
def char4? (a b c d : UInt8) : Option Char :=
  if 0xf0 ≤ a && a ≤ 0xf4 && isContinuation b && isContinuation c && isContinuation d &&
      (a != 0xf0 || 0x90 ≤ b) && (a != 0xf4 || b ≤ 0x8f) then
    some (Char.ofNat
      (((a.toNat % 8 * 64 + continuationBits b) * 64 + continuationBits c) * 64 +
        continuationBits d))
  else none

/-- The character at the front of some bytes, and how many bytes it takes. -/
def front? : List UInt8 → Option (Char × Nat)
  | [] => none
  | a :: rest =>
    if a < 0x80 then some (Char.ofNat a.toNat, 1)
    else
      match rest with
      | b :: c :: d :: _ =>
        ((char2? a b).map (·, 2)).or
          (((char3? a b c).map (·, 3)).or ((char4? a b c d).map (·, 4)))
      | [b, c] => ((char2? a b).map (·, 2)).or ((char3? a b c).map (·, 3))
      | [b] => (char2? a b).map (·, 2)
      | [] => none

/-- Bytes as characters and stray bytes; the first `skip` bytes belong to a character that was read
already. -/
def utf8PartsFrom : Nat → List UInt8 → List Utf8Part
  | _, [] => []
  | skip + 1, _ :: bs => utf8PartsFrom skip bs
  | 0, b :: bs =>
    match front? (b :: bs) with
    | some (c, length) => .char c :: utf8PartsFrom (length - 1) bs
    | none => .stray b :: utf8PartsFrom 0 bs

/-- Bytes as characters and stray bytes. -/
def utf8Parts (bs : List UInt8) : List Utf8Part := utf8PartsFrom 0 bs

/-- The characters of bytes without stray ones. -/
def ofUtf8? (bs : List UInt8) : Option (List Char) :=
  (utf8Parts bs).mapM fun
    | .char c => some c
    | .stray _ => none

end Postal.Text

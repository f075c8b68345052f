import Postal.Json.Decoder
import Postal.Json.Value
import Postal.Report
import Postal.Text.Bytes

/-!
# Ids of runs as text.

An id is written as 32 hexadecimal digits in lower case, in groups of 8, 4, 4, 4 and 12 with hyphens
between them. It may also be read without hyphens, with a scheme before it or in braces, and in
either case of letters.
-/

namespace Postal.RunId

/-- So many hexadecimal digits of a number, the last ones. -/
def hexDigits : Nat → Nat → List Char
  | 0, _ => []
  | count + 1, n => hexDigits count (n / 16) ++ [Nat.digitChar (n % 16)]

/-- The id as text. -/
def text (id : RunId) : String :=
  let ds := hexDigits 32 id.value
  String.ofList (ds.take 8 ++ '-' :: (ds.drop 8).take 4 ++ '-' :: (ds.drop 12).take 4 ++
    '-' :: (ds.drop 16).take 4 ++ '-' :: ds.drop 20)

/-- Why a text is no id. -/
inductive Problem where
  | badChar (c : Char) (position : Nat)
  | badLength (found : Nat)
  | groupCount (found : Nat)
  | groupLength (group found : Nat)
  deriving DecidableEq, Repr

/-- The length of each group. -/
def groupLengths : List Nat := [8, 4, 4, 4, 12]

/-- The text of a problem. -/
def Problem.message : Problem → String
  | .badChar c position =>
    "invalid character: found `" ++ String.singleton c ++ "` at " ++ toString position
  | .badLength found => "invalid length: found " ++ toString found
  | .groupCount found => "invalid group count: expected 5, found " ++ toString found
  | .groupLength group found =>
    "invalid group length in group " ++ toString group ++ ": expected " ++
      toString (groupLengths[group]?.getD 0) ++ ", found " ++ toString found

/-! ## What stands around an id. -/

/-- The scheme that may stand before an id, in either case of letters. -/
def scheme : List Char := "urn:uuid:".toList

/-- The text between braces. -/
def unbraced? (cs : List Char) : Option (List Char) :=
  if cs.head? = some '\x7b' && 1 < cs.length && cs.getLast? = some '\x7d' then
    some cs.tail.dropLast
  else none

/-- The text behind the scheme. -/
def afterScheme? (cs : List Char) : Option (List Char) :=
  if (cs.take scheme.length).map Char.toLower = scheme then some (cs.drop scheme.length) else none

/-- What a text offers as an id, with nothing around it. -/
structure Offer where
  /-- The text of the id. -/
  inner : List Char
  /-- How many bytes stand before the id where positions are counted. -/
  front : Nat
  /-- How many bytes there are in all, of which those behind the first 24 count as the last group.
  -/
  size : Nat
  /-- Whether the digits may stand without hyphens. -/
  bare : Bool

/-- What a text offers. By its length alone a text may show to be an id without hyphens or with
them, in braces or behind a scheme; what is wrong with it is then told of the id itself. In a text
of any other length it is told of the whole text. -/
def offer (cs : List Char) : Offer :=
  let size := Text.byteSize cs
  let wrapped : Option (List Char) :=
    if size = 38 then unbraced? cs else if size = 45 then afterScheme? cs else none
  match wrapped with
  | some inner => ⟨inner, 0, Text.byteSize inner, false⟩
  | none =>
    if size = 32 then ⟨cs, 0, size, true⟩
    else if size = 36 then ⟨cs, 0, size, false⟩
    else
      match unbraced? cs, afterScheme? cs with
      | some inner, _ => ⟨inner, 1, size, false⟩
      | none, some inner => ⟨inner, scheme.length, size, false⟩
      | none, none => ⟨cs, 0, size, true⟩

/-! ## Reading. -/

/-- The number of an id whose digits are grouped by hyphens. -/
def grouped? (cs : List Char) : Option Nat :=
  if cs.length = 36 && [8, 13, 18, 23].all fun i => cs[i]? == some '-' then
    Json.hexValue? (cs.take 8 ++ (cs.drop 9).take 4 ++ (cs.drop 14).take 4 ++ (cs.drop 19).take 4 ++
      cs.drop 24)
  else none

/-- The number that a text stands for. -/
def value? (cs : List Char) : Option Nat :=
  if cs.length = 32 then Json.hexValue? cs else grouped? (offer cs).inner

/-- The first character that belongs to no id, and the byte at which it stands. -/
def badChar? : List Char → Nat → Option (Char × Nat)
  | [], _ => none
  | c :: cs, position =>
    if c == '-' || (Json.hexDigit? c).isSome then badChar? cs (position + 1)
    else some (c, position)

/-- The bytes at which the hyphens stand. -/
def hyphens (cs : List Char) : List Nat :=
  (cs.zipIdx.filter fun (c, _) => c == '-').map (·.2)

/-- The most bytes that an id takes, with its scheme. -/
def longest : Nat := 45

/-- What is wrong with a text that is no id. -/
def problem (cs : List Char) : Problem :=
  if longest < Text.byteSize cs then .badLength (Text.byteSize cs)
  else
    let offer := offer cs
    match badChar? offer.inner offer.front with
    | some (c, position) => .badChar c position
    | none =>
      let found := hyphens offer.inner
      if found.isEmpty && offer.bare then .badLength offer.size
      else if found.length != 4 then .groupCount (found.length + 1)
      else
        -- Each group starts behind the groups before it. The first one that ends elsewhere is
        -- wrong.
        let starts := [0, 9, 14, 19, 24]
        let wrong := (found.zip starts).zipIdx.find? fun ((stop, first), group) =>
          stop != first + groupLengths[group]?.getD 0
        match wrong with
        | some ((stop, first), group) => .groupLength group (stop - first)
        | none => .groupLength 4 (offer.size - 24)

/-- Reads an id. -/
def ofText (s : String) : Except Problem RunId :=
  match value? s.toList with
  | some n => .ok ⟨n⟩
  | none => .error (problem s.toList)

/-- An id as JSON. -/
def toJson (id : RunId) : Json.Value := .string id.text

/-- An id from JSON. -/
def decoder : Json.Decoder RunId := fun n => do
  let s ← Json.string "a formatted UUID string" n
  (ofText s).mapError fun p => .badRunId p.message

/-- An id of a random run, made of 128 chance bits: six of them tell that it is random and how it is
laid out. -/
def ofChance (bits : Nat) : RunId :=
  let low := bits % Nat.pow 2 62
  let middle := bits / Nat.pow 2 62 % Nat.pow 2 12
  let high := bits / Nat.pow 2 74 % Nat.pow 2 48
  ⟨high * Nat.pow 2 80 + 4 * Nat.pow 2 76 + middle * Nat.pow 2 64 + 2 * Nat.pow 2 62 + low⟩

/-- Whether an id tells that it is random. -/
def isRandom (id : RunId) : Bool :=
  id.value / Nat.pow 2 76 % 16 == 4 && id.value / Nat.pow 2 62 % 4 == 2

end Postal.RunId

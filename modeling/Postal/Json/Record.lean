import Postal.Json.Decoder

/-!
# Decoding records.

A record is described by its fields in the order of their declaration. It may be written as an
object, whose members may come in any order and with others in between, or as an array of the fields
in their order. While it is read, the fields found so far make a draft; a field that is found twice
is refused before its value is read, and fields that are missing are noticed at the end.
-/

namespace Postal.Json

/-- The fields of a record `R`: their names, how their values are decoded from a source, and the
values that stand in for missing ones. A draft `D` of the record has an optional value for each
field. -/
inductive Fields (Src : Type) : Type → Type → Type 1 where
  | none : Fields Src Unit Unit
  | field {A R D : Type} (name : String) (decode : Src → Except Error A) (fallback : Option A)
      (rest : Fields Src R D) : Fields Src (A × R) (Option A × D)

namespace Fields

variable {Src : Type}

/-- Nothing is found yet. -/
def blank : {R D : Type} → Fields Src R D → D
  | _, _, .none => ()
  | _, _, .field _ _ _ rest => (Option.none, rest.blank)

/-- How many fields there are. -/
def count : {R D : Type} → Fields Src R D → Nat
  | _, _, .none => 0
  | _, _, .field _ _ _ rest => rest.count + 1

/-- How to go on with the value of a field of this name, if there is such a field. A field that is
already in the draft is refused here, before its value is looked at. -/
def accept? :
    {R D : Type} → Fields Src R D → String → D → Option (Except Error (Src → Except Error D))
  | _, _, .none, _, _ => Option.none
  | _, _, .field name decode _ rest, key, (found, draft) =>
    if name = key then
      match found with
      | some _ => some (.error (.duplicateField name))
      | Option.none => some (.ok fun src => (decode src).map fun a => (some a, draft))
    else
      (rest.accept? key draft).map fun r =>
        r.map fun go src => (go src).map fun draft => (found, draft)

/-- The record of a draft, if no field is missing that has to be there. -/
def complete : {R D : Type} → Fields Src R D → D → Except Error R
  | _, _, .none, _ => .ok ()
  | _, _, .field name _ fallback rest, (found, draft) => do
    let a ←
      match found.or fallback with
      | some a => .ok a
      | Option.none => .error (.missingField name)
    .ok (a, ← rest.complete draft)

/-- The record made of the stand-ins for its fields, if each has one. -/
def fallbacks? : {R D : Type} → Fields Src R D → Option R
  | _, _, .none => some ()
  | _, _, .field _ _ fallback rest => do some (← fallback, ← rest.fallbacks?)

end Fields

/-! ## Records in a text. -/

/-- A field that has to be there. -/
def required {Src A R D : Type} (name : String) (decode : Src → Except Error A)
    (rest : Fields Src R D) : Fields Src (A × R) (Option A × D) := .field name decode none rest

/-- A field with a value that stands in for it when it is missing. -/
def optional {Src A R D : Type} (name : String) (decode : Src → Except Error A) (fallback : A)
    (rest : Fields Src R D) : Fields Src (A × R) (Option A × D) :=
  .field name decode (some fallback) rest

/-- The colon behind a key has to be there before anything is done with the value. -/
def colon : Node → Except Error Unit
  | .noColon eof => .error (noColonError eof)
  | _ => .ok ()

/-- What digits that go on are refused for within an object: the object was to go on or to end. -/
def Error.inObject : Error → Error
  | .digitsGoOn => .expectedObjectEnd
  | e => e

/-- Goes through the members of an object. Members of other names are only passed over. -/
def readMembers {R D : Type} (fs : Fields Node R D) : List (Quoted × Node) → D → Except Error D
  | [], draft => .ok draft
  | (key, value) :: members, draft => do
    let name ← key.text
    match fs.accept? name draft with
    | none =>
      colon value
      ignored value
      readMembers fs members draft
    | some (.error e) => .error e
    | some (.ok go) =>
      colon value
      readMembers fs members (← (go value).mapError Error.inObject)

/-- What digits that go on are refused for within an array: the last field of a record ends it. -/
def Error.inArray (last : Bool) : Error → Error
  | .digitsGoOn => if last then .trailingCharacters else .expectedArrayEnd
  | e => e

/-- What an array is refused for behind the last field of a record. -/
def ArrayEnd.errorAfterLast? : ArrayEnd → Option Error
  | .closed => none
  | .eof => some .eofArray
  | .junk => some .trailingCharacters
  | .trailingComma => some .trailingComma
  | .cut => some .expectedValue

/-- Goes through the items of an array, one for each field. When they run out, the stand-ins of the
fields that are left have to do. -/
def readItems (short : Nat → Error) (ending : ArrayEnd) :
    {R D : Type} → Fields Node R D → Nat → List Node → Except Error R
  | _, _, .none, _, items => do
    if items.isEmpty then failIf ending.errorAfterLast? else .error .trailingCharacters
    .ok ()
  | _, _, .field _ decode _ rest, read, item :: items => do
    let a ← (decode item).mapError (Error.inArray (rest.count = 0))
    .ok (a, ← readItems short ending rest (read + 1) items)
  | _, _, fs, read, [] => do
    failIf ending.error?
    match fs.fallbacks? with
    | some r => .ok r
    | none => .error (short read)

/-- The words for how many things there are. -/
def plural (n : Nat) : String := toString n ++ if n = 1 then " element" else " elements"

/-- A record, written as an object or as an array; `kind` is what it is called when it is missed. -/
def record {R D : Type} (kind : String) (fs : Fields Node R D) : Decoder R
  | .object members ending => do
    let draft ← readMembers fs members fs.blank
    failIf ending.error?
    fs.complete draft
  | .keyless => .error .keyNotString
  | .array items ending =>
    readItems (fun read => .wrongLength read (kind ++ " with " ++ plural fs.count)) ending fs 0
      items
  | n => .error (n.mismatch kind)

end Postal.Json

import Postal.Json.Reader
import Postal.Json.Scalar

/-!
# Decoding values of a type.

A decoder goes through the tree of a text in the order of the text and stops at the first thing it
cannot accept. A value of a wrong type is read as far as its kind shows, so that a word, a number or
a string that is itself broken is refused for that.
-/

namespace Postal.Json

/-- Finds a value in a place of a text. -/
abbrev Decoder (A : Type) := Node → Except Error A

/-- What a place is refused for that holds no value at all. -/
def absentError (eof : Bool) : Error := if eof then .eofValue else .expectedValue

/-- What a key without its colon is refused for. -/
def noColonError (eof : Bool) : Error := if eof then .eofObject else .expectedColon

/-- What a broken word is refused for. -/
def brokenWordError (eof : Bool) : Error := if eof then .eofValue else .expectedWord

/-- What a word is, when it stands in the wrong place. -/
def Word.found : Word → Found
  | .null => .null
  | .truth => .bool true
  | .falsehood => .bool false

/-- What a place is refused for where something else was expected. -/
def Node.mismatch (expected : String) : Node → Error
  | .absent eof => absentError eof
  | .noColon eof => noColonError eof
  | .word w => .wrongType w.found expected
  | .brokenWord eof => brokenWordError eof
  | .number n =>
    match n.number with
    | .ok value => .wrongType value.found expected
    | .error e => e
  | .string q =>
    match q.text with
    | .ok s => .wrongType (.string s) expected
    | .error e => e
  | .array _ _ => .wrongType .sequence expected
  | .object _ _ => .wrongType .map expected
  | .keyless => .wrongType .map expected

/-! ## Ignored values. -/

/-- What a string is refused for whose text does not matter. -/
def Quoted.error? (q : Quoted) : Option Error := q.ending.error?

/-- What a number is refused for whose value does not matter. -/
def Numeral.error? (n : Numeral) : Option Error :=
  match n.ending with
  | .complete => none
  | _ => some .badNumber

/-- What an ignored array is refused for at its end. -/
def ArrayEnd.ignoredError? : ArrayEnd → Option Error
  | .closed => none
  | .eof => some .eofArray
  | .junk => some .expectedArrayEnd
  | .trailingComma => some .expectedValue
  | .cut => none

/-- What an ignored object is refused for at its end. -/
def ObjectEnd.ignoredError? : ObjectEnd → Option Error
  | .closed => none
  | .eof => some .eofObject
  | .junk => some .expectedObjectEnd
  | .trailingComma => some .keyNotString
  | .commaEof => some .eofObject
  | .badKey => some .keyNotString
  | .cut => none

mutual

/-- What an ignored value is refused for: only for how it is written. -/
def Node.error? : Node → Option Error
  | .absent eof => some (absentError eof)
  | .noColon eof => some (noColonError eof)
  | .word _ => none
  | .brokenWord eof => some (brokenWordError eof)
  | .number n => n.error?
  | .string q => q.error?
  | .array items ending => (errorInItems? items).or ending.ignoredError?
  | .object members ending => (errorInMembers? members).or ending.ignoredError?
  | .keyless => some .keyNotString

/-- What the first broken item is refused for. -/
def errorInItems? : List Node → Option Error
  | [] => none
  | n :: ns => n.error?.or (errorInItems? ns)

/-- What the first broken member is refused for. -/
def errorInMembers? : List (Quoted × Node) → Option Error
  | [] => none
  | (key, n) :: ms => (key.error?.or n.error?).or (errorInMembers? ms)

end

/-- Passes over a value. -/
def ignored : Decoder Unit := fun n =>
  match n.error? with
  | some e => .error e
  | none => .ok ()

/-! ## Ends of containers whose items matter. -/

/-- What an array is refused for at its end. -/
def ArrayEnd.error? : ArrayEnd → Option Error
  | .closed => none
  | .eof => some .eofArray
  | .junk => some .expectedArrayEnd
  | .trailingComma => some .trailingComma
  | .cut => some .expectedValue

/-- What an object is refused for at its end. -/
def ObjectEnd.error? : ObjectEnd → Option Error
  | .closed => none
  | .eof => some .eofObject
  | .junk => some .expectedObjectEnd
  | .trailingComma => some .trailingComma
  | .commaEof => some .eofValue
  | .badKey => some .keyNotString
  | .cut => some .expectedValue

/-- Fails with an error, if there is one. -/
def failIf : Option Error → Except Error Unit
  | some e => .error e
  | none => .ok ()

/-! ## Decoders. -/

/-- A natural number of one word; `kind` is what it is called when it is missed. -/
def word (kind : String) : Decoder Nat
  | .number n => do
    match ← n.number with
    | .natural value => .ok value
    | .negative size => .error (.wrongValue (.integer (-(size : Int))) kind)
    | .float x => .error (.wrongType (.float x) kind)
  | n => .error (n.mismatch kind)

/-- A natural number of 128 binary digits. Only digits belong to it; a point or an exponent behind
them belongs to nothing. -/
def stamp : Decoder Nat
  | .absent true => .error .eofValue
  | .noColon eof => .error (noColonError eof)
  | .number n =>
    if n.negative then .error .numberOutOfRange
    else if n.fraction.isSome || n.exponent.isSome then
      if stampMax < decimalValue n.digits then .error .numberOutOfRange else .error .digitsGoOn
    else if n.ending = .complete then
      if stampMax < decimalValue n.digits then .error .numberOutOfRange
      else .ok (decimalValue n.digits)
    else .error .badNumber
  | _ => .error .badNumber

/-- A text; `kind` is what it is called when it is missed. -/
def string (kind : String) : Decoder String
  | .string q => q.text
  | n => .error (n.mismatch kind)

/-- A value that may be null. -/
def orNull {A : Type} (d : Decoder A) : Decoder (Option A)
  | .word .null => .ok none
  | n => (d n).map some

/-- A list of values. -/
def list {A : Type} (d : Decoder A) : Decoder (List A)
  | .array items ending => do
    let values ← items.mapM d
    failIf ending.error?
    .ok values
  | n => .error (n.mismatch "a sequence")

/-- The alternative of a name. -/
def alternative {A : Type} (known : List (String × A)) (name : String) : Except Error A :=
  match known.lookup name with
  | some a => .ok a
  | none => .error (.unknownVariant name (known.map (·.1)))

/-- What an object is refused for that names an alternative and goes on behind it. -/
def ObjectEnd.errorAfterOnly? : ObjectEnd → Option Error
  | .closed => none
  | .eof => some .eofObject
  | _ => some .expectedValue

/-- Nothing but null. -/
def nothing : Decoder Unit
  | .word .null => .ok ()
  | n => .error (n.mismatch "unit")

/-- One of several names: as a string, or as the only key of an object whose value is null. -/
def oneOf {A : Type} (known : List (String × A)) : Decoder A
  | .absent eof => .error (absentError eof)
  | .noColon eof => .error (noColonError eof)
  | .string q => do alternative known (← q.text)
  | .object [] .eof => .error .eofObject
  | .object [] _ => .error .expectedValue
  | .object ((key, value) :: rest) ending => do
    let a ← alternative known (← key.text)
    nothing value
    if rest.isEmpty then failIf ending.errorAfterOnly? else .error .expectedValue
    .ok a
  | .keyless => .error .keyNotString
  | _ => .error .expectedValue

/-- Reads a whole text. -/
def decode {A : Type} (d : Decoder A) (text : String) : Except Error A := do
  let document := Document.ofChars text.toList
  let value ← d document.root
  if document.trailing then .error .trailingCharacters else .ok value

end Postal.Json

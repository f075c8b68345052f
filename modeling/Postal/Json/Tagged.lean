import Postal.Json.Record

/-!
# Decoding alternatives that carry their tag.

A value that is one of several records names its alternative in one of its own members, which may
stand anywhere. So the whole value is taken in first, and there every part of it counts: numbers
have to be in range, strings have to be proper text, and containers may only be nested so deep. The
fields are decoded afterwards, from what was taken in.
-/

namespace Postal.Json

/-- A value that was taken in. -/
inductive Content where
  | null
  | bool (b : Bool)
  | number (n : Number)
  | string (s : String)
  | sequence (items : List Content)
  | map (members : List (String × Content))

/-- What was found when a value that was taken in is not the expected one. -/
def Content.found : Content → Found
  | .null => .null
  | .bool b => .bool b
  | .number n => n.found
  | .string s => .string s
  | .sequence _ => .sequence
  | .map _ => .map

/-- How deep containers may be nested, plus one. -/
def depthLimit : Nat := 128

/-- Enters a container, which leaves one level less. -/
def descend (left : Nat) : Except Error Nat :=
  if left ≤ 1 then .error .recursionLimit else .ok (left - 1)

mutual

/-- Takes a value in; `left` is how many levels are left. -/
def Node.content (left : Nat) : Node → Except Error Content
  | .absent eof => .error (absentError eof)
  | .noColon eof => .error (noColonError eof)
  | .word .null => .ok .null
  | .word .truth => .ok (.bool true)
  | .word .falsehood => .ok (.bool false)
  | .brokenWord eof => .error (brokenWordError eof)
  | .number n => n.number.map .number
  | .string q => q.text.map .string
  | .array items ending => do
    let left ← descend left
    let items ← contentItems left items
    failIf ending.error?
    .ok (.sequence items)
  | .object members ending => do
    let left ← descend left
    let members ← contentMembers left members
    failIf ending.error?
    .ok (.map members)
  | .keyless => do
    let _ ← descend left
    .error .keyNotString

/-- Takes items in. -/
def contentItems (left : Nat) : List Node → Except Error (List Content)
  | [] => .ok []
  | n :: ns => do
    let c ← n.content left
    .ok (c :: (← contentItems left ns))

/-- Takes members in. -/
def contentMembers (left : Nat) : List (Quoted × Node) → Except Error (List (String × Content))
  | [] => .ok []
  | (key, n) :: ms => do
    let name ← key.text
    let c ← n.content left
    .ok ((name, c) :: (← contentMembers left ms))

end

namespace Content

/-- A natural number of one word. -/
def word (kind : String) : Content → Except Error Nat
  | .number (.natural n) => .ok n
  | .number (.negative size) => .error (.wrongValue (.integer (-(size : Int))) kind)
  | c => .error (.wrongType c.found kind)

/-- Nothing but null, or an object without members. -/
def nothing : Content → Except Error Unit
  | .null => .ok ()
  | .map [] => .ok ()
  | c => .error (.wrongType c.found "unit")

/-- One of several names: as a string, or as the only key of an object. -/
def oneOf {A : Type} (known : List (String × A)) : Content → Except Error A
  | .string s => alternative known s
  | .map [(name, value)] => do
    let a ← alternative known name
    value.nothing
    .ok a
  | .map _ => .error (.wrongValue .map "map with a single key")
  | c => .error (.wrongType c.found "string or map")

end Content

/-- Goes through the members that were taken in. -/
def readContentMembers {R D : Type} (fs : Fields Content R D) :
    List (String × Content) → D → Except Error D
  | [], draft => .ok draft
  | (name, value) :: members, draft =>
    match fs.accept? name draft with
    | none => readContentMembers fs members draft
    | some (.error e) => .error e
    | some (.ok go) => do readContentMembers fs members (← go value)

/-- Goes through the items that were taken in, one for each field. -/
def readContentItems (title : String) (total : Nat) :
    {R D : Type} → Fields Content R D → Nat → List Content → Except Error R
  | _, _, .none, read, items =>
    if items.isEmpty then .ok ()
    else .error (.wrongLength (read + items.length) (plural total ++ " in sequence"))
  | _, _, .field _ decode _ rest, read, item :: items => do
    let a ← decode item
    .ok (a, ← readContentItems title total rest (read + 1) items)
  | _, _, .field _ _ _ _, read, [] =>
    .error (.wrongLength read ("struct variant " ++ title ++ " with " ++ plural total))

/-- One alternative: the name in its tag, and how its value is found in what was taken in beside the
tag. -/
structure Variant (A : Type) where
  name : String
  ofMembers : List (String × Content) → Except Error A
  ofItems : List Content → Except Error A

/-- The alternative with these fields; `title` is what it is called when they are missed. -/
def variant {A R D : Type} (name title : String) (fs : Fields Content R D) (make : R → A) :
    Variant A where
  name := name
  ofMembers members := do
    let draft ← readContentMembers fs members fs.blank
    (fs.complete draft).map make
  ofItems items := (readContentItems title fs.count fs 0 items).map make

/-- The alternative that a tag names. -/
def variantOf {A : Type} (variants : List (Variant A)) : Node → Except Error (Variant A)
  | .string q => do
    let name ← q.text
    match variants.find? fun v => v.name == name with
    | some v => .ok v
    | none => .error (.unknownVariant name (variants.map (·.name)))
  | n => .error (n.mismatch "variant identifier")

/-- Goes through the members of an object: takes the tag, and takes all others in. -/
def readTagged {A : Type} (tag : String) (variants : List (Variant A)) (left : Nat) :
    List (Quoted × Node) → Option (Variant A) →
      Except Error (Option (Variant A) × List (String × Content))
  | [], found => .ok (found, [])
  | (key, value) :: members, found => do
    let name ← key.text
    if name = tag then
      if found.isSome then .error (.duplicateField tag)
      colon value
      readTagged tag variants left members (some (← variantOf variants value))
    else
      let c ← value.content left
      let (found, rest) ← readTagged tag variants left members found
      .ok (found, (name, c) :: rest)

/-- One of several records. As an object it has the tag among its members; as an array it starts
with the tag. -/
def tagged {A : Type} (kind tag : String) (variants : List (Variant A)) (left : Nat) : Decoder A
  | .object members ending => do
    let left ← descend left
    let (found, rest) ← readTagged tag variants left members none
    failIf ending.error?
    match found with
    | some v => v.ofMembers rest
    | none => .error (.missingField tag)
  | .array [] ending => do
    let _ ← descend left
    failIf ending.error?
    .error (.missingField tag)
  | .array (first :: items) ending => do
    let left ← descend left
    let v ← variantOf variants first
    let items ← contentItems left items
    failIf ending.error?
    v.ofItems items
  | .keyless => do
    let _ ← descend left
    .error .keyNotString
  | n => .error (n.mismatch kind)

end Postal.Json

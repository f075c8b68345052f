import Postal.Json.Decoder
import Postal.Json.Value
import Postal.Proofs.Grammar

/-!
# A written value is a well-formed text, and means what was written.

* §1 — the tree that a value stands for when it is written without blanks.
* §2 — the text of a value is derived by the grammar, with that tree.
* §3 — what its leaves mean: a string means its characters, a number its digits.
* §4 — so a decoder that finds a value in the tree finds it in the text.
-/

namespace Postal.Json

/-! ## §1 — The tree of a value. -/

/-- The piece of a string that a character is written as. -/
def Piece.ofChar (c : Char) : Piece :=
  if c = '"' ∨ c = '\\' ∨ c = '\x08' ∨ c = '\x0c' ∨ c = '\n' ∨ c = '\x0d' ∨ c = '\t' then .escaped c
  else if c < ' ' then .unit c.toNat
  else .plain c

/-- A string as it is written. -/
def Quoted.ofString (s : String) : Quoted := ⟨s.toList.map Piece.ofChar, .closed⟩

/-- A whole number as it is written. -/
def Numeral.ofNat (n : Nat) : Numeral := ⟨false, Nat.toDigits 10 n, none, none, .complete⟩

namespace Value

mutual

/-- The tree of a value. -/
def node : Value → Node
  | .null => .word .null
  | .number n => .number (.ofNat n)
  | .string s => .string (.ofString s)
  | .array items => .array (nodes items) .closed
  | .object members => .object (memberNodes members) .closed

/-- The trees of items. -/
def nodes : List Value → List Node
  | [] => []
  | v :: vs => v.node :: nodes vs

/-- The trees of members. -/
def memberNodes : List (String × Value) → List (Quoted × Node)
  | [] => []
  | (key, v) :: ms => (.ofString key, v.node) :: memberNodes ms

end

theorem memberNodes_eq (ms : List (String × Value)) :
    memberNodes ms = ms.map fun m => (.ofString m.1, m.2.node) := by
  induction ms with
  | nil => rfl
  | cons m ms ih => rw [memberNodes, ih, List.map_cons]

end Value

/-! ## §2 — The text of a value is well-formed. -/

theorem hexValue_hexPair : ∀ n < 32, hexValue? ('0' :: '0' :: hexPair n) = some n := by decide

/-- A character is written as its piece. -/
theorem spelled_escape (c : Char) {ps : List Piece} {cs : List Char} (h : Spelled ps cs) :
    Spelled (Piece.ofChar c :: ps) (escape c ++ cs) := by
  by_cases hletter : c = '"' ∨ c = '\\' ∨ c = '\x08' ∨ c = '\x0c' ∨ c = '\n' ∨ c = '\x0d' ∨ c = '\t'
  · obtain rfl | rfl | rfl | rfl | rfl | rfl | rfl := hletter <;> exact .escaped rfl h
  · obtain ⟨hquote, hbackslash, hb, hf, hn, hr, ht⟩ :
        c ≠ '"' ∧ c ≠ '\\' ∧ c ≠ '\x08' ∧ c ≠ '\x0c' ∧ c ≠ '\n' ∧ c ≠ '\x0d' ∧ c ≠ '\t' := by
      simpa only [not_or] using hletter
    rw [Piece.ofChar, if_neg hletter]
    by_cases hcontrol : c < ' '
    · have hsmall : c.toNat < 32 := hcontrol
      have hescape : escape c = '\\' :: 'u' :: '0' :: '0' :: hexPair c.toNat := by
        simp [escape, hquote, hbackslash, hb, hf, hn, hr, ht, hcontrol]
      rw [if_pos hcontrol, hescape]
      exact .unit (hexValue_hexPair c.toNat hsmall) h
    · have hescape : escape c = [c] := by
        simp [escape, hquote, hbackslash, hb, hf, hn, hr, ht, hcontrol]
      rw [if_neg hcontrol, hescape]
      exact .plain hquote hbackslash hcontrol h

theorem spelled_string (cs : List Char) :
    Spelled (cs.map Piece.ofChar) (cs.flatMap escape) := by
  induction cs with
  | nil => exact .nil
  | cons c cs ih =>
    rw [List.map_cons, List.flatMap_cons]
    exact spelled_escape c ih

theorem digitChar_ne_zero : ∀ n < 10, 0 < n → n.digitChar ≠ '0' := by decide

/-- The digits of a number that is not zero do not start with a zero. -/
theorem head_toDigits {n : Nat} (hn : 0 < n) :
    ∃ d ds, Nat.toDigits 10 n = d :: ds ∧ d ≠ '0' := by
  induction n using Nat.strongRecOn with
  | _ n ih =>
    by_cases hlt : n < 10
    · exact ⟨n.digitChar, [], Nat.toDigits_of_lt_base hlt, digitChar_ne_zero n hlt hn⟩
    · obtain ⟨d, ds, hds, hd⟩ := ih (n / 10) (by omega) (by omega)
      refine ⟨d, ds ++ [(n % 10).digitChar], ?_, hd⟩
      rw [Nat.toDigits_of_base_le (by omega) (by omega), hds, List.cons_append]

theorem whole_toDigits (n : Nat) : Whole (Nat.toDigits 10 n) := by
  obtain rfl | hn := Nat.eq_zero_or_pos n
  · exact .zero
  · obtain ⟨d, ds, hds, hd⟩ := head_toDigits hn
    have hdigit : ∀ c ∈ d :: ds, c.isDigit = true := by
      intro c hc
      rw [← hds] at hc
      exact Nat.isDigit_of_mem_toDigits (by omega) (by omega) hc
    rw [hds]
    exact .digits (hdigit d List.mem_cons_self) hd fun c hc => hdigit c (List.mem_cons_of_mem d hc)

theorem figures_ofNat (n : Nat) : Figures (.ofNat n) (Nat.toDigits 10 n) := by
  have h := Figures.positive (whole_toDigits n) .none .none
  rwa [List.append_nil, List.append_nil] at h

namespace Value

mutual

/-- **A value is written as its tree.** -/
theorem written : (v : Value) → Written v.node v.render
  | .null => .word .null
  | .number n => .number (figures_ofNat n)
  | .string s => .string (spelled_string s.toList)
  | .array [] => .emptyArray blanks_nil
  | .array (v :: vs) => .array (written_items (v :: vs) (List.cons_ne_nil v vs))
  | .object [] => .emptyObject blanks_nil
  | .object (m :: ms) => .object (written_members (m :: ms) (List.cons_ne_nil m ms))

/-- Items are written one behind the other. -/
theorem written_items : (vs : List Value) → vs ≠ [] → WrittenItems (nodes vs) (renderItems vs)
  | [], h => absurd rfl h
  | [v], _ => by
    have h := WrittenItems.last blanks_nil (written v) blanks_nil
    simpa [nodes, renderItems] using h
  | v :: w :: vs, _ => by
    have hrest := written_items (w :: vs) (List.cons_ne_nil w vs)
    have h := WrittenItems.more blanks_nil (written v) blanks_nil hrest
    simpa [nodes, renderItems] using h

/-- Members are written one behind the other. -/
theorem written_members : (ms : List (String × Value)) → ms ≠ [] →
    WrittenMembers (memberNodes ms) (renderMembers ms)
  | [], h => absurd rfl h
  | [(key, v)], _ => by
    have h := WrittenMembers.last blanks_nil (spelled_string key.toList) blanks_nil blanks_nil
      (written v) blanks_nil
    simpa [memberNodes, renderMembers, quote, Quoted.ofString] using h
  | (key, v) :: m :: ms, _ => by
    have hrest := written_members (m :: ms) (List.cons_ne_nil m ms)
    have h := WrittenMembers.more blanks_nil (spelled_string key.toList) blanks_nil blanks_nil
      (written v) blanks_nil hrest
    simpa [memberNodes, renderMembers, quote, Quoted.ofString] using h

end

/-- The text of a value is well-formed. -/
theorem text_text (v : Value) : Text v.node v.text.toList := by
  have h := Text.mk blanks_nil v.written blanks_nil
  rwa [List.nil_append, List.append_nil, ← String.toList_ofList (l := v.render)] at h

end Value

/-! ## §3 — What the leaves mean. -/

theorem no_surrogate_of_control {c : Char} (h : c < ' ') :
    isLowSurrogate c.toNat = false ∧ isHighSurrogate c.toNat = false := by
  have hsmall : c.toNat < 32 := h
  simp only [isLowSurrogate, isHighSurrogate, Bool.and_eq_false_iff, decide_eq_false_iff_not]
  omega

theorem readPieces_ofChar (c : Char) (ps : List Piece) :
    readPieces .closed none (Piece.ofChar c :: ps) =
      (readPieces .closed none ps).map (c :: ·) := by
  unfold Piece.ofChar
  split
  · rfl
  · split
    · rename_i _ hcontrol
      obtain ⟨hlow, hhigh⟩ := no_surrogate_of_control hcontrol
      rw [readPieces, hlow, hhigh, Char.ofNat_toNat]
      rfl
    · rfl

/-- A string means its characters. -/
@[simp] theorem text_ofString (s : String) : (Quoted.ofString s).text = .ok s := by
  have h : ∀ cs : List Char, readPieces .closed none (cs.map Piece.ofChar) = .ok cs := by
    intro cs
    induction cs with
    | nil => rfl
    | cons c cs ih =>
      rw [List.map_cons, readPieces_ofChar, ih]
      rfl
  simp [Quoted.text, Quoted.ofString, h, Except.map]

theorem decimalValue_toDigits (n : Nat) : decimalValue (Nat.toDigits 10 n) = n :=
  Nat.ofDigitChars_toDigits (by decide) (by decide)

/-- A number means its value, as long as it fits into a word. -/
theorem number_ofNat {n : Nat} (hn : n ≤ wordMax) :
    (Numeral.ofNat n).number = .ok (.natural n) := by
  simp [Numeral.number, Numeral.ofNat, NumberEnd.error?, decimalValue_toDigits, Nat.not_lt.mpr hn]

/-! ## §4 — From the tree to the text. -/

/-- What a decoder finds in the tree of a well-formed text it finds in the text. -/
theorem decode_of_text {A : Type} {d : Decoder A} {n : Node} {text : String}
    (h : Text n text.toList) : decode d text = d n := by
  rw [decode, h.read]
  cases d n <;> rfl

end Postal.Json

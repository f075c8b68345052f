import Postal.Json.Reader

/-!
# Well-formed JSON texts, and that they are read as what they stand for.

A text is well-formed when the grammar of JSON derives it. The grammar here derives a text together
with the tree it stands for: strings with every way to write a character, numbers with fractions and
exponents, containers of any depth, and blanks wherever they are allowed.

* §1 — the grammar, from the pieces of strings up to whole texts.
* §2 — what it means for the reader to be through with a value. A number is only over with the
  character behind it, so the reader may still be within the number; it then *settles* with whatever
  may follow a value.
* §3 — strings and numbers are read as they are written.
* §4 — values, items and members are read as they are written, by one induction over the grammar;
  `Text.read` is what it says of a whole text.
-/

namespace Postal.Json

/-! ## §1 — The grammar. -/

/-- Nothing but blanks. -/
def Blanks (cs : List Char) : Prop := ∀ c ∈ cs, isBlank c = true

instance (cs : List Char) : Decidable (Blanks cs) :=
  List.decidableBAll (fun c => isBlank c = true) cs

theorem blanks_nil : Blanks [] := by
  intro c hc
  cases hc

/-- The pieces of a string as they are written between its quotes. -/
inductive Spelled : List Piece → List Char → Prop
  | nil : Spelled [] []
  | plain {c : Char} {ps : List Piece} {cs : List Char} (quote : c ≠ '"') (backslash : c ≠ '\\')
      (control : ¬ c < ' ') (rest : Spelled ps cs) : Spelled (.plain c :: ps) (c :: cs)
  | escaped {letter c : Char} {ps : List Piece} {cs : List Char}
      (stands : unescape? letter = some c) (rest : Spelled ps cs) :
      Spelled (.escaped c :: ps) ('\\' :: letter :: cs)
  | unit {a b c d : Char} {value : Nat} {ps : List Piece} {cs : List Char}
      (stands : hexValue? [a, b, c, d] = some value) (rest : Spelled ps cs) :
      Spelled (.unit value :: ps) ('\\' :: 'u' :: a :: b :: c :: d :: cs)

/-- Decimal digits, at least one. -/
structure Digits (ds : List Char) : Prop where
  some : ds ≠ []
  all : ∀ d ∈ ds, d.isDigit = true

/-- The whole part of a number: a zero, or digits that do not start with one. -/
inductive Whole : List Char → Prop
  | zero : Whole ['0']
  | digits {d : Char} {ds : List Char} (digit : d.isDigit = true) (nonzero : d ≠ '0')
      (all : ∀ d ∈ ds, d.isDigit = true) : Whole (d :: ds)

/-- The fraction of a number, if it has one. -/
inductive Fraction : Option (List Char) → List Char → Prop
  | none : Fraction none []
  | some {ds : List Char} (digits : Digits ds) : Fraction (some ds) ('.' :: ds)

/-- The sign of an exponent, and whether it makes it negative. -/
inductive Sign : Bool → List Char → Prop
  | none : Sign false []
  | plus : Sign false ['+']
  | minus : Sign true ['-']

/-- The exponent of a number, if it has one. -/
inductive Exponent : Option (Bool × List Char) → List Char → Prop
  | none : Exponent none []
  | some {negative : Bool} {e : Char} {ss ds : List Char} (mark : e = 'e' ∨ e = 'E')
      (sign : Sign negative ss) (digits : Digits ds) :
      Exponent (some (negative, ds)) (e :: (ss ++ ds))

/-- A number as it is written. -/
inductive Figures : Numeral → List Char → Prop
  | positive {ds fs es : List Char} {fraction : Option (List Char)}
      {exponent : Option (Bool × List Char)} (whole : Whole ds) (frac : Fraction fraction fs)
      (exp : Exponent exponent es) :
      Figures ⟨false, ds, fraction, exponent, .complete⟩ (ds ++ (fs ++ es))
  | negative {ds fs es : List Char} {fraction : Option (List Char)}
      {exponent : Option (Bool × List Char)} (whole : Whole ds) (frac : Fraction fraction fs)
      (exp : Exponent exponent es) :
      Figures ⟨true, ds, fraction, exponent, .complete⟩ ('-' :: (ds ++ (fs ++ es)))

/-- The letters of a word. -/
def Word.letters : Word → List Char
  | .null => ['n', 'u', 'l', 'l']
  | .truth => ['t', 'r', 'u', 'e']
  | .falsehood => ['f', 'a', 'l', 's', 'e']

mutual

/-- A value as it is written, without the blanks around it. -/
inductive Written : Node → List Char → Prop
  | word (w : Word) : Written (.word w) w.letters
  | number {n : Numeral} {cs : List Char} (figures : Figures n cs) : Written (.number n) cs
  | string {ps : List Piece} {cs : List Char} (spelled : Spelled ps cs) :
      Written (.string ⟨ps, .closed⟩) ('"' :: (cs ++ ['"']))
  | emptyArray {b : List Char} (blanks : Blanks b) :
      Written (.array [] .closed) ('[' :: (b ++ [']']))
  | array {ns : List Node} {cs : List Char} (items : WrittenItems ns cs) :
      Written (.array ns .closed) ('[' :: (cs ++ [']']))
  | emptyObject {b : List Char} (blanks : Blanks b) :
      Written (.object [] .closed) ('\x7b' :: (b ++ ['\x7d']))
  | object {ms : List (Quoted × Node)} {cs : List Char} (members : WrittenMembers ms cs) :
      Written (.object ms .closed) ('\x7b' :: (cs ++ ['\x7d']))

/-- The items of an array as they are written, with commas between them and blanks around them. -/
inductive WrittenItems : List Node → List Char → Prop
  | last {n : Node} {b₁ cs b₂ : List Char} (before : Blanks b₁) (value : Written n cs)
      (behind : Blanks b₂) : WrittenItems [n] (b₁ ++ (cs ++ b₂))
  | more {n : Node} {ns : List Node} {b₁ cs b₂ rest : List Char} (before : Blanks b₁)
      (value : Written n cs) (behind : Blanks b₂) (items : WrittenItems ns rest) :
      WrittenItems (n :: ns) (b₁ ++ (cs ++ (b₂ ++ ',' :: rest)))

/-- The members of an object as they are written. -/
inductive WrittenMembers : List (Quoted × Node) → List Char → Prop
  | last {ps : List Piece} {n : Node} {b₁ ks b₂ b₃ cs b₄ : List Char} (before : Blanks b₁)
      (key : Spelled ps ks) (colon : Blanks b₂) (between : Blanks b₃) (value : Written n cs)
      (behind : Blanks b₄) :
      WrittenMembers [(⟨ps, .closed⟩, n)]
        (b₁ ++ '"' :: (ks ++ '"' :: (b₂ ++ ':' :: (b₃ ++ (cs ++ b₄)))))
  | more {ps : List Piece} {n : Node} {ms : List (Quoted × Node)}
      {b₁ ks b₂ b₃ cs b₄ rest : List Char} (before : Blanks b₁) (key : Spelled ps ks)
      (colon : Blanks b₂) (between : Blanks b₃) (value : Written n cs) (behind : Blanks b₄)
      (members : WrittenMembers ms rest) :
      WrittenMembers ((⟨ps, .closed⟩, n) :: ms)
        (b₁ ++ '"' :: (ks ++ '"' :: (b₂ ++ ':' :: (b₃ ++ (cs ++ (b₄ ++ ',' :: rest))))))

end

/-- A whole text: a value with blanks around it. -/
inductive Text : Node → List Char → Prop
  | mk {n : Node} {b₁ cs b₂ : List Char} (before : Blanks b₁) (value : Written n cs)
      (behind : Blanks b₂) : Text n (b₁ ++ (cs ++ b₂))

/-! ## §2 — Being through with a value. -/

/-- What may stand right behind a value. -/
def Follows (c : Char) : Prop := isBlank c = true ∨ c = ',' ∨ c = ']' ∨ c = '\x7d'

theorem blank_cases {c : Char} (h : isBlank c = true) :
    c = ' ' ∨ c = '\n' ∨ c = '\t' ∨ c = '\x0d' := by
  simpa [isBlank, or_assoc] using h

theorem blank_follows {c : Char} (h : isBlank c = true) : Follows c := .inl h

theorem Follows.cases {c : Char} (h : Follows c) :
    c = ' ' ∨ c = '\n' ∨ c = '\t' ∨ c = '\x0d' ∨ c = ',' ∨ c = ']' ∨ c = '\x7d' := by
  obtain h | h := h
  · obtain h | h | h | h := blank_cases h <;> simp [h]
  · simp [h]

/-- A number that may end does not go on with what follows a value, and is not broken by it. -/
theorem NumberSoFar.ends {n : NumberSoFar} {c : Char} (hn : n.mayEnd = true) (hc : Follows c) :
    n.push? c = none ∧ n.brokenBy c = false := by
  obtain ⟨position, negative, digits, fraction, exponent⟩ := n
  have hdigit : c.isDigit = false ∧ (c == '.') = false ∧ (c == 'e') = false ∧
      (c == 'E') = false := by
    obtain rfl | rfl | rfl | rfl | rfl | rfl | rfl := hc.cases <;> decide
  cases position <;> simp_all [mayEnd, push?, brokenBy]

namespace State

/-- The reader is through with a value, except for the character that shows that a number is over:
at the end of the text, and with whatever may follow a value, it goes on from `t`. -/
structure Settles (s t : State) : Prop where
  through : s.endNumber = t
  follow : ∀ c, Follows c → s.feed c = t.feed c

/-- A state that is not within a number. -/
def Still (t : State) : Prop := t.endNumber = t ∧ ∀ c, t.feed c = feedDelivered c t

theorem Still.settles {t : State} (ht : t.Still) : t.Settles t := ⟨ht.1, fun _ _ => rfl⟩

@[simp] theorem deliver_item (n : Node) (done : List Node) (stack : List Frame) :
    deliver n (.item done :: stack) = .reading (.afterItem (n :: done)) stack := rfl

@[simp] theorem deliver_member (n : Node) (done : List (Quoted × Node)) (key : Quoted)
    (stack : List Frame) :
    deliver n (.member done key :: stack) = .reading (.afterMember ((key, n) :: done)) stack := rfl

theorem still_deliver (n : Node) (stack : List Frame) : (deliver n stack).Still := by
  cases stack with
  | nil => exact ⟨rfl, fun _ => rfl⟩
  | cons frame stack => cases frame <;> exact ⟨rfl, fun _ => rfl⟩

theorem settles_number {n : NumberSoFar} (stack : List Frame) (hn : n.mayEnd = true) :
    (State.reading (.number n) stack).Settles (deliver (.number (n.numeral .complete)) stack) where
  through := by simp only [endNumber, hn, if_true]
  follow c hc := by
    obtain ⟨hpush, hbroken⟩ := n.ends hn hc
    rw [(still_deliver _ stack).2 c]
    simp only [feed, hpush, hbroken, Bool.false_eq_true, if_false]

/-- Blanks are passed over where they leave the reader as it is. -/
theorem foldl_blanks {s : State} {b : List Char} (hs : ∀ c, isBlank c = true → s.feed c = s)
    (hb : Blanks b) : b.foldl feed s = s := by
  induction b with
  | nil => rfl
  | cons c b ih =>
    rw [List.foldl_cons, hs c (hb c List.mem_cons_self)]
    exact ih fun d hd => hb d (List.mem_cons_of_mem c hd)

/-- Blanks behind a value change nothing about where the reader settles. -/
theorem Settles.blanks {s t : State} {b : List Char} (h : s.Settles t) (ht : t.Still)
    (hstay : ∀ c, isBlank c = true → t.feed c = t) (hb : Blanks b) :
    (b.foldl feed s).Settles t := by
  cases b with
  | nil => exact h
  | cons c b =>
    have hc : isBlank c = true := hb c List.mem_cons_self
    rw [List.foldl_cons, h.follow c (blank_follows hc), hstay c hc,
      foldl_blanks hstay fun d hd => hb d (List.mem_cons_of_mem c hd)]
    exact ht.settles

/-! ## §3 — Strings and numbers. -/

theorem feed_string (owner : Owner) (position : StringAt) (pieces : List Piece)
    (stack : List Frame) (c : Char) :
    (State.reading (.string owner position pieces) stack).feed c =
      feedString c stack owner pieces position := rfl

/-- A hexadecimal digit takes one byte. -/
theorem utf8Size_hexDigit {c : Char} {n : Nat} (h : hexDigit? c = some n) : c.utf8Size = 1 := by
  have hle : c.toNat ≤ 127 := by
    unfold hexDigit? at h
    split at h
    · rename_i hd
      simp only [Char.isDigit, Bool.and_eq_true, decide_eq_true_eq] at hd
      have := hd.2
      simp only [UInt32.le_iff_toNat_le] at this
      have h9 : ('9' : Char).val.toNat = 57 := rfl
      change c.val.toNat ≤ 127
      omega
    · split at h
      · rename_i hd
        simp only [Bool.and_eq_true, decide_eq_true_eq, Char.le_def, UInt32.le_iff_toNat_le] at hd
        have hf : ('f' : Char).val.toNat = 102 := rfl
        change c.val.toNat ≤ 127
        omega
      · split at h
        · rename_i hd
          simp only [Bool.and_eq_true, decide_eq_true_eq, Char.le_def,
            UInt32.le_iff_toNat_le] at hd
          have hF : ('F' : Char).val.toNat = 70 := rfl
          change c.val.toNat ≤ 127
          omega
        · cases h
  rw [Char.utf8Size_eq_one_iff, UInt32.le_iff_toNat_le]
  exact hle

theorem hexValue_digits {a b c d : Char} {value : Nat}
    (h : hexValue? [a, b, c, d] = some value) :
    a.utf8Size = 1 ∧ b.utf8Size = 1 ∧ c.utf8Size = 1 ∧ d.utf8Size = 1 := by
  simp only [hexValue?, List.foldlM_cons, List.foldlM_nil, Option.bind_eq_bind,
    Option.bind_eq_some_iff, Option.map_eq_some_iff] at h
  obtain ⟨_, ⟨_, ha, _⟩, _, ⟨_, hb, _⟩, _, ⟨_, hc, _⟩, _, ⟨_, hd, _⟩, _⟩ := h
  exact ⟨utf8Size_hexDigit ha, utf8Size_hexDigit hb, utf8Size_hexDigit hc, utf8Size_hexDigit hd⟩

/-- The pieces of a string are collected as they come. -/
theorem foldl_spelled {ps : List Piece} {cs : List Char} (h : Spelled ps cs) (owner : Owner)
    (stack : List Frame) (seen : List Piece) :
    cs.foldl feed (.reading (.string owner .plain seen) stack) =
      .reading (.string owner .plain (ps.reverse ++ seen)) stack := by
  induction h generalizing seen with
  | nil => rfl
  | plain quote backslash control _ ih =>
    rw [List.foldl_cons, feed_string]
    simp only [feedString, beq_iff_eq, quote, backslash, control, if_false, ih,
      List.reverse_cons, List.append_assoc, List.singleton_append]
  | @escaped letter c _ _ stands _ ih =>
    have hu : letter ≠ 'u' := by
      rintro rfl
      simp [unescape?] at stands
    rw [List.foldl_cons, List.foldl_cons, feed_string]
    have hbackslash : feedString '\\' stack owner seen .plain =
      .reading (.string owner .escape seen) stack := rfl
    rw [hbackslash, feed_string]
    simp only [feedString, beq_iff_eq, hu, if_false, stands, ih, List.reverse_cons,
      List.append_assoc, List.singleton_append]
  | @unit a b c d value _ _ stands _ ih =>
    obtain ⟨ha, hb, hc, hd⟩ := hexValue_digits stands
    simp only [List.foldl_cons]
    have hbackslash : (State.reading (.string owner .plain seen) stack).feed '\\' =
      .reading (.string owner .escape seen) stack := rfl
    have hu : (State.reading (.string owner .escape seen) stack).feed 'u' =
      .reading (.string owner (.hex []) seen) stack := rfl
    rw [hbackslash, hu]
    simp [feed_string, feedString, ha, hb, hc, hd, stands, ih]

/-- A state within a number goes on with a character that belongs to it. -/
theorem feed_push {n n' : NumberSoFar} {c : Char} (stack : List Frame) (h : n.push? c = some n') :
    (State.reading (.number n) stack).feed c = .reading (.number n') stack := by
  simp only [feed, h]

theorem foldl_digits {ds : List Char} (hds : ∀ d ∈ ds, d.isDigit = true) (negative : Bool)
    (seen : List Char) (stack : List Frame) :
    ds.foldl feed (.reading (.number ⟨.digits, negative, seen, none, none⟩) stack) =
      .reading (.number ⟨.digits, negative, ds.reverse ++ seen, none, none⟩) stack := by
  induction ds generalizing seen with
  | nil => rfl
  | cons d ds ih =>
    have hd : d.isDigit = true := hds d List.mem_cons_self
    have hpush : (⟨.digits, negative, seen, none, none⟩ : NumberSoFar).push? d =
        some ⟨.digits, negative, d :: seen, none, none⟩ := by
      simp [NumberSoFar.push?, hd]
    rw [List.foldl_cons, feed_push stack hpush, ih fun c hc => hds c (List.mem_cons_of_mem d hc)]
    simp

theorem foldl_fraction {ds : List Char} (hds : ∀ d ∈ ds, d.isDigit = true) (negative : Bool)
    (whole seen : List Char) (stack : List Frame) :
    ds.foldl feed (.reading (.number ⟨.fraction, negative, whole, some seen, none⟩) stack) =
      .reading (.number ⟨.fraction, negative, whole, some (ds.reverse ++ seen), none⟩) stack := by
  induction ds generalizing seen with
  | nil => rfl
  | cons d ds ih =>
    have hd : d.isDigit = true := hds d List.mem_cons_self
    have hpush : (⟨.fraction, negative, whole, some seen, none⟩ : NumberSoFar).push? d =
        some ⟨.fraction, negative, whole, some (d :: seen), none⟩ := by
      simp [NumberSoFar.push?, NumberSoFar.pushFraction, hd]
    rw [List.foldl_cons, feed_push stack hpush, ih fun c hc => hds c (List.mem_cons_of_mem d hc)]
    simp

theorem foldl_exponent {ds : List Char} (hds : ∀ d ∈ ds, d.isDigit = true) (negative down : Bool)
    (whole seen : List Char) (fraction : Option (List Char)) (stack : List Frame) :
    ds.foldl feed (.reading (.number ⟨.exponent, negative, whole, fraction, some (down, seen)⟩)
        stack) =
      .reading (.number ⟨.exponent, negative, whole, fraction, some (down, ds.reverse ++ seen)⟩)
        stack := by
  induction ds generalizing seen with
  | nil => rfl
  | cons d ds ih =>
    have hd : d.isDigit = true := hds d List.mem_cons_self
    have hpush :
        (⟨.exponent, negative, whole, fraction, some (down, seen)⟩ : NumberSoFar).push? d =
          some ⟨.exponent, negative, whole, fraction, some (down, d :: seen)⟩ := by
      simp [NumberSoFar.push?, NumberSoFar.pushExponent, hd]
    rw [List.foldl_cons, feed_push stack hpush, ih fun c hc => hds c (List.mem_cons_of_mem d hc)]
    simp

/-- The number that a first digit starts. -/
def startDigits (negative : Bool) (d : Char) : NumberSoFar :=
  ⟨if d == '0' then .zero else .digits, negative, [d], none, none⟩

/-- Where a number is behind its whole part, and behind its fraction. -/
def AtWhole (position : NumberAt) : Prop := position = .zero ∨ position = .digits

theorem foldl_whole {d : Char} {ds : List Char} (h : Whole (d :: ds)) (negative : Bool)
    (stack : List Frame) :
    ∃ position, AtWhole position ∧
      ds.foldl feed (.reading (.number (startDigits negative d)) stack) =
        .reading (.number ⟨position, negative, (d :: ds).reverse, none, none⟩) stack := by
  cases h with
  | zero => exact ⟨.zero, .inl rfl, rfl⟩
  | digits digit nonzero all =>
    have hstart : startDigits negative d = ⟨.digits, negative, [d], none, none⟩ := by
      simp [startDigits, nonzero]
    refine ⟨.digits, .inr rfl, ?_⟩
    rw [hstart, foldl_digits all, List.reverse_cons]

theorem foldl_fractional {fraction : Option (List Char)} {fs : List Char} {position : NumberAt}
    (h : Fraction fraction fs) (hat : AtWhole position) (negative : Bool) (ds : List Char)
    (stack : List Frame) :
    ∃ behind, (AtWhole behind ∨ behind = .fraction) ∧
      fs.foldl feed (.reading (.number ⟨position, negative, ds, none, none⟩) stack) =
        .reading (.number ⟨behind, negative, ds, fraction.map List.reverse, none⟩) stack := by
  cases h with
  | none => exact ⟨position, .inl hat, rfl⟩
  | @some fs digits =>
    obtain ⟨hsome, hall⟩ := digits
    cases fs with
    | nil => exact absurd rfl hsome
    | cons d fs =>
      have hd : d.isDigit = true := hall d List.mem_cons_self
      have hpoint : (⟨position, negative, ds, none, none⟩ : NumberSoFar).push? '.' =
          some ⟨.point, negative, ds, some [], none⟩ := by
        obtain rfl | rfl := hat <;> rfl
      have hpush : (⟨.point, negative, ds, some [], none⟩ : NumberSoFar).push? d =
          some ⟨.fraction, negative, ds, some [d], none⟩ := by
        simp [NumberSoFar.push?, NumberSoFar.pushFraction, hd]
      refine ⟨.fraction, .inr rfl, ?_⟩
      rw [List.foldl_cons, List.foldl_cons, feed_push stack hpoint, feed_push stack hpush,
        foldl_fraction fun c hc => hall c (List.mem_cons_of_mem d hc)]
      simp

/-- The sign of an exponent leads to a place where its digits start. -/
theorem foldl_sign {down : Bool} {ss : List Char} (h : Sign down ss) (negative : Bool)
    (ds : List Char) (fraction : Option (List Char)) (stack : List Frame) :
    ∃ position, (position = .mark ∨ position = .sign) ∧
      ss.foldl feed (.reading (.number ⟨.mark, negative, ds, fraction, some (false, [])⟩) stack) =
        .reading (.number ⟨position, negative, ds, fraction, some (down, [])⟩) stack := by
  cases h with
  | none => exact ⟨.mark, .inl rfl, rfl⟩
  | plus => exact ⟨.sign, .inr rfl, rfl⟩
  | minus => exact ⟨.sign, .inr rfl, rfl⟩

theorem foldl_exponential {exponent : Option (Bool × List Char)} {es : List Char}
    {position : NumberAt} (h : Exponent exponent es)
    (hat : AtWhole position ∨ position = .fraction) (negative : Bool) (ds : List Char)
    (fraction : Option (List Char)) (stack : List Frame) :
    ∃ behind, (AtWhole behind ∨ behind = .fraction ∨ behind = .exponent) ∧
      es.foldl feed (.reading (.number ⟨position, negative, ds, fraction, none⟩) stack) =
        .reading (.number ⟨behind, negative, ds, fraction,
          exponent.map fun (down, digits) => (down, digits.reverse)⟩) stack := by
  cases h with
  | none => exact ⟨position, hat.imp_right .inl, rfl⟩
  | @some down e ss es mark sign digits =>
    obtain ⟨hsome, hall⟩ := digits
    cases es with
    | nil => exact absurd rfl hsome
    | cons d es =>
      have hd : d.isDigit = true := hall d List.mem_cons_self
      have hmark : (⟨position, negative, ds, fraction, none⟩ : NumberSoFar).push? e =
          some ⟨.mark, negative, ds, fraction, some (false, [])⟩ := by
        obtain rfl | rfl := mark <;> obtain (rfl | rfl) | rfl := hat <;> rfl
      obtain ⟨behind, hbehind, hsign⟩ := foldl_sign sign negative ds fraction stack
      have hpush : (⟨behind, negative, ds, fraction, some (down, [])⟩ : NumberSoFar).push? d =
          some ⟨.exponent, negative, ds, fraction, some (down, [d])⟩ := by
        obtain rfl | rfl := hbehind <;> simp [NumberSoFar.push?, NumberSoFar.pushExponent, hd]
      refine ⟨.exponent, .inr (.inr rfl), ?_⟩
      rw [List.foldl_cons, feed_push stack hmark, List.foldl_append, hsign, List.foldl_cons,
        feed_push stack hpush, foldl_exponent fun c hc => hall c (List.mem_cons_of_mem d hc)]
      simp

/-- The digits of a number, whatever its sign, leave the reader where the number may end. -/
theorem settles_figures {d : Char} {ds fs es : List Char} {fraction : Option (List Char)}
    {exponent : Option (Bool × List Char)} (whole : Whole (d :: ds)) (frac : Fraction fraction fs)
    (exp : Exponent exponent es) (negative : Bool) (stack : List Frame) :
    ((ds ++ (fs ++ es)).foldl feed (.reading (.number (startDigits negative d)) stack)).Settles
      (deliver (.number ⟨negative, d :: ds, fraction, exponent, .complete⟩) stack) := by
  obtain ⟨p₁, hp₁, h₁⟩ := foldl_whole whole negative stack
  obtain ⟨p₂, hp₂, h₂⟩ := foldl_fractional frac hp₁ negative (d :: ds).reverse stack
  obtain ⟨p₃, hp₃, h₃⟩ := foldl_exponential exp hp₂ negative (d :: ds).reverse
    (fraction.map List.reverse) stack
  rw [List.foldl_append, h₁, List.foldl_append, h₂, h₃]
  have hend : (⟨p₃, negative, (d :: ds).reverse, fraction.map List.reverse,
      exponent.map fun (down, digits) => (down, digits.reverse)⟩ : NumberSoFar).mayEnd = true := by
    obtain (rfl | rfl) | rfl | rfl := hp₃ <;> rfl
  have hnumeral : (⟨p₃, negative, (d :: ds).reverse, fraction.map List.reverse,
      exponent.map fun (down, digits) => (down, digits.reverse)⟩ : NumberSoFar).numeral .complete =
        ⟨negative, d :: ds, fraction, exponent, .complete⟩ := by
    cases fraction <;> cases exponent <;> simp [NumberSoFar.numeral]
  rw [← hnumeral]
  exact settles_number stack hend

/-! ## §4 — Values, items and members. -/

/-- What may stand at the start of a value. -/
def Opens (c : Char) : Prop := isBlank c = false ∧ c ≠ ']'

/-- A value is read as `n` wherever it stands: from its first character on until the reader settles
with the value delivered. -/
def Reads (n : Node) (cs : List Char) : Prop :=
  ∃ c rest, cs = c :: rest ∧ Opens c ∧
    ∀ stack, (rest.foldl feed (openValue c stack)).Settles (deliver n stack)

theorem opens_digit {c : Char} (h : c.isDigit = true) :
    Opens c ∧ ∀ stack, openValue c stack = .reading (.number (startDigits false c)) stack := by
  have hne : ∀ d : Char, d.isDigit = false → (c == d) = false := by
    intro d hd
    rw [beq_eq_false_iff_ne]
    rintro rfl
    rw [h] at hd
    cases hd
  constructor
  · exact ⟨by simp [isBlank, hne], by simpa using hne ']' rfl⟩
  · intro stack
    simp [openValue, startDigits, h, hne]

theorem reads_word (w : Word) : Reads (.word w) w.letters := by
  cases w with
  | null =>
    exact ⟨'n', ['u', 'l', 'l'], rfl, ⟨rfl, by decide⟩, fun _ => (still_deliver _ _).settles⟩
  | truth =>
    exact ⟨'t', ['r', 'u', 'e'], rfl, ⟨rfl, by decide⟩, fun _ => (still_deliver _ _).settles⟩
  | falsehood =>
    exact ⟨'f', ['a', 'l', 's', 'e'], rfl, ⟨rfl, by decide⟩, fun _ => (still_deliver _ _).settles⟩

theorem reads_number {n : Numeral} {cs : List Char} (h : Figures n cs) : Reads (.number n) cs := by
  have hstart : ∀ {ds : List Char}, Whole ds → ∃ d rest, ds = d :: rest ∧ d.isDigit = true := by
    intro ds hds
    cases hds with
    | zero => exact ⟨'0', [], rfl, rfl⟩
    | @digits d ds digit => exact ⟨d, ds, rfl, digit⟩
  cases h with
  | @positive _ fs es _ _ whole frac exp =>
    obtain ⟨d, ds, rfl, hd⟩ := hstart whole
    obtain ⟨hopens, hopen⟩ := opens_digit hd
    refine ⟨d, ds ++ (fs ++ es), rfl, hopens, fun stack => ?_⟩
    rw [hopen]
    exact settles_figures whole frac exp false stack
  | @negative _ fs es _ _ whole frac exp =>
    obtain ⟨d, ds, rfl, hd⟩ := hstart whole
    refine ⟨'-', d :: ds ++ (fs ++ es), rfl, ⟨rfl, by decide⟩, fun stack => ?_⟩
    have hpush : (⟨.minus, true, [], none, none⟩ : NumberSoFar).push? d =
        some (startDigits true d) := by
      simp [NumberSoFar.push?, startDigits, hd]
    have hopen : openValue '-' stack =
        .reading (.number ⟨.minus, true, [], none, none⟩) stack := rfl
    rw [hopen, List.cons_append, List.foldl_cons, feed_push stack hpush]
    exact settles_figures whole frac exp true stack

theorem reads_string {ps : List Piece} {cs : List Char} (h : Spelled ps cs) :
    Reads (.string ⟨ps, .closed⟩) ('"' :: (cs ++ ['"'])) := by
  refine ⟨'"', cs ++ ['"'], rfl, ⟨rfl, by decide⟩, fun stack => ?_⟩
  have hopen : openValue '"' stack = .reading (.string .value .plain []) stack := rfl
  rw [hopen, List.foldl_append, foldl_spelled h]
  have hclose : [('"' : Char)].foldl feed
      (.reading (.string .value .plain (ps.reverse ++ [])) stack) =
        deliver (.string ⟨(ps.reverse ++ []).reverse, .closed⟩) stack := rfl
  rw [hclose, List.append_nil, List.reverse_reverse]
  exact (still_deliver _ stack).settles

/-- A place where an item may stand, behind the items `done`. -/
structure ItemPlace (done : List Node) (stack : List Frame) (s : State) : Prop where
  stays : ∀ c, isBlank c = true → s.feed c = s
  opens : ∀ c, Opens c → s.feed c = openValue c (.item done :: stack)

theorem itemPlace_first (stack : List Frame) : ItemPlace [] stack (.reading .firstItem stack) where
  stays c hc := by simp [feed, feedDelivered, feedOther, hc]
  opens c hc := by simp [feed, feedDelivered, feedOther, hc.1, hc.2]

theorem itemPlace_next (done : List Node) (stack : List Frame) :
    ItemPlace done stack (.reading (.nextItem done) stack) where
  stays c hc := by simp [feed, feedDelivered, feedOther, hc]
  opens c hc := by simp [feed, feedDelivered, feedOther, hc.1, hc.2]

theorem still_afterItem (done : List Node) (stack : List Frame) :
    (State.reading (.afterItem done) stack).Still := ⟨rfl, fun _ => rfl⟩

theorem ItemPlace.item {n : Node} {b₁ cs b₂ : List Char} {done : List Node} {stack : List Frame}
    {s : State} (hs : ItemPlace done stack s) (before : Blanks b₁) (value : Reads n cs)
    (behind : Blanks b₂) :
    ((b₁ ++ (cs ++ b₂)).foldl feed s).Settles (.reading (.afterItem (n :: done)) stack) := by
  obtain ⟨c, rest, rfl, hopens, hreads⟩ := value
  rw [List.foldl_append, foldl_blanks hs.stays before, List.foldl_append, List.foldl_cons,
    hs.opens c hopens]
  refine (hreads _).blanks (still_afterItem _ _) (fun d hd => ?_) behind
  simp [feed, feedDelivered, feedOther, hd]

/-- A place where a key may stand, behind the members `done`. -/
structure KeyPlace (done : List (Quoted × Node)) (stack : List Frame) (s : State) : Prop where
  stays : ∀ c, isBlank c = true → s.feed c = s
  opens : s.feed '"' = .reading (.string (.key done) .plain []) stack

theorem keyPlace_first (stack : List Frame) : KeyPlace [] stack (.reading .firstKey stack) where
  stays c hc := by simp [feed, feedDelivered, feedOther, hc]
  opens := rfl

theorem keyPlace_next (done : List (Quoted × Node)) (stack : List Frame) :
    KeyPlace done stack (.reading (.nextKey done) stack) where
  stays c hc := by simp [feed, feedDelivered, feedOther, hc]
  opens := rfl

theorem still_afterMember (done : List (Quoted × Node)) (stack : List Frame) :
    (State.reading (.afterMember done) stack).Still := ⟨rfl, fun _ => rfl⟩

theorem KeyPlace.member {ps : List Piece} {n : Node} {b₁ ks b₂ b₃ cs b₄ : List Char}
    {done : List (Quoted × Node)} {stack : List Frame} {s : State} (hs : KeyPlace done stack s)
    (before : Blanks b₁) (key : Spelled ps ks) (colon : Blanks b₂) (between : Blanks b₃)
    (value : Reads n cs) (behind : Blanks b₄) :
    ((b₁ ++ '"' :: (ks ++ '"' :: (b₂ ++ ':' :: (b₃ ++ (cs ++ b₄))))).foldl feed s).Settles
      (.reading (.afterMember ((⟨ps, .closed⟩, n) :: done)) stack) := by
  obtain ⟨c, rest, rfl, hopens, hreads⟩ := value
  have hquote : (State.reading (.string (.key done) .plain (ps.reverse ++ [])) stack).feed '"' =
      .reading (.colon done ⟨ps, .closed⟩) stack := by
    rw [List.append_nil]
    change State.reading (.colon done ⟨ps.reverse.reverse, .closed⟩) stack = _
    rw [List.reverse_reverse]
  have hcolon : (State.reading (.colon done ⟨ps, .closed⟩) stack).feed ':' =
      .reading .value (.member done ⟨ps, .closed⟩ :: stack) := rfl
  have hstay : ∀ d, isBlank d = true →
      (State.reading (.colon done ⟨ps, .closed⟩) stack).feed d =
        .reading (.colon done ⟨ps, .closed⟩) stack := by
    intro d hd
    simp [feed, feedDelivered, feedOther, hd]
  have hvalue : ∀ d, isBlank d = true →
      (State.reading .value (.member done ⟨ps, .closed⟩ :: stack)).feed d =
        .reading .value (.member done ⟨ps, .closed⟩ :: stack) := by
    intro d hd
    simp [feed, feedDelivered, feedOther, hd]
  have hopen : (State.reading .value (.member done ⟨ps, .closed⟩ :: stack)).feed c =
      openValue c (.member done ⟨ps, .closed⟩ :: stack) := by
    simp [feed, feedDelivered, feedOther, hopens.1]
  rw [List.foldl_append, foldl_blanks hs.stays before, List.foldl_cons, hs.opens,
    List.foldl_append, foldl_spelled key, List.foldl_cons, hquote, List.foldl_append,
    foldl_blanks hstay colon, List.foldl_cons, hcolon, List.foldl_append,
    foldl_blanks hvalue between, List.foldl_append, List.foldl_cons, hopen]
  refine (hreads _).blanks (still_afterMember _ _) (fun d hd => ?_) behind
  simp [feed, feedDelivered, feedOther, hd]

/-- A container is over with its bracket, wherever the reader settled before. -/
theorem settles_close {s t : State} {c : Char} {n : Node} {stack : List Frame} (h : s.Settles t)
    (hc : Follows c) (hclose : t.feed c = deliver n stack) :
    ([c].foldl feed s).Settles (deliver n stack) := by
  rw [List.foldl_cons, List.foldl_nil, h.follow c hc, hclose]
  exact (still_deliver n stack).settles

mutual

/-- **A value is read as what it stands for**, by the grammar's own cases. -/
theorem reads_written {n : Node} {cs : List Char} : Written n cs → Reads n cs
  | .word w => reads_word w
  | .number figures => reads_number figures
  | .string spelled => reads_string spelled
  | @Written.emptyArray b blanks => by
    refine ⟨'[', b ++ [']'], rfl, ⟨rfl, by decide⟩, fun stack => ?_⟩
    have hopen : openValue '[' stack = .reading .firstItem stack := rfl
    rw [hopen, List.foldl_append, foldl_blanks (itemPlace_first stack).stays blanks]
    exact (still_deliver _ stack).settles
  | @Written.array ns cs items => by
    refine ⟨'[', cs ++ [']'], rfl, ⟨rfl, by decide⟩, fun stack => ?_⟩
    have hopen : openValue '[' stack = .reading .firstItem stack := rfl
    have hitems := reads_items items [] stack _ (itemPlace_first stack)
    rw [hopen, List.foldl_append]
    refine settles_close hitems (.inr (.inr (.inl rfl))) ?_
    change deliver (.array (ns.reverse ++ []).reverse .closed) stack = _
    rw [List.append_nil, List.reverse_reverse]
  | @Written.emptyObject b blanks => by
    refine ⟨'\x7b', b ++ ['\x7d'], rfl, ⟨rfl, by decide⟩, fun stack => ?_⟩
    have hopen : openValue '\x7b' stack = .reading .firstKey stack := rfl
    rw [hopen, List.foldl_append, foldl_blanks (keyPlace_first stack).stays blanks]
    exact (still_deliver _ stack).settles
  | @Written.object ms cs members => by
    refine ⟨'\x7b', cs ++ ['\x7d'], rfl, ⟨rfl, by decide⟩, fun stack => ?_⟩
    have hopen : openValue '\x7b' stack = .reading .firstKey stack := rfl
    have hmembers := reads_members members [] stack _ (keyPlace_first stack)
    rw [hopen, List.foldl_append]
    refine settles_close hmembers (.inr (.inr (.inr rfl))) ?_
    change deliver (.object (ms.reverse ++ []).reverse .closed) stack = _
    rw [List.append_nil, List.reverse_reverse]

/-- Items are read one behind the other. -/
theorem reads_items {ns : List Node} {cs : List Char} :
    WrittenItems ns cs → ∀ done stack s, ItemPlace done stack s →
      (cs.foldl feed s).Settles (.reading (.afterItem (ns.reverse ++ done)) stack)
  | .last before value behind, _, _, _, hs => hs.item before (reads_written value) behind
  | @WrittenItems.more n ns b₁ cs b₂ rest before value behind items, done, stack, s, hs => by
    have hitem := hs.item before (reads_written value) behind
    have hcomma : (State.reading (.afterItem (n :: done)) stack).feed ',' =
        .reading (.nextItem (n :: done)) stack := rfl
    have hrest := reads_items items (n :: done) stack _ (itemPlace_next _ _)
    have happ : b₁ ++ (cs ++ (b₂ ++ ',' :: rest)) = (b₁ ++ (cs ++ b₂)) ++ ',' :: rest := by simp
    rw [happ, List.foldl_append, List.foldl_cons, hitem.follow ',' (.inr (.inl rfl)), hcomma]
    simpa using hrest

/-- Members are read one behind the other. -/
theorem reads_members {ms : List (Quoted × Node)} {cs : List Char} :
    WrittenMembers ms cs → ∀ done stack s, KeyPlace done stack s →
      (cs.foldl feed s).Settles (.reading (.afterMember (ms.reverse ++ done)) stack)
  | .last before key colon between value behind, _, _, _, hs =>
    hs.member before key colon between (reads_written value) behind
  | @WrittenMembers.more ps n ms b₁ ks b₂ b₃ cs b₄ rest before key colon between value behind
      members, done, stack, s, hs => by
    have hmember := hs.member before key colon between (reads_written value) behind
    have hcomma : (State.reading (.afterMember ((⟨ps, .closed⟩, n) :: done)) stack).feed ',' =
        .reading (.nextKey ((⟨ps, .closed⟩, n) :: done)) stack := rfl
    have hrest := reads_members members ((⟨ps, .closed⟩, n) :: done) stack _ (keyPlace_next _ _)
    have happ : b₁ ++ '"' :: (ks ++ '"' :: (b₂ ++ ':' :: (b₃ ++ (cs ++ (b₄ ++ ',' :: rest))))) =
        (b₁ ++ '"' :: (ks ++ '"' :: (b₂ ++ ':' :: (b₃ ++ (cs ++ b₄))))) ++ ',' :: rest := by simp
    rw [happ, List.foldl_append, List.foldl_cons, hmember.follow ',' (.inr (.inl rfl)), hcomma]
    simpa using hrest

end

end State

/-- **A well-formed text is read as the tree it stands for**, and nothing is left of it. -/
theorem Text.read {n : Node} {cs : List Char} (h : Text n cs) :
    Document.ofChars cs = ⟨n, false⟩ := by
  obtain ⟨before, value, behind⟩ := h
  obtain ⟨c, rest, rfl, hopens, hreads⟩ := State.reads_written value
  have hstay : ∀ d, isBlank d = true → State.start.feed d = .start := by
    intro d hd
    simp [State.start, State.feed, State.feedDelivered, State.feedOther, hd]
  have hopen : State.start.feed c = State.openValue c [] := by
    simp [State.start, State.feed, State.feedDelivered, State.feedOther, hopens.1]
  have hdone : ∀ d, isBlank d = true → (State.finished n false).feed d = .finished n false := by
    intro d hd
    simp [State.feed, State.feedDelivered, hd]
  have hsettles := (hreads []).blanks (State.still_deliver n []) hdone behind
  rw [Document.ofChars, List.foldl_append, State.foldl_blanks hstay before, List.foldl_append,
    List.foldl_cons, hopen, State.finish, hsettles.through]
  rfl

end Postal.Json

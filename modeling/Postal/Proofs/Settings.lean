import Postal.Config.Json
import Postal.Proofs.Members
import Postal.Proofs.Rendering

/-!
# A configuration is read from any object that gives its fields.

A text for a configuration is a JSON object. Each of the five fields may be given in it once, by a
whole number of any size or, for the seed, by null; the members stand in any order, with any others
in between that hold whatever JSON can hold, and with blanks anywhere.

* §1 — what such an object gives, and the configuration that is meant by it.
* §2 — what one field makes of the number it is given.
* §3 — reading the whole: the configuration that is meant, unless a number does not fit into a word
  or the configuration cannot be worked with.
-/

namespace Postal.Config

open Json (Node Quoted Numeral Fields named valuesOf)

/-! ## §1 — What is given. -/

/-- What a text gives for a configuration; a seed may be given as null. -/
structure Given where
  capacity : Option Nat
  workerCount : Option Nat
  customerCount : Option Nat
  minute : Option Nat
  seed : Option (Option Nat)

/-- A number as it is given. -/
def literal (n : Nat) : Node := .number (.ofNat n)

/-- A seed as it is given. -/
def seedLiteral : Option Nat → Node
  | none => .word .null
  | some n => literal n

namespace Given

/-- The members of an object give exactly this, each field once or not at all. -/
structure StandsIn (g : Given) (ps : List (String × Node)) : Prop where
  capacity : valuesOf "capacity" ps = (g.capacity.map literal).toList
  workerCount : valuesOf "worker_count" ps = (g.workerCount.map literal).toList
  customerCount : valuesOf "customer_count" ps = (g.customerCount.map literal).toList
  minute : valuesOf "millis_per_minute" ps = (g.minute.map literal).toList
  seed : valuesOf "seed" ps = (g.seed.map seedLiteral).toList

/-- Every number that is given. -/
def numbers (g : Given) : List Nat :=
  g.capacity.toList ++ g.workerCount.toList ++ g.customerCount.toList ++ g.minute.toList ++
    g.seed.join.toList

/-- The standard configuration with what is given in its place. -/
def config (g : Given) : Config where
  capacity := g.capacity.getD standard.capacity
  workerCount := g.workerCount.getD standard.workerCount
  customerCount := g.customerCount.getD standard.customerCount
  minute := g.minute.getD standard.minute
  seed := g.seed.getD standard.seed

end Given

/-! ## §2 — One field. -/

theorem word_literal {kind : String} {n a : Nat} :
    Json.word kind (literal n) = .ok a ↔ n < Nat.pow 2 64 ∧ a = n := by
  by_cases hn : n ≤ wordMax
  · rw [literal, Json.word, Json.number_ofNat hn]
    simp only [bind, Except.bind, Except.ok.injEq, ← le_wordMax_iff, hn, true_and]
    exact eq_comm
  · have hnumber : (Numeral.ofNat n).number = (Numeral.ofNat n).float.map .float := by
      simp [Numeral.number, Numeral.ofNat, Json.NumberEnd.error?, Json.decimalValue_toDigits,
        Nat.lt_of_not_le hn]
    rw [literal, Json.word, hnumber, ← le_wordMax_iff]
    cases (Numeral.ofNat n).float <;> simp [Except.map, bind, Except.bind, hn]

/-- A field with a stand-in is the number that is given, if that fits into a word. -/
theorem tells_literal {kind : String} {given : Option Nat} {fallback a : Nat} :
    Fields.Tells (Json.word kind) (some fallback) a (given.map literal).toList ↔
      (∀ n ∈ given.toList, n < Nat.pow 2 64) ∧ a = given.getD fallback := by
  cases given with
  | none => simp [Fields.Tells, eq_comm]
  | some n => simp [Fields.Tells, word_literal]

theorem tells_seedLiteral {kind : String} {given : Option (Option Nat)} {fallback a : Option Nat} :
    Fields.Tells (Json.orNull (Json.word kind)) (some fallback) a (given.map seedLiteral).toList ↔
      (∀ n ∈ given.join.toList, n < Nat.pow 2 64) ∧ a = given.getD fallback := by
  match given with
  | none => simp [Fields.Tells, eq_comm]
  | some none => simp [Fields.Tells, seedLiteral, Json.orNull, eq_comm]
  | some (some n) =>
    have hword : Json.orNull (Json.word kind) (literal n) =
        (Json.word kind (literal n)).map some := rfl
    simp only [Fields.Tells, seedLiteral, Option.map_some, Option.toList_some, hword,
      Json.map_ok_iff, word_literal, Option.join_some, List.mem_singleton, forall_eq,
      Option.getD_some]
    constructor
    · rintro ⟨b, ⟨hn, rfl⟩, rfl⟩
      exact ⟨hn, rfl⟩
    · rintro ⟨hn, rfl⟩
      exact ⟨n, ⟨hn, rfl⟩, rfl⟩

/-! ## §3 — The whole. -/

/-- An object is read as the configuration that is meant, provided that its numbers fit. -/
theorem decoder_object {g : Given} {ms : List (Quoted × Node)} {text : String}
    (htext : Json.Text (.object ms .closed) text.toList)
    (hkeys : ∀ m ∈ ms, Json.Paired m.1.pieces) (hgiven : g.StandsIn (named ms)) {c : Config} :
    Json.decode decoder text = .ok c ↔ (∀ n ∈ g.numbers, n < Nat.pow 2 64) ∧ c = g.config := by
  have hproper := htext.members
  have hnamed := Json.named_of_paired fun m hm => ⟨(hproper m hm).1, hkeys m hm⟩
  have hvalues : ∀ m ∈ ms, m.2.error? = none := fun m hm => (hproper m hm).2
  rw [Json.decode_of_text htext, decoder, Json.map_ok_iff]
  constructor
  · rintro ⟨⟨capacity, workerCount, customerCount, minute, seed, _⟩, hrecord, rfl⟩
    have hgives := (Json.record_object (by decide) hnamed hvalues).mp hrecord
    obtain ⟨h₁, h₂, h₃, h₄, h₅, _⟩ := hgives
    rw [hgiven.capacity, sizeDecoder, tells_literal] at h₁
    rw [hgiven.workerCount, sizeDecoder, tells_literal] at h₂
    rw [hgiven.customerCount, sizeDecoder, tells_literal] at h₃
    rw [hgiven.minute, longDecoder, tells_literal] at h₄
    rw [hgiven.seed, longDecoder, tells_seedLiteral] at h₅
    refine ⟨?_, ?_⟩
    · simp only [Given.numbers, List.mem_append]
      rintro n ((((hn | hn) | hn) | hn) | hn)
      · exact h₁.1 n hn
      · exact h₂.1 n hn
      · exact h₃.1 n hn
      · exact h₄.1 n hn
      · exact h₅.1 n hn
    · rw [h₁.2, h₂.2, h₃.2, h₄.2, h₅.2]
      rfl
  · rintro ⟨hfits, rfl⟩
    refine ⟨(g.config.capacity, g.config.workerCount, g.config.customerCount, g.config.minute,
      g.config.seed, ()), (Json.record_object (by decide) hnamed hvalues).mpr ?_, rfl⟩
    simp only [Given.numbers, List.mem_append] at hfits
    refine ⟨?_, ?_, ?_, ?_, ?_, trivial⟩
    · rw [hgiven.capacity, sizeDecoder, tells_literal]
      exact ⟨fun n hn => hfits n (.inl (.inl (.inl (.inl hn)))), rfl⟩
    · rw [hgiven.workerCount, sizeDecoder, tells_literal]
      exact ⟨fun n hn => hfits n (.inl (.inl (.inl (.inr hn)))), rfl⟩
    · rw [hgiven.customerCount, sizeDecoder, tells_literal]
      exact ⟨fun n hn => hfits n (.inl (.inl (.inr hn))), rfl⟩
    · rw [hgiven.minute, longDecoder, tells_literal]
      exact ⟨fun n hn => hfits n (.inl (.inr hn)), rfl⟩
    · rw [hgiven.seed, longDecoder, tells_seedLiteral]
      exact ⟨fun n hn => hfits n (.inr hn), rfl⟩

/-- With numbers that fit, what is read is the configuration that is meant, if it can be worked
with. -/
theorem ofText_fits {g : Given} {ms : List (Quoted × Node)} {text : String}
    (htext : Json.Text (.object ms .closed) text.toList)
    (hkeys : ∀ m ∈ ms, Json.Paired m.1.pieces) (hgiven : g.StandsIn (named ms))
    (hfits : ∀ n ∈ g.numbers, n < Nat.pow 2 64) :
    ofText text = g.config.validated.mapError .invalid := by
  rw [ofText, (decoder_object htext hkeys hgiven).mpr ⟨hfits, rfl⟩]
  rfl

/-- With a number that does not fit, nothing is read. -/
theorem ofText_beyond {g : Given} {ms : List (Quoted × Node)} {text : String}
    (htext : Json.Text (.object ms .closed) text.toList)
    (hkeys : ∀ m ∈ ms, Json.Paired m.1.pieces) (hgiven : g.StandsIn (named ms))
    (hbeyond : ¬ ∀ n ∈ g.numbers, n < Nat.pow 2 64) :
    ∃ e, ofText text = .error (.unreadable e) := by
  cases hdecode : Json.decode decoder text with
  | error e =>
    refine ⟨e, ?_⟩
    rw [ofText, hdecode]
    rfl
  | ok c => exact absurd ((decoder_object htext hkeys hgiven).mp hdecode).1 hbeyond

theorem validated_eq (c : Config) :
    (c.capacity = 0 → c.validated = .error .noCapacity) ∧
      (c.capacity ≠ 0 → c.workerCount = 0 → c.validated = .error .noWorkers) ∧
      (c.capacity ≠ 0 → c.workerCount ≠ 0 → c.validated = .ok c) := by
  refine ⟨fun h => ?_, fun h h' => ?_, fun h h' => ?_⟩
  · simp [validated, problem?, h]
  · simp [validated, problem?, h, h']
  · simp [validated, problem?, h, h']

/-- **A configuration is read from exactly those objects that give one to work with.** For every
object that gives some of the five fields, each once, in any order and with anything else in
between: it is read if and only if all its numbers fit into a word and there are room and workers;
what is read is the standard configuration with the given fields in their place, whatever the order
and whatever else stands there; and with neither room nor workers it is the room that is missed. -/
theorem reads_given_fields {g : Given} {ms : List (Quoted × Node)} {text : String}
    (htext : Json.Text (.object ms .closed) text.toList)
    (hkeys : ∀ m ∈ ms, Json.Paired m.1.pieces) (hgiven : g.StandsIn (named ms)) :
    ((∃ c, ofText text = .ok c) ↔
      (∀ n ∈ g.numbers, n < Nat.pow 2 64) ∧ g.config.capacity ≠ 0 ∧ g.config.workerCount ≠ 0) ∧
    (∀ c, ofText text = .ok c → c = g.config) ∧
    ((∀ n ∈ g.numbers, n < Nat.pow 2 64) → g.config.capacity = 0 → g.config.workerCount = 0 →
      ∃ p, ofText text = .error p ∧ p.message = "capacity must be greater than 0") := by
  obtain ⟨hroom, hstaff, hvalid⟩ := validated_eq g.config
  by_cases hfits : ∀ n ∈ g.numbers, n < Nat.pow 2 64
  · have hread := ofText_fits htext hkeys hgiven hfits
    by_cases hcapacity : g.config.capacity = 0
    · rw [hroom hcapacity] at hread
      rw [hread]
      refine ⟨⟨fun ⟨c, hc⟩ => (nomatch hc), fun h => absurd hcapacity h.2.1⟩,
        fun c hc => (nomatch hc), fun _ _ _ => ⟨.invalid .noCapacity, rfl, rfl⟩⟩
    · by_cases hworkers : g.config.workerCount = 0
      · rw [hstaff hcapacity hworkers] at hread
        rw [hread]
        exact ⟨⟨fun ⟨c, hc⟩ => (nomatch hc), fun h => absurd hworkers h.2.2⟩,
          fun c hc => (nomatch hc), fun _ h => absurd h hcapacity⟩
      · rw [hvalid hcapacity hworkers] at hread
        rw [hread]
        refine ⟨⟨fun _ => ⟨hfits, hcapacity, hworkers⟩, fun _ => ⟨g.config, rfl⟩⟩, fun c hc => ?_,
          fun _ h => absurd h hcapacity⟩
        cases hc
        rfl
  · obtain ⟨e, hread⟩ := ofText_beyond htext hkeys hgiven hfits
    rw [hread]
    exact ⟨⟨fun ⟨c, hc⟩ => (nomatch hc), fun h => absurd h.1 hfits⟩, fun c hc => (nomatch hc),
      fun h => absurd h hfits⟩

/-- The members of an object that gives two fields, out of turn and behind another member. -/
def outOfTurn : List (Quoted × Node) := [
  (.ofString "note", .array [.number ⟨false, ['1'], some ['5'], none, .complete⟩,
    .object [] .closed] .closed),
  (.ofString "seed", .word .null),
  (.ofString "worker_count", literal 3)]

theorem outOfTurn_written :
    Json.Text (.object outOfTurn .closed)
      "\x7b\"note\" : [1.5, \x7b\x7d],\n\"seed\":null,\"worker_count\":3\x7d".toList := by
  have blank : Json.Blanks [' '] := by decide
  have line : Json.Blanks ['\n'] := by decide
  have digits : Json.Digits ['5'] := ⟨by decide, List.forall_mem_singleton.2 rfl⟩
  have half : Json.Figures ⟨false, ['1'], some ['5'], none, .complete⟩ ['1', '.', '5'] :=
    .positive (.digits rfl (by decide) (List.forall_mem_nil _)) (.some digits) .none
  have note := Json.Written.array (.more Json.blanks_nil (.number half) Json.blanks_nil
    (.last blank (.emptyObject Json.blanks_nil) Json.blanks_nil))
  have members := Json.WrittenMembers.more Json.blanks_nil (Json.spelled_string "note".toList) blank
    blank note Json.blanks_nil (.more line (Json.spelled_string "seed".toList) Json.blanks_nil
      Json.blanks_nil (.word .null) Json.blanks_nil (.last Json.blanks_nil
        (Json.spelled_string "worker_count".toList) Json.blanks_nil Json.blanks_nil
        (.number (Json.figures_ofNat 3)) Json.blanks_nil))
  have text := Json.Text.mk Json.blanks_nil (.object members) Json.blanks_nil
  simpa [outOfTurn, literal, Quoted.ofString, Json.escape, Json.Word.letters,
    Nat.toDigits_of_lt_base, Nat.digitChar] using text

theorem reads_given_fields_out_of_turn :
    ∃ c, ofText "\x7b\"note\" : [1.5, \x7b\x7d],\n\"seed\":null,\"worker_count\":3\x7d" = .ok c ∧
      c = { standard with workerCount := 3 } := by
  have hkeys : ∀ m ∈ outOfTurn, Json.Paired m.1.pieces := by
    simp [outOfTurn, Json.paired_ofString]
  have hgiven : Given.StandsIn ⟨none, some 3, none, none, some none⟩ (named outOfTurn) := by
    constructor <;> simp [named, outOfTurn, Quoted.name, Except.toOption, valuesOf, seedLiteral]
  obtain ⟨hok, hsame, _⟩ := reads_given_fields outOfTurn_written hkeys hgiven
  obtain ⟨c, hc⟩ := hok.mpr (by decide)
  exact ⟨c, hc, hsame c hc⟩

end Postal.Config

import Postal.Event
import Postal.Text.Split

/-!
# A line tells its event.

The line of an event is read word by word. Between blanks a number stays in one piece, since it is
made of digits, and no two kinds of events have lines of the same words around their numbers and
their task. So from the line alone the event comes back (`Event.ofLine?`), but for the task of a
finished service, which its line leaves out.

* §1 — the words of a text, and numbers among them.
* §2 — the words of a line.
* §3 — the event that the words tell.
-/

namespace Postal

/-! ## §1 — the words of a text -/

namespace Text

/-- The parts of a text between its blanks. -/
def words (s : String) : List String := (split (· == ' ') s.toList).map String.ofList

/-- The number that a word of digits stands for. -/
def numeral? (word : String) : Option Nat :=
  if !word.toList.isEmpty && word.toList.all Char.isDigit then
    some (Nat.ofDigitChars 10 word.toList 0)
  else none

/-- Words do not reach across a blank. -/
theorem words_append (s t : String) : words (s ++ (" " ++ t)) = words s ++ words t := by
  have hlist : (s ++ (" " ++ t)).toList = s.toList ++ ' ' :: t.toList := by simp
  rw [words, hlist, split_append s.toList rfl, List.map_append, words, words]

/-- A number is one word. -/
theorem words_toString (n : Nat) : words (toString n) = [toString n] := by
  have hnone : ∀ c ∈ (toString n).toList, (c == ' ') = false := by
    intro c hc
    rw [Nat.toString_eq_repr, Nat.toList_repr] at hc
    have hdigit := Nat.isDigit_of_mem_toDigits (by omega) (by omega) hc
    refine beq_eq_false_iff_ne.2 ?_
    rintro rfl
    cases hdigit
  rw [words, split_of_none hnone, List.map_singleton, String.ofList_toList]

/-- A number is read from its word. -/
theorem numeral?_repr (n : Nat) : numeral? n.repr = some n := by
  have hsome : (Nat.toDigits 10 n).isEmpty = false :=
    List.isEmpty_eq_false_iff.2 Nat.toDigits_ne_nil
  have hdigits : (Nat.toDigits 10 n).all Char.isDigit = true :=
    List.all_eq_true.2 fun _ hc => Nat.isDigit_of_mem_toDigits (by omega) (by omega) hc
  rw [numeral?, Nat.toList_repr, hsome, hdigits, Nat.ofDigitChars_toDigits (by omega) (by omega)]
  rfl

/-- A number between two texts. -/
theorem words_around (s : String) (n : Nat) (t : String) :
    words (s ++ " " ++ toString n ++ (" " ++ t)) = words s ++ toString n :: words t := by
  rw [String.append_assoc, String.append_assoc, words_append, words_append, words_toString]
  rfl

/-- Two numbers, each behind a text. -/
theorem words_between (s : String) (n : Nat) (t : String) (m : Nat) :
    words (s ++ " " ++ toString n ++ (" " ++ t ++ " ") ++ toString m) =
      words s ++ toString n :: (words t ++ [toString m]) := by
  have hafter : s ++ " " ++ toString n ++ (" " ++ t ++ " ") ++ toString m =
      s ++ " " ++ toString n ++ (" " ++ (t ++ (" " ++ toString m))) := by
    simp only [String.append_assoc]
  rw [hafter, words_around, words_append, words_toString]

end Text

namespace Event

open Text (numeral? numeral?_repr words_append words_around words_between words_toString)

/-! ## §2 — the words of a line -/

/-- The words of the line of an event. -/
def words : Event → List String
  | .customerCreated c => ["Customer", toString c, "created"]
  | .customerAdmitted c => ["Customer", toString c, "enters", "post", "office"]
  | .customerClaimsWorker c w =>
    ["Customer", toString c, "approaches", "postal", "worker", toString w]
  | .workerCreated w => ["Postal", "worker", toString w, "created"]
  | .workerIdle w => ["Postal", "worker", toString w, "is", "free"]
  | .workerAnnouncesIntent w c =>
    ["Postal", "worker", toString w, "serving", "customer", toString c]
  | .customerAnnouncesIntent c w t =>
    ["Customer", toString c, "asks", "postal", "worker", toString w, "to"] ++ Text.words t.request
  | .taskStarted w c t =>
    ["Postal", "worker", toString w, "starts"] ++ Text.words t.progressive ++
      ["for", "customer", toString c]
  | .taskFinished w c _ =>
    ["Postal", "worker", toString w, "finished", "serving", "customer", toString c]
  | .customerFinished c t => ["Customer", toString c, "finished"] ++ Text.words t.progressive
  | .customerDeparts c => ["Customer", toString c, "leaves", "post", "office"]
  | .customerJoined c => ["Joined", "customer", toString c]

/-- A line falls into its words. -/
theorem words_line (e : Event) : Text.words e.line = e.words := by
  cases e with
  | customerCreated c => exact words_around "Customer" c "created"
  | customerAdmitted c => exact words_around "Customer" c "enters post office"
  | customerClaimsWorker c w => exact words_between "Customer" c "approaches postal worker" w
  | workerCreated w => exact words_around "Postal worker" w "created"
  | workerIdle w => exact words_around "Postal worker" w "is free"
  | workerAnnouncesIntent w c => exact words_between "Postal worker" w "serving customer" c
  | customerAnnouncesIntent c w t =>
      show Text.words ("Customer" ++ " " ++ toString c ++ (" " ++ "asks postal worker" ++ " ") ++
        toString w ++ (" " ++ "to" ++ " ") ++ t.request) = _
      simp only [String.append_assoc, words_append, words_toString]
      rfl
  | taskStarted w c t =>
      show Text.words ("Postal worker" ++ " " ++ toString w ++ (" " ++ "starts" ++ " ") ++
        t.progressive ++ (" " ++ "for customer" ++ " ") ++ toString c) = _
      simp only [String.append_assoc, words_append, words_toString]
      rfl
  | taskFinished w c _ => exact words_between "Postal worker" w "finished serving customer" c
  | customerFinished c t =>
      show Text.words ("Customer" ++ " " ++ toString c ++ (" " ++ "finished" ++ " ") ++
        t.progressive) = _
      simp only [String.append_assoc, words_append, words_toString]
      rfl
  | customerDeparts c => exact words_around "Customer" c "leaves post office"
  | customerJoined c =>
      show Text.words ("Joined customer" ++ " " ++ toString c) = _
      rw [String.append_assoc, words_append, words_toString]
      rfl

/-! ## §3 — the event that the words tell -/

/-- The task that a phrase stands for. -/
def phrased? (phrase : Task → String) (ws : List String) : Option Task :=
  Task.all.find? fun t => Text.words (phrase t) == ws

/-- The event in which a customer does what the words say. -/
def ofCustomer? (c : Nat) : List String → Option Event
  | ["created"] => some (.customerCreated c)
  | ["enters", "post", "office"] => some (.customerAdmitted c)
  | ["approaches", "postal", "worker", w] => return .customerClaimsWorker c (← numeral? w)
  | "asks" :: "postal" :: "worker" :: w :: "to" :: phrase =>
    return .customerAnnouncesIntent c (← numeral? w) (← phrased? Task.request phrase)
  | "finished" :: phrase => return .customerFinished c (← phrased? Task.progressive phrase)
  | ["leaves", "post", "office"] => some (.customerDeparts c)
  | _ => none

/-- The event in which a worker does what the words say. Those of a finished service leave out its
task, and `untold` is put for it. -/
def ofWorker? (untold : Task) (w : Nat) : List String → Option Event
  | ["created"] => some (.workerCreated w)
  | ["is", "free"] => some (.workerIdle w)
  | ["serving", "customer", c] => return .workerAnnouncesIntent w (← numeral? c)
  | ["finished", "serving", "customer", c] => return .taskFinished w (← numeral? c) untold
  | "starts" :: ws =>
    -- the phrase is of any length, so the customer is looked for from the end
    match ws.reverse with
    | c :: "customer" :: "for" :: phrase =>
      return .taskStarted w (← numeral? c) (← phrased? Task.progressive phrase.reverse)
    | _ => none
  | _ => none

/-- The event that words tell. -/
def ofWords? (untold : Task) : List String → Option Event
  | "Customer" :: c :: ws => do ofCustomer? (← numeral? c) ws
  | "Postal" :: "worker" :: w :: ws => do ofWorker? untold (← numeral? w) ws
  | ["Joined", "customer", c] => return .customerJoined (← numeral? c)
  | _ => none

/-- The event that a line tells. -/
def ofLine? (untold : Task) (line : String) : Option Event := ofWords? untold (Text.words line)

/-- What a line tells of an event: `untold` stands for the task of a finished service. -/
def told (untold : Task) : Event → Event
  | .taskFinished w c _ => .taskFinished w c untold
  | e => e

theorem phrased?_request (t : Task) : phrased? Task.request (Text.words t.request) = some t := by
  cases t <;> decide

theorem phrased?_progressive (t : Task) :
    phrased? Task.progressive (Text.words t.progressive) = some t := by
  cases t <;> decide

/-- **The words of a line are read back as its event.** -/
theorem ofWords?_words (untold : Task) (e : Event) :
    ofWords? untold e.words = some (e.told untold) := by
  cases e with
  | customerAnnouncesIntent c w t =>
      simp [words, ofWords?, ofCustomer?, told, numeral?_repr, phrased?_request]
  | customerFinished c t =>
      simp [words, ofWords?, ofCustomer?, told, numeral?_repr, phrased?_progressive]
  | taskStarted w c t =>
      simp [words, ofWords?, ofWorker?, told, numeral?_repr, phrased?_progressive]
  | _ => simp [words, ofWords?, ofCustomer?, ofWorker?, told, numeral?_repr]

/-- **From the line of an event the event comes back**, as far as the line tells it. -/
theorem ofLine?_line (untold : Task) (e : Event) :
    ofLine? untold e.line = some (e.told untold) := by
  rw [ofLine?, words_line, ofWords?_words]

/-! ## The theorem -/

section Told

variable (untold : Task) (e : Event)

theorem line_told : (e.told untold).line = e.line := by cases e <;> rfl

theorem kind_told : (e.told untold).kind = e.kind := by cases e <;> rfl

theorem customer?_told : (e.told untold).customer? = e.customer? := by cases e <;> rfl

theorem worker?_told : (e.told untold).worker? = e.worker? := by cases e <;> rfl

/-- Only of a finished service is anything left out. -/
theorem told_eq_self {e : Event} (h : e.kind ≠ "task_finished") : e.told untold = e := by
  cases e with
  | taskFinished w c t => exact absurd rfl h
  | _ => rfl

/-- Two lines are equal if and only if they tell the same. -/
theorem line_eq_line_iff {e₁ e₂ : Event} :
    e₁.line = e₂.line ↔ e₁.told untold = e₂.told untold := by
  constructor
  · intro hline
    have hread : some (e₁.told untold) = some (e₂.told untold) := by
      rw [← ofLine?_line, hline, ofLine?_line]
    exact Option.some.inj hread
  · intro htold
    rw [← line_told untold e₁, htold, line_told]

end Told

/-- **A line identifies its event.** Take any two events, with ids as large as they may be. From its
line alone an event comes back, but for the task of a finished service; and the lines of two events
are equal if and only if the events are, but for that task. So if their lines are equal, the events
are of the same kind, they concern the same customer and the same worker, and unless they tell of a
finished service they carry the same task. -/
theorem line_identifies_event (e₁ e₂ : Event) (untold : Task) :
    ofLine? untold e₁.line = some (e₁.told untold) ∧
    (e₁.line = e₂.line ↔ e₁.told untold = e₂.told untold) ∧
    (e₁.line = e₂.line →
      e₁.kind = e₂.kind ∧ e₁.customer? = e₂.customer? ∧ e₁.worker? = e₂.worker? ∧
        (e₁.kind ≠ "task_finished" → e₁.task? = e₂.task?)) := by
  refine ⟨ofLine?_line untold e₁, line_eq_line_iff untold, fun hline => ?_⟩
  have htold : e₁.told untold = e₂.told untold := (line_eq_line_iff untold).1 hline
  have hkind : e₁.kind = e₂.kind := by rw [← kind_told untold e₁, htold, kind_told]
  refine ⟨hkind, ?_, ?_, fun hother => ?_⟩
  · rw [← customer?_told untold e₁, htold, customer?_told]
  · rw [← worker?_told untold e₁, htold, worker?_told]
  · rw [← told_eq_self untold hother, htold, told_eq_self untold (hkind ▸ hother)]

/-- The line of a finished service is the same for a letter and for stamps. The line in which a
package is asked for tells the package. -/
theorem line_identifies_event_unsaid :
    let letter : Event := .taskFinished 3 4 .mailLetter
    let stamps : Event := .taskFinished 3 4 .buyStamps
    let asks : Event := .customerAnnouncesIntent 4 1 .mailPackage
    (letter.line = stamps.line ∧ letter ≠ stamps ∧ letter.kind = stamps.kind ∧
      letter.customer? = stamps.customer? ∧ letter.worker? = stamps.worker?) ∧
    asks.line = "Customer 4 asks postal worker 1 to mail a package" ∧
      ofLine? .buyStamps "Customer 4 asks postal worker 1 to mail a package" = some asks ∧
      asks.kind ≠ "task_finished" ∧ asks.task? = some .mailPackage := by
  intro letter stamps asks
  obtain ⟨-, -, hsame⟩ := line_identifies_event letter stamps .buyStamps
  obtain ⟨hkind, hcustomer, hworker, -⟩ := hsame rfl
  have hline : asks.line = "Customer 4 asks postal worker 1 to mail a package" := by decide
  refine ⟨⟨rfl, by decide, hkind, hcustomer, hworker⟩, hline, ?_, by decide, rfl⟩
  rw [← hline]
  exact (line_identifies_event asks asks .buyStamps).1

end Event

end Postal

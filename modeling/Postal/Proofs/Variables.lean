import Mathlib.Data.List.TakeWhile
import Postal.Config.Environment
import Postal.Proofs.Settings

/-!
# A configuration is read from the variables that are set.

Each of five variables may be unset, be set to text, or be set to bytes that are no text. What the
text of a variable may look like is said once, as a grammar: blanks, at most one plus sign, digits,
blanks (`Text.Denotes`). A text is read if and only if it is of that form and its number fits into a
word, however many zeros it begins with. The variables are looked at in the order of the fields, so
that the problem that is reported is the one of the first variable that cannot be read.

* §1 — the numbers that a text denotes.
* §2 — what one variable gives, and what is wrong with it.
* §3 — all five: the first that cannot be read, or the configuration that is meant.
-/

namespace Postal

/-! ## §1 — The numbers that a text denotes. -/

namespace Text

/-- **`Denotes cs n`** — the text is the number `n`, which fits into a word: decimal digits, at most
one plus sign before them, and blanks at either end. -/
inductive Denotes : List Char → Nat → Prop
  | mk {before sign digits after : List Char} {n : Nat} (hbefore : ∀ c ∈ before, isSpace c = true)
      (hsign : sign = [] ∨ sign = ['+']) (hsome : digits ≠ [])
      (hdigits : ∀ c ∈ digits, c.isDigit = true) (hafter : ∀ c ∈ after, isSpace c = true)
      (hvalue : Nat.ofDigitChars 10 digits 0 = n) (hfits : n < Nat.pow 2 64) :
      Denotes (before ++ (sign ++ digits) ++ after) n

/-- Digits behind a value only make it larger. -/
theorem le_ofDigitChars (value : Nat) (cs : List Char) : value ≤ Nat.ofDigitChars 10 cs value := by
  induction cs generalizing value with
  | nil => exact Nat.le_refl value
  | cons c cs ih =>
      rw [Nat.ofDigitChars_cons]
      exact Nat.le_trans (by omega) (ih _)

/-- **Digit by digit.** The digits behind a value are read as the number that all of them stand for,
unless that is too large; where a part of them is too large, so is the whole. -/
theorem unsignedFrom_eq_ok {value n : Nat} {cs : List Char} (hvalue : value ≤ wordMax) :
    unsignedFrom value cs = .ok n ↔
      (∀ c ∈ cs, c.isDigit = true) ∧ Nat.ofDigitChars 10 cs value = n ∧ n ≤ wordMax := by
  induction cs generalizing value with
  | nil =>
      rw [unsignedFrom, Nat.ofDigitChars_nil, Except.ok.injEq]
      constructor
      · rintro rfl
        exact ⟨fun c hc => absurd hc List.not_mem_nil, rfl, hvalue⟩
      · exact fun h => h.2.1
  | cons c cs ih =>
      rw [unsignedFrom, Nat.ofDigitChars_cons, List.forall_mem_cons, Nat.mul_comm 10 value]
      by_cases hdigit : c.isDigit = true
      · by_cases hnext : value * 10 + (c.toNat - '0'.toNat) ≤ wordMax
        · simp only [hdigit, hnext, if_true, true_and]
          exact ih hnext
        · simp only [hdigit, hnext, if_true, if_false, true_and, reduceCtorEq, false_iff]
          rintro ⟨-, rfl, hle⟩
          exact hnext (Nat.le_trans (le_ofDigitChars _ cs) hle)
      · simp [hdigit]

/-- No digit is a plus sign. -/
theorem ne_plus_of_isDigit {c : Char} (hc : c.isDigit = true) : c ≠ '+' := by
  rintro rfl
  cases hc

/-- **What is read as a number**: a plus sign or none, and digits. -/
theorem unsigned_eq_ok {cs : List Char} {n : Nat} :
    unsigned cs = .ok n ↔
      ∃ sign digits, cs = sign ++ digits ∧ (sign = [] ∨ sign = ['+']) ∧ digits ≠ [] ∧
        (∀ c ∈ digits, c.isDigit = true) ∧ Nat.ofDigitChars 10 digits 0 = n ∧ n ≤ wordMax := by
  constructor
  · intro h
    unfold unsigned at h
    split at h
    · cases h
    · cases h
    · next rest hrest =>
      exact ⟨['+'], rest, rfl, .inr rfl, hrest, (unsignedFrom_eq_ok (Nat.zero_le _)).1 h⟩
    · next hnil _ _ => exact ⟨[], cs, rfl, .inl rfl, hnil, (unsignedFrom_eq_ok (Nat.zero_le _)).1 h⟩
  · rintro ⟨sign, digits, rfl, hsign, hsome, hread⟩
    have hfrom := (unsignedFrom_eq_ok (Nat.zero_le wordMax)).2 hread
    obtain ⟨d, ds, rfl⟩ := List.exists_cons_of_ne_nil hsome
    rcases hsign with rfl | rfl
    · have hplus := ne_plus_of_isDigit (hread.1 d List.mem_cons_self)
      rw [List.nil_append, unsigned]
      · exact hfrom
      · simp
      · simp [hplus]
      · simp [hplus]
    · exact hfrom

/-- A text is blanks, what is left of it when they are gone, and blanks. -/
theorem trim_parts (cs : List Char) :
    ∃ before after, cs = before ++ trim cs ++ after ∧ (∀ c ∈ before, isSpace c = true) ∧
      ∀ c ∈ after, isSpace c = true := by
  refine ⟨cs.takeWhile isSpace, ((cs.dropWhile isSpace).reverse.takeWhile isSpace).reverse, ?_,
    fun c hc => List.mem_takeWhile_imp hc, fun c hc => ?_⟩
  · rw [trim, trimEnd, List.append_assoc, ← List.reverse_append, List.takeWhile_append_dropWhile,
      List.reverse_reverse, List.takeWhile_append_dropWhile]
  · exact List.mem_takeWhile_imp (List.mem_reverse.1 hc)

/-- Blanks in front go away, up to the first other character. -/
theorem dropWhile_blanks {before cs : List Char} (hbefore : ∀ c ∈ before, isSpace c = true)
    (hcs : ∀ c ∈ cs.head?, isSpace c = false) : (before ++ cs).dropWhile isSpace = cs := by
  rw [List.dropWhile_append_of_pos hbefore]
  cases cs with
  | nil => rfl
  | cons c cs => rw [List.dropWhile_cons_of_neg (by simp [hcs c rfl])]

/-- Between blanks, a text without any is what is left when they are gone. -/
theorem trim_between {before cs after : List Char} (hbefore : ∀ c ∈ before, isSpace c = true)
    (hafter : ∀ c ∈ after, isSpace c = true) (hsome : cs ≠ [])
    (hcs : ∀ c ∈ cs, isSpace c = false) : trim (before ++ cs ++ after) = cs := by
  have hfront : (before ++ (cs ++ after)).dropWhile isSpace = cs ++ after := by
    refine dropWhile_blanks hbefore fun c hc => hcs c ?_
    rw [List.head?_append_of_ne_nil cs hsome] at hc
    exact List.mem_of_mem_head? hc
  have hback : (after.reverse ++ cs.reverse).dropWhile isSpace = cs.reverse := by
    refine dropWhile_blanks (fun c hc => hafter c (List.mem_reverse.1 hc)) fun c hc => hcs c ?_
    exact List.mem_reverse.1 (List.mem_of_mem_head? hc)
  rw [trim, List.append_assoc, hfront, trimEnd, List.reverse_append, hback, List.reverse_reverse]

/-- A digit is no blank. -/
theorem isSpace_of_isDigit {c : Char} (hc : c.isDigit = true) : isSpace c = false := by
  obtain ⟨hlow, hhigh⟩ := Char.isDigit_iff_toNat.1 hc
  have hlow : 48 ≤ c.toNat := hlow
  have hhigh : c.toNat ≤ 57 := hhigh
  simp only [isSpace, Bool.or_eq_false_iff, Bool.and_eq_false_iff, decide_eq_false_iff_not,
    beq_eq_false_iff_ne, ne_eq]
  omega

/-- **What is read between blanks** is the number that the text denotes. -/
theorem unsigned_trim {cs : List Char} {n : Nat} : unsigned (trim cs) = .ok n ↔ Denotes cs n := by
  constructor
  · intro h
    obtain ⟨sign, digits, hparts, hsign, hsome, hdigits, hvalue, hfits⟩ := unsigned_eq_ok.1 h
    obtain ⟨before, after, hcs, hbefore, hafter⟩ := trim_parts cs
    rw [hcs, hparts]
    exact .mk hbefore hsign hsome hdigits hafter hvalue (le_wordMax_iff.1 hfits)
  · rintro ⟨hbefore, hsign, hsome, hdigits, hafter, hvalue, hfits⟩
    rw [trim_between hbefore hafter (by simp [hsome])]
    · exact unsigned_eq_ok.2
        ⟨_, _, rfl, hsign, hsome, hdigits, hvalue, le_wordMax_iff.2 hfits⟩
    · intro c hc
      rcases List.mem_append.1 hc with hc | hc
      · rcases hsign with rfl | rfl
        · exact absurd hc List.not_mem_nil
        · rw [List.mem_singleton.1 hc]
          rfl
      · exact isSpace_of_isDigit (hdigits c hc)

example : unsigned (trim "\u3000+0011\u0085 ".toList) = .ok 11 := by decide

end Text

/-! ## §2 — One variable. -/

/-- **`env.Gives name v`** — the variable is unset and gives nothing, or it is set to a text that
denotes the number it gives. -/
inductive Environment.Gives (env : Environment) (name : String) : Option Nat → Prop
  | unset (h : env name = none) : Gives env name none
  | set {s : String} {n : Nat} (h : env name = some (.text s)) (hs : Text.Denotes s.toList n) :
      Gives env name (some n)

/-- **`env.Readable name`** — if the variable is set then it is set to a text that denotes a number.
-/
def Environment.Readable (env : Environment) (name : String) : Prop :=
  ∀ setting, env name = some setting → ∃ s n, setting = .text s ∧ Text.Denotes s.toList n

namespace Config

/-- **`e.Blames env name`** — the problem is that of the variable, as it is set. -/
inductive EnvironmentProblem.Blames (env : Environment) (name : String) : EnvironmentProblem → Prop
  | notText {bs : List UInt8} (h : env name = some (.bytes bs)) : Blames env name (.notText name bs)
  | notANumber {s : String} {reason : Text.NotANumber} (h : env name = some (.text s))
      (hreason : Text.unsigned (Text.trim s.toList) = .error reason) :
      Blames env name (.notANumber name s reason)

section Variable

variable {env : Environment} {name : String} {v : Option Nat} {e : EnvironmentProblem}

/-- A variable gives what is read of it. -/
theorem numberSetting_ok : numberSetting env name = .ok v ↔ env.Gives name v := by
  constructor
  · intro h
    unfold numberSetting at h
    split at h
    · next hunset =>
      obtain rfl := Except.ok.inj h
      exact .unset hunset
    · cases h
    · next s hset =>
      split at h
      · next n hn =>
        obtain rfl := Except.ok.inj h
        exact .set hset (Text.unsigned_trim.1 hn)
      · cases h
  · rintro (hunset | ⟨hset, hs⟩)
    · rw [numberSetting, hunset]
    · simp only [numberSetting, hset, Text.unsigned_trim.2 hs]

/-- Of a variable that cannot be read it is told what is wrong with it. -/
theorem numberSetting_error (h : numberSetting env name = .error e) : e.Blames env name := by
  unfold numberSetting at h
  split at h
  · cases h
  · next hset =>
    obtain rfl := Except.error.inj h
    exact .notText hset
  · next s hset =>
    split at h
    · cases h
    · next reason hreason =>
      obtain rfl := Except.error.inj h
      exact .notANumber hset hreason

/-- A variable gives something if and only if it can be read. -/
theorem readable_iff_gives : env.Readable name ↔ ∃ v, env.Gives name v := by
  constructor
  · intro h
    cases hname : env name with
    | none => exact ⟨none, .unset hname⟩
    | some setting =>
        obtain ⟨s, n, rfl, hs⟩ := h setting hname
        exact ⟨some n, .set hname hs⟩
  · rintro ⟨v, hunset | ⟨hset, hs⟩⟩ setting hsetting
    · rw [hunset] at hsetting
      cases hsetting
    · exact ⟨_, _, (Option.some.inj (hset.symm.trans hsetting)).symm, hs⟩

/-- The problem of a variable is worded with its name in front. -/
theorem EnvironmentProblem.Blames.message (h : e.Blames env name) :
    ∃ rest, e.message = name ++ rest := by
  cases h with
  | notText hset => exact ⟨_, by rw [EnvironmentProblem.message, String.append_assoc]⟩
  | notANumber hset hreason =>
      exact ⟨_, by rw [EnvironmentProblem.message, String.append_assoc, String.append_assoc,
        String.append_assoc]⟩

end Variable

/-! ## §3 — All five. -/

/-- The variables, in the order in which they are looked at. -/
def allVariables : List String :=
  [capacityVariable, workersVariable, customersVariable, minuteVariable, seedVariable]

/-- **`g.ComesFrom env`** — each variable gives what is given for its field. -/
structure Given.ComesFrom (g : Given) (env : Environment) : Prop where
  capacity : env.Gives capacityVariable g.capacity
  workerCount : env.Gives workersVariable g.workerCount
  customerCount : env.Gives customersVariable g.customerCount
  minute : env.Gives minuteVariable g.minute
  seed : ∃ v, env.Gives seedVariable v ∧ g.seed = v.map some

/-- What numbers give for the five fields, in their order. -/
def Given.ofNumbers : List (Option Nat) → Given
  | [capacity, workers, customers, minute, seed] =>
    ⟨capacity, workers, customers, minute, seed.map some⟩
  | _ => ⟨none, none, none, none, none⟩

section Environment

variable {env : Environment} {g : Given}

/-- The variables are looked at one after the other, and what they give makes the configuration. -/
theorem ofEnvironment_eq (env : Environment) :
    ofEnvironment env = (allVariables.mapM (numberSetting env)).bind fun vs =>
      (Given.ofNumbers vs).config.validated.mapError .invalid := by
  simp only [ofEnvironment, allVariables, List.mapM_cons, List.mapM_nil]
  cases numberSetting env capacityVariable with
  | error e => rfl
  | ok capacity =>
  cases numberSetting env workersVariable with
  | error e => rfl
  | ok workers =>
  cases numberSetting env customersVariable with
  | error e => rfl
  | ok customers =>
  cases numberSetting env minuteVariable with
  | error e => rfl
  | ok minute =>
  cases numberSetting env seedVariable with
  | error e => rfl
  | ok seed => cases seed <;> rfl

/-- **What is given is meant**: with all variables read, only the configuration itself can be wrong.
-/
theorem ofEnvironment_of_comesFrom (h : g.ComesFrom env) :
    ofEnvironment env = g.config.validated.mapError .invalid := by
  obtain ⟨v, hseed, hgiven⟩ := h.seed
  have hread : allVariables.mapM (numberSetting env) =
      .ok [g.capacity, g.workerCount, g.customerCount, g.minute, v] := by
    simp only [allVariables, List.mapM_cons, List.mapM_nil, numberSetting_ok.2 h.capacity,
      numberSetting_ok.2 h.workerCount, numberSetting_ok.2 h.customerCount,
      numberSetting_ok.2 h.minute, numberSetting_ok.2 hseed]
    rfl
  rw [ofEnvironment_eq, hread, Except.bind, Given.ofNumbers, ← hgiven]

/-- With all variables readable, something is given. -/
theorem exists_comesFrom (h : ∀ name ∈ allVariables, env.Readable name) :
    ∃ g : Given, g.ComesFrom env := by
  obtain ⟨capacity, hcapacity⟩ := readable_iff_gives.1 (h capacityVariable (by decide))
  obtain ⟨workers, hworkers⟩ := readable_iff_gives.1 (h workersVariable (by decide))
  obtain ⟨customers, hcustomers⟩ := readable_iff_gives.1 (h customersVariable (by decide))
  obtain ⟨minute, hminute⟩ := readable_iff_gives.1 (h minuteVariable (by decide))
  obtain ⟨seed, hseed⟩ := readable_iff_gives.1 (h seedVariable (by decide))
  exact ⟨⟨capacity, workers, customers, minute, seed.map some⟩, hcapacity, hworkers, hcustomers,
    hminute, seed, hseed, rfl⟩

/-- A list whose members are read one after the other is read up to the first that cannot be. -/
theorem mapM_eq_error {A B E : Type} {f : A → Except E B} {before : List A} {a : A} {e : E}
    (hbefore : ∀ b ∈ before, ∃ v, f b = .ok v) (ha : f a = .error e) (after : List A) :
    (before ++ a :: after).mapM f = .error e := by
  induction before with
  | nil =>
      rw [List.nil_append, List.mapM_cons, ha]
      rfl
  | cons b before ih =>
      obtain ⟨v, hv⟩ := hbefore b List.mem_cons_self
      have hrest := ih fun c hc => hbefore c (List.mem_cons_of_mem b hc)
      rw [List.cons_append, List.mapM_cons, hv, hrest]
      rfl

/-- Either all members of a list have a property, or there is a first one that has not. -/
theorem all_or_first {A : Type} (P : A → Prop) (l : List A) :
    (∀ a ∈ l, P a) ∨ ∃ before a after, l = before ++ a :: after ∧ (∀ b ∈ before, P b) ∧ ¬ P a := by
  induction l with
  | nil => exact .inl fun a ha => absurd ha List.not_mem_nil
  | cons a l ih =>
      by_cases ha : P a
      · rcases ih with hall | ⟨before, b, after, rfl, hbefore, hb⟩
        · exact .inl (List.forall_mem_cons.2 ⟨ha, hall⟩)
        · exact .inr ⟨a :: before, b, after, rfl, List.forall_mem_cons.2 ⟨ha, hbefore⟩, hb⟩
      · exact .inr ⟨[], a, l, rfl, fun b hb => absurd hb List.not_mem_nil, ha⟩

/-- **The first variable that cannot be read** is to blame. -/
theorem ofEnvironment_of_not_readable {before after : List String} {name : String}
    (hsplit : allVariables = before ++ name :: after)
    (hbefore : ∀ earlier ∈ before, env.Readable earlier) (hname : ¬ env.Readable name) :
    ∃ e, ofEnvironment env = .error e ∧ e.Blames env name := by
  cases hread : numberSetting env name with
  | ok v => exact absurd (readable_iff_gives.2 ⟨v, numberSetting_ok.1 hread⟩) hname
  | error e =>
      have hfirst : allVariables.mapM (numberSetting env) = .error e := by
        rw [hsplit]
        refine mapM_eq_error (fun earlier hearlier => ?_) hread after
        obtain ⟨v, hv⟩ := readable_iff_gives.1 (hbefore earlier hearlier)
        exact ⟨v, numberSetting_ok.2 hv⟩
      exact ⟨e, by rw [ofEnvironment_eq, hfirst]; rfl, numberSetting_error hread⟩

/-- Nothing is wrong with a configuration that has room and workers. -/
theorem problem?_eq_none {c : Config} :
    c.problem? = none ↔ c.capacity ≠ 0 ∧ c.workerCount ≠ 0 := by
  rw [problem?]
  split_ifs with hcapacity hworkers
  · simp [hcapacity]
  · simp [hworkers]
  · simp [hcapacity, hworkers]

/-- With all variables read, the configuration that is given decides. -/
theorem ofEnvironment_of_problem? {g : Given} (h : g.ComesFrom env) :
    (g.config.problem? = none → ofEnvironment env = .ok g.config) ∧
      ∀ p, g.config.problem? = some p → ofEnvironment env = .error (.invalid p) := by
  rw [ofEnvironment_of_comesFrom h, validated]
  refine ⟨fun hnone => ?_, fun p hsome => ?_⟩
  · rw [hnone]
    rfl
  · rw [hsome]
    rfl

/-- **A configuration is read from the environment** if and only if every variable that is set is
set to text that denotes a number, and with these numbers there are room and workers. What is read
is the standard configuration with the numbers of exactly the set variables in their place.
Otherwise the first variable in the order of the fields that cannot be read is to blame, and named;
only when all of them can be read is it told what is wrong with the configuration. -/
theorem reads_set_variables (env : Environment) :
    ((∃ c, ofEnvironment env = .ok c) ↔
      (∀ name ∈ allVariables, env.Readable name) ∧
        ∃ g : Given, g.ComesFrom env ∧ g.config.capacity ≠ 0 ∧ g.config.workerCount ≠ 0) ∧
    (∀ (c : Config) (g : Given), ofEnvironment env = .ok c → g.ComesFrom env → c = g.config) ∧
    (∀ e, ofEnvironment env = .error e →
      (∃ before name after, allVariables = before ++ name :: after ∧
        (∀ earlier ∈ before, env.Readable earlier) ∧ ¬ env.Readable name ∧
        e.Blames env name ∧ ∃ rest, e.message = name ++ rest) ∨
      ((∀ name ∈ allVariables, env.Readable name) ∧
        ∃ (g : Given) (p : Problem), g.ComesFrom env ∧ g.config.problem? = some p ∧
          e = .invalid p)) := by
  rcases all_or_first env.Readable allVariables with
    hall | ⟨before, name, after, hsplit, hbefore, hname⟩
  · obtain ⟨g, hg⟩ := exists_comesFrom hall
    refine ⟨⟨?_, ?_⟩, fun c g' hc hg' => ?_, fun e he => .inr ⟨hall, g, ?_⟩⟩
    · rintro ⟨c, hc⟩
      refine ⟨hall, g, hg, ?_⟩
      rw [← problem?_eq_none]
      cases hproblem : g.config.problem? with
      | none => rfl
      | some p => cases hc.symm.trans ((ofEnvironment_of_problem? hg).2 p hproblem)
    · rintro ⟨-, g', hg', hsound⟩
      exact ⟨g'.config, (ofEnvironment_of_problem? hg').1 (problem?_eq_none.2 hsound)⟩
    · cases hproblem : g'.config.problem? with
      | none => exact Except.ok.inj (hc.symm.trans ((ofEnvironment_of_problem? hg').1 hproblem))
      | some p => cases hc.symm.trans ((ofEnvironment_of_problem? hg').2 p hproblem)
    · cases hproblem : g.config.problem? with
      | none => cases he.symm.trans ((ofEnvironment_of_problem? hg).1 hproblem)
      | some p =>
          have hinvalid := he.symm.trans ((ofEnvironment_of_problem? hg).2 p hproblem)
          exact ⟨p, hg, rfl, Except.error.inj hinvalid⟩
  · obtain ⟨e, he, hblames⟩ := ofEnvironment_of_not_readable hsplit hbefore hname
    have hmember : name ∈ allVariables := by
      rw [hsplit]
      exact List.mem_append_right before List.mem_cons_self
    rw [he]
    refine ⟨⟨?_, fun h => absurd (h.1 name hmember) hname⟩, ?_, ?_⟩
    · rintro ⟨c, ⟨⟩⟩
    · rintro c g ⟨⟩
    · rintro e ⟨⟩
      exact .inl ⟨before, name, after, hsplit, hbefore, hname, hblames, hblames.message⟩

end Environment

end Config

end Postal

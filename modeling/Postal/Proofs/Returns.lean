import Postal.Proofs.Close
import Postal.Proofs.Course

/-!
# Permits come back.

A customer holds a permit of the gate from its admission until it is out again, and a worker holds
the permit of the scale from its grant until the scale is given back. Both go out through the same
door however their call ends: with a result, with a fault, or unwound by a panic at any of their
announcements. So what a person has taken and not given back is what it holds where it stands
(`Stock.Followed`), and whoever has ended holds nothing. Since nobody else touches the permits, they
are all free when nobody is left who could hold one.

## §1 — stocks: permits on the premises, and what everybody holds of them.
## §2 — the gate and the scale.
## §3 — what a person takes and returns.
## §4 — how often a customer does.
## §5 — every run.
-/

namespace Postal

/-! ## §1 — stocks -/

/-- **A stock of permits** on the premises, with what everybody holds of them. They pass only
between the stock and the person that takes a step. -/
structure Stock where
  permits : Premises → Semaphore
  held : Person → Nat
  steps : ∀ {f f' : Floor} {i : Nat},
    (∀ (j : Nat) (p : Person), f.people[j]? = some p → p.Apt) → f.Steps i f' →
      ∃ p p', f.people[i]? = some p ∧ f'.people = f.people.set i p' ∧
        (permits f.premises).Passes (permits f'.premises) (held p) (held p')
  swaps : ∀ {p p' : Person}, Floor.Swaps p p' → held p' = held p
  unwinds : ∀ {p p' : Person}, p.unwind? = some p' → held p' = held p
  fires : ∀ premises : Premises, permits { premises with fired := true } = permits premises
  held_le : ∀ p, held p ≤ 1

namespace Stock

open Floor

variable (t : Stock)

/-- **`t.Conserved total f`** — each of `total` permits is free or in somebody's hand. -/
def Conserved (total : Nat) (f : Floor) : Prop :=
  (t.permits f.premises).Conserved (tally t.held f.people) total

variable {t} {total i : Nat} {f f' : Floor} {m : Move}

/-- **Every move** conserves the permits; newcomers hold none. -/
theorem Conserved.move (h : t.Conserved total f)
    (hapt : ∀ (j : Nat) (p : Person), f.people[j]? = some p → p.Apt)
    (hmove : f.move? m = some f') (hjoin : ∀ p, m = .join p → t.held p = 0) :
    t.Conserved total f' := by
  cases m with
  | step i =>
      obtain ⟨p, p', hi, hpeople, hpasses⟩ := t.steps hapt (steps_of_step? hmove)
      rw [Conserved, tally_eq_add hi] at h
      rw [Conserved, hpeople, tally_set_eq_add hi]
      exact h.passes hpasses
  | exchange i j =>
      obtain ⟨w, people', -, hex, rfl⟩ := exchanges_of_exchange? hmove
      rw [Conserved, hex.tally_eq t.swaps]
      exact h
  | unwind i =>
      obtain ⟨p, p', hi, hunwind, rfl⟩ := unwind?_eq_some hmove
      rw [Conserved, tally_set_of_eq hi (t.unwinds hunwind)]
      exact h
  | fire =>
      obtain rfl := Option.some.inj hmove
      rw [Conserved, fire, t.fires]
      exact h
  | join p =>
      obtain rfl := Option.some.inj hmove
      rw [Conserved, join, tally_concat, hjoin p rfl]
      exact h

/-- When nobody holds a permit, all of them are free. -/
theorem Conserved.all_free (h : t.Conserved total f) (hnobody : ∀ p ∈ f.people, t.held p = 0) :
    (t.permits f.premises).permits = total :=
  Semaphore.Conserved.all_free h (tally_eq_zero_of_mem hnobody)

end Stock

/-! ## §2 — the gate and the scale -/

/-- Nobody holds more than one permit of the gate. -/
theorem Visiting.gateHand_le (v : Visiting) : v.gateHand.permits ≤ 1 := by
  cases v with
  | entering pos => cases pos <;> exact Nat.le_of_ble_eq_true rfl
  | _ => exact Nat.le_of_ble_eq_true rfl

/-- Nobody holds more than one permit of the scale. -/
theorem Working.scaleHand_le (k : Working) : k.scaleHand.permits ≤ 1 := by
  have hneeds : ∀ needs : Bool, (if needs then 1 else 0) ≤ 1 := by decide
  cases k with
  | serving n a position =>
      cases position with
      | weighing pos => cases pos <;> exact Nat.le_of_ble_eq_true rfl
      | announcingStart => exact hneeds _
      | busy deadline => exact hneeds _
      | _ => exact Nat.le_of_ble_eq_true rfl
  | _ => exact Nat.le_of_ble_eq_true rfl

/-- A panic leaves everybody's permits in hand. -/
theorem Person.unwind?_permits {p p' : Person} (h : p.unwind? = some p') :
    p'.gateHand.permits = p.gateHand.permits ∧ p'.scaleHand.permits = p.scaleHand.permits := by
  cases unwinds_of_unwind? h with
  | weighing hneeds => exact ⟨rfl, (if_pos hneeds).symm⟩
  | @working w k e he hscale =>
      refine ⟨rfl, ?_⟩
      cases k with
      | serving n a position =>
          cases position with
          | announcingStart => exact (if_neg (Bool.eq_false_iff.1 hscale)).symm
          | _ => first | rfl | cases he
      | _ => first | rfl | cases he
  | _ => exact ⟨rfl, rfl⟩

/-- **The permits of the gate** are a stock. -/
def Stock.gate : Stock where
  permits premises := premises.gate.permits
  held p := p.gateHand.permits
  steps _ h := by
    cases h with
    | customer hi hv => exact ⟨_, _, hi, rfl, hv.uses_gate.passes⟩
    | worker hi hk => exact ⟨_, _, hi, rfl, by rw [hk.gate_eq]; exact Semaphore.passes_aside _ _⟩
    | closer hi hk =>
        refine ⟨_, _, hi, rfl, ?_⟩
        cases hk with
        | gate => exact Semaphore.passes_close _ _
        | _ => exact Semaphore.passes_aside _ _
  swaps h := congrArg Semaphore.Hand.permits h.gateHand
  unwinds h := (Person.unwind?_permits h).1
  fires _ := rfl
  held_le p := by
    cases p with
    | customer c v => exact v.gateHand_le
    | _ => exact Nat.zero_le 1

/-- **The permit of the scale** is a stock. -/
def Stock.scale : Stock where
  permits premises := premises.scale.permit
  held p := p.scaleHand.permits
  steps hapt h := by
    cases h with
    | customer hi hv =>
        exact ⟨_, _, hi, rfl, by rw [hv.scale_eq]; exact Semaphore.passes_aside _ _⟩
    | worker hi hk => exact ⟨_, _, hi, rfl, (hk.uses_scale (hapt _ _ hi)).passes⟩
    | closer hi hk =>
        refine ⟨_, _, hi, rfl, ?_⟩
        cases hk with
        | scale => exact Semaphore.passes_close _ _
        | _ => exact Semaphore.passes_aside _ _
  swaps h := congrArg Semaphore.Hand.permits h.scaleHand
  unwinds h := (Person.unwind?_permits h).2
  fires _ := rfl
  held_le p := by
    cases p with
    | worker w k => exact k.scaleHand_le
    | _ => exact Nat.zero_le 1

/-! ## §3 — what a person takes and returns -/

namespace Floor

/-- By how much a move of person `i` alone changes a number of the premises, if it does. -/
def changed? (number : Premises → Nat) (i : Nat) (x : Happening Floor Move) : Option Int :=
  if x.move.isOf i ∧ number x.after.premises ≠ number x.before.premises then
    some (number x.after.premises - number x.before.premises)
  else none

/-- All that the moves of person `i` have changed of a number of the premises, one after the other.
-/
def changes (number : Premises → Nat) (i : Nat) (past : List (Happening Floor Move)) : List Int :=
  past.filterMap (changed? number i)

/-- To take a permit and to give it back, `n` times. -/
def roundTrips (n : Nat) : List Int := (List.replicate n [-1, 1]).flatten

end Floor

namespace Stock

open Floor

/-- How many permits of the stock are free. -/
def free (t : Stock) (premises : Premises) : Nat := (t.permits premises).permits

/-- What is missing in the stock when somebody holds `held'` permits after it held `held`. -/
def passed (held held' : Nat) : Option Int :=
  if held' = held then none else some (held - held')

variable {t : Stock} {total i : Nat} {f f' : Floor} {m : Move} {p p' : Person}

/-- Only a step of its own takes a permit into somebody's hand or out of it. -/
theorem held_eq (hapt : ∀ (j : Nat) (p : Person), f.people[j]? = some p → p.Apt)
    (hmove : f.move? m = some f') (hi : f.people[i]? = some p) (hi' : f'.people[i]? = some p')
    (hother : m ≠ .step i) : t.held p' = t.held p := by
  have hsame : f'.people[i]? = f.people[i]? → t.held p' = t.held p := by
    intro heq
    rw [Option.some.inj (hi'.symm.trans (heq.trans hi))]
  cases m with
  | step j =>
      obtain ⟨q, q', hj, hpeople, -⟩ := t.steps hapt (steps_of_step? hmove)
      refine hsame ?_
      rw [hpeople, List.getElem?_set_ne fun hji => hother (congrArg Move.step hji)]
  | exchange j k =>
      obtain ⟨w, people', -, hex, rfl⟩ := exchanges_of_exchange? hmove
      obtain ⟨a, a', b, b', ha, hb, -, haa', hbb', rfl⟩ := hex.swaps
      rcases getElem?_set_cases hi' with ⟨rfl, rfl⟩ | ⟨-, hi''⟩
      · obtain rfl := Option.some.inj (hb.symm.trans hi)
        exact t.swaps hbb'
      · rcases getElem?_set_cases hi'' with ⟨rfl, rfl⟩ | ⟨-, hi₀⟩
        · obtain rfl := Option.some.inj (ha.symm.trans hi)
          exact t.swaps haa'
        · exact congrArg t.held (Option.some.inj (hi₀.symm.trans hi))
  | unwind j =>
      obtain ⟨q, q', hj, hunwind, rfl⟩ := unwind?_eq_some hmove
      rcases getElem?_set_cases hi' with ⟨rfl, rfl⟩ | ⟨-, hi₀⟩
      · obtain rfl := Option.some.inj (hj.symm.trans hi)
        exact t.unwinds hunwind
      · exact congrArg t.held (Option.some.inj (hi₀.symm.trans hi))
  | fire =>
      obtain rfl := Option.some.inj hmove
      exact hsame rfl
  | join q =>
      obtain rfl := Option.some.inj hmove
      exact hsame (List.getElem?_append_left (List.getElem?_eq_some_iff.1 hi).1)

/-- Permits that pass between the stock and a hand are missing in the one if they are in the other.
-/
theorem changed?_of_passes {held held' : Nat} (hof : m.isOf i = true)
    (hpasses : (t.permits f.premises).Passes (t.permits f'.premises) held held')
    (hroom : (t.permits f.premises).permits + held ≤ (t.permits f.premises).ceiling) :
    changed? t.free i ⟨f, m, f'⟩ = passed held held' := by
  have hfree : t.free f'.premises + held' = t.free f.premises + held := hpasses.permits hroom
  by_cases hheld : held' = held
  · rw [passed, if_pos hheld, changed?, if_neg]
    rintro ⟨-, hne⟩
    exact hne (show t.free f'.premises = t.free f.premises by omega)
  · have hne : t.free f'.premises ≠ t.free f.premises := by omega
    rw [passed, if_neg hheld, changed?, if_pos ⟨hof, hne⟩]
    congr 1
    show (t.free f'.premises : Int) - t.free f.premises = held - held'
    omega

/-- **What a move of a person changes** in the stock is what it changes in that person's hand. -/
theorem changed?_eq (h : t.Conserved total f)
    (hapt : ∀ (j : Nat) (p : Person), f.people[j]? = some p → p.Apt)
    (hmove : f.move? m = some f') (hi : f.people[i]? = some p) (hi' : f'.people[i]? = some p') :
    changed? t.free i ⟨f, m, f'⟩ = passed (t.held p) (t.held p') := by
  by_cases hstep : m = .step i
  · subst hstep
    obtain ⟨q, q', hq, hpeople, hpasses⟩ := t.steps hapt (steps_of_step? hmove)
    obtain rfl := Option.some.inj (hi.symm.trans hq)
    rw [hpeople, List.getElem?_set_self (List.getElem?_eq_some_iff.1 hi).1] at hi'
    obtain rfl := Option.some.inj hi'
    have hbalance := h.balance
    have hroom := h.room
    have hle : t.held p ≤ tally t.held f.people := le_tally hi
    exact changed?_of_passes (beq_self_eq_true i) hpasses (by omega)
  · rw [held_eq hapt hmove hi hi' hstep, passed, if_pos rfl, changed?, if_neg]
    rintro ⟨hof, hne⟩
    cases m with
    | step j => exact hstep (congrArg Move.step (eq_of_beq hof).symm)
    | unwind j =>
        obtain ⟨q, q', -, -, rfl⟩ := unwind?_eq_some hmove
        exact hne rfl
    | exchange j k => cases hof
    | fire => cases hof
    | join q => cases hof

/-- Whoever is not there yet changes nothing. -/
theorem changed?_absent (hmove : f.move? m = some f') (hi : f.people.length ≤ i) :
    changed? t.free i ⟨f, m, f'⟩ = none := by
  rw [changed?, if_neg]
  rintro ⟨hof, -⟩
  obtain ⟨p, -, hp, -⟩ := goes_of_move hmove hof
  exact absurd (List.getElem?_eq_some_iff.1 hp).1 (Nat.not_lt.2 hi)

/-- Whoever takes a permit or gives it back goes on with its round trips. -/
theorem roundTrips_passed {held held' n : Nat} (hheld : held ≤ 1) (hheld' : held' ≤ 1) :
    ∃ n', roundTrips n ++ List.replicate held (-1) ++ (passed held held').toList =
      roundTrips n' ++ List.replicate held' (-1) := by
  obtain rfl | rfl : held = 0 ∨ held = 1 := by omega
  · obtain rfl | rfl : held' = 0 ∨ held' = 1 := by omega
    · exact ⟨n, by simp [passed]⟩
    · exact ⟨n, by simp [passed]⟩
  · obtain rfl | rfl : held' = 0 ∨ held' = 1 := by omega
    · refine ⟨n + 1, ?_⟩
      simp [passed, roundTrips, List.replicate_succ']
    · exact ⟨n, by simp [passed]⟩

/-- **`t.Followed past f`** — what everybody has taken from the stock in the past is what they have
given back, and what they hold. -/
structure Followed (t : Stock) (past : List (Happening Floor Move)) (f : Floor) : Prop where
  absent : ∀ i, f.people.length ≤ i → changes t.free i past = []
  present : ∀ (i : Nat) (p : Person), f.people[i]? = some p → ∃ n,
    changes t.free i past = roundTrips n ++ List.replicate (t.held p) (-1)

/-- **Every move** is followed. -/
theorem Followed.move {past : List (Happening Floor Move)} (h : t.Followed past f)
    (hconserved : t.Conserved total f)
    (hapt : ∀ (j : Nat) (p : Person), f.people[j]? = some p → p.Apt)
    (hmove : f.move? m = some f') (hjoin : ∀ p, m = .join p → t.held p = 0) :
    t.Followed (past ++ [⟨f, m, f'⟩]) f' := by
  refine ⟨fun i hi => ?_, fun i p' hi' => ?_⟩
  · have hbefore := Nat.le_trans (length_le_of_move hmove) hi
    rw [changes, filterMap_concat, changed?_absent hmove hbefore]
    exact (List.append_nil _).trans (h.absent i hbefore)
  · rcases was_or_comes hmove hi' with ⟨p, hi⟩ | ⟨hm, rfl⟩
    · obtain ⟨n, hn⟩ := h.present i p hi
      rw [changes, filterMap_concat, changed?_eq hconserved hapt hmove hi hi']
      rw [changes] at hn
      rw [hn]
      exact roundTrips_passed (t.held_le p) (t.held_le p')
    · rw [changes, filterMap_concat, changed?_absent hmove (Nat.le_refl _), hjoin p' hm]
      exact ⟨0, (List.append_nil _).trans (h.absent _ (Nat.le_refl _))⟩

end Stock

/-! ## §4 — how often a customer does -/

/-- **What a customer has done at the gate** when it stands there: nothing on the way in, it has
taken one permit once it has been let in, and when it has ended it has given that one back or never
had one. -/
def Visiting.AtGate (done : List Int) : Visiting → Prop
  | .announcingCreation | .entering (.acquiring _) => done = []
  | .ended _ => done = [] ∨ done = [-1, 1]
  | _ => done = [-1]

/-- What a person has done at the gate when it stands there, if it is a customer. -/
def Person.AtGate (done : List Int) : Person → Prop
  | .customer _ v => v.AtGate done
  | _ => True

section AtGate

open Stock (passed)

variable {done : List Int} {c : Customer} {v v' : Visiting}

/-- **A step of a customer** at the gate. -/
theorem Visiting.Steps.atGate {p p' : Premises} (h : v.Steps c p v' p') (hdone : v.AtGate done) :
    v'.AtGate (done ++ (passed v.gateHand.permits v'.gateHand.permits).toList) := by
  cases h with
  | @enters pos progress gate henter =>
      cases Gate.enters_of_enter? henter with
      | waits hacq =>
          obtain rfl : done = [] := hdone
          rfl
      | admitted hacq =>
          obtain rfl : done = [] := hdone
          rfl
      | refused hacq =>
          obtain rfl : done = [] := hdone
          exact .inl rfl
      | counts =>
          obtain rfl : done = [-1] := hdone
          rfl
  | announcesCreation =>
      obtain rfl : done = [] := hdone
      rfl
  | @claims stay pos progress pool hclaim =>
      obtain rfl : done = [-1] := hdone
      rcases progress with pos' | ⟨e | worker⟩
      · rfl
      · rfl
      · simp only [Progress.within, afterSearch]
        split <;> rfl
  | leaves =>
      obtain rfl : done = [-1] := hdone
      exact .inr rfl
  | _ =>
      obtain rfl : done = [-1] := hdone
      rfl

/-- An exchange changes nothing at the gate. -/
theorem Floor.Swaps.atGate {p p' : Person} (h : Floor.Swaps p p') (hdone : p.AtGate done) :
    p'.AtGate (done ++ (passed p.gateHand.permits p'.gateHand.permits).toList) := by
  cases h <;> first | trivial |
    · obtain rfl : done = [-1] := hdone
      rfl

/-- Whoever panics turns to the exit with its permit, or has never had one. -/
theorem Person.atGate_of_unwind {p p' : Person} (h : p.unwind? = some p') (hdone : p.AtGate done) :
    p'.AtGate (done ++ (passed p.gateHand.permits p'.gateHand.permits).toList) := by
  cases unwinds_of_unwind? h with
  | outside =>
      obtain rfl : done = [] := hdone
      exact .inl rfl
  | entered =>
      obtain rfl : done = [-1] := hdone
      rfl
  | dealing he =>
      obtain rfl : done = [-1] := hdone
      rfl
  | _ => trivial

end AtGate

/-! ## §5 — every run -/

namespace Floor

/-- How many permits of the gate are free. -/
def freeAtGate (premises : Premises) : Nat := premises.gate.permits.permits

/-- How many permits of the scale are free. -/
def freeAtScale (premises : Premises) : Nat := premises.scale.permit.permits

/-- **`f.Squared capacity past`** — the counters and the permits of the gate and of the scale are in
order, and what everybody has taken and returned in the past is what it holds where it stands. -/
structure Squared (capacity : Nat) (past : List (Happening Floor Move)) (f : Floor) : Prop where
  counted : f.Counted
  gate : Stock.gate.Conserved capacity f
  scale : Stock.scale.Conserved 1 f
  atGate : Stock.gate.Followed past f
  atScale : Stock.scale.Followed past f
  customers : ∀ (i : Nat) (p : Person), f.people[i]? = some p → p.AtGate (changes freeAtGate i past)

/-- Newcomers hold nothing and are counted nowhere. -/
theorem Move.Begins.brings {p : Person} (h : Move.Begins (.join p)) :
    (p.Apt ∧ p.inside = 0 ∧ p.holding = 0) ∧ p.gateHand.permits = 0 ∧ p.scaleHand.permits = 0 := by
  rcases h with ⟨c, rfl⟩ | ⟨w, rfl⟩ | rfl
  · exact ⟨⟨trivial, rfl, rfl⟩, rfl, rfl⟩
  · exact ⟨⟨trivial, rfl, rfl⟩, rfl, rfl⟩
  · exact ⟨⟨trivial, rfl, rfl⟩, rfl, rfl⟩

section Squared

variable {capacity : Nat} {past : List (Happening Floor Move)} {f f' : Floor} {m : Move}

/-- **A move** of a customer, or of anybody else, keeps what customers have done at the gate. -/
theorem Squared.customers_move (h : f.Squared capacity past) (hmove : f.move? m = some f')
    (hm : m.Begins) {i : Nat} {p' : Person} (hi' : f'.people[i]? = some p') :
    p'.AtGate (changes freeAtGate i (past ++ [⟨f, m, f'⟩])) := by
  -- whoever was there has done what passes between the gate and its hand
  have hnext : ∀ p, f.people[i]? = some p →
      (p.AtGate (changes freeAtGate i past) → p'.AtGate (changes freeAtGate i past ++
        (Stock.passed p.gateHand.permits p'.gateHand.permits).toList)) →
      p'.AtGate (changes freeAtGate i (past ++ [⟨f, m, f'⟩])) := by
    intro p hi hstep
    have hchanged := Stock.changed?_eq h.gate h.counted.apt hmove hi hi'
    rw [changes, filterMap_concat]
    exact hchanged ▸ hstep (h.customers i p hi)
  cases becomes_of_move hmove hi' with
  | stays hi =>
      refine hnext p' hi fun hdone => ?_
      rw [Stock.passed, if_pos rfl, Option.toList_none, List.append_nil]
      exact hdone
  | visits hi hv => exact hnext _ hi hv.atGate
  | works hi hk => trivial
  | closes hi hk => trivial
  | swaps hi hs => exact hnext _ hi hs.atGate
  | unwinds hmu hi hu => exact hnext _ hi (Person.atGate_of_unwind hu)
  | comes hmj hlast =>
      have habsent : changed? freeAtGate i ⟨f, m, f'⟩ = none :=
        Stock.changed?_absent (t := .gate) hmove (Nat.le_of_eq hlast.symm)
      have hbefore : changes freeAtGate i past = [] := h.atGate.absent i (Nat.le_of_eq hlast.symm)
      rw [changes, filterMap_concat, habsent, Option.toList_none, List.append_nil]
      subst hmj
      rcases hm with ⟨c, rfl⟩ | ⟨w, rfl⟩ | rfl
      · exact hbefore
      · trivial
      · trivial

/-- **Every move** keeps everything squared. -/
theorem Squared.move (h : f.Squared capacity past) (hmove : f.move? m = some f') (hm : m.Begins) :
    f'.Squared capacity (past ++ [⟨f, m, f'⟩]) := by
  have hbrings : ∀ p, m = .join p → _ := fun p hp => Move.Begins.brings (p := p) (hp ▸ hm)
  have hgate := fun p hp => (hbrings p hp).2.1
  have hscale := fun p hp => (hbrings p hp).2.2
  exact
    { counted := h.counted.move hmove fun p hp => (hbrings p hp).1
      gate := h.gate.move h.counted.apt hmove hgate
      scale := h.scale.move h.counted.apt hmove hscale
      atGate := h.atGate.move h.gate h.counted.apt hmove hgate
      atScale := h.atScale.move h.scale h.counted.apt hmove hscale
      customers := fun i p hi => h.customers_move hmove hm hi }

theorem squared_of_runs {workers minute clock : Nat} (hword : capacity ≤ wordMax)
    (hruns : Runs move? (.opening (.furnish capacity workers minute) clock) past f)
    (hbegin : ∀ x ∈ past, x.move.Begins) : f.Squared capacity past := by
  induction hruns with
  | start =>
      have hnobody : ∀ (i : Nat) (p : Person),
          (opening (.furnish capacity workers minute) clock).people[i]? ≠ some p := by
        intro i p hi
        simp [opening] at hi
      exact
        { counted := counted_opening ..
          gate := Semaphore.conserved_ofPermits hword
          scale := Semaphore.conserved_bounded (Nat.le_refl 1)
          atGate := ⟨fun _ _ => rfl, fun i p hi => absurd hi (hnobody i p)⟩
          atScale := ⟨fun _ _ => rfl, fun i p hi => absurd hi (hnobody i p)⟩
          customers := fun i p hi => absurd hi (hnobody i p) }
  | more hruns hmove ih =>
      have hsquared := ih fun x hx => hbegin x (List.mem_append_left _ hx)
      exact hsquared.move hmove (hbegin _ List.mem_concat_self)

/-- **Permits come back, however a call ends.** Take an office of any capacity and any number of
workers, any number of customers and of shifts, also several of one worker, and any interleaving of
their steps in which any announcement may panic, the shutdown may fire and the office may be closed
at any moment. A customer that has ended, with a visit, with a fault or by a panic, has taken one
permit of the gate and then given it back, or it has not changed the permits of the gate at all. A
worker that has ended has taken the permit of the scale some number of times, and given it back each
time before it took it again or ended. So when no customer is left who has not ended, the gate
counts nobody and all its permits are free; and when no worker is left who has not ended, the scale
counts nobody and its permit is free. -/
theorem permits_come_back {workers minute clock : Nat} (hword : capacity ≤ wordMax)
    {ms : List Move} (hms : ∀ m ∈ ms, m.Begins)
    (hrun : run? ms (.opening (.furnish capacity workers minute) clock) = some f) :
    let past := course move? ms (.opening (.furnish capacity workers minute) clock)
    (∀ (i : Nat) (c : Customer) (e : Ending Visit),
      f.people[i]? = some (.customer c (.ended e)) →
        changes freeAtGate i past = [] ∨ changes freeAtGate i past = [-1, 1]) ∧
    (∀ (i w : Nat) (e : Ending WorkerReport), f.people[i]? = some (.worker w (.ended e)) →
      ∃ n, changes freeAtScale i past = roundTrips n) ∧
    ((∀ c v, .customer c v ∈ f.people → ∃ e, v = .ended e) →
      f.premises.gate.occupancy = 0 ∧ freeAtGate f.premises = capacity) ∧
    ((∀ w k, .worker w k ∈ f.people → ∃ e, k = .ended e) →
      f.premises.scale.holders = 0 ∧ freeAtScale f.premises = 1) := by
  intro past
  have hsquared : f.Squared capacity past :=
    squared_of_runs hword (runs_of_run? (fun _ => rfl) (fun _ _ _ => rfl) hrun)
      fun x hx => hms _ (move_mem_of_course hx)
  refine ⟨fun i c e hi => hsquared.customers i _ hi, fun i w e hi => ?_, fun hended => ?_,
    fun hended => ?_⟩
  · obtain ⟨n, hn⟩ := hsquared.atScale.present i _ hi
    exact ⟨n, hn.trans (List.append_nil _)⟩
  · have hgone : ∀ p ∈ f.people, p.inside = 0 ∧ p.gateHand.permits = 0 := by
      intro p hp
      cases p with
      | customer c v =>
          obtain ⟨e, rfl⟩ := hended c v hp
          exact ⟨rfl, rfl⟩
      | _ => exact ⟨rfl, rfl⟩
    refine ⟨?_, hsquared.gate.all_free fun p hp => (hgone p hp).2⟩
    rw [hsquared.counted.inside]
    exact tally_eq_zero_of_mem fun p hp => (hgone p hp).1
  · have hgone : ∀ p ∈ f.people, p.holding = 0 ∧ p.scaleHand.permits = 0 := by
      intro p hp
      cases p with
      | worker w k =>
          obtain ⟨e, rfl⟩ := hended w k hp
          exact ⟨rfl, rfl⟩
      | _ => exact ⟨rfl, rfl⟩
    refine ⟨?_, hsquared.scale.all_free fun p hp => (hgone p hp).2⟩
    rw [hsquared.counted.holding]
    exact tally_eq_zero_of_mem fun p hp => (hgone p hp).1

/-- The first customer panics in the middle of its handshake, and the worker of the second one with
the scale in hand; the third waits at the gate when the office is closed. Everybody ends, and
nothing is missing. -/
theorem permits_come_back_interrupted :
    let a : Customer := ⟨7, .buyStamps⟩
    let b : Customer := ⟨8, .mailPackage⟩
    let c : Customer := ⟨9, .buyStamps⟩
    let ms : List Move := List.flatten [[.join (.starts 0), .join (.starts 1), .join (.arrives a),
      .join (.arrives b), .join (.arrives c)], .replicate 7 (.step 0), .replicate 7 (.step 1),
      .replicate 10 (.step 2), .replicate 11 (.step 3), [.exchange 2 0, .exchange 3 1, .step 0,
      .step 0, .step 0, .exchange 0 2, .unwind 2, .step 1, .step 1, .step 1, .exchange 1 3, .step 3,
      .step 3, .exchange 3 1], .replicate 4 (.step 1), [.unwind 1, .step 4, .step 4, .step 2,
      .step 2, .step 1, .step 1, .join .closes], .replicate 9 (.step 5), [.step 0, .step 3, .step 3,
      .step 3, .step 4]]
    let opened : Floor := .opening (.furnish 2 2 0) 0
    2 ≤ wordMax ∧ (∀ m ∈ ms, m.Begins) ∧
      ∃ f, run? ms opened = some f ∧
        f.people = [.worker 0 (.ended (.returned ⟨0, 0⟩)), .worker 1 (.ended .panicked),
          .customer a (.ended .panicked), .customer b (.ended (.failed .interrupted)),
          .customer c (.ended (.failed .interrupted)), .closer .ended] ∧
        (∀ i ∈ [2, 3, 4], changes freeAtGate i (course move? ms opened) = [] ∨
          changes freeAtGate i (course move? ms opened) = [-1, 1]) ∧
        (∃ n, changes freeAtScale 1 (course move? ms opened) = roundTrips n) ∧
        f.premises.gate.occupancy = 0 ∧ freeAtGate f.premises = 2 ∧
        f.premises.scale.holders = 0 ∧ freeAtScale f.premises = 1 := by
  intro a b c ms opened
  have hms : ∀ m ∈ ms, m.Begins := by
    simp [ms, or_imp, forall_and, Move.Begins]
  have hends : (run? ms opened).map Floor.people =
      some [.worker 0 (.ended (.returned ⟨0, 0⟩)), .worker 1 (.ended .panicked),
        .customer a (.ended .panicked), .customer b (.ended (.failed .interrupted)),
        .customer c (.ended (.failed .interrupted)), .closer .ended] := by
    decide +kernel
  obtain ⟨f, hrun, hpeople⟩ := Option.map_eq_some_iff.1 hends
  obtain ⟨hcustomers, hworkers, hgate, hscale⟩ :=
    permits_come_back (show 2 ≤ wordMax by decide) hms hrun
  obtain ⟨hinside, hfree⟩ := hgate (by simp [hpeople, or_imp, forall_and])
  obtain ⟨hholders, hpermit⟩ := hscale (by simp [hpeople, or_imp, forall_and])
  refine ⟨by decide, hms, f, hrun, hpeople, fun i hi => ?_,
    hworkers 1 1 .panicked (by rw [hpeople]; rfl), hinside, hfree, hholders, hpermit⟩
  simp only [List.mem_cons, List.not_mem_nil, or_false] at hi
  rcases hi with rfl | rfl | rfl
  · exact hcustomers 2 a .panicked (by rw [hpeople]; rfl)
  · exact hcustomers 3 b (.failed .interrupted) (by rw [hpeople]; rfl)
  · exact hcustomers 4 c (.failed .interrupted) (by rw [hpeople]; rfl)

end Squared

end Floor

end Postal

import Mathlib.Data.List.Chain
import Postal.Proofs.Course
import Postal.Proofs.Tally
import Postal.Slot.Callers

/-!
# The cycle of phases, whoever calls.

A slot trusts nobody: any number of callers may make any call at any time. Most sections check the
phase that they need and turn it to the next one in one go, but the end of a completion does not
look again before it frees the slot. That it need not look is shown here: whoever has completed is
the one who made the last turn, and nobody else can make the next (`Rounds.closing`). So the phases
of every run are those of the cycle in their order, and the customer and the count of services
follow them.

## §1 — what one section of a call can do while the slot is there, said once (`Caller.Acts`).
## §2 — moves of a desk.
## §3 — the turns of a run, and what they tell of the slot.
## §4 — calls that fail.
-/

namespace Postal

/-- **`Phase.after k`** — the phase of a slot after `k` turns. -/
def Phase.after : Nat → Phase
  | 0 => .idle
  | k + 1 => (after k).next

theorem Phase.next_ne (p : Phase) : p.next ≠ p := by
  cases p <;> decide

namespace Slot

/-! ## §1 — one section -/

/-- A call that has not done anything yet. -/
def Caller.Begins : Caller → Prop
  | .opening | .awaitingPublish | .acknowledging | .awaitingProceed | .completing | .publishing _
  | .awaitingAcknowledge | .proceeding | .awaitingCompletion => True
  | _ => False

/-- **`c.Advances needed c'`** — caller `c` turns the phase on from `needed`, and goes on at
`c'`. -/
inductive Caller.Advances : Caller → Phase → Caller → Prop
  | opens : Advances .opening .idle .finishedOk
  | acknowledges : Advances .acknowledging .published (.sending .acknowledged)
  | proceeds : Advances .proceeding .workerAcknowledged (.sending .proceed)
  | completes : Advances .completing .executingTask (.sending .completed)

/-- Whether the caller may have changed the slot and not failed on that. -/
def Caller.PastTurn : Caller → Prop
  | .offering _ | .sending _ | .settling | .finished (.ok _) | .finished (.error .interrupted) =>
    True
  | _ => False

/-- **`c.Acts s c' s'`** — everything that the next section of a call can do as long as the slot is
not dropped: the caller goes on from `c` to `c'`, and the slot from `s` to `s'`. -/
inductive Caller.Acts (s : Slot) : Caller → Caller → Slot → Prop
  | turns {c c' : Caller} (h : c.Advances s.phase c') :
      Acts s c c' { s with phase := s.phase.next }
  | binds {a : Assignment} (h : s.phase = .awaitingPublish) :
      Acts s (.publishing a) (.offering a)
        { s with phase := .published, customer := some a.customer }
  | settles : Acts s .settling .finishedOk s.settle
  | offers (a : Assignment) : Acts s (.offering a) (.sending (.assignment a)) s
  | passes {c : Caller} (result : Option Assignment) : Acts s c (.finished (.ok result)) s
  | interrupted {c : Caller} : Acts s c (.finished (.error .interrupted)) s
  | breaks {c : Caller} {b : Breach} (hc : ¬ c.PastTurn) (hb : ∀ signal, b ≠ .disconnected signal) :
      Acts s c (.finished (.error (s.breach b))) s

section Acts

variable {s s' : Slot} {c c' : Caller}

theorem Caller.Advances.pastTurn {needed : Phase} (h : c.Advances needed c') : c'.PastTurn := by
  cases h <;> exact trivial

theorem acts_of_turn {needed : Phase} {next : Caller} (hadv : c.Advances needed next)
    (h : Caller.afterSection s next (s.turn needed needed.next) = (c', s')) : c.Acts s c' s' := by
  rw [turn] at h
  split_ifs at h with hphase
  · obtain ⟨rfl, rfl⟩ := Prod.mk.inj h
    subst hphase
    exact .turns hadv
  · obtain ⟨rfl, rfl⟩ := Prod.mk.inj h
    refine .breaks ?_ fun _ => by rintro ⟨⟩
    cases hadv <;> exact id

theorem acts_of_check {result : Option Assignment} {right : Prop} [Decidable right] {b : Breach}
    (hc : ¬ c.PastTurn) (hb : ∀ signal, b ≠ .disconnected signal)
    (h : Caller.afterCheck s result (if right then .ok () else .error (s.breach b)) = (c', s')) :
    c.Acts s c' s' := by
  split_ifs at h with hright
  · obtain ⟨rfl, rfl⟩ := Prod.mk.inj h
    exact .passes result
  · obtain ⟨rfl, rfl⟩ := Prod.mk.inj h
    exact .breaks hc hb

/-- As long as the slot is there, only an interruption ends a wait. -/
theorem acts_of_wait {signal : Signal} {isOver : Bool}
    (h : Caller.afterWait? s signal false isOver = some (c', s')) : c.Acts s c' s' := by
  rw [Caller.afterWait?, if_neg (by decide)] at h
  split_ifs at h
  obtain ⟨rfl, rfl⟩ := Prod.mk.inj (Option.some.inj h)
  exact .interrupted

theorem acts_of_step? {fired offered : Bool}
    (h : c.step? s false fired offered = some (c', s')) : c.Acts s c' s' := by
  cases c with
  | opening => exact acts_of_turn .opens (Option.some.inj h)
  | acknowledging => exact acts_of_turn .acknowledges (Option.some.inj h)
  | proceeding => exact acts_of_turn .proceeds (Option.some.inj h)
  | completing => exact acts_of_turn .completes (Option.some.inj h)
  | publishing a =>
      rw [Caller.step?, bind] at h
      split_ifs at h with hphase
      · obtain ⟨rfl, rfl⟩ := Prod.mk.inj (Option.some.inj h)
        exact .binds hphase
      · obtain ⟨rfl, rfl⟩ := Prod.mk.inj (Option.some.inj h)
        exact .breaks id fun _ => by rintro ⟨⟩
  | offering a =>
      obtain ⟨rfl, rfl⟩ := Prod.mk.inj (Option.some.inj h)
      exact .offers a
  | settling =>
      obtain ⟨rfl, rfl⟩ := Prod.mk.inj (Option.some.inj h)
      exact .settles
  | checkingReceived a =>
      exact acts_of_check id (fun _ => by rintro ⟨⟩) (Option.some.inj h)
  | checkingProceed =>
      exact acts_of_check id (fun _ => by rintro ⟨⟩) (Option.some.inj h)
  | awaitingPublish => exact acts_of_wait h
  | awaitingProceed => exact acts_of_wait h
  | awaitingAcknowledge => exact acts_of_wait h
  | awaitingCompletion => exact acts_of_wait h
  | sending m => exact acts_of_wait h
  | finished result => cases h

/-- A section changes the slot or leaves it, and whoever has changed it does not fail on that. -/
theorem Caller.Acts.pastTurn (h : c.Acts s c' s') :
    (s' = s ∨ c'.PastTurn) ∧ (c.PastTurn → c'.PastTurn) := by
  cases h with
  | turns h => exact ⟨.inr h.pastTurn, fun _ => h.pastTurn⟩
  | breaks hc hb => exact ⟨.inl rfl, fun hpast => absurd hpast hc⟩
  | _ => exact ⟨.inr trivial, fun _ => trivial⟩

end Acts

/-! ## §2 — moves of a desk -/

namespace Desk

/-- Whoever joins has not done anything yet. -/
def Move.Begins : Move → Prop
  | .join c => c.Begins
  | _ => True

/-- Whether a move is a section of the call of caller `i`, or an exchange that it takes part in. -/
def Move.Of (i : Nat) : Move → Prop
  | .step j => j = i
  | .exchange j k => j = i ∨ k = i
  | _ => False

section Moves

variable {d d' : Desk} {i j : Nat}

theorem step?_eq_some (h : d.step? i = some d') :
    ∃ c c' slot', d.callers[i]? = some c ∧
      c.step? d.slot d.dropped d.fired d.offered = some (c', slot') ∧
      d' = { d with slot := slot', callers := d.callers.set i c' } := by
  simp only [step?, Option.bind_eq_bind, Option.bind_eq_some_iff, Prod.exists,
    Option.some.injEq] at h
  obtain ⟨c, hi, c', slot', hstep, rfl⟩ := h
  exact ⟨c, c', slot', hi, hstep, rfl⟩

theorem exchange?_eq_some (h : d.exchange? i j = some d') :
    ∃ m c, d.callers[i]? = some (.sending m) ∧ d.callers[j]? = some c ∧
      c.receives? = some m.signal ∧
      d' = { d with
        callers := (d.callers.set i (Caller.afterSend m)).set j (Caller.afterReceive m) } := by
  simp only [exchange?, Option.bind_eq_bind, Option.bind_eq_some_iff] at h
  obtain ⟨sender, hi, m, hsends, c, hj, signal, hreceives, h⟩ := h
  split_ifs at h with hmeet
  cases sender with
  | sending m' =>
      obtain rfl := Option.some.inj hsends
      exact ⟨m', c, hi, hj, hmeet.1 ▸ hreceives, (Option.some.inj h).symm⟩
  | _ => cases hsends

end Moves

/-! ## §3 — the turns of a run -/

/-- A section that has changed the slot: whose it was, the phases before and after it, and the
customer for whom it published, if it did. -/
structure Turn where
  caller : Nat
  origin : Phase
  goal : Phase
  customer : Option Nat

/-- The customer for whom a caller publishes. -/
def publishes? : Caller → Option Nat
  | .publishing a => some a.customer
  | _ => none

/-- The turn that was made in a move. -/
def turn? (x : Happening Desk Move) : Option Turn :=
  match x.move with
  | .step i =>
    if x.after.slot = x.before.slot then none
    else x.before.callers[i]?.map fun c =>
      ⟨i, x.before.slot.phase, x.after.slot.phase, publishes? c⟩
  | _ => none

/-- The turns of the current cycle: those after the slot was freed last. -/
def sinceIdle (turns : List Turn) : List Turn :=
  (turns.reverse.takeWhile fun t => t.goal ≠ .idle).reverse

theorem sinceIdle_concat (turns : List Turn) (t : Turn) :
    sinceIdle (turns ++ [t]) = if t.goal = .idle then [] else sinceIdle turns ++ [t] := by
  rw [sinceIdle, sinceIdle, List.reverse_append, List.reverse_singleton, List.singleton_append,
    List.takeWhile_cons]
  split_ifs with hnot hidle hidle <;> simp_all

/-- Whether a caller is between its turn to the end of a service and the one that frees the slot. -/
def Closes : Caller → Prop
  | .sending .completed | .settling => True
  | _ => False

/-- **`Rounds turns d`** — the slot has gone round its cycle, turn by turn, and what it keeps is
what the turns tell. -/
structure Rounds (turns : List Turn) (d : Desk) : Prop where
  walk : turns.map (fun t => (t.origin, t.goal)) =
    (List.range turns.length).map fun k => (Phase.after k, Phase.after (k + 1))
  phase : d.slot.phase = Phase.after turns.length
  closing : ∀ (i : Nat) (c : Caller), d.callers[i]? = some c → Closes c →
    d.slot.phase = .completed ∧
      ∃ t, turns.getLast? = some t ∧ t.caller = i ∧ t.goal = .completed
  frees : turns.IsChain fun t t' => t'.goal = .idle → t'.caller = t.caller
  bound : d.slot.customer.isSome = d.slot.phase.hasCustomer
  customer : (sinceIdle turns).filterMap Turn.customer = d.slot.customer.toList
  served : d.slot.served = turns.countP fun t => t.goal = .idle
  held : d.dropped = true → ∀ c ∈ d.callers, c.hasEnded = true

theorem rounds_ofNumber (number : Nat) : Rounds [] (.ofNumber number) where
  walk := rfl
  phase := rfl
  closing i c hi := by simp [ofNumber] at hi
  frees := .nil
  bound := rfl
  customer := rfl
  served := rfl
  held hdropped := by cases hdropped

section Rounds

variable {turns : List Turn} {d d' : Desk} {i : Nat} {c c' : Caller} {slot' : Slot}

/-- As long as a call is under way the slot is there. -/
theorem Rounds.not_dropped (h : Rounds turns d) (hi : d.callers[i]? = some c)
    (hc : c.hasEnded = false) : d.dropped = false := by
  by_contra hdropped
  have hended := h.held (by simpa using hdropped) c (List.mem_of_getElem? hi)
  rw [hc] at hended
  cases hended

/-- A move that makes no turn: the slot keeps what the turns tell, and nobody gets closer to freeing
it. -/
theorem Rounds.still (h : Rounds turns d) (hphase : d'.slot.phase = d.slot.phase)
    (hcustomer : d'.slot.customer = d.slot.customer) (hserved : d'.slot.served = d.slot.served)
    (hcloses : ∀ (i : Nat) (c : Caller), d'.callers[i]? = some c → Closes c →
      ∃ c, d.callers[i]? = some c ∧ Closes c)
    (hheld : d'.dropped = true → ∀ c ∈ d'.callers, c.hasEnded = true) : Rounds turns d' where
  walk := h.walk
  phase := hphase.trans h.phase
  closing i c hi hc := by
    obtain ⟨c, hi, hc⟩ := hcloses i c hi hc
    rw [hphase]
    exact h.closing i c hi hc
  frees := h.frees
  bound := by rw [hcustomer, hphase, h.bound]
  customer := by rw [hcustomer, h.customer]
  served := hserved.trans h.served
  held := hheld

/-- **A turn**: the phase goes on to the next one, and whoever is about to free the slot afterwards
has made it. -/
theorem Rounds.turned (h : Rounds turns d) (hdropped : d.dropped = false) {t : Turn}
    (hcaller : t.caller = i) (horigin : t.origin = d.slot.phase)
    (hgoal : t.goal = d.slot.phase.next) (hphase : slot'.phase = t.goal)
    (hself : Closes c' → t.goal = .completed)
    (hothers : ∀ (j : Nat) (e : Caller), j ≠ i → d.callers[j]? = some e → ¬ Closes e)
    (hfrees : t.goal = .idle → ∃ l, turns.getLast? = some l ∧ l.caller = i)
    (hbound : slot'.customer.isSome = t.goal.hasCustomer)
    (hcustomer : slot'.customer.toList =
      if t.goal = .idle then [] else d.slot.customer.toList ++ t.customer.toList)
    (hserved : slot'.served = d.slot.served + if t.goal = .idle then 1 else 0) :
    Rounds (turns ++ [t]) { d with slot := slot', callers := d.callers.set i c' } where
  walk := by
    rw [List.map_append, h.walk, List.length_append, List.length_singleton, List.range_succ,
      List.map_append, List.map_singleton, List.map_singleton, Phase.after, ← h.phase, ← horigin,
      ← hgoal.trans (congrArg Phase.next horigin.symm)]
  phase := by
    rw [List.length_append, List.length_singleton, Phase.after, ← h.phase]
    exact hphase.trans hgoal
  closing j e hj he := by
    rcases getElem?_set_cases hj with ⟨rfl, rfl⟩ | ⟨hji, hj⟩
    · exact ⟨hphase.trans (hself he), t, List.getLast?_concat, hcaller, hself he⟩
    · exact absurd he (hothers j e hji hj)
  frees := by
    refine h.frees.append (.singleton t) fun l hl t' ht' hidle => ?_
    obtain rfl := Option.some.inj ht'
    obtain ⟨l', hl', hmade⟩ := hfrees hidle
    obtain rfl := Option.some.inj (hl'.symm.trans hl)
    rw [hcaller, hmade]
  bound := by rw [hbound, hphase]
  customer := by
    rw [sinceIdle_concat, hcustomer]
    split_ifs
    · rfl
    · rw [filterMap_concat, h.customer]
  served := by
    rw [hserved, h.served, List.countP_append, List.countP_singleton]
    simp only [decide_eq_true_eq]
  held hgone := by
    rw [hdropped] at hgone
    cases hgone

/-- A move that is no turn adds none. -/
theorem Rounds.unturned {x : Happening Desk Move} (h : Rounds turns d) (hx : turn? x = none) :
    Rounds (turns ++ (turn? x).toList) d := by
  rw [hx, Option.toList_none, List.append_nil]
  exact h

/-- Before the end of a service nobody is about to free the slot. -/
theorem Rounds.nobody_closes (h : Rounds turns d) (hphase : d.slot.phase ≠ .completed) (j : Nat)
    (e : Caller) (_ : j ≠ i) (hj : d.callers[j]? = some e) : ¬ Closes e :=
  fun he => hphase (h.closing j e hj he).1

theorem turn?_step {d' : Desk} (hi : d.callers[i]? = some c) (hne : d'.slot ≠ d.slot) :
    turn? ⟨d, .step i, d'⟩ = some ⟨i, d.slot.phase, d'.slot.phase, publishes? c⟩ := by
  rw [turn?]
  simp only [if_neg hne, hi, Option.map_some]

theorem turn?_step_of_eq {d' : Desk} (heq : d'.slot = d.slot) :
    turn? ⟨d, .step i, d'⟩ = none := by
  rw [turn?]
  simp only [if_pos heq]

/-- An advance stays within one service, and binds nobody. -/
theorem advances_within {needed : Phase} (h : c.Advances needed c') :
    needed ≠ .completed ∧ needed.next ≠ .idle ∧ needed.next.hasCustomer = needed.hasCustomer ∧
      publishes? c = none ∧ (Closes c' → needed.next = .completed) := by
  cases h with
  | completes => exact ⟨by decide, by decide, rfl, rfl, fun _ => rfl⟩
  | _ => exact ⟨by decide, by decide, rfl, rfl, False.elim⟩

/-- **A section** is a turn or leaves the slot alone. -/
theorem Rounds.step (h : Rounds turns d) (hi : d.callers[i]? = some c)
    (hdropped : d.dropped = false) (hacts : c.Acts d.slot c' slot') :
    let d' : Desk := { d with slot := slot', callers := d.callers.set i c' }
    Rounds (turns ++ (turn? ⟨d, .step i, d'⟩).toList) d' := by
  intro d'
  have hkept : slot' = d.slot → ¬ Closes c' →
      Rounds (turns ++ (turn? ⟨d, .step i, d'⟩).toList) d' := by
    rintro rfl hc'
    refine Rounds.unturned (h.still rfl rfl rfl (fun j e hj he => ?_) fun hgone => ?_)
      (turn?_step_of_eq rfl)
    · rcases getElem?_set_cases hj with ⟨rfl, rfl⟩ | ⟨-, hj⟩
      · exact absurd he hc'
      · exact ⟨e, hj, he⟩
    · exact absurd (hdropped.symm.trans hgone) (by decide)
  cases hacts with
  | turns hadv =>
      obtain ⟨hopen, hidle, hbound, hnobody, hself⟩ := advances_within hadv
      have hne : d'.slot ≠ d.slot := fun heq => d.slot.phase.next_ne (congrArg Slot.phase heq)
      rw [turn?_step hi hne, hnobody]
      refine h.turned hdropped rfl rfl rfl rfl hself (h.nobody_closes hopen)
        (fun h => absurd h hidle) ?_ ?_ ?_
      · rw [hbound]
        exact h.bound
      · rw [if_neg hidle, Option.toList_none, List.append_nil]
      · rw [if_neg hidle, Nat.add_zero]
  | @binds a hphase =>
      have hne : d'.slot ≠ d.slot := by
        intro heq
        have hbound : Phase.published = d.slot.phase := congrArg Slot.phase heq
        rw [hphase] at hbound
        cases hbound
      have hfree : d.slot.customer = none := by
        have hbound := h.bound
        rw [hphase] at hbound
        simpa [Phase.hasCustomer] using hbound
      rw [turn?_step hi hne]
      refine h.turned hdropped rfl rfl (by rw [hphase]; rfl) rfl False.elim
        (h.nobody_closes (by rw [hphase]; decide)) (by rintro ⟨⟩) rfl ?_ rfl
      rw [hfree]
      rfl
  | settles =>
      obtain ⟨hphase, t, ht, hmade, -⟩ := h.closing i _ hi trivial
      have hne : d'.slot ≠ d.slot := fun heq => Nat.succ_ne_self _ (congrArg Slot.served heq)
      rw [turn?_step hi hne]
      refine h.turned hdropped rfl rfl (by rw [hphase]; rfl) rfl False.elim
        (fun j e hji hj he => ?_) (fun _ => ⟨t, ht, hmade⟩) rfl rfl rfl
      -- whoever else is about to free the slot has made the same last turn
      obtain ⟨-, t', ht', hmade', -⟩ := h.closing j e hj he
      obtain rfl := Option.some.inj (ht.symm.trans ht')
      exact hji (hmade'.symm.trans hmade)
  | offers a => exact hkept rfl id
  | passes result => exact hkept rfl id
  | interrupted => exact hkept rfl id
  | breaks hc hb => exact hkept rfl id

/-- Whoever can step has not ended. -/
theorem hasEnded_of_step? {s s' : Slot} {gone fired offered : Bool}
    (h : c.step? s gone fired offered = some (c', s')) : c.hasEnded = false := by
  cases c with
  | finished result => cases h
  | _ => rfl

/-- Whoever is about to free the slot after an exchange was about to do so before. -/
theorem closes_of_exchange {m : Message} {j k : Nat} {e : Caller}
    (hi : d.callers[i]? = some (.sending m)) (hk : ((d.callers.set i (Caller.afterSend m)).set j
      (Caller.afterReceive m))[k]? = some e) (he : Closes e) :
    ∃ e, d.callers[k]? = some e ∧ Closes e := by
  rcases getElem?_set_cases hk with ⟨-, rfl⟩ | ⟨-, hk⟩
  · cases m <;> exact absurd he id
  · rcases getElem?_set_cases hk with ⟨rfl, rfl⟩ | ⟨-, hk⟩
    · refine ⟨_, hi, ?_⟩
      cases m with
      | completed => trivial
      | _ => exact absurd he id
    · exact ⟨e, hk, he⟩

/-- **Every move** is a turn or leaves what the turns tell alone. -/
theorem Rounds.move (h : Rounds turns d) {m : Move} (hm : m.Begins)
    (hmove : d.move? m = some d') : Rounds (turns ++ (turn? ⟨d, m, d'⟩).toList) d' := by
  cases m with
  | step i =>
      obtain ⟨c, c', slot', hi, hstep, rfl⟩ := step?_eq_some hmove
      have hdropped := h.not_dropped hi (hasEnded_of_step? hstep)
      rw [hdropped] at hstep
      exact h.step hi hdropped (acts_of_step? hstep)
  | exchange i j =>
      obtain ⟨m, c, hi, hj, hreceives, rfl⟩ := exchange?_eq_some hmove
      have hdropped := h.not_dropped hi rfl
      refine Rounds.unturned ?_ rfl
      refine h.still rfl rfl rfl (fun k e hk he => closes_of_exchange hi hk he) fun hgone => ?_
      exact absurd (hdropped.symm.trans hgone) (by decide)
  | close =>
      rw [move?] at hmove
      split_ifs at hmove
      obtain rfl := Option.some.inj hmove
      refine Rounds.unturned ?_ rfl
      exact h.still rfl rfl rfl (fun k e hk he => ⟨e, hk, he⟩) h.held
  | fire =>
      obtain rfl := Option.some.inj hmove
      refine Rounds.unturned ?_ rfl
      exact h.still rfl rfl rfl (fun k e hk he => ⟨e, hk, he⟩) h.held
  | join c =>
      rw [move?] at hmove
      split_ifs at hmove with hdropped
      obtain rfl := Option.some.inj hmove
      refine Rounds.unturned ?_ rfl
      refine h.still rfl rfl rfl (fun k e hk he => ?_) fun hgone => absurd hgone hdropped
      rcases getElem?_concat_cases hk with hk | ⟨-, rfl⟩
      · exact ⟨e, hk, he⟩
      · cases e with
        | sending m => exact absurd hm id
        | settling => exact absurd hm id
        | _ => exact absurd he id
  | drop =>
      rw [move?, drop?] at hmove
      split_ifs at hmove with hended
      obtain rfl := Option.some.inj hmove
      refine Rounds.unturned ?_ rfl
      exact h.still rfl rfl rfl (fun k e hk he => ⟨e, hk, he⟩) fun _ => List.all_eq_true.1 hended

end Rounds

/-! ## §4 — calls that fail -/

/-- Whether the call has not failed on a signal whose other end is gone. -/
def Connected (c : Caller) : Prop :=
  ∀ number signal, c ≠ .finished (.error (.violation number (.disconnected signal)))

/-- **What a caller can say for itself** after what has happened: that it has not failed on a change
it made, or that it made none. -/
def Blameless (past : List (Happening Desk Move)) (i : Nat) (c : Caller) : Prop :=
  c.PastTurn ∨ (Connected c ∧ ∀ x ∈ past, x.move.Of i → x.after.slot = x.before.slot)

/-- Everybody is blameless, and only those who are there have moved. -/
structure Told (past : List (Happening Desk Move)) (d : Desk) : Prop where
  known : ∀ x ∈ past, ∀ i, x.move.Of i → i < d.callers.length
  blameless : ∀ (i : Nat) (c : Caller), d.callers[i]? = some c → Blameless past i c

section Told

variable {past : List (Happening Desk Move)} {turns : List Turn} {d d' : Desk} {i : Nat}
  {e c : Caller} {s s' : Slot} {m : Move}

/-- As long as the slot is there nobody finds the other end of a signal gone. -/
theorem connected_of_acts (h : e.Acts s c s') : Connected c := by
  rintro number signal rfl
  cases h with
  | turns hadv => exact absurd hadv.pastTurn id
  | breaks hc hb => exact hb signal rfl

theorem Blameless.follow {x : Happening Desk Move} (h : Blameless past i e)
    (hpast : e.PastTurn → c.PastTurn) (hconnected : Connected e → Connected c)
    (hkept : c.PastTurn ∨ (x.move.Of i → x.after.slot = x.before.slot)) :
    Blameless (past ++ [x]) i c := by
  rcases h with h | ⟨hc, hall⟩
  · exact .inl (hpast h)
  · rcases hkept with h | hkept
    · exact .inl h
    · refine .inr ⟨hconnected hc, fun y hy hof => ?_⟩
      rcases List.mem_append.1 hy with hy | hy
      · exact hall y hy hof
      · obtain rfl := List.mem_singleton.1 hy
        exact hkept hof

/-- Whoever has no part in a move stays blameless. -/
theorem Blameless.stay {x : Happening Desk Move} (h : Blameless past i e) (hof : ¬ x.move.Of i) :
    Blameless (past ++ [x]) i e :=
  h.follow id id (.inr fun h => absurd h hof)

theorem Told.known_append (h : Told past d) {d' : Desk}
    (hle : d.callers.length ≤ d'.callers.length) (hof : ∀ i, m.Of i → i < d.callers.length) :
    ∀ x ∈ past ++ [⟨d, m, d'⟩], ∀ i, x.move.Of i → i < d'.callers.length := by
  intro x hx i hi
  rcases List.mem_append.1 hx with hx | hx
  · exact Nat.lt_of_lt_of_le (h.known x hx i hi) hle
  · obtain rfl := List.mem_singleton.1 hx
    exact Nat.lt_of_lt_of_le (hof i hi) hle

/-- **Every move** leaves everybody blameless. -/
theorem Told.move (h : Told past d) (hrounds : Rounds turns d) (hm : m.Begins)
    (hmove : d.move? m = some d') : Told (past ++ [⟨d, m, d'⟩]) d' := by
  cases m with
  | step j =>
      obtain ⟨e, c, slot', hj, hstep, rfl⟩ := step?_eq_some hmove
      rw [hrounds.not_dropped hj (hasEnded_of_step? hstep)] at hstep
      have hacts := acts_of_step? hstep
      have hlt := (List.getElem?_eq_some_iff.1 hj).1
      refine ⟨h.known_append (List.length_set ..).ge fun i hi => hi ▸ hlt, fun i c' hi => ?_⟩
      rcases getElem?_set_cases hi with ⟨rfl, rfl⟩ | ⟨hij, hi⟩
      · obtain ⟨hslot, hpast⟩ := hacts.pastTurn
        exact (h.blameless i e hj).follow hpast (fun _ => connected_of_acts hacts)
          (hslot.symm.imp_right fun hslot _ => hslot)
      · exact (h.blameless i c' hi).stay fun hof => hij hof.symm
  | exchange j k =>
      obtain ⟨m, e, hj, hk, hreceives, rfl⟩ := exchange?_eq_some hmove
      have hltj := (List.getElem?_eq_some_iff.1 hj).1
      have hltk := (List.getElem?_eq_some_iff.1 hk).1
      refine ⟨h.known_append (by simp) (by rintro i (rfl | rfl) <;> assumption),
        fun i c hi => ?_⟩
      rcases getElem?_set_cases hi with ⟨rfl, rfl⟩ | ⟨-, hi⟩
      · refine (h.blameless i e hk).follow (fun hpast => ?_) (fun _ => ?_) (.inr fun _ => rfl)
        · cases e with
          | sending m => cases hreceives
          | _ => first | cases hreceives | exact absurd hpast id
        · cases m <;> rintro _ _ ⟨⟩
      · rcases getElem?_set_cases hi with ⟨rfl, rfl⟩ | ⟨-, hi⟩
        · exact .inl (by cases m <;> exact trivial)
        · exact (h.blameless i c hi).follow id id (.inr fun _ => rfl)
  | close =>
      rw [move?] at hmove
      split_ifs at hmove
      obtain rfl := Option.some.inj hmove
      exact ⟨h.known_append (Nat.le_refl _) fun _ => False.elim,
        fun i c hi => (h.blameless i c hi).stay id⟩
  | fire =>
      obtain rfl := Option.some.inj hmove
      exact ⟨h.known_append (Nat.le_refl _) fun _ => False.elim,
        fun i c hi => (h.blameless i c hi).stay id⟩
  | join c =>
      rw [move?] at hmove
      split_ifs at hmove
      obtain rfl := Option.some.inj hmove
      refine ⟨h.known_append (by simp [join]) fun _ => False.elim, fun i c' hi => ?_⟩
      rcases getElem?_concat_cases hi with hi | ⟨rfl, rfl⟩
      · exact (h.blameless i c' hi).stay id
      · have hnew : Blameless past d.callers.length c' := by
          refine .inr ⟨?_, fun x hx hof => absurd (h.known x hx _ hof) (Nat.lt_irrefl _)⟩
          rintro number signal rfl
          exact hm
        exact hnew.stay id
  | drop =>
      rw [move?, drop?] at hmove
      split_ifs at hmove
      obtain rfl := Option.some.inj hmove
      exact ⟨h.known_append (Nat.le_refl _) fun _ => False.elim,
        fun i c hi => (h.blameless i c hi).stay id⟩

end Told

/-! ## The theorem -/

theorem rounds_of_runs {number : Nat} {past : List (Happening Desk Move)} {d : Desk}
    (hruns : Runs move? (ofNumber number) past d) (hbegin : ∀ x ∈ past, x.move.Begins) :
    Rounds (past.filterMap turn?) d ∧ Told past d := by
  induction hruns with
  | start =>
      exact ⟨rounds_ofNumber number, fun x hx => absurd hx List.not_mem_nil,
        fun i c hi => by simp [ofNumber] at hi⟩
  | more hruns hmove ih =>
      obtain ⟨hrounds, htold⟩ := ih fun x hx => hbegin x (List.mem_append_left _ hx)
      have hm := hbegin _ List.mem_concat_self
      rw [filterMap_concat]
      exact ⟨hrounds.move hm hmove, htold.move hrounds hm hmove⟩

/-- **The phases of a slot go round one cycle, whoever calls.** Any number of callers make any of
the nine calls on one slot, in any order and interleaving, and it may be closed at any time, and be
dropped when nobody calls it any more. The phases that the slot goes through are those of the cycle
in their order, beginning idle. Whoever is about to free the slot finds it completed, by the last
turn and its own; and each time it is freed, it is by the one who completed the service. A customer
is bound to the slot exactly in the last four phases, and it is the one for whom the current cycle's
publication was made; the services that are counted are the turns that freed the slot. A call that
fails for a breach of the protocol has changed nothing, and no call ever finds the other end of a
signal gone. -/
theorem phases_go_round {number : Nat} {moves : List Move} (hmoves : ∀ m ∈ moves, m.Begins)
    {d : Desk} (hrun : run? moves (.ofNumber number) = some d) :
    let past := course move? moves (.ofNumber number)
    let turns := past.filterMap turn?
    turns.map (fun t => (t.origin, t.goal)) =
      (List.range turns.length).map (fun k => (Phase.after k, Phase.after (k + 1))) ∧
    d.slot.phase = Phase.after turns.length ∧
    (∀ i : Nat, d.callers[i]? = some .settling → d.slot.phase = .completed ∧
      ∃ t, turns.getLast? = some t ∧ t.caller = i ∧ t.goal = .completed) ∧
    turns.IsChain (fun t t' => t'.goal = .idle → t'.caller = t.caller) ∧
    d.slot.customer.isSome = d.slot.phase.hasCustomer ∧
    (sinceIdle turns).filterMap Turn.customer = d.slot.customer.toList ∧
    d.slot.served = turns.countP (fun t => t.goal = .idle) ∧
    ∀ (i n : Nat) (b : Breach), d.callers[i]? = some (.finished (.error (.violation n b))) →
      (∀ x ∈ past, x.move.Of i → x.after.slot = x.before.slot) ∧
      ∀ signal, b ≠ .disconnected signal := by
  obtain ⟨hrounds, htold⟩ :=
    rounds_of_runs (runs_of_run? (fun _ => rfl) (fun _ _ _ => rfl) hrun)
      fun x hx => hmoves _ (move_mem_of_course hx)
  refine ⟨hrounds.walk, hrounds.phase, fun i hi => hrounds.closing i _ hi trivial,
    hrounds.frees, hrounds.bound, hrounds.customer, hrounds.served, fun i n b hi => ?_⟩
  rcases htold.blameless i _ hi with hpast | ⟨hconnected, hkept⟩
  · exact absurd hpast id
  · exact ⟨hkept, fun signal hb => hconnected n signal (by rw [hb])⟩

/-- Nobody keeps to the rules: the slot is opened twice, two customers publish, and the worker
neither waits for the assignment nor for the go-ahead. The phases go round all the same, and in the
second cycle another customer is bound. -/
theorem phases_go_round_unruly :
    let moves : List Move := [.join .opening, .step 0, .join .opening, .step 1,
      .join (.publishing ⟨7, .buyStamps⟩), .step 2, .join (.publishing ⟨8, .mailLetter⟩), .step 3,
      .join .acknowledging, .step 4, .join .proceeding, .step 5, .join .completing, .step 6,
      .join .awaitingCompletion, .exchange 6 7, .step 6, .join .opening, .step 8,
      .join (.publishing ⟨9, .buyStamps⟩), .step 9, .close, .step 4]
    (∀ m ∈ moves, m.Begins) ∧
      ∃ d, run? moves (.ofNumber 3) = some d ∧
        d.callers[1]? = some (.finished (.error
          (.violation 3 (.outOfTurn .awaitingPublish .idle .awaitingPublish)))) ∧
        d.callers[3]? = some (.finished (.error (.violation 3 (.publishedInto 8 .published)))) ∧
        d.slot.served = 1 ∧ d.slot.phase = Phase.after 8 ∧
        (sinceIdle ((course move? moves (.ofNumber 3)).filterMap turn?)).filterMap Turn.customer =
          [9] := by
  intro moves
  have hbegin : ∀ m ∈ moves, m.Begins := by
    simp [moves, Move.Begins, Caller.Begins]
  obtain ⟨d, hrun, hsecond, hlate, hserved, hbound, hlength⟩ :
      ∃ d, run? moves (.ofNumber 3) = some d ∧
        d.callers[1]? = some (.finished (.error
          (.violation 3 (.outOfTurn .awaitingPublish .idle .awaitingPublish)))) ∧
        d.callers[3]? = some (.finished (.error (.violation 3 (.publishedInto 8 .published)))) ∧
        d.slot.served = 1 ∧ d.slot.customer = some 9 ∧
        ((course move? moves (.ofNumber 3)).filterMap turn?).length = 8 :=
    ⟨_, rfl, rfl, rfl, rfl, rfl, rfl⟩
  obtain ⟨-, hphase, -, -, -, hcustomer, -⟩ := phases_go_round hbegin hrun
  rw [hlength] at hphase
  rw [hbound] at hcustomer
  exact ⟨hbegin, d, hrun, hsecond, hlate, hserved, hphase, hcustomer⟩

end Desk

end Slot

end Postal

import Postal.Proofs.Cycle
import Postal.Proofs.Faithful

/-!
# The selects of a slot.

Everybody who calls a slot is at a select where it waits (`Slot.Desk.venue_lawful`), and the rules
of the slot know the selects (`Slot.Desk.venue_faithful`): they interrupt a wait just where the arm
of the close or of the shutdown ends it. That holds as long as the slot is there while somebody
calls it, which the turns of its cycle tell (`Slot.Desk.Rounds`). So whatever happens at the selects
happens by the rules (`Slot.Desk.run_of_selects`).

## §1 — what callers wait for.
## §2 — callers at their selects.
## §3 — the rules of a slot know its selects.
-/

namespace Postal.Slot

/-! ## §1 — what callers wait for -/

namespace Caller

variable {c c' : Caller} {w : Wait}

/-- Whoever stands in line waits for the same as before. -/
theorem wait?_lineUp (c : Caller) : c.lineUp.wait? = c.wait? := by
  cases c <;> rfl

/-- Whoever waits stands in line with a message, or is about to, or waits for a signal. -/
theorem wait?_cases (hw : c.wait? = some w) :
    (∃ m, c.lineUp = .sending m ∧ w = ⟨0, m.signal, true⟩) ∨
      c.lineUp = c ∧ ∃ signal, c.receives? = some signal ∧ w = ⟨0, signal, false⟩ := by
  cases c with
  | sending m =>
      obtain rfl := Option.some.inj hw
      exact .inl ⟨m, rfl, rfl⟩
  | offering a =>
      obtain rfl := Option.some.inj hw
      exact .inl ⟨.assignment a, rfl, rfl⟩
  | awaitingPublish | awaitingAcknowledge | awaitingProceed | awaitingCompletion =>
      obtain rfl := Option.some.inj hw
      exact .inr ⟨rfl, _, rfl, rfl⟩
  | _ => cases hw

/-- Whoever waits to hand a message over is about to stand in line with it. -/
theorem lineUp_of_sends (hw : c.wait? = some w) (hsends : w.sends = true) :
    ∃ m, c.lineUp = .sending m ∧ w = ⟨0, m.signal, true⟩ := by
  rcases wait?_cases hw with hline | ⟨-, signal, -, rfl⟩
  · exact hline
  · cases hsends

/-- Whoever stands in line with an assignment holds it out. -/
theorem eq_of_offers (hw : c.wait? = some w) (hoffers : w.Offers) (hline : c.lineUp = c) :
    ∃ a, c = .sending (.assignment a) := by
  obtain ⟨m, hm, rfl⟩ := lineUp_of_sends hw hoffers.2
  cases m with
  | assignment a => exact ⟨a, hline.symm.trans hm⟩
  | _ => cases hoffers.1

/-- Whoever waits to take a message is where it waits for the signal. -/
theorem receives_of_wait (hw : c.wait? = some w) (hsends : w.sends = false) :
    c.lineUp = c ∧ c.receives? = some w.signal := by
  rcases wait?_cases hw with ⟨m, -, rfl⟩ | ⟨hline, signal, hreceives, rfl⟩
  · cases hsends
  · exact ⟨hline, hreceives⟩

/-- There is only one slot to wait at. -/
theorem slot_of_wait (hw : c.wait? = some w) : w.slot = 0 := by
  rcases wait?_cases hw with ⟨m, -, rfl⟩ | ⟨-, signal, -, rfl⟩ <;> rfl

/-- Nobody turns the phase and stands in line with an assignment. -/
theorem Advances.ne_assignment {needed : Phase} (h : c.Advances needed c') (a : Assignment) :
    c' ≠ .sending (.assignment a) := by
  cases h <;> rintro ⟨⟩

/-- A section that is not at a select leaves the slot open or closed, and nobody gets in line with
an assignment by it. -/
theorem Acts.aside {s s' : Slot} (h : c.Acts s c' s') (hwait : c.wait? = none) :
    s'.closed = s.closed ∧ ∀ a, c' ≠ .sending (.assignment a) := by
  cases h with
  | turns hadv => exact ⟨rfl, hadv.ne_assignment⟩
  | offers a => cases hwait
  | _ => exact ⟨rfl, fun a => by rintro ⟨⟩⟩

/-- Whoever waits at a select is not at its end. -/
theorem hasEnded_of_wait (hw : c.wait? = some w) : c.hasEnded = false := by
  cases c with
  | finished result => cases hw
  | _ => rfl

end Caller

namespace Desk

variable {d d' : Desk} {i j : Nat} {c c' : Caller} {w : Wait} {m : Move}

/-! ## §2 — callers at their selects -/

/-- **`d.Asides m d'`** — everything that a move can do in which nobody is at a select. -/
inductive Asides (d : Desk) : Move → Desk → Prop
  | steps {i : Nat} {c c' : Caller} {slot' : Slot} (hi : d.callers[i]? = some c)
      (hwait : c.wait? = none)
      (h : c.step? d.slot d.dropped d.fired d.offered = some (c', slot')) :
      Asides d (.step i) { d with slot := slot', callers := d.callers.set i c' }
  | closes : Asides d .close d.close
  | fires : Asides d .fire d.fire
  | joins (c : Caller) : Asides d (.join c) (d.join c)
  | drops : Asides d .drop { d with dropped := true }

theorem asides_of_aside? (h : venue.aside? d m = some d') : d.Asides m d' := by
  obtain ⟨hexchange, hwaits, hrule⟩ := Venue.aside?_eq_some h
  replace hrule : d.move? m = some d' := hrule
  cases m with
  | step i =>
      obtain ⟨c, c', slot', hi, hstep, rfl⟩ := step?_eq_some hrule
      have hwait : d.callers[i]?.bind Caller.wait? = none := hwaits i rfl
      rw [hi, Option.bind_some] at hwait
      exact .steps hi hwait hstep
  | exchange i j => cases hexchange
  | close =>
      rw [move?] at hrule
      split_ifs at hrule
      exact Option.some.inj hrule ▸ .closes
  | fire => exact Option.some.inj hrule ▸ .fires
  | join c =>
      rw [move?] at hrule
      split_ifs at hrule
      exact Option.some.inj hrule ▸ .joins c
  | drop =>
      rw [move?, drop?] at hrule
      split_ifs at hrule
      exact Option.some.inj hrule ▸ .drops

theorem venue_lawful : venue.Lawful where
  people_seat _ _ := rfl
  seat_people _ := rfl
  seat_seat _ _ _ := rfl
  closed_seat _ _ _ := rfl
  fired_seat _ _ := rfl
  wait_lineUp := Caller.wait?_lineUp
  stays_of_aside {d d' m i c} haside hi hwaits := by
    replace hi : d.callers[i]? = some c := hi
    show d'.callers[i]? = some c
    cases asides_of_aside? haside with
    | @steps j e e' slot' hj hwait hstep =>
        refine (List.getElem?_set_ne ?_).trans hi
        rintro rfl
        obtain rfl := Option.some.inj (hj.symm.trans hi)
        exact hwaits hwait
    | joins e => exact (List.getElem?_append_left (List.getElem?_eq_some_iff.1 hi).1).trans hi
    | _ => exact hi
  fired_of_aside haside hfired := by
    cases asides_of_aside? haside with
    | fires => rfl
    | _ => exact hfired

/-! ## §3 — the rules of a slot know its selects -/

/-- Whoever has a section that leaves the slot alone can go on by it. -/
theorem acts_of_section (hi : d.callers[i]? = some c)
    (hstep : c.step? d.slot d.dropped d.fired d.offered = some (c', d.slot)) :
    venue.Acts d { d with callers := d.callers.set i c' } := by
  refine ⟨.step i, rfl, ?_⟩
  show d.step? i = _
  simp only [step?, hi, hstep, Option.bind_eq_bind, Option.bind_some]

/-- As long as the slot goes round its cycle, each section is as the cycle says. -/
theorem Rounds.acts {turns : List Turn} {slot' : Slot} (h : Rounds turns d)
    (hi : d.callers[i]? = some c)
    (hstep : c.step? d.slot d.dropped d.fired d.offered = some (c', slot')) :
    c.Acts d.slot c' slot' := by
  rw [h.not_dropped hi (hasEnded_of_step? hstep)] at hstep
  exact acts_of_step? hstep

/-- **A caller that stands in line** is interrupted by a section of its own. -/
theorem step?_interrupted (hdropped : d.dropped = false) (hline : c.lineUp = c)
    (hw : c.wait? = some w)
    (hover : d.slot.closed = true ∨ w.heeds = true ∧ d.fired = true ∧ d.offered = false) :
    c.step? d.slot d.dropped d.fired d.offered =
      some (.finished (.error .interrupted), d.slot) := by
  have hwait : ∀ signal isOver, isOver = true → Caller.afterWait? d.slot signal d.dropped isOver =
      some (.finished (.error .interrupted), d.slot) := by
    rintro signal isOver rfl
    rw [hdropped]
    rfl
  rcases Caller.wait?_cases hw with ⟨m, hm, rfl⟩ | ⟨-, signal, hreceives, rfl⟩
  · have hclosed := hover.resolve_right fun h => by
      cases (Wait.heeds_iff.1 h.1).2
    rw [← hline, hm]
    exact hwait _ _ hclosed
  · have hclosed : signal ≠ .published → d.slot.closed = true := fun hsignal =>
      hover.resolve_right fun h => hsignal (Wait.heeds_iff.1 h.1).1
    cases c with
    | awaitingPublish =>
        refine hwait _ _ ?_
        rcases hover with hclosed | ⟨-, hfired, hnobody⟩
        · rw [hclosed, Bool.true_or]
        · rw [hfired, hnobody, Bool.not_false, Bool.and_self, Bool.or_true]
    | awaitingAcknowledge | awaitingProceed | awaitingCompletion =>
        obtain rfl := Option.some.inj hreceives
        exact hwait _ _ (hclosed (by decide))
    | _ => cases hreceives

/-- **A caller that stands in line** hands its message over by an exchange. -/
theorem exchange?_hands {m : Message} (hi : d.callers[i]? = some (.sending m))
    (hj : d.callers[j]? = some c) (hreceives : c.receives? = some m.signal)
    (hopen : d.slot.closed = false) :
    d.exchange? i j = some { d with
      callers := (d.callers.set i (Caller.afterSend m)).set j (Caller.afterReceive m) } := by
  simp only [exchange?, hi, hj, Caller.sends?, hreceives, hopen, Option.bind_eq_bind,
    Option.bind_some, and_self, if_true]

/-- Somebody holds out an assignment only if it stands in line with it. -/
theorem offered_eq_false (hnobody : ∀ (j : Nat) (a : Assignment),
    d.callers[j]? ≠ some (.sending (.assignment a))) : d.offered = false := by
  rw [offered, List.any_eq_false]
  intro c hc
  obtain ⟨j, hj⟩ := List.mem_iff_getElem?.1 hc
  cases c with
  | sending m =>
      cases m with
      | assignment a => exact absurd hj (hnobody j a)
      | _ => exact Bool.false_ne_true
  | _ => exact Bool.false_ne_true

/-- **The rules of a slot fit its selects**, as long as the slot is there while somebody calls it.
-/
theorem venue_faithful :
    venue.Faithful (fun d => ∃ turns, Rounds turns d) Move.Begins where
  lawful := venue_lawful
  fit_of_rule hfit hm hrule := by
    obtain ⟨turns, hrounds⟩ := hfit
    exact ⟨_, hrounds.move hm hrule⟩
  begins_of_own {m} hm := by
    cases m with
    | join c => cases hm
    | _ => trivial
  closed_of_aside {d d' m slot} hfit haside hclosed := by
    obtain ⟨turns, hrounds⟩ := hfit
    replace hclosed : d.slot.closed = true := hclosed
    show d'.slot.closed = true
    cases asides_of_aside? haside with
    | steps hi hwait hstep =>
        exact ((hrounds.acts hi hstep).aside hwait).1.trans hclosed
    | closes => rfl
    | _ => exact hclosed
  outside {d d' m i c w} hfit hm haside hi hw hoffers hline := by
    obtain ⟨turns, hrounds⟩ := hfit
    obtain ⟨a, rfl⟩ := Caller.eq_of_offers hw hoffers hline
    replace hi : d'.callers[i]? = some (.sending (.assignment a)) := hi
    show d.callers[i]? = some (.sending (.assignment a))
    cases asides_of_aside? haside with
    | @steps j e e' slot' hj hwait hstep =>
        rcases getElem?_set_cases hi with ⟨rfl, rfl⟩ | ⟨-, hi⟩
        · exact absurd rfl (((hrounds.acts hj hstep).aside hwait).2 a)
        · exact hi
    | joins e =>
        rcases getElem?_concat_cases hi with hi | ⟨-, rfl⟩
        · exact hi
        · exact hm.elim
    | _ => exact hi
  lineUp_lineUp c := by cases c <;> rfl
  afterSend_lineUp c := by cases c <;> rfl
  afterReceive_lineUp c c' := by cases c <;> rfl
  interrupted_lineUp _ := rfl
  sent {c w w'} hw hsends hw' hoffers := by
    obtain ⟨m, hm, -⟩ := Caller.lineUp_of_sends hw hsends
    replace hw' : (c.lineUp.sends?.elim c Caller.afterSend).wait? = some w' := hw'
    rw [hm] at hw'
    cases m <;> cases hw'
  received {c c' w w' w''} hw hw' hmeets hsends hafter hoffers := by
    obtain ⟨m, hm, -⟩ := Caller.lineUp_of_sends hw hsends
    replace hafter : (c.lineUp.sends?.elim c' Caller.afterReceive).wait? = some w'' := hafter
    rw [hm] at hafter
    cases m <;> cases hafter
  gone _ := rfl
  lines {d i c} hfit hi hline := by
    cases c with
    | offering a => exact acts_of_section hi rfl
    | _ => exact absurd rfl hline
  hands {d i j c c' w w'} hfit hi hj hline hw hw' hmeets hsends hopen := by
    obtain ⟨m, hm, rfl⟩ := Caller.lineUp_of_sends hw hsends
    obtain rfl := hline.symm.trans hm
    obtain ⟨-, hsignal, hsides⟩ := Wait.meets_iff.1 ((Wait.meets_comm w' _).trans hmeets)
    obtain ⟨-, hreceives⟩ := Caller.receives_of_wait hw' hsides
    rw [hsignal] at hreceives
    exact ⟨.exchange i j, rfl, exchange?_hands hi hj hreceives hopen⟩
  interrupts {d i c w} hfit hi hline hw hover := by
    obtain ⟨turns, hrounds⟩ := hfit
    have hdropped := hrounds.not_dropped hi (Caller.hasEnded_of_wait hw)
    refine acts_of_section hi (step?_interrupted hdropped hline hw ?_)
    rcases hover with hclosed | ⟨hheeds, hfired, hnobody⟩
    · exact .inl hclosed
    refine .inr ⟨hheeds, hfired, offered_eq_false fun j a hj => hnobody j _ _ hj rfl ?_ rfl⟩
    obtain ⟨hpublished, hsides⟩ := Wait.heeds_iff.1 hheeds
    exact Wait.meets_iff.2 ⟨Caller.slot_of_wait hw, hpublished, hsides⟩

theorem rules?_eq (ms : List Move) (d : Desk) : venue.rules? ms d = run? ms d := by
  induction ms generalizing d with
  | nil => rfl
  | cons m ms ih =>
      show (d.move? m).bind (venue.rules? ms) = (d.move? m).bind (run? ms)
      rw [funext ih]

/-- **Whatever happens at the selects of a slot happens by its rules.** Take any number of calls of
one slot that nobody has called, in any interleaving, with the selects they are at. Then the same
calls, the same close and the same shutdown, in the same order, with some steps and exchanges
between them, come to the same by the rules of the slot. -/
theorem run_of_selects {number : Nat} {ms : List (Selecting.Move Move)}
    (hms : ∀ m, .aside m ∈ ms → m.Begins) {x : Selecting Desk}
    (hrun : venue.run? ms (.start (.ofNumber number)) = some x) :
    ∃ ms', run? ms' (.ofNumber number) = some x.place ∧ (∀ m ∈ ms', m.Begins) ∧
      ms'.filter (fun m => !venue.isOwn m) =
        (ms.filterMap Selecting.Move.aside?).filter fun m => !venue.isOwn m := by
  have hstart : venue.Seated (fun d => ∃ turns, Rounds turns d) (.start (.ofNumber number)) :=
    Venue.seated_start ⟨_, rounds_ofNumber number⟩ rfl
  obtain ⟨-, ms', hrules, hbegins, hsame⟩ := hstart.run venue_faithful hms hrun
  exact ⟨ms', (rules?_eq ms' _).symm.trans hrules, hbegins, hsame⟩

end Desk

end Postal.Slot

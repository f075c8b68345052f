import Postal.Proofs.Breach
import Postal.Proofs.Faithful
import Postal.Proofs.Shut

/-!
# The selects of the office.

Everybody in the office is at a select where it waits (`Floor.venue_lawful`), and the rules of the
office know the selects (`Floor.venue_faithful`): they interrupt a wait just where the arm of the
close or of the shutdown ends it. So whatever happens at the selects happens by the rules
(`Floor.run_of_selects`), and what the rules keep holds there too: the desks are kept in every
proper run, and whoever stands in line with its assignment is parked (`Floor.Seated`).

## §1 — what people wait for.
## §2 — people at their selects.
## §3 — the rules of the office know the selects.
## §4 — runs.
-/

namespace Postal

/-! ## §1 — what people wait for -/

namespace Wait

variable {w : Wait} {sends : Option (Nat × Message)} {receives : Option (Nat × Signal)}

/-- Whoever is at the sending side holds out a message of the signal. -/
theorem sends_of_of? (h : of? sends receives = some w) (hsends : w.sends = true) :
    ∃ m, sends = some (w.slot, m) ∧ m.signal = w.signal := by
  unfold of? at h
  split at h
  · obtain rfl := Option.some.inj h
    exact ⟨_, rfl, rfl⟩
  · obtain rfl := Option.some.inj h
    cases hsends
  · cases h

/-- Whoever is at the receiving side waits for the signal. -/
theorem receives_of_of? (h : of? sends receives = some w) (hsends : w.sends = false) :
    receives = some (w.slot, w.signal) := by
  unfold of? at h
  split at h
  · obtain rfl := Option.some.inj h
    cases hsends
  · obtain rfl := Option.some.inj h
    rfl
  · cases h

end Wait

namespace Person

variable {p p' : Person} {w : Wait}

/-- Whoever is not bound to a slot need not stand in line. -/
theorem lineUp_cases (p : Person) :
    p.lineUp = p ∨ ∃ c stay slot, p = .customer c (.dealing stay slot .offering) := by
  cases p with
  | customer c v =>
      cases v with
      | dealing stay slot d =>
          cases d with
          | offering => exact .inr ⟨c, stay, slot, rfl⟩
          | _ => exact .inl rfl
      | _ => exact .inl rfl
  | _ => exact .inl rfl

/-- Whoever stands in line waits for the same as before. -/
theorem wait?_lineUp (p : Person) : p.lineUp.wait? = p.wait? := by
  rcases p.lineUp_cases with hline | ⟨c, stay, slot, rfl⟩
  · rw [hline]
  · rfl

theorem lineUp_lineUp (p : Person) : p.lineUp.lineUp = p.lineUp := by
  rcases p.lineUp_cases with hline | ⟨c, stay, slot, rfl⟩
  · rw [hline, hline]
  · rfl

theorem interrupted_lineUp (p : Person) : p.lineUp.interrupted = p.interrupted := by
  rcases p.lineUp_cases with hline | ⟨c, stay, slot, rfl⟩
  · rw [hline]
  · rfl

/-- Nobody waits who is about to announce something. -/
theorem wait?_of_unwind? (h : p.unwind? = some p') : p.wait? = none := by
  cases unwinds_of_unwind? h with
  | @dealing c stay w d e he => cases d <;> first | rfl | cases he
  | @working w k e he hscale =>
      cases k with
      | serving n a position => cases position <;> first | rfl | cases he
      | _ => first | rfl | cases he
  | _ => rfl

/-- **Whoever waits in vain**, and stands in line or need not, goes on as one who was interrupted,
by the rules of the office. -/
theorem step?_interrupted {premises : Premises} {offered : Nat → Bool} (hline : p.lineUp = p)
    (hw : p.wait? = some w) (hover : premises.isSlotClosed w.slot = true ∨
      w.heeds = true ∧ premises.fired = true ∧ offered w.slot = false) :
    p.step? premises offered = some (p.interrupted, premises) := by
  have hclosed : (w.signal ≠ .published ∨ w.sends = true) →
      premises.isSlotClosed w.slot = true := by
    intro hno
    refine hover.resolve_right fun h => ?_
    obtain ⟨hpublished, hreceives⟩ := Wait.heeds_iff.1 h.1
    rcases hno with hsignal | hsends
    · exact hsignal hpublished
    · cases hsends.symm.trans hreceives
  cases hsends : w.sends with
  | true =>
      obtain ⟨m, hm, -⟩ := Wait.sends_of_of? hw hsends
      have hshut := hclosed (.inr hsends)
      rw [hline] at hm
      rcases Floor.sends?_cases hm with ⟨c, stay, rfl, -⟩ | ⟨c, stay, rfl, -⟩ | ⟨n, a, rfl, -⟩ |
        ⟨n, a, rfl, -⟩
      all_goals
        simp only [step?, Visiting.step?, Visiting.deal?, Visiting.orClosed, Working.step?,
          Service.step?, Service.orClosed, hshut, if_true, Option.map_some, interrupted,
          Progress.within]
  | false =>
      have hrecv := Wait.receives_of_of? hw hsends
      obtain ⟨slot, signal, sends⟩ := w
      dsimp only at hrecv hover hclosed
      rcases Floor.receives?_cases hrecv with ⟨n, rfl, rfl⟩ | ⟨c, stay, rfl, rfl⟩ |
        ⟨n, a, rfl, rfl⟩ | ⟨c, stay, rfl, rfl⟩
      · have hover' : (premises.isSlotClosed slot || premises.fired && !offered slot) = true := by
          rcases hover with hshut | ⟨-, hfired, hnone⟩
          · rw [hshut, Bool.true_or]
          · rw [hfired, hnone, Bool.not_false, Bool.and_true, Bool.or_true]
        simp only [step?, Working.step?, hover', if_true, Option.map_some, interrupted]
      all_goals
        have hshut := hclosed (.inl (by decide))
        simp only [step?, Visiting.step?, Visiting.deal?, Visiting.orClosed, Working.step?,
          Service.step?, Service.orClosed, hshut, if_true, Option.map_some, interrupted,
          Progress.within]

end Person

namespace Floor

/-! ## §2 — people at their selects -/

section Venue

variable {f f' : Floor} {m : Move} {i : Nat} {p : Person}

/-- **Whoever waits** has no part in a move aside. -/
theorem stays_of_aside (haside : venue.aside? f m = some f') (hi : f.people[i]? = some p)
    (hp : p.wait? ≠ none) : f'.people[i]? = some p := by
  obtain ⟨hexchange, hwaits, hrule⟩ := Venue.aside?_eq_some haside
  replace hrule : f.move? m = some f' := hrule
  cases m with
  | step j =>
      obtain ⟨q, q', premises', hj, hstep, rfl⟩ := step?_eq_some hrule
      refine (List.getElem?_set_ne ?_).trans hi
      rintro rfl
      have hwait : f.people[j]?.bind Person.wait? = none := hwaits j rfl
      rw [hi, Option.bind_some] at hwait
      exact hp hwait
  | exchange j k => cases hexchange
  | unwind j =>
      obtain ⟨q, q', hj, hunwind, rfl⟩ := unwind?_eq_some hrule
      refine (List.getElem?_set_ne ?_).trans hi
      rintro rfl
      obtain rfl := Option.some.inj (hj.symm.trans hi)
      exact hp (Person.wait?_of_unwind? hunwind)
  | fire =>
      obtain rfl := Option.some.inj hrule
      exact hi
  | join q =>
      obtain rfl := Option.some.inj hrule
      exact (List.getElem?_append_left (List.getElem?_eq_some_iff.1 hi).1).trans hi

theorem venue_lawful : venue.Lawful where
  people_seat _ _ := rfl
  seat_people _ := rfl
  seat_seat _ _ _ := rfl
  closed_seat _ _ _ := rfl
  fired_seat _ _ := rfl
  wait_lineUp := Person.wait?_lineUp
  stays_of_aside := stays_of_aside
  fired_of_aside haside := fired_stays (Venue.aside?_eq_some haside).2.2

end Venue

/-! ## §3 — the rules of the office know the selects -/

/-- Whoever comes is outside, at the gate of its shift, or closes something. -/
def Move.Enters : Move → Prop
  | .join p => (∃ c, p = .arrives c) ∨ (∃ w, p = .starts w) ∨ ∃ k, p = .closer k
  | _ => True

section Faithful

variable {f f' : Floor} {m : Move} {i j w : Nat} {p q : Person} {wait : Wait}

/-- The slots stay as many as the locks say. -/
theorem slots_length_of_locks {premises premises' : Premises}
    (hlocks : premises'.locks = premises.locks)
    (hsize : premises'.pool.size = premises.pool.size) :
    premises'.slots.length = premises.slots.length := by
  have hlength := congrArg List.length hlocks
  simp only [Premises.locks, List.length_cons, List.length_append, List.length_map] at hlength
  simp only [Pool.size] at hsize
  omega

theorem slots_length_move (hmove : f.move? m = some f') :
    f'.premises.slots.length = f.premises.slots.length := by
  cases m with
  | step i =>
      cases steps_of_step? hmove with
      | customer hi hv => exact slots_length_of_locks hv.locks_eq hv.pool_size
      | worker hi hk => exact slots_length_of_locks hk.locks_eq hk.pool_size
      | closer hi hk => exact (alike_of_closing hk).1
  | exchange i j =>
      obtain ⟨w, people', -, hex, rfl⟩ := exchanges_of_exchange? hmove
      rfl
  | unwind i =>
      obtain ⟨p, p', hi, hunwind, rfl⟩ := unwind?_eq_some hmove
      rfl
  | fire => exact Option.some.inj hmove ▸ rfl
  | join p => exact Option.some.inj hmove ▸ rfl

/-- A slot that is closed is there, and shut. -/
theorem isSlotClosed_iff {premises : Premises} : premises.isSlotClosed w = true ↔
    w < premises.slots.length ∧ premises.isShut (.slot w) = true := by
  rw [Premises.isSlotClosed, Premises.isShut]
  by_cases hw : w < premises.slots.length
  · rw [List.getElem?_eq_getElem hw, Option.any_some, Option.all_some, and_iff_right hw]
  · rw [List.getElem?_eq_none (Nat.le_of_not_lt hw)]
    exact ⟨fun h => absurd h Bool.false_ne_true, fun h => absurd h.1 hw⟩

/-- **No move opens a slot.** -/
theorem isSlotClosed_move (hmove : f.move? m = some f')
    (hclosed : f.premises.isSlotClosed w = true) : f'.premises.isSlotClosed w = true := by
  obtain ⟨hw, hshut⟩ := isSlotClosed_iff.1 hclosed
  exact isSlotClosed_iff.2 ⟨slots_length_move hmove ▸ hw, isShut_move hmove hshut⟩

/-- Whoever stands in line with its assignment is a customer that hands it over. -/
theorem eq_of_offers (hw : p.wait? = some wait) (hoffers : wait.Offers) (hline : p.lineUp = p) :
    ∃ c stay, p = .customer c (.dealing stay wait.slot .handing) := by
  obtain ⟨m, hm, hsignal⟩ := Wait.sends_of_of? hw hoffers.2
  rw [hline] at hm
  rcases sends?_cases hm with ⟨c, stay, rfl, -⟩ | ⟨c, stay, -, rfl⟩ | ⟨n, a, -, rfl⟩ |
    ⟨n, a, -, rfl⟩
  · exact ⟨c, stay, rfl⟩
  · cases hsignal.trans hoffers.1
  · cases hsignal.trans hoffers.1
  · cases hsignal.trans hoffers.1

/-- **Whoever meets somebody** hands over the message that the other one waits for. -/
theorem messages_of_meets {wait' : Wait} (hw : p.wait? = some wait) (hw' : q.wait? = some wait')
    (hmeets : wait.meets wait' = true) (hsends : wait.sends = true) :
    ∃ m, p.lineUp.sends? = some (wait.slot, m) ∧ q.receives? = some (wait.slot, m.signal) ∧
      venue.afterReceive p q = q.afterReceive m := by
  obtain ⟨hslot, hsignal, hsides⟩ := Wait.meets_iff.1 ((Wait.meets_comm wait' wait).trans hmeets)
  obtain ⟨m, hm, hmw⟩ := Wait.sends_of_of? hw hsends
  have hreceives := Wait.receives_of_of? hw' (by rw [hsides, hsends, Bool.not_true])
  rw [hslot, hsignal, ← hmw] at hreceives
  refine ⟨m, hm, hreceives, ?_⟩
  show p.lineUp.sends?.elim q (fun sent => q.afterReceive sent.2) = _
  rw [hm]
  rfl

/-- Only whoever is about to stand in line with its assignment gets there by a step. -/
theorem waits_of_handing {c : Customer} {premises premises' : Premises} {v v' : Visiting}
    {stay : Stay} (h : v.Steps c premises v' premises') (hv' : v' = .dealing stay w .handing) :
    (Person.customer c v).wait? ≠ none := by
  cases h with
  | linesUp => rintro ⟨⟩
  | @enters pos progress gate henter => rcases progress with pos' | ⟨e | ticket⟩ <;> cases hv'
  | @claims stay pos progress pool hclaim =>
      rcases progress with pos' | ⟨e | worker⟩
      · cases hv'
      · cases hv'
      · simp only [Progress.within, Visiting.afterSearch] at hv'
        split at hv' <;> cases hv'
  | _ => cases hv'

/-- Nobody stands in line who has just announced something. -/
theorem ne_handing_of_unwind? {c : Customer} {stay : Stay} (h : p.unwind? = some q) :
    q ≠ .customer c (.dealing stay w .handing) := by
  cases Person.unwinds_of_unwind? h <;> rintro ⟨⟩

/-- Nobody gets in line aside. -/
theorem handing_of_aside {c : Customer} {stay : Stay} (hm : m.Enters)
    (haside : venue.aside? f m = some f')
    (hi : f'.people[i]? = some (.customer c (.dealing stay w .handing))) :
    f.people[i]? = some (.customer c (.dealing stay w .handing)) := by
  have hrule : f.move? m = some f' := (Venue.aside?_eq_some haside).2.2
  have hgone : ∀ {q : Person}, f.people[i]? = some q → q.wait? ≠ none →
      f.people[i]? = some (.customer c (.dealing stay w .handing)) := fun hq hwaits =>
    hq.trans ((stays_of_aside haside hq hwaits).symm.trans hi)
  cases becomes_of_move hrule hi with
  | stays hold => exact hold
  | visits hold hv => exact hgone hold (waits_of_handing hv rfl)
  | swaps hold hswap => cases hswap
  | unwinds hunwind hold hv => exact absurd rfl (ne_handing_of_unwind? hv)
  | comes hjoin hlast =>
      subst hjoin
      rcases hm with ⟨c, ⟨⟩⟩ | ⟨w, ⟨⟩⟩ | ⟨k, ⟨⟩⟩

/-- Whoever has a step that changes nothing on the premises can go on by it. -/
theorem acts_of_step? (hi : f.people[i]? = some p)
    (hstep : p.step? f.premises f.offered = some (q, f.premises)) :
    venue.Acts f { f with people := f.people.set i q } := by
  refine ⟨.step i, rfl, ?_⟩
  show f.step? i = _
  simp only [step?, hi, Option.bind_eq_bind, Option.bind_some, hstep]

/-- Nobody holds out an assignment at a slot if nobody stands in line there with one. -/
theorem offered_eq_false (hnobody : ∀ (j : Nat) (c : Customer) (stay : Stay),
    f.people[j]? ≠ some (.customer c (.dealing stay w .handing))) : f.offered w = false := by
  rw [offered, List.any_eq_false]
  intro p hp
  obtain ⟨j, hj⟩ := List.mem_iff_getElem?.1 hp
  split
  · next slot a hsends =>
    rw [beq_iff_eq]
    rintro rfl
    rcases sends?_cases hsends with ⟨c, stay, rfl, -⟩ | ⟨c, stay, -, ⟨⟩⟩ | ⟨n, b, -, ⟨⟩⟩ |
      ⟨n, b, -, ⟨⟩⟩
    exact hnobody j c stay hj
  · exact Bool.false_ne_true

/-- **The rules of the office fit its selects.** -/
theorem venue_faithful : venue.Faithful (fun _ => True) Move.Enters where
  lawful := venue_lawful
  fit_of_rule _ _ _ := trivial
  begins_of_own {m} hm := by
    cases m with
    | join p => cases hm
    | _ => trivial
  closed_of_aside _ haside hclosed := isSlotClosed_move (Venue.aside?_eq_some haside).2.2 hclosed
  outside _ hm haside hi hw hoffers hline := by
    obtain ⟨c, stay, rfl⟩ := eq_of_offers hw hoffers hline
    exact handing_of_aside hm haside hi
  lineUp_lineUp := Person.lineUp_lineUp
  afterSend_lineUp p := congrArg Person.afterSend (Person.lineUp_lineUp p)
  afterReceive_lineUp p q := by
    show (p.lineUp.lineUp.sends?.elim q _) = p.lineUp.sends?.elim q _
    rw [Person.lineUp_lineUp]
  interrupted_lineUp := Person.interrupted_lineUp
  sent {p w w'} hw hsends hw' hoffers := by
    obtain ⟨m, hm, -⟩ := Wait.sends_of_of? hw hsends
    replace hw' : p.lineUp.afterSend.wait? = some w' := hw'
    rcases sends?_cases hm with ⟨c, stay, hp, -⟩ | ⟨c, stay, hp, -⟩ | ⟨n, a, hp, -⟩ |
      ⟨n, a, hp, -⟩ <;> rw [hp] at hw' <;> cases hw' <;> cases hoffers.2
  received {p q w w' w''} hw hw' hmeets hsends hafter hoffers := by
    obtain ⟨m, -, hreceives, hreceived⟩ := messages_of_meets hw hw' hmeets hsends
    replace hafter : (q.afterReceive m).wait? = some w'' := hreceived ▸ hafter
    rcases receives?_cases hreceives with ⟨n, rfl, -⟩ | ⟨c, stay, rfl, -⟩ | ⟨n, a, rfl, -⟩ |
      ⟨c, stay, rfl, -⟩
    · cases m <;> cases hafter <;> cases hoffers.2
    · cases hafter
    · cases hafter
    · cases hafter
  gone {p w} hw := by
    cases hsends : w.sends with
    | true =>
        obtain ⟨m, hm, -⟩ := Wait.sends_of_of? hw hsends
        show p.interrupted.wait? = none
        rw [← Person.interrupted_lineUp]
        rcases sends?_cases hm with ⟨c, stay, hp, -⟩ | ⟨c, stay, hp, -⟩ | ⟨n, a, hp, -⟩ |
          ⟨n, a, hp, -⟩ <;> rw [hp] <;> rfl
    | false =>
        rcases receives?_cases (Wait.receives_of_of? hw hsends) with ⟨n, rfl, -⟩ |
          ⟨c, stay, rfl, -⟩ | ⟨n, a, rfl, -⟩ | ⟨c, stay, rfl, -⟩ <;> rfl
  lines {f i p} _ hi hline := by
    refine acts_of_step? hi ?_
    obtain ⟨c, stay, slot, rfl⟩ := p.lineUp_cases.resolve_left hline
    rfl
  hands {f i j p q w w'} _ hi hj hline hw hw' hmeets hsends hopen := by
    obtain ⟨m, hm, hreceives, hreceived⟩ := messages_of_meets hw hw' hmeets hsends
    replace hi : f.people[i]? = some p := hi
    replace hj : f.people[j]? = some q := hj
    replace hline : p.lineUp = p := hline
    replace hopen : f.premises.isSlotClosed w.slot = false := hopen
    refine ⟨.exchange i j, rfl, ?_⟩
    show f.exchange? i j = some { f with
      people := (f.people.set i p.lineUp.afterSend).set j (venue.afterReceive p q) }
    rw [hline] at hm
    rw [hline, hreceived]
    simp only [exchange?, hi, hj, hm, hreceives, hopen, Option.bind_eq_bind, Option.bind_some,
      and_self, if_true]
  interrupts {f i p w} _ hi hline hw hover := by
    refine acts_of_step? hi (Person.step?_interrupted hline hw ?_)
    rcases hover with hclosed | ⟨hheeds, hfired, hnobody⟩
    · exact .inl hclosed
    refine .inr ⟨hheeds, hfired, offered_eq_false fun j c stay hj => hnobody j _ _ hj rfl ?_ rfl⟩
    obtain ⟨hpublished, hsides⟩ := Wait.heeds_iff.1 hheeds
    exact Wait.meets_iff.2 ⟨rfl, hpublished, hsides⟩

end Faithful

/-! ## §4 — runs -/

section Kept

variable {workers : Nat} {f f' : Floor} {ledgers : Nat → Ledger} {ms : List Move}

/-- **`Admits workers f p`** — somebody may come: a customer, a worker of the office who is not
there yet, or whoever closes the office or a part of it. -/
def Admits (workers : Nat) (f : Floor) (p : Person) : Prop :=
  (∃ c, p = .arrives c) ∨ (∃ w, p = .starts w ∧ w < workers ∧ .worker w ∉ f.badges) ∨
    ∃ k, p = .closer k

/-- **Somebody comes** who closes the office, from wherever it begins. -/
theorem Kept.closer_comes (h : f.Kept workers ledgers) (k : Closing) :
    (f.join (.closer k)).Kept workers ledgers := by
  have hcloses := h.join (p := .closes) (.inr (.inr rfl))
  have hlast : (f.join .closes).people[f.people.length]? = some .closes :=
    List.getElem?_concat_length
  have hstill : Kept workers ⟨f.premises, (f.join .closes).people.set f.people.length (.closer k)⟩
      ledgers := hcloses.still hlast rfl trivial fun _ _ _ hp => by cases hp
  have hpeople : (f.join .closes).people.set f.people.length (.closer k) =
      (f.join (.closer k)).people := by
    show (f.people ++ [_]).set _ _ = _
    rw [List.set_append_right _ _ (Nat.le_refl _), Nat.sub_self]
    rfl
  rw [hpeople] at hstill
  exact hstill

/-- **Every move** keeps the desks, if only such people come. -/
theorem Kept.admits (h : f.Kept workers ledgers) {m : Move} (hmove : f.move? m = some f')
    (hjoin : ∀ p, m = .join p → Admits workers f p) : ∃ ledgers', f'.Kept workers ledgers' := by
  cases m with
  | join p =>
      rcases hjoin p rfl with hc | hw | ⟨k, rfl⟩
      · exact h.move hmove fun q hq => .inl (by cases hq; exact hc)
      · exact h.move hmove fun q hq => .inr (.inl (by cases hq; exact hw))
      · exact ⟨_, Option.some.inj hmove ▸ h.closer_comes k⟩
  | _ => exact h.move hmove (by rintro _ ⟨⟩)

/-- A worker comes by starting its shift. -/
theorem count_newcomer_le {m : Move} (hm : ∀ p, m = .join p → Admits workers f p) (w : Nat) :
    m.newcomer?.toList.count (.worker w) ≤ [m].count (.join (.starts w)) := by
  cases m with
  | join p =>
      rcases hm p rfl with ⟨c, rfl⟩ | ⟨v, rfl, -⟩ | ⟨k, rfl⟩
      · exact Nat.zero_le _
      · by_cases hvw : v = w
        · subst hvw
          rw [List.count_singleton_self]
          exact List.count_le_length
        · rw [List.count_eq_zero.2]
          · exact Nat.zero_le _
          · simpa [Move.newcomer?, Person.badge, Person.starts] using Ne.symm hvw
      · exact Nat.zero_le _
  | _ => exact Nat.zero_le _

/-- **Every run** keeps the desks in which customers come, workers start their shifts, none of them
twice, and somebody closes the office or a part of it. -/
theorem Kept.run (h : f.Kept workers ledgers)
    (hbegins : ∀ p, .join p ∈ ms →
      (∃ c, p = .arrives c) ∨ (∃ w, w < workers ∧ p = .starts w) ∨ ∃ k, p = .closer k)
    (honce : ∀ w, f.badges.count (.worker w) + ms.count (.join (.starts w)) ≤ 1)
    (hrun : f.run? ms = some f') : ∃ ledgers', f'.Kept workers ledgers' := by
  induction ms generalizing f ledgers with
  | nil => exact ⟨ledgers, Option.some.inj hrun ▸ h⟩
  | cons m ms ih =>
      obtain ⟨f₁, hmove, hrest⟩ := Option.bind_eq_some_iff.1 hrun
      have hadmits : ∀ p, m = .join p → Admits workers f p := by
        rintro p rfl
        rcases hbegins p List.mem_cons_self with hc | ⟨w, hw, rfl⟩ | hk
        · exact .inl hc
        · refine .inr (.inl ⟨w, rfl, hw, fun hthere => ?_⟩)
          have hmem := List.count_pos_iff.2 hthere
          have hcount := honce w
          rw [List.count_cons_self] at hcount
          omega
        · exact .inr (.inr hk)
      obtain ⟨ledgers₁, h₁⟩ := h.admits hmove hadmits
      refine ih h₁ (fun p hp => hbegins p (List.mem_cons_of_mem _ hp)) (fun w => ?_) hrest
      have hcount := honce w
      have hcame := count_newcomer_le hadmits w
      rw [← List.singleton_append, List.count_append] at hcount
      rw [badges_move hmove, List.count_append]
      omega

/-- Steps and exchanges keep the desks. -/
theorem kept_of_leads (hleads : venue.Leads f f') (h : f.Kept workers ledgers) :
    ∃ ledgers', f'.Kept workers ledgers' := by
  obtain ⟨ms, hrun, hown⟩ := hleads
  induction ms generalizing f ledgers with
  | nil => exact ⟨ledgers, Option.some.inj hrun ▸ h⟩
  | cons m ms ih =>
      obtain ⟨f₁, hmove, hrest⟩ := Option.bind_eq_some_iff.1 hrun
      have hm := hown m List.mem_cons_self
      obtain ⟨ledgers₁, h₁⟩ := h.admits hmove (by rintro p rfl; cases hm)
      exact ih h₁ hrest fun m' hm' => hown m' (List.mem_cons_of_mem _ hm')

end Kept

/-- **`Seated workers x`** — the desks are kept, the selects are in order, and everybody is in line.
-/
structure Seated (workers : Nat) (x : Selecting Floor) : Prop where
  kept : ∃ ledgers, x.place.Kept workers ledgers
  seated : venue.Seated (fun _ => True) x

section Seated

variable {workers capacity minute clock : Nat} {f : Floor} {x y : Selecting Floor} {j w : Nat}
  {ms : List (Selecting.Move Move)}

/-- **A customer that stands in line** with its assignment is parked, if the slot is open. -/
theorem Seated.parked_of_handing (h : Seated workers x) {c : Customer} {stay : Stay}
    (hj : x.place.people[j]? = some (.customer c (.dealing stay w .handing)))
    (hopen : x.place.premises.isSlotClosed w = false) : j ∈ x.parked := by
  rcases (h.seated.lined j _ ⟨w, .published, true⟩ hj rfl ⟨rfl, rfl⟩).2 rfl with hparked | hclosed
  · exact hparked
  · cases hopen.symm.trans hclosed

/-- **Whatever happens at a select** leaves the office seated. -/
theorem Seated.select (h : Seated workers x) {m : Selecting.Move Move} (hm : ∀ m', m ≠ .aside m')
    (hmove : venue.move? x m = some y) : Seated workers y := by
  obtain ⟨ledgers, hkept⟩ := h.kept
  obtain ⟨hseated, hshows⟩ :=
    h.seated.move venue_faithful (fun m' heq => absurd heq (hm m')) hmove
  cases hshows with
  | rules hrule => exact absurd rfl (hm _)
  | leads hne hleads => exact ⟨kept_of_leads hleads hkept, hseated⟩

/-- **A proper run** of an office of so many workers: customers come, workers start their shifts,
none of them twice, and somebody closes the office, from the gate or from anywhere else. -/
structure Proper (workers : Nat) (ms : List (Selecting.Move Move)) : Prop where
  begins : ∀ p, .aside (.join p) ∈ ms →
    (∃ c, p = .arrives c) ∨ (∃ w, w < workers ∧ p = .starts w) ∨ ∃ k, p = .closer k
  once : ∀ w, ms.count (.aside (.join (.starts w))) ≤ 1

theorem Proper.enters (h : Proper workers ms) {m : Move} (hm : .aside m ∈ ms) : m.Enters := by
  cases m with
  | join p =>
      rcases h.begins p hm with hc | ⟨w, -, hw⟩ | hk
      · exact .inl hc
      · exact .inr (.inl ⟨w, hw⟩)
      · exact .inr (.inr hk)
  | _ => trivial

theorem rules?_eq (ms : List Move) (f : Floor) : venue.rules? ms f = f.run? ms := by
  induction ms generalizing f with
  | nil => rfl
  | cons m ms ih =>
      show (f.move? m).bind (venue.rules? ms) = (f.move? m).bind (run? ms)
      rw [funext ih]

/-- **Whatever happens at the selects of the office happens by its rules.** Take any visits, shifts
and closes in an office where nobody is yet, the shutdown and panics at any moment, and any
interleaving of all their moves, with their selects. Then the same people come, and the same
happens to them, in the same order, with some steps and exchanges between, and come to the same by
the rules of the office. -/
theorem run_of_selects (hms : ∀ m, .aside m ∈ ms → m.Enters) (hnobody : f.people = [])
    (hrun : venue.run? ms (.start f) = some x) :
    venue.Seated (fun _ => True) x ∧ ∃ ms', f.run? ms' = some x.place ∧ (∀ m ∈ ms', m.Enters) ∧
      ms'.filter (fun m => !venue.isOwn m) =
        (ms.filterMap Selecting.Move.aside?).filter fun m => !venue.isOwn m := by
  have hstart : venue.Seated (fun _ => True) (.start f) := Venue.seated_start trivial hnobody
  obtain ⟨hend, ms', hrules, hsame⟩ := hstart.run venue_faithful hms hrun
  exact ⟨hend, ms', (rules?_eq ms' f).symm.trans hrules, hsame⟩

/-- **Every proper run** leaves the office seated. -/
theorem Proper.seated (h : Proper workers ms)
    (hrun : venue.run? ms (.start (.opening (.furnish capacity workers minute) clock)) = some x) :
    Seated workers x := by
  obtain ⟨hseated, ms', hrules, -, hsame⟩ := run_of_selects (fun _ => h.enters) rfl hrun
  have hcount : ∀ p, ms'.count (.join p) = ms.count (.aside (.join p)) :=
    fun _ => Venue.count_of_same hsame rfl
  refine ⟨(kept_opening capacity workers minute clock).run (fun p hp => ?_) (fun w => ?_) hrules,
    hseated⟩
  · exact h.begins p (List.count_pos_iff.1 (hcount p ▸ List.count_pos_iff.2 hp))
  · rw [hcount]
    exact Nat.le_trans (Nat.le_of_eq (Nat.zero_add _)) (h.once w)

end Seated

end Floor

end Postal

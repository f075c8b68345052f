import Postal.Proofs.Relay

/-!
# The customers inside, as the log tells.

A customer announces its admission after it was let in and before it looks for a worker, and its
departure before it gives its permit back. So as long as everybody who was admitted departs, the log
never shows more customers inside than there are permits. Whoever breaks its visit off leaves
without an announcement, and its permit goes to somebody else; but that happens only once the office
is closed, and the gate was closed first, so nobody else is let in (`Floor.Metered`). With a single
permit customers come and go one at a time, in the order of their tickets (`Floor.SingleFile`).

## §1 — admissions and departures in a log.
## §2 — how far a customer has come.
## §3 — the counts.
## §4 — one at a time.
## §5 — the log of an office.
-/

namespace Postal

/-! ## §1 — admissions and departures in a log -/

/-- The customer whom an event shows to be admitted. -/
def Event.admitted? : Event → Option Nat
  | .customerAdmitted c => some c
  | _ => none

/-- The customer whom an event shows to depart. -/
def Event.departs? : Event → Option Nat
  | .customerDeparts c => some c
  | _ => none

/-- Whether somebody is admitted or departs. -/
def Event.atDoor (e : Event) : Bool := e.admitted?.isSome || e.departs?.isSome

namespace Trace

/-- The customers who were admitted, in that order. -/
def admitted (es : List Event) : List Nat := es.filterMap Event.admitted?

/-- The customers who have departed, in that order. -/
def departed (es : List Event) : List Nat := es.filterMap Event.departs?

/-- The admissions and the departures. -/
def atDoor (es : List Event) : List Event := es.filter Event.atDoor

/-- Customers who come and go one after another, and maybe one more who has only come. -/
def turns (cs : List Nat) (last : Option Nat) : List Event :=
  cs.flatMap (fun c => [.customerAdmitted c, .customerDeparts c]) ++
    (last.map Event.customerAdmitted).toList

/-- Nothing happens at the door. -/
theorem quiet {o : Option Event} (h : ∀ e, o = some e → e.atDoor = false) (es : List Event) :
    admitted (es ++ o.toList) = admitted es ∧ departed (es ++ o.toList) = departed es ∧
      atDoor (es ++ o.toList) = atDoor es := by
  cases o with
  | none => simp
  | some e =>
      have he := h e rfl
      rw [Event.atDoor, Bool.or_eq_false_iff, Option.isSome_eq_false_iff,
        Option.isSome_eq_false_iff, Option.isNone_iff_eq_none, Option.isNone_iff_eq_none] at he
      simp [admitted, departed, atDoor, Event.atDoor, he.1, he.2]

/-- Somebody is admitted. -/
theorem concat_admitted (es : List Event) (c : Nat) :
    admitted (es ++ [.customerAdmitted c]) = admitted es ++ [c] ∧
      departed (es ++ [.customerAdmitted c]) = departed es ∧
      atDoor (es ++ [.customerAdmitted c]) = atDoor es ++ [.customerAdmitted c] := by
  simp [admitted, departed, atDoor, Event.admitted?, Event.departs?, Event.atDoor]

/-- Somebody departs. -/
theorem concat_departs (es : List Event) (c : Nat) :
    admitted (es ++ [.customerDeparts c]) = admitted es ∧
      departed (es ++ [.customerDeparts c]) = departed es ++ [c] ∧
      atDoor (es ++ [.customerDeparts c]) = atDoor es ++ [.customerDeparts c] := by
  simp [admitted, departed, atDoor, Event.admitted?, Event.departs?, Event.atDoor]

end Trace

/-! ## §2 — how far a customer has come -/

/-- How far a customer has come, as the log will tell: outside, let in with a ticket, admitted,
departed, or on the way out without a departure. -/
inductive Standing where
  | outside
  | letIn (ticket : Nat)
  | inside (ticket : Nat)
  | departed (ticket : Nat)
  | lost

/-- Whether somebody is let in and not admitted yet, as a weight. -/
def Standing.expected : Standing → Nat
  | .letIn _ => 1
  | _ => 0

/-- Whether somebody is admitted and has not departed, as a weight. -/
def Standing.present : Standing → Nat
  | .inside _ => 1
  | _ => 0

/-- How far a customer has come at each position. -/
def Visiting.standing : Visiting → Standing
  | .announcingCreation | .entering (.acquiring _) => .outside
  | .entering (.counting ticket) | .admitted ticket => .letIn ticket
  | .announcingAdmission stay => .letIn stay.ticket
  | .dealing stay _ .departing => .departed stay.ticket
  | .claiming stay _ | .dealing stay _ _ => .inside stay.ticket
  | .leaving _ (.returned visit) | .ended (.returned visit) => .departed visit.ticket
  | .leaving _ _ | .ended _ => .lost

/-- How far a person has come; only customers come in. -/
def Person.standing : Person → Standing
  | .customer _ v => v.standing
  | _ => .outside

/-- A person as the door sees it: who it is, and how far it has come. -/
def Person.mark (p : Person) : Badge × Standing := (p.badge, p.standing)

/-- How many permits of the gate a person has. -/
def Person.permitsInHand (p : Person) : Nat := p.gateHand.permits

/-- Whoever is let in or admitted has a permit. -/
theorem Person.standing_le (p : Person) :
    p.standing.expected + p.standing.present ≤ p.permitsInHand := by
  cases p with
  | customer c v =>
      cases v with
      | entering pos => cases pos <;> exact Nat.le_of_ble_eq_true rfl
      | dealing stay w d => cases d <;> exact Nat.le_of_ble_eq_true rfl
      | leaving pos ending => cases ending <;> exact Nat.le_of_ble_eq_true rfl
      | ended ending => cases ending <;> exact Nat.le_of_ble_eq_true rfl
      | _ => exact Nat.le_of_ble_eq_true rfl
  | worker w k => exact Nat.le_refl 0
  | closer k => exact Nat.le_refl 0

/-- **`v.Crosses c g v' g'`** — everything that a step of a customer can mean at the door: it comes
no further, it is let in with the ticket that is served, it is admitted, it departs, or it breaks
its visit off. -/
inductive Visiting.Crosses (c : Customer) (v : Visiting) (g : Semaphore) (v' : Visiting)
    (g' : Semaphore) : Prop
  | stays (he : ∀ e, v.emits? c = some e → e.atDoor = false) (hg : g'.nowServing = g.nowServing)
      (h : v'.standing = v.standing)
  | comesIn {ticket : Nat} (he : v.emits? c = none) (hopen : g.closed = false)
      (hg : g.nowServing = ticket) (hg' : g'.nowServing = ticket + 1) (h : v.standing = .outside)
      (h' : v'.standing = .letIn ticket)
  | admits {ticket : Nat} (he : v.emits? c = some (.customerAdmitted c.id))
      (hg : g'.nowServing = g.nowServing) (h : v.standing = .letIn ticket)
      (h' : v'.standing = .inside ticket)
  | departs {ticket : Nat} (he : v.emits? c = some (.customerDeparts c.id))
      (hg : g'.nowServing = g.nowServing) (h : v.standing = .inside ticket)
      (h' : v'.standing = .departed ticket)
  | breaksOff (he : v.emits? c = none) (hg : g'.nowServing = g.nowServing)
      (h : v.standing = .outside ∨ ∃ ticket, v.standing = .inside ticket)
      (h' : v'.standing = .lost) (hfails : v.failure? = none ∧ v'.failure? ≠ none)

/-- **A step of a customer** is one of these at the door. -/
theorem Visiting.Steps.crosses {c : Customer} {p p' : Premises} {v v' : Visiting}
    (h : v.Steps c p v' p') : v.Crosses c p.gate.permits v' p'.gate.permits := by
  have elsewhere : ∀ {e e' : Event}, e'.atDoor = false → some e' = some e → e.atDoor = false := by
    intro e e' hdoor heq
    exact Option.some.inj heq ▸ hdoor
  have silent : ∀ e : Event, none = some e → e.atDoor = false := by
    rintro e ⟨⟩
  cases h with
  | announcesCreation => exact .stays (fun e he => elsewhere rfl he) rfl rfl
  | enters henter =>
      cases Gate.enters_of_enter? henter with
      | waits hacq =>
          cases Semaphore.acquires_of_acquire? hacq with
          | queues hc hg => exact .stays silent rfl rfl
      | admitted hacq =>
          cases Semaphore.acquires_of_acquire? hacq with
          | servedAtOnce hc hn hp => exact .comesIn rfl hc hn (congrArg Nat.succ hn) rfl rfl
          | served ticket hc hn hp => exact .comesIn rfl hc hn (congrArg Nat.succ hn) rfl rfl
      | refused hacq =>
          cases Semaphore.acquires_of_acquire? hacq with
          | refused _ hc => exact .breaksOff rfl rfl (.inl rfl) rfl ⟨rfl, Option.some_ne_none _⟩
      | counts => exact .stays silent rfl rfl
  | looksUp => exact .stays silent rfl rfl
  | announcesAdmission => exact .admits rfl rfl rfl rfl
  | @claims stay pos progress pool hclaim =>
      rcases progress with pos' | ⟨e | worker⟩
      · exact .stays silent rfl rfl
      · exact .breaksOff rfl rfl (.inr ⟨_, rfl⟩) rfl ⟨rfl, Option.some_ne_none _⟩
      · simp only [Progress.within, afterSearch]
        split
        · exact .stays silent rfl rfl
        · exact .breaksOff rfl rfl (.inr ⟨_, rfl⟩) rfl ⟨rfl, Option.some_ne_none _⟩
  | announcesClaim => exact .stays (fun e he => elsewhere rfl he) rfl rfl
  | binds hs hphase => exact .stays silent rfl rfl
  | linesUp => exact .stays silent rfl rfl
  | @interrupted stay w d hwaits hclosed =>
      cases d <;> first
        | exact .breaksOff rfl rfl (.inr ⟨_, rfl⟩) rfl ⟨rfl, Option.some_ne_none _⟩
        | exact hwaits.elim
  | announcesIntent => exact .stays (fun e he => elsewhere rfl he) rfl rfl
  | proceeds hs hphase => exact .stays silent rfl rfl
  | announcesFinish => exact .stays (fun e he => elsewhere rfl he) rfl rfl
  | announcesDeparture => exact .departs rfl rfl rfl rfl
  | departs => exact .stays silent rfl rfl
  | @stepsOut ending => cases ending <;> exact .stays silent rfl rfl
  | @leaves ending =>
      have hserving := Semaphore.releaseOrKeep_nowServing p.gate.permits
      cases ending <;> exact .stays silent hserving rfl
  | @breaks stay w d s needed hs hneeds hphase f =>
      cases d <;> first
        | exact .breaksOff rfl rfl (.inr ⟨_, rfl⟩) rfl ⟨rfl, Option.some_ne_none _⟩
        | cases hneeds

/-! ## §3 — the counts -/

namespace Floor

/-- How many customers are let in and not admitted yet. -/
def expected (f : Floor) : Nat := tally (fun p => p.standing.expected) f.people

/-- How many customers are admitted and have not departed. -/
def present (f : Floor) : Nat := tally (fun p => p.standing.present) f.people

/-- How many permits of the gate all people have. -/
def permitsInHand (f : Floor) : Nat := tally Person.permitsInHand f.people

/-- Whoever is let in or admitted has a permit. -/
theorem expected_add_present_le (f : Floor) : f.expected + f.present ≤ f.permitsInHand := by
  rw [expected, present, permitsInHand, ← tally_add]
  exact tally_le_tally Person.standing_le f.people

/-- **`f.Metered capacity`** — there are no more permits than there is room, the log shows at least
as many customers inside as there are, and with those who are expected no more than there is room.
Unless the gate is closed it shows nobody who is not there. -/
structure Metered (capacity : Nat) (f : Floor) : Prop where
  permits : f.premises.gate.permits.permits + f.permitsInHand ≤ capacity
  shown : (Trace.departed f.premises.events).length + f.present ≤
    (Trace.admitted f.premises.events).length
  room : (Trace.admitted f.premises.events).length + f.expected ≤
    (Trace.departed f.premises.events).length + capacity
  there : f.premises.gate.permits.closed = false →
    (Trace.admitted f.premises.events).length ≤
      (Trace.departed f.premises.events).length + f.present

/-- Nobody comes further in an exchange, and everybody keeps its permits. -/
theorem Swaps.standing_eq {p p' : Person} (h : Swaps p p') : p'.standing = p.standing := by
  cases h <;> rfl

/-- When one person moves on, its own weights change. -/
theorem weights_set {f f' : Floor} {i : Nat} {p p' : Person} (hi : f.people[i]? = some p)
    (hpeople : f'.people = f.people.set i p') :
    f'.expected + p.standing.expected = f.expected + p'.standing.expected ∧
      f'.present + p.standing.present = f.present + p'.standing.present ∧
      f'.permitsInHand + p.permitsInHand = f.permitsInHand + p'.permitsInHand := by
  rw [expected, present, permitsInHand, hpeople]
  exact ⟨tally_set hi p', tally_set hi p', tally_set hi p'⟩

/-- Nobody turns into somebody else in an exchange. -/
theorem Swaps.badge_eq {p p' : Person} (h : Swaps p p') : p'.badge = p.badge := by
  cases h <;> rfl

/-- **`f.CustomerMoves f' i c v v'`** — the customer in place `i` moves on, and nobody else does:
the log grows by what it announces, what it gains in permits the gate has lost, and at the door it
does one of the things a step can mean. -/
structure CustomerMoves (f f' : Floor) (i : Nat) (c : Customer) (v v' : Visiting) : Prop where
  here : f.people[i]? = some (.customer c v)
  people_eq : f'.people = f.people.set i (.customer c v')
  events_eq : f'.premises.events = f.premises.events ++ (v.emits? c).toList
  closed_eq : f'.premises.gate.permits.closed = f.premises.gate.permits.closed
  permits_le : f'.premises.gate.permits.permits + (Person.customer c v').permitsInHand ≤
    f.premises.gate.permits.permits + (Person.customer c v).permitsInHand
  crosses : v.Crosses c f.premises.gate.permits v' f'.premises.gate.permits

/-- A step of a customer is such a move. -/
theorem customerMoves_of_steps {f : Floor} {i : Nat} {c : Customer} {v v' : Visiting}
    {premises' : Premises} (hi : f.people[i]? = some (.customer c v))
    (hv : v.Steps c f.premises v' premises') :
    f.CustomerMoves ⟨premises', f.people.set i (.customer c v')⟩ i c v v' where
  here := hi
  people_eq := rfl
  events_eq := hv.events_eq
  closed_eq := hv.uses_gate.closed_eq
  permits_le := hv.uses_gate.permits_le
  crosses := hv.crosses

namespace CustomerMoves

variable {f f' : Floor} {i : Nat} {c : Customer} {v v' : Visiting}

/-- The customer is in its place after the move. -/
theorem there (h : f.CustomerMoves f' i c v v') : f'.people[i]? = some (.customer c v') := by
  rw [h.people_eq]
  exact List.getElem?_set_self (List.getElem?_eq_some_iff.1 h.here).1

/-- The customers who are expected and those who are inside, after the move. -/
theorem standings (h : f.CustomerMoves f' i c v v') :
    f'.expected + v.standing.expected = f.expected + v'.standing.expected ∧
      f'.present + v.standing.present = f.present + v'.standing.present :=
  have hweights := weights_set h.here h.people_eq
  ⟨hweights.1, hweights.2.1⟩

/-- No permit of the gate appears. -/
theorem permitsInHand_le (h : f.CustomerMoves f' i c v v') :
    f'.premises.gate.permits.permits + f'.permitsInHand ≤
      f.premises.gate.permits.permits + f.permitsInHand := by
  have hhands := (weights_set h.here h.people_eq).2.2
  have huses := h.permits_le
  omega

end CustomerMoves

section Metered

variable {capacity : Nat} {f f' : Floor}

/-- **The counts after `came` admissions and `went` departures**, as long as nobody new is let
in. -/
theorem Metered.recount (h : f.Metered capacity) (came went : Nat)
    (hpermits : f'.premises.gate.permits.permits + f'.permitsInHand ≤
      f.premises.gate.permits.permits + f.permitsInHand)
    (hclosed : f'.premises.gate.permits.closed = false → f.premises.gate.permits.closed = false)
    (hadmitted : (Trace.admitted f'.premises.events).length =
      (Trace.admitted f.premises.events).length + came)
    (hdeparted : (Trace.departed f'.premises.events).length =
      (Trace.departed f.premises.events).length + went)
    (hshown : went + f'.present ≤ came + f.present)
    (hroom : came + f'.expected ≤ went + f.expected)
    (hthere : f'.premises.gate.permits.closed = false →
      came + f.present ≤ went + f'.present) :
    f'.Metered capacity := by
  refine ⟨Nat.le_trans hpermits h.permits, ?_, ?_, fun hopen => ?_⟩ <;> rw [hadmitted, hdeparted]
  · have hbefore := h.shown
    omega
  · have hbefore := h.room
    omega
  · have hbefore := h.there (hclosed hopen)
    have hafter := hthere hopen
    omega

/-- **The counts are as they were** when nothing happens at the door. -/
theorem Metered.still (h : f.Metered capacity)
    (hpermits : f'.premises.gate.permits.permits + f'.permitsInHand ≤
      f.premises.gate.permits.permits + f.permitsInHand)
    (hclosed : f'.premises.gate.permits.closed = false → f.premises.gate.permits.closed = false)
    (hadmitted : Trace.admitted f'.premises.events = Trace.admitted f.premises.events)
    (hdeparted : Trace.departed f'.premises.events = Trace.departed f.premises.events)
    (hexpected : f'.expected = f.expected) (hpresent : f'.present = f.present) :
    f'.Metered capacity :=
  h.recount 0 0 hpermits hclosed (congrArg List.length hadmitted) (congrArg List.length hdeparted)
    (Nat.le_of_eq (congrArg (0 + ·) hpresent)) (Nat.le_of_eq (congrArg (0 + ·) hexpected))
    fun _ => Nat.le_of_eq (congrArg (0 + ·) hpresent.symm)

/-- **Somebody moves on** with nothing to do at the door. -/
theorem Metered.aside (h : f.Metered capacity) {i : Nat} {p p' : Person} {premises' : Premises}
    (hi : f.people[i]? = some p) (hstanding : p'.standing = p.standing)
    (hhand : p'.permitsInHand = p.permitsInHand)
    (hpermits : premises'.gate.permits.permits = f.premises.gate.permits.permits)
    (hclosed : premises'.gate.permits.closed = false → f.premises.gate.permits.closed = false)
    (hadmitted : Trace.admitted premises'.events = Trace.admitted f.premises.events)
    (hdeparted : Trace.departed premises'.events = Trace.departed f.premises.events) :
    Metered capacity ⟨premises', f.people.set i p'⟩ := by
  refine h.still (Nat.le_of_eq ?_) hclosed hadmitted hdeparted
    (tally_set_of_eq hi (congrArg _ hstanding)) (tally_set_of_eq hi (congrArg _ hstanding))
  rw [permitsInHand, permitsInHand, tally_set_of_eq hi hhand, hpermits]

/-- **A step of a customer** keeps the counts, if nobody breaks its visit off while the gate is
open. -/
theorem Metered.customer_step (h : f.Metered capacity) {i : Nat} {c : Customer} {v v' : Visiting}
    (hmoves : f.CustomerMoves f' i c v v')
    (hgoes : f.premises.gate.permits.closed = false → v.failure? = none → v'.failure? = none) :
    f'.Metered capacity := by
  obtain ⟨hexpected, hpresent⟩ := hmoves.standings
  have hpermits := hmoves.permitsInHand_le
  have hclosed : f'.premises.gate.permits.closed = false → f.premises.gate.permits.closed = false :=
    hmoves.closed_eq.symm.trans
  have hevents := hmoves.events_eq
  cases hmoves.crosses with
  | stays he hg hsame =>
      obtain ⟨hadmitted, hdeparted, -⟩ := Trace.quiet he f.premises.events
      rw [← hevents] at hadmitted hdeparted
      rw [hsame] at hexpected hpresent
      exact h.still hpermits hclosed hadmitted hdeparted (Nat.add_right_cancel hexpected)
        (Nat.add_right_cancel hpresent)
  | comesIn he hopen hg hg' hstood hstands =>
      rw [he, Option.toList_none, List.append_nil] at hevents
      simp only [hstood, hstands, Standing.expected, Standing.present] at hexpected hpresent
      -- the log shows nobody who is not there, and whoever is there has a permit
      have hle := f'.expected_add_present_le
      have hroom := h.permits
      have hshown := h.shown
      have hthere := h.there hopen
      refine ⟨by omega, ?_, ?_, fun _ => ?_⟩ <;> rw [hevents] <;> omega
  | admits he hg hstood hstands =>
      rw [he, Option.toList_some] at hevents
      obtain ⟨hadmitted, hdeparted, -⟩ := Trace.concat_admitted f.premises.events c.id
      rw [← hevents] at hadmitted hdeparted
      simp only [hstood, hstands, Standing.expected, Standing.present] at hexpected hpresent
      refine h.recount 1 0 hpermits hclosed ?_ (congrArg _ hdeparted) (by omega) (by omega)
        fun _ => by omega
      rw [hadmitted, List.length_append, List.length_singleton]
  | departs he hg hstood hstands =>
      rw [he, Option.toList_some] at hevents
      obtain ⟨hadmitted, hdeparted, -⟩ := Trace.concat_departs f.premises.events c.id
      rw [← hevents] at hadmitted hdeparted
      simp only [hstood, hstands, Standing.expected, Standing.present] at hexpected hpresent
      refine h.recount 0 1 hpermits hclosed (congrArg _ hadmitted) ?_ (by omega) (by omega)
        fun _ => by omega
      rw [hdeparted, List.length_append, List.length_singleton]
  | breaksOff he hg hstood hstands hfails =>
      rw [he, Option.toList_none, List.append_nil] at hevents
      simp only [hstands, Standing.expected, Standing.present] at hexpected hpresent
      refine h.recount 0 0 hpermits hclosed ?_ ?_ (by omega) (by omega)
        fun hopen => absurd (hgoes (hclosed hopen) hfails.1) hfails.2
      · rw [hevents, Nat.add_zero]
      · rw [hevents, Nat.add_zero]

/-- A worker announces nothing at the door. -/
theorem atDoor_of_worker {id : Nat} {k : Working} {e : Event} (h : k.emits? id = some e) :
    e.atDoor = false := by
  cases k with
  | serving n a position =>
      cases position <;> first | (obtain rfl := Option.some.inj h; rfl) | cases h
  | _ => first | (obtain rfl := Option.some.inj h; rfl) | cases h

/-- **Every move** keeps the counts, as long as nobody is unwound. An open gate says that the whole
office is open. -/
theorem Metered.move (h : f.Metered capacity) (hrobust : f.Robust)
    (hopen : f.premises.gate.permits.closed = false → f.premises.IsOpen) {m : Move}
    (hmove : f.move? m = some f') (hbegins : m.Begins) (hm : ∀ i, m ≠ .unwind i) :
    f'.Metered capacity := by
  cases m with
  | step i =>
      cases steps_of_step? hmove with
      | customer hi hv =>
          exact h.customer_step (customerMoves_of_steps hi hv) fun hgate hsound =>
            hrobust.goes_on (hopen hgate) hi hv hsound
      | worker hi hk =>
          obtain ⟨hadmitted, hdeparted, -⟩ :=
            Trace.quiet (fun e he => atDoor_of_worker he) f.premises.events
          rw [← hk.events_eq] at hadmitted hdeparted
          exact h.aside hi rfl rfl (by rw [hk.gate_eq]) (by rw [hk.gate_eq]; exact id) hadmitted
            hdeparted
      | closer hi hk =>
          refine h.aside hi rfl rfl ?_ ?_ (congrArg _ hk.events_eq) (congrArg _ hk.events_eq)
          · cases hk <;> rfl
          · cases hk <;> first | exact id | nofun
  | exchange i j =>
      obtain ⟨w, people', -, hex, rfl⟩ := exchanges_of_exchange? hmove
      refine h.still (Nat.le_of_eq ?_) id rfl rfl
        (hex.tally_eq fun hs => congrArg Standing.expected hs.standing_eq)
        (hex.tally_eq fun hs => congrArg Standing.present hs.standing_eq)
      exact congrArg (_ + ·) (hex.tally_eq fun hs => congrArg Semaphore.Hand.permits hs.gateHand)
  | unwind i => exact absurd rfl (hm i)
  | fire =>
      obtain rfl := Option.some.inj hmove
      exact h.still (Nat.le_refl _) id rfl rfl rfl rfl
  | join p =>
      obtain rfl := Option.some.inj hmove
      have houtside : p.standing = .outside ∧ p.permitsInHand = 0 := by
        rcases hbegins with ⟨c, rfl⟩ | ⟨w, rfl⟩ | rfl <;> exact ⟨rfl, rfl⟩
      refine h.still (Nat.le_of_eq ?_) id rfl rfl ?_ ?_
      · show _ + tally Person.permitsInHand (f.people ++ [p]) = _
        rw [tally_concat, houtside.2]
        rfl
      · rw [expected, Floor.join, tally_concat, houtside.1]
        rfl
      · rw [present, Floor.join, tally_concat, houtside.1]
        rfl

end Metered

/-! ## §4 — one at a time -/

end Floor

/-- The ticket of a customer who was let in is the place of its admission in the log. -/
def Standing.Fits (id : Nat) (ids : List Nat) : Standing → Prop
  | .letIn ticket => ticket = ids.length
  | .inside ticket | .departed ticket => ids[ticket]? = some id
  | _ => True

/-- Whoever was admitted keeps its place when somebody else is admitted. -/
theorem Standing.Fits.concat {s : Standing} {id c : Nat} {ids : List Nat} (h : s.Fits id ids)
    (hs : ∀ ticket, s ≠ .letIn ticket) : s.Fits id (ids ++ [c]) := by
  have keeps : ∀ ticket, ids[ticket]? = some id → (ids ++ [c])[ticket]? = some id :=
    fun ticket hticket =>
      (List.getElem?_append_left (List.getElem?_eq_some_iff.1 hticket).1).trans hticket
  cases s with
  | letIn ticket => exact absurd rfl (hs ticket)
  | inside ticket => exact keeps ticket h
  | departed ticket => exact keeps ticket h
  | _ => trivial

namespace Floor

/-- A customer with that id is inside. -/
def HasInside (f : Floor) (id : Nat) : Prop :=
  ∃ (i : Nat) (c : Customer) (v : Visiting) (ticket : Nat),
    f.people[i]? = some (.customer c v) ∧ c.id = id ∧ v.standing = .inside ticket

/-- **`f.SingleFile`** — the gate has served whoever was admitted and whoever is expected; customers
have come and gone one after another, but for one who is inside; and the tickets say in which
order. -/
structure SingleFile (f : Floor) : Prop where
  served : f.premises.gate.permits.nowServing =
    (Trace.admitted f.premises.events).length + f.expected
  turns : ∃ cs last, Trace.atDoor f.premises.events = Trace.turns cs last ∧
    (last = none → f.present = 0) ∧ ∀ id, last = some id → f.HasInside id
  tickets : ∀ (i : Nat) (c : Customer) (v : Visiting), f.people[i]? = some (.customer c v) →
    v.standing.Fits c.id (Trace.admitted f.premises.events)

section SingleFile

variable {f f' : Floor}

/-- With a single permit no two people have one. -/
theorem Metered.alone (h : f.Metered 1) {i j : Nat} {p q : Person} (hi : f.people[i]? = some p)
    (hj : f.people[j]? = some q) (hp : 0 < p.permitsInHand) (hq : 0 < q.permitsInHand) : i = j := by
  by_contra hij
  have htwo := add_le_tally (f := Person.permitsInHand) hi hj hij
  have hone := h.permits
  rw [permitsInHand] at hone
  omega

/-- Whoever is inside has a permit. -/
theorem permit_of_inside {c : Customer} {v : Visiting} {ticket : Nat}
    (hv : v.standing = .inside ticket) : 0 < (Person.customer c v).permitsInHand := by
  have hle := (Person.customer c v).standing_le
  simp only [Person.standing, hv, Standing.expected, Standing.present] at hle
  omega

/-- Whoever is let in has a permit. -/
theorem permit_of_letIn {c : Customer} {v : Visiting} {ticket : Nat}
    (hv : v.standing = .letIn ticket) : 0 < (Person.customer c v).permitsInHand := by
  have hle := (Person.customer c v).standing_le
  simp only [Person.standing, hv, Standing.expected, Standing.present] at hle
  omega

/-- Whoever the door sees at a place is there. -/
theorem of_mark {people : List Person} {i : Nat} {c : Customer} {s : Standing}
    (h : (people.map Person.mark)[i]? = some (.customer c, s)) :
    ∃ v, people[i]? = some (.customer c v) ∧ v.standing = s := by
  rw [List.getElem?_map] at h
  obtain ⟨p, hp, hmark⟩ := Option.map_eq_some_iff.1 h
  obtain ⟨hbadge, hstanding⟩ := Prod.mk.inj hmark
  cases p with
  | customer c' v =>
      obtain rfl := Badge.customer.inj hbadge
      exact ⟨v, hp, hstanding⟩
  | worker w k => cases hbadge
  | closer k => cases hbadge

/-- Whoever is there is seen by the door. -/
theorem mark_of {people : List Person} {i : Nat} {p : Person} (h : people[i]? = some p) :
    (people.map Person.mark)[i]? = some p.mark := by
  rw [List.getElem?_map, h, Option.map_some]

/-- **Nothing happens at the door**, everybody is as far as before, and whoever has come is
outside. -/
theorem SingleFile.still (h : f.SingleFile) {new : List (Badge × Standing)}
    (hmarks : f'.people.map Person.mark = f.people.map Person.mark ++ new)
    (hnew : ∀ x ∈ new, x.2 = .outside)
    (hserving : f'.premises.gate.permits.nowServing = f.premises.gate.permits.nowServing)
    (hadmitted : Trace.admitted f'.premises.events = Trace.admitted f.premises.events)
    (hdoor : Trace.atDoor f'.premises.events = Trace.atDoor f.premises.events) :
    f'.SingleFile := by
  have weigh : ∀ g : Standing → Nat, g .outside = 0 →
      tally (fun p => g p.standing) f'.people = tally (fun p => g p.standing) f.people := by
    intro g hg
    have seen : ∀ people : List Person, tally (fun p => g p.standing) people =
        tally (fun x => g x.2) (people.map Person.mark) :=
      fun people => (tally_map (fun x : Badge × Standing => g x.2) Person.mark people).symm
    rw [seen, seen, hmarks, tally_append,
      tally_eq_zero_of_mem (l := new) fun x hx => by rw [hnew x hx, hg], Nat.add_zero]
  have hexpected : f'.expected = f.expected := weigh Standing.expected rfl
  have hpresent : f'.present = f.present := weigh Standing.present rfl
  obtain ⟨cs, last, hturns, hnone, hsome⟩ := h.turns
  refine ⟨?_, ⟨cs, last, hdoor.trans hturns, ?_, fun id hid => ?_⟩, fun i c v hi => ?_⟩
  · rw [hserving, hadmitted, hexpected]
    exact h.served
  · rw [hpresent]
    exact hnone
  · obtain ⟨i, c, v, ticket, hi, hc, hv⟩ := hsome id hid
    have hmark := mark_of hi
    have hmark' : (f'.people.map Person.mark)[i]? = some (.customer c, v.standing) := by
      rw [hmarks, List.getElem?_append_left (List.getElem?_eq_some_iff.1 hmark).1]
      exact hmark
    obtain ⟨v', hi', hv'⟩ := of_mark hmark'
    exact ⟨i, c, v', ticket, hi', hc, hv'.trans hv⟩
  · have hmark := mark_of hi
    rw [hmarks, List.getElem?_append] at hmark
    rw [hadmitted]
    split at hmark
    · obtain ⟨v₀, hi₀, hv₀⟩ := of_mark hmark
      rw [show v.standing = v₀.standing from hv₀.symm]
      exact h.tickets i c v₀ hi₀
    · rw [show v.standing = .outside from hnew _ (List.mem_of_getElem? hmark)]
      trivial

section Moves

variable {i : Nat} {c : Customer} {v v' : Visiting}

/-- Whoever is inside stays there while one customer moves, unless it is the one who leaves. -/
theorem CustomerMoves.hasInside (hmoves : f.CustomerMoves f' i c v v')
    (hstays : ∀ ticket, v.standing = .inside ticket → v'.standing = .inside ticket) {id : Nat}
    (h : f.HasInside id) : f'.HasInside id := by
  obtain ⟨j, c', u, ticket, hj, hid, hu⟩ := h
  by_cases hij : i = j
  · subst hij
    obtain ⟨rfl, rfl⟩ := Person.customer.inj (Option.some.inj (hmoves.here.symm.trans hj))
    exact ⟨i, c, v', ticket, hmoves.there, hid, hstays ticket hu⟩
  · refine ⟨j, c', u, ticket, ?_, hid, hu⟩
    rw [hmoves.people_eq, List.getElem?_set_ne hij]
    exact hj

/-- The tickets fit after one customer has moved, if its own does and those of all others do. -/
theorem CustomerMoves.tickets (hmoves : f.CustomerMoves f' i c v v') {ids : List Nat}
    (hself : v'.standing.Fits c.id ids)
    (hothers : ∀ (j : Nat) (c' : Customer) (u : Visiting), j ≠ i →
      f.people[j]? = some (.customer c' u) → u.standing.Fits c'.id ids)
    (j : Nat) (c' : Customer) (u : Visiting) (hj : f'.people[j]? = some (.customer c' u)) :
    u.standing.Fits c'.id ids := by
  rw [hmoves.people_eq] at hj
  rcases getElem?_set_cases hj with ⟨-, heq⟩ | ⟨hne, hj'⟩
  · obtain ⟨rfl, rfl⟩ := Person.customer.inj heq
    exact hself
  · exact hothers j c' u hne hj'

/-- With a single permit nobody else is inside while a customer has it. -/
theorem Metered.only_inside (hmetered : f.Metered 1) (hi : f.people[i]? = some (.customer c v))
    (hpermit : 0 < (Person.customer c v).permitsInHand) {id : Nat} (h : f.HasInside id) :
    c.id = id ∧ ∃ ticket, v.standing = .inside ticket := by
  obtain ⟨j, c', u, ticket, hj, hid, hu⟩ := h
  obtain rfl := hmetered.alone hi hj hpermit (permit_of_inside hu)
  obtain ⟨rfl, rfl⟩ := Person.customer.inj (Option.some.inj (hi.symm.trans hj))
  exact ⟨hid, ticket, hu⟩

/-- **A customer is let in** with the ticket that is served: everybody served before is admitted by
then. -/
theorem SingleFile.comesIn (h : f.SingleFile) (hmetered' : f'.Metered 1)
    (hmoves : f.CustomerMoves f' i c v v') {ticket : Nat} (he : v.emits? c = none)
    (hg : f.premises.gate.permits.nowServing = ticket)
    (hg' : f'.premises.gate.permits.nowServing = ticket + 1) (hstood : v.standing = .outside)
    (hstands : v'.standing = .letIn ticket) : f'.SingleFile := by
  obtain ⟨hexpected, hpresent⟩ := hmoves.standings
  simp only [hstood, hstands, Standing.expected, Standing.present] at hexpected hpresent
  have hevents := hmoves.events_eq
  rw [he, Option.toList_none, List.append_nil] at hevents
  obtain ⟨cs, last, hturns, hnone, hsome⟩ := h.turns
  have hserved := h.served
  -- the permit goes to the one who is let in, so nobody else is expected
  have hle := f'.expected_add_present_le
  have hone := hmetered'.permits
  refine ⟨?_, ⟨cs, last, by rw [hevents, hturns], fun hlast => ?_, fun id hlast => ?_⟩, ?_⟩
  · rw [hg', hevents]
    omega
  · have hnobody := hnone hlast
    omega
  · refine hmoves.hasInside (fun t hin => ?_) (hsome id hlast)
    cases hstood.symm.trans hin
  · rw [hevents]
    refine hmoves.tickets ?_ fun j c' u _ hj => h.tickets j c' u hj
    rw [hstands]
    show ticket = _
    omega

/-- **A customer is admitted**: nobody else is inside, and its ticket is its place in the log. -/
theorem SingleFile.admits (h : f.SingleFile) (hmetered : f.Metered 1)
    (hmoves : f.CustomerMoves f' i c v v') {ticket : Nat}
    (he : v.emits? c = some (.customerAdmitted c.id))
    (hg : f'.premises.gate.permits.nowServing = f.premises.gate.permits.nowServing)
    (hstood : v.standing = .letIn ticket) (hstands : v'.standing = .inside ticket) :
    f'.SingleFile := by
  obtain ⟨hexpected, -⟩ := hmoves.standings
  simp only [hstood, hstands, Standing.expected] at hexpected
  obtain ⟨hadmitted, -, hdoor⟩ := Trace.concat_admitted f.premises.events c.id
  have hevents := hmoves.events_eq
  rw [he, Option.toList_some] at hevents
  rw [← hevents] at hadmitted hdoor
  obtain ⟨cs, last, hturns, -, hsome⟩ := h.turns
  have hserved := h.served
  have hpermit := permit_of_letIn (c := c) hstood
  have hticket : ticket = (Trace.admitted f.premises.events).length := by
    have hfits := h.tickets i c v hmoves.here
    rwa [hstood] at hfits
  have hlast : last = none := by
    refine Option.eq_none_iff_forall_not_mem.2 fun id hid => ?_
    obtain ⟨-, t, hin⟩ := hmetered.only_inside hmoves.here hpermit (hsome id hid)
    cases hstood.symm.trans hin
  subst hlast
  refine ⟨?_, ⟨cs, some c.id, ?_, nofun, fun id hid => ?_⟩, ?_⟩
  · rw [hg, hadmitted, List.length_append, List.length_singleton]
    omega
  · rw [hdoor, hturns]
    simp [Trace.turns]
  · exact ⟨i, c, v', ticket, hmoves.there, Option.some.inj hid, hstands⟩
  · rw [hadmitted]
    refine hmoves.tickets ?_ fun j c' u hne hj => ?_
    · rw [hstands, hticket]
      exact List.getElem?_concat_length
    · refine (h.tickets j c' u hj).concat fun t hu => hne ?_
      exact (hmetered.alone hmoves.here hj hpermit (permit_of_letIn hu)).symm

/-- **A customer departs**: it is the one who is inside. -/
theorem SingleFile.departs (h : f.SingleFile) (hmetered : f.Metered 1)
    (hmoves : f.CustomerMoves f' i c v v') {ticket : Nat}
    (he : v.emits? c = some (.customerDeparts c.id))
    (hg : f'.premises.gate.permits.nowServing = f.premises.gate.permits.nowServing)
    (hstood : v.standing = .inside ticket) (hstands : v'.standing = .departed ticket) :
    f'.SingleFile := by
  obtain ⟨hexpected, hpresent⟩ := hmoves.standings
  simp only [hstood, hstands, Standing.expected, Standing.present] at hexpected hpresent
  obtain ⟨hadmitted, -, hdoor⟩ := Trace.concat_departs f.premises.events c.id
  have hevents := hmoves.events_eq
  rw [he, Option.toList_some] at hevents
  rw [← hevents] at hadmitted hdoor
  obtain ⟨cs, last, hturns, hnone, hsome⟩ := h.turns
  have hserved := h.served
  obtain rfl : last = some c.id := by
    cases last with
    | none =>
        have hnobody := hnone rfl
        omega
    | some id =>
        have honly := hmetered.only_inside hmoves.here (permit_of_inside hstood) (hsome id rfl)
        exact congrArg some honly.1.symm
  have hle := f.expected_add_present_le
  have hone := hmetered.permits
  refine ⟨?_, ⟨cs ++ [c.id], none, ?_, fun _ => by omega, nofun⟩, ?_⟩
  · rw [hg, hadmitted]
    omega
  · rw [hdoor, hturns]
    simp [Trace.turns]
  · rw [hadmitted]
    refine hmoves.tickets ?_ fun j c' u _ hj => h.tickets j c' u hj
    have hfits := h.tickets i c v hmoves.here
    rw [hstood] at hfits
    rw [hstands]
    exact hfits

/-- **A step of a customer** with a single permit, if nobody breaks its visit off. -/
theorem SingleFile.customer_step (h : f.SingleFile) (hmetered : f.Metered 1)
    (hmetered' : f'.Metered 1) (hmoves : f.CustomerMoves f' i c v v')
    (hgoes : v.failure? = none → v'.failure? = none) : f'.SingleFile := by
  cases hmoves.crosses with
  | stays he hg hsame =>
      obtain ⟨hadmitted, -, hdoor⟩ := Trace.quiet he f.premises.events
      rw [← hmoves.events_eq] at hadmitted hdoor
      have hmarks : f'.people.map Person.mark = f.people.map Person.mark ++ [] := by
        rw [hmoves.people_eq, List.append_nil]
        exact map_set_of_eq hmoves.here (congrArg (Badge.customer c, ·) hsame)
      exact h.still hmarks nofun hg hadmitted hdoor
  | comesIn he _ hg hg' hstood hstands =>
      exact h.comesIn hmetered' hmoves he hg hg' hstood hstands
  | admits he hg hstood hstands => exact h.admits hmetered hmoves he hg hstood hstands
  | departs he hg hstood hstands => exact h.departs hmetered hmoves he hg hstood hstands
  | breaksOff he hg hstood hstands hfails => exact absurd (hgoes hfails.1) hfails.2

end Moves

/-- **Every move** keeps customers in single file, where nobody closes and nobody is unwound. -/
theorem SingleFile.move (h : f.SingleFile) (hmetered : f.Metered 1) (hmetered' : f'.Metered 1)
    (hrobust : f.Robust) (hopen : f.premises.IsOpen) (hunclosed : .closer ∉ f.badges) {m : Move}
    (hmove : f.move? m = some f') (hbegins : m.Begins) (hm : ∀ i, m ≠ .unwind i) :
    f'.SingleFile := by
  cases m with
  | step i =>
      cases steps_of_step? hmove with
      | customer hi hv =>
          exact h.customer_step hmetered hmetered' (customerMoves_of_steps hi hv) fun hsound =>
            hrobust.goes_on hopen hi hv hsound
      | @worker w k k' p' hi hk =>
          obtain ⟨hadmitted, -, hdoor⟩ :=
            Trace.quiet (fun e he => atDoor_of_worker he) f.premises.events
          rw [← hk.events_eq] at hadmitted hdoor
          have hmarks : (f.people.set i (.worker w k')).map Person.mark =
              f.people.map Person.mark ++ [] := by
            rw [List.append_nil]
            exact map_set_of_eq hi rfl
          exact h.still hmarks nofun (by rw [hk.gate_eq]) hadmitted hdoor
      | closer hi hk => exact absurd (List.mem_of_getElem? (badge_of_getElem? hi)) hunclosed
  | exchange i j =>
      obtain ⟨w, people', -, hex, rfl⟩ := exchanges_of_exchange? hmove
      have hmarks : people'.map Person.mark = f.people.map Person.mark ++ [] := by
        rw [List.append_nil]
        exact hex.map_eq fun hs => Prod.ext hs.badge_eq hs.standing_eq
      exact h.still hmarks nofun rfl rfl rfl
  | unwind i => exact absurd rfl (hm i)
  | fire =>
      obtain rfl := Option.some.inj hmove
      exact ⟨h.served, h.turns, h.tickets⟩
  | join p =>
      obtain rfl := Option.some.inj hmove
      have hmarks : (f.people ++ [p]).map Person.mark = f.people.map Person.mark ++ [p.mark] :=
        List.map_append
      refine h.still hmarks (fun x hx => ?_) rfl rfl rfl
      obtain rfl := List.mem_singleton.1 hx
      rcases hbegins with ⟨c, rfl⟩ | ⟨w, rfl⟩ | rfl <;> rfl

end SingleFile

/-! ## §5 — the log of an office -/

/-- An office that has just opened has room for everybody. -/
theorem metered_opening (capacity workers minute clock : Nat) :
    (opening (.furnish capacity workers minute) clock).Metered capacity where
  permits := Nat.le_refl capacity
  shown := Nat.le_refl 0
  room := Nat.zero_le _
  there _ := Nat.zero_le _

theorem singleFile_opening (capacity workers minute clock : Nat) :
    (opening (.furnish capacity workers minute) clock).SingleFile where
  served := rfl
  turns := ⟨[], none, rfl, fun _ => rfl, nofun⟩
  tickets i c v hi := by simp [opening] at hi

/-- **Everything is open while the gate is**, since a close shuts the gate first. -/
theorem isOpen_of_gate {f : Floor} (hguarded : f.Guarded) (hbolted : f.Bolted)
    (hgate : f.premises.gate.permits.closed = false) : f.premises.IsOpen := by
  rcases hguarded with ⟨i, k, hi, hk⟩ | hopen
  · have hshut : f.premises.isShut .gate = true := by
      refine hbolted i k hi .gate ?_
      cases k with
      | gate => exact absurd rfl hk
      | pool pos => cases pos <;> trivial
      | _ => trivial
    cases hgate.symm.trans hshut
  · exact hopen

/-- **`f.Watched capacity`** — the office is robust, a close shuts the gate first, and the log shows
no more customers inside than there is room for, now and before. -/
structure Watched (capacity : Nat) (f : Floor) : Prop where
  robust : f.Robust
  guarded : f.Guarded
  bolted : f.Bolted
  metered : f.Metered capacity
  always : ∀ es, es <+: f.premises.events →
    (Trace.departed es).length ≤ (Trace.admitted es).length ∧
      (Trace.admitted es).length ≤ (Trace.departed es).length + capacity

/-- **Every move** keeps the office watched, as long as nobody is unwound. -/
theorem Watched.move {capacity : Nat} {f f' : Floor} {m : Move} (h : f.Watched capacity)
    (hmove : f.move? m = some f') (hbegins : m.Begins) (hm : ∀ i, m ≠ .unwind i) :
    f'.Watched capacity := by
  have hmetered := h.metered.move h.robust (isOpen_of_gate h.guarded h.bolted) hmove hbegins hm
  refine ⟨h.robust.move hmove hbegins, h.guarded.move hmove, h.bolted.move hmove ?_, hmetered,
    fun es hes => ?_⟩
  · rintro k rfl
    rcases hbegins with ⟨c, hc⟩ | ⟨w, hw⟩ | hk
    · cases hc
    · cases hw
    · exact Person.closer.inj hk
  · -- a beginning of the log is one of the log before, or all of it
    have hbefore : es <+: f.premises.events ∨ es = f'.premises.events := by
      rcases events_of_move hmove with hsame | ⟨i, p, e, -, -, -, hmore⟩
      · exact .inl (hsame ▸ hes)
      · rw [hmore] at hes ⊢
        exact (List.prefix_concat_iff.1 hes).symm
    rcases hbefore with hold | rfl
    · exact h.always es hold
    · have hshown := hmetered.shown
      have hroom := hmetered.room
      omega

/-- An office that has just opened is watched. -/
theorem watched_opening (capacity workers minute clock : Nat) :
    (opening (.furnish capacity workers minute) clock).Watched capacity where
  robust := robust_opening capacity workers minute clock
  guarded := guarded_opening capacity workers minute clock
  bolted i k hi := by simp [opening] at hi
  metered := metered_opening capacity workers minute clock
  always es hes := by
    obtain rfl : es = [] := List.prefix_nil.1 hes
    exact ⟨Nat.le_refl 0, Nat.zero_le _⟩

/-- **Every run** in which nobody is unwound keeps the office watched. -/
theorem Watched.run {capacity : Nat} {f f' : Floor} {ms : List Move} (h : f.Watched capacity)
    (hms : ∀ m ∈ ms, m.Begins ∧ ∀ i, m ≠ .unwind i) (hrun : run? ms f = some f') :
    f'.Watched capacity := by
  refine (run_induction (motive := fun rest g =>
    (∀ m ∈ rest, m.Begins ∧ ∀ i, m ≠ .unwind i) ∧ g.Watched capacity)
    (fun {m rest g g'} hg hmove => ?_) ⟨hms, h⟩ hrun).2
  obtain ⟨hbegins, hm⟩ := hg.1 m (List.mem_cons_self ..)
  exact ⟨fun m hm => hg.1 m (List.mem_cons_of_mem _ hm), hg.2.move hmove hbegins hm⟩

/-- **Every run** in which nobody closes, either, keeps customers in single file. -/
theorem SingleFile.run {f f' : Floor} {ms : List Move} (h : f.SingleFile) (hwatched : f.Watched 1)
    (hunclosed : .closer ∉ f.badges) (hms : ∀ m ∈ ms, m.Begins ∧ ∀ i, m ≠ .unwind i)
    (hcloses : .join .closes ∉ ms) (hrun : run? ms f = some f') : f'.SingleFile := by
  refine (run_induction (motive := fun rest g =>
    ((∀ m ∈ rest, m.Begins ∧ ∀ i, m ≠ .unwind i) ∧ .join .closes ∉ rest) ∧
      .closer ∉ g.badges ∧ g.Watched 1 ∧ g.SingleFile)
    (fun {m rest g g'} hg hmove => ?_) ⟨⟨hms, hcloses⟩, hunclosed, hwatched, h⟩ hrun).2.2.2
  obtain ⟨⟨hall, hnever⟩, hnobody, hg, hfile⟩ := hg
  obtain ⟨hbegins, hm⟩ := hall m (List.mem_cons_self ..)
  have hg' := hg.move hmove hbegins hm
  refine ⟨⟨fun m hm => hall m (List.mem_cons_of_mem _ hm),
    fun hmem => hnever (List.mem_cons_of_mem _ hmem)⟩, ?_, hg', hfile.move hg.metered hg'.metered
      hg.robust (hg.guarded.isOpen hnobody) hnobody hmove hbegins hm⟩
  -- whoever comes does not close
  rw [badges_move hmove, List.mem_append, not_or]
  refine ⟨hnobody, fun hmem => ?_⟩
  cases m with
  | join p =>
      rcases hbegins with ⟨c, rfl⟩ | ⟨w, rfl⟩ | rfl
      · cases List.mem_singleton.1 hmem
      · cases List.mem_singleton.1 hmem
      · exact hnever (List.mem_cons_self ..)
  | _ => cases hmem

/-- **The log never shows more customers inside than there is room for.** Take an office of any
capacity, any calls of customers and of workers, also several of the same worker, closes and the
shutdown at any moment, and any interleaving in which nobody is unwound. Then at every point of the
log no more customers have departed than were admitted, and no more are inside than the capacity
says. With a capacity of one, and where nobody closes, every customer departs before the next one is
admitted, and the ticket of a visit is the place of its customer in the order of the admissions. -/
theorem never_more_inside_than_room {capacity workers minute clock : Nat} {ms : List Move}
    {f : Floor} (hms : ∀ m ∈ ms, m.Begins) (hpanics : ∀ i, .unwind i ∉ ms)
    (hrun : run? ms (.opening (.furnish capacity workers minute) clock) = some f) :
    (∀ es, es <+: f.premises.events →
      (Trace.departed es).length ≤ (Trace.admitted es).length ∧
        (Trace.admitted es).length ≤ (Trace.departed es).length + capacity) ∧
      (capacity = 1 → .join .closes ∉ ms →
        (∃ cs last, Trace.atDoor f.premises.events = Trace.turns cs last) ∧
          ∀ (i : Nat) (c : Customer) (v : Visit),
            f.people[i]? = some (.customer c (.ended (.returned v))) →
              (Trace.admitted f.premises.events)[v.ticket]? = some c.id) := by
  have hmoves : ∀ m ∈ ms, m.Begins ∧ ∀ i, m ≠ .unwind i :=
    fun m hm => ⟨hms m hm, fun i hi => hpanics i (hi ▸ hm)⟩
  have hopening := watched_opening capacity workers minute clock
  refine ⟨(hopening.run hmoves hrun).always, ?_⟩
  rintro rfl hcloses
  have hfile := (singleFile_opening 1 workers minute clock).run hopening List.not_mem_nil hmoves
    hcloses hrun
  obtain ⟨cs, last, hturns, -⟩ := hfile.turns
  exact ⟨⟨cs, last, hturns⟩, fun i c v hi => hfile.tickets i c _ hi⟩

/-- A worker begins two shifts, and the second one fails. There is room for one customer, so the
second one waits at the gate until the first one has departed. -/
theorem never_more_inside_than_room_one :
    let a : Customer := ⟨7, .buyStamps⟩
    let b : Customer := ⟨8, .mailPackage⟩
    let ms : List Move := List.flatten [[.join (.starts 0), .join (.starts 0), .join (.arrives a),
      .join (.arrives b)], .replicate 7 (.step 0), .replicate 4 (.step 1), .replicate 10 (.step 2),
      [.step 3, .step 3, .exchange 2 0, .step 0, .step 0, .step 0, .exchange 0 2, .step 2, .step 2,
      .exchange 2 0], .replicate 5 (.step 0), [.exchange 0 2], .replicate 5 (.step 2),
      .replicate 4 (.step 3)]
    (∀ m ∈ ms, m.Begins) ∧ (∀ i, .unwind i ∉ ms) ∧ .join .closes ∉ ms ∧
      ∃ f, run? ms (.opening (.furnish 1 1 0) 0) = some f ∧
        f.people[2]? = some (.customer a (.ended (.returned ⟨a, 0, 0, 0, 0⟩))) ∧
        Trace.atDoor f.premises.events =
          [.customerAdmitted 7, .customerDeparts 7, .customerAdmitted 8] ∧
        (∀ es, es <+: f.premises.events →
          (Trace.departed es).length ≤ (Trace.admitted es).length ∧
            (Trace.admitted es).length ≤ (Trace.departed es).length + 1) ∧
        (∃ cs last, Trace.atDoor f.premises.events = Trace.turns cs last) ∧
        (Trace.admitted f.premises.events)[0]? = some 7 := by
  intro a b ms
  have hms : ∀ m ∈ ms, m.Begins := by
    simp [ms, or_imp, forall_and, Move.Begins]
  have hpanics : ∀ i, .unwind i ∉ ms := by
    simp [ms]
  have hcloses : .join .closes ∉ ms := by
    simp [ms, Person.closes, Person.starts, Person.arrives]
  have hends : (run? ms (.opening (.furnish 1 1 0) 0)).map
      (fun f => (f.people[2]?, Trace.atDoor f.premises.events)) =
        some (some (.customer a (.ended (.returned ⟨a, 0, 0, 0, 0⟩))),
          [.customerAdmitted 7, .customerDeparts 7, .customerAdmitted 8]) := by
    decide +kernel
  obtain ⟨f, hrun, hall⟩ := Option.map_eq_some_iff.1 hends
  obtain ⟨hvisit, hdoor⟩ := Prod.mk.inj hall
  obtain ⟨halways, hfile⟩ := never_more_inside_than_room hms hpanics hrun
  obtain ⟨hturns, htickets⟩ := hfile rfl hcloses
  exact ⟨hms, hpanics, hcloses, f, hrun, hvisit, hdoor, halways, hturns, htickets 2 a _ hvisit⟩

end Floor

end Postal

import Mathlib.Data.List.Perm.Basic
import Postal.Proofs.Shifts

/-!
# Both sides of a desk count the same services.

A service that is complete is counted three times, by three hands: the customer leaves with a visit,
the slot counts one more, and so does the worker. None of the three happens in the exchange that
completes the service, and a close may come in between. But after that exchange neither side waits
any more, so the customer is bound to leave with a visit and the worker is bound to book the
service. Hence the customers that have taken a completion at a desk are those of the first services
that the worker announced as finished, as many of them as are booked or about to be
(`Floor.completed`, `Floor.Agrees`). When everybody has gone these are the services in the book of
the desk (`both_sides_agree`).

## §1 — who was served by whom.
## §2 — single steps.
## §3 — the invariant.
## §4 — what a visit says of itself.
## §5 — the end.
-/

namespace Postal

/-! ## §1 — who was served by whom -/

/-- The worker whose completion a customer has taken. -/
def Visiting.servedBy? : Visiting → Option Nat
  | .dealing _ w d => if d.isDone then some w else none
  | .leaving _ (.returned visit) | .ended (.returned visit) => some visit.worker
  | _ => none

/-- Whether a person is the customer `x` and has taken the completion of worker `w`, as a weight. -/
def Person.servedAt (w : Nat) (x : Customer) : Person → Nat
  | .customer c v => if c = x ∧ v.servedBy? = some w then 1 else 0
  | _ => 0

/-- Whether a worker has handed over a completion that it has not booked yet. -/
def Working.isSettling : Working → Bool
  | .serving _ _ .settling => true
  | _ => false

/-- Whether a person is worker `w` and about to book a service, as a weight. -/
def Person.settling (w : Nat) : Person → Nat
  | .worker id k => if id = w ∧ k.isSettling = true then 1 else 0
  | _ => 0

/-- How many services the slot of worker `w` has counted. -/
def Premises.countAt (p : Premises) (w : Nat) : Nat := ((p.slots[w]?).map (·.served)).getD 0

namespace Floor

/-- How many completions of worker `w` were taken: those that the slot has counted, and one more
while the worker is about to book it. -/
def completions (f : Floor) (w : Nat) : Nat :=
  f.premises.countAt w + tally (Person.settling w) f.people

/-- The customers whose service by worker `w` is complete, in the order of these services. -/
def completed (f : Floor) (w : Nat) : List Customer :=
  (Trace.served w f.premises.events).take (f.completions w)

/-- **`f.Agrees workers`** — at every desk, no more completions were taken than tasks announced as
finished, and the customers who have taken one are those whose services are complete. -/
structure Agrees (workers : Nat) (f : Floor) : Prop where
  announced : ∀ w, w < workers → f.completions w ≤ (Trace.served w f.premises.events).length
  served : ∀ w, w < workers → ∀ x,
    tally (Person.servedAt w x) f.people = (f.completed w).count x

end Floor

/-! ## §2 — single steps -/

namespace Trace

theorem served_append (w : Nat) (es es' : List Event) :
    served w (es ++ es') = served w es ++ served w es' := List.filterMap_append

/-- The customers served in a shift are those of its services. -/
theorem served_shift (w : Nat) (cs : List Customer) : served w (shift w cs) = cs := by
  rw [shift, served, List.filterMap_cons_none rfl, List.filterMap_flatMap]
  induction cs with
  | nil => rfl
  | cons c cs ih =>
      rw [List.flatMap_cons, ih]
      simp [service]

/-- What does not concern a worker says nothing of whom it has served. -/
theorem served_worker (w : Nat) (es : List Event) : served w (worker w es) = served w es := by
  rw [worker, served, served, List.filterMap_filter]
  congr 1
  funext e
  cases e with
  | taskFinished v c t => by_cases hv : v = w <;> simp [Event.worker?, hv]
  | _ => simp

end Trace

namespace Premises

/-- A section of a slot that leaves its count alone leaves all counts alone. -/
theorem countAt_setSlot {p : Premises} {v : Nat} {s s' : Slot} (hs : p.slots[v]? = some s)
    (hserved : s'.served = s.served) (w : Nat) : (p.setSlot v s').countAt w = p.countAt w := by
  unfold countAt setSlot
  by_cases hwv : w = v
  · subst hwv
    rw [List.getElem?_set_self (List.getElem?_eq_some_iff.1 hs).1, hs]
    exact hserved
  · rw [List.getElem?_set_ne (Ne.symm hwv)]

/-- The slot of a worker that books a service counts one more. -/
theorem countAt_settle {p : Premises} {v : Nat} {s : Slot} (hs : p.slots[v]? = some s) (w : Nat) :
    (p.setSlot v s.settle).countAt w = p.countAt w + if v = w then 1 else 0 := by
  unfold countAt setSlot
  by_cases hvw : v = w
  · subst hvw
    rw [List.getElem?_set_self (List.getElem?_eq_some_iff.1 hs).1, hs, if_pos rfl]
    rfl
  · rw [List.getElem?_set_ne hvw, if_neg hvw, Nat.add_zero]

end Premises

namespace Visiting.Steps

variable {c : Customer} {p p' : Premises} {v v' : Visiting}

/-- No step of its own serves a customer, or takes a service back. -/
theorem servedBy_eq (h : v.Steps c p v' p') : v'.servedBy? = v.servedBy? := by
  cases h with
  | @enters pos progress gate henter => rcases progress with pos' | ⟨e | ticket⟩ <;> rfl
  | @claims stay pos progress pool hclaim =>
      rcases progress with pos' | ⟨e | worker⟩
      · rfl
      · rfl
      · simp only [Progress.within, afterSearch]
        split <;> rfl
  | @interrupted stay w d hwaits hclosed => cases d <;> first | rfl | exact hwaits.elim
  | @stepsOut ending => cases ending <;> rfl
  | @leaves ending => cases ending <;> rfl
  | @breaks stay w d s needed hs hneeds hphase f => cases d <;> first | rfl | cases hneeds
  | _ => rfl

/-- A customer changes no count of a slot. -/
theorem countAt_eq (h : v.Steps c p v' p') (w : Nat) : p'.countAt w = p.countAt w := by
  cases h with
  | binds hs hphase => exact Premises.countAt_setSlot hs (by rfl) w
  | proceeds hs hphase => exact Premises.countAt_setSlot hs (by rfl) w
  | _ => rfl

end Visiting.Steps

/-- A step of a close changes no count of a slot. -/
theorem Closing.Steps.countAt_eq {p p' : Premises} {k k' : Closing} (h : k.Steps p k' p')
    (w : Nat) : p'.countAt w = p.countAt w := by
  cases h with
  | slot hs => exact Premises.countAt_setSlot hs (by rfl) w
  | _ => rfl

/-- **A worker that books a service** stops being about to do so; otherwise a worker changes no
count. -/
theorem Working.Steps.countAt_eq {id : Nat} {p p' : Premises} {offered : Bool} {k k' : Working}
    (h : k.Steps id p offered k' p') (w : Nat) :
    p'.countAt w + (Person.worker id k').settling w =
      p.countAt w + (Person.worker id k).settling w := by
  -- apart from the booking neither the slots count anything nor does somebody settle
  have apart : k.isSettling = false → k'.isSettling = false → p'.countAt w = p.countAt w →
      p'.countAt w + (Person.worker id k').settling w =
        p.countAt w + (Person.worker id k).settling w := by
    intro hk hk' hcount
    simp only [Person.settling, hk, hk', hcount]
  cases h with
  | opens hs hphase => exact apart rfl rfl (Premises.countAt_setSlot hs (by rfl) w)
  | @advertises n pos progress pool hoffer =>
      rcases progress with pos' | ⟨e | ⟨⟩⟩ <;> exact apart rfl rfl rfl
  | acknowledges hs hphase => exact apart rfl rfl (Premises.countAt_setSlot hs (by rfl) w)
  | @interrupted n a position hwaits hclosed =>
      cases position <;> first | exact apart rfl rfl rfl | exact hwaits.elim
  | @starts n a s hs hphase =>
      refine apart rfl ?_ rfl
      cases a.task.needsScale <;> rfl
  | @weighs n a pos progress scale hacq =>
      rcases progress with pos' | ⟨e | ⟨⟩⟩
      · exact apart rfl rfl rfl
      · cases e <;> exact apart rfl rfl rfl
      · exact apart rfl rfl rfl
  | @works n deadline a =>
      refine apart rfl ?_ rfl
      cases a.task.needsScale <;> rfl
  | @drops n a pos => cases pos <;> exact apart rfl rfl rfl
  | completes hs hphase => exact apart rfl rfl (Premises.countAt_setSlot hs (by rfl) w)
  | @settles n a s hs =>
      rw [Premises.countAt_settle hs]
      simp [Person.settling, Working.isSettling]
  | @unwinds pos => cases pos <;> exact apart rfl rfl rfl
  | @breaks k s needed hs hneeds hphase f =>
      refine apart ?_ rfl rfl
      cases k with
      | serving n a position => cases position <;> first | rfl | cases hneeds
      | _ => rfl
  | _ => exact apart rfl rfl rfl

/-! ## §3 — the invariant -/

/-- The customers whose tasks were announced as finished at a desk: those of the past, and the
current one towards the end of its service. -/
theorem Ledger.served_events (l : Ledger) (w : Nat) (hstage : l.stage ≠ .absent) :
    Trace.served w (l.events w) =
      l.past ++ if l.stage.announced = 6 then [l.current] else [] := by
  rw [events, if_neg hstage, Trace.served_append, Trace.served_shift]
  congr 1
  cases l.stage <;> simp [Stage.announced, Trace.service, Trace.served]

namespace Floor

/-- Only worker `w` is ever about to book a service there. -/
theorem worker_of_settling {w : Nat} {p : Person} (h : 0 < p.settling w) :
    ∃ k, p = .worker w k ∧ k.isSettling = true := by
  cases p with
  | worker id k =>
      simp only [Person.settling] at h
      split at h
      · next hk => exact ⟨k, by rw [hk.1], hk.2⟩
      · cases h
  | customer c v => cases h
  | closer k => cases h

section Kept

variable {workers : Nat} {f : Floor} {ledgers : Nat → Ledger}

/-- Where the worker of a desk stands tells whether a service is about to be booked there. -/
theorem Kept.tally_settling (h : f.Kept workers ledgers) {i w : Nat} {k : Working}
    (hi : f.people[i]? = some (.worker w k)) :
    tally (Person.settling w) f.people = (Person.worker w k).settling w := by
  refine tally_eq_of_alone hi fun j p hj hpos => ?_
  obtain ⟨k', rfl, -⟩ := worker_of_settling hpos
  exact h.worker_unique hj hi

/-- The slot of a desk has counted the services in its book. -/
theorem Kept.countAt_eq (h : f.Kept workers ledgers) {w : Nat} (hw : w < workers) :
    f.premises.countAt w = (ledgers w).past.length := by
  obtain ⟨s, hs⟩ := h.slot hw
  rw [Premises.countAt, hs]
  exact (Premises.slot_of_view (h.views w hw) hs).2.2

/-- The customers whose tasks were announced as finished, as the book of the desk has them. -/
theorem Kept.served_eq (h : f.Kept workers ledgers) {w : Nat} (hw : w < workers)
    (hstage : (ledgers w).stage ≠ .absent) :
    Trace.served w f.premises.events = (ledgers w).past ++
      if (ledgers w).stage.announced = 6 then [(ledgers w).current] else [] := by
  rw [← Trace.served_worker, h.events_eq hw, Ledger.served_events _ w hstage]

end Kept

/-- **Nothing is completed.** When no completion is taken the completed services stay, whatever is
announced. -/
theorem Agrees.still {workers : Nat} {f f' : Floor} (h : f.Agrees workers)
    (hcount : ∀ w, f'.completions w = f.completions w)
    (hevents : ∃ es, f'.premises.events = f.premises.events ++ es)
    (hserved : ∀ w x, tally (Person.servedAt w x) f'.people =
      tally (Person.servedAt w x) f.people) : f'.Agrees workers := by
  obtain ⟨es, hevents⟩ := hevents
  refine ⟨fun w hw => ?_, fun w hw x => ?_⟩
  · rw [hcount, hevents, Trace.served_append, List.length_append]
    exact Nat.le_add_right_of_le (h.announced w hw)
  · have hsame : f'.completed w = f.completed w := by
      rw [completed, hcount, hevents, Trace.served_append,
        List.take_append_of_le_length (h.announced w hw)]
      rfl
    rw [hserved, hsame]
    exact h.served w hw x

section Kept

variable {workers : Nat} {f : Floor} {ledgers : Nat → Ledger}

/-- **A completion is taken**: the worker is about to book what the customer is done with. -/
theorem Agrees.completes (h : f.Agrees workers) (hkept : f.Kept workers ledgers)
    {i j w n : Nat} {a : Assignment} {c : Customer} {stay : Stay}
    (hi : f.people[i]? = some (.worker w (.serving n a .sendingCompletion)))
    (hj : f.people[j]? = some (.customer c (.dealing stay w .awaitingCompletion))) (hij : i ≠ j) :
    Agrees workers ⟨f.premises, (f.people.set i (.worker w (.serving n a .settling))).set j
      (.customer c (.dealing stay w .announcingFinish))⟩ := by
  obtain ⟨hw, -, hcurrent, -⟩ := hkept.dealing_fits hj rfl
  have hstage : (ledgers w).stage = .completing :=
    List.mem_singleton.1 (hkept.worker_fits hi).2.stage
  have hannounced : Trace.served w f.premises.events = (ledgers w).past ++ [c] := by
    rw [hkept.served_eq hw (by rw [hstage]; decide), hstage, hcurrent]
    rfl
  have hcount : f.completions w = (ledgers w).past.length := by
    rw [completions, hkept.countAt_eq hw, hkept.tally_settling hi]
    simp [Person.settling, Working.isSettling]
  set f' : Floor := ⟨f.premises, (f.people.set i (.worker w (.serving n a .settling))).set j
    (.customer c (.dealing stay w .announcingFinish))⟩
  have hcompletions : ∀ v, f'.completions v = f.completions v + if w = v then 1 else 0 := by
    intro v
    have hset := tally_set_set (f := Person.settling v) hi hj hij
      (.worker w (.serving n a .settling)) (.customer c (.dealing stay w .announcingFinish))
    simp only [Person.settling, Working.isSettling, Bool.false_eq_true, and_false, and_true,
      if_false, Nat.add_zero] at hset
    rw [completions, completions, hset, Nat.add_assoc]
  have hserved : ∀ v x, tally (Person.servedAt v x) f'.people =
      tally (Person.servedAt v x) f.people + if c = x ∧ w = v then 1 else 0 := by
    intro v x
    have hset := tally_set_set (f := Person.servedAt v x) hi hj hij
      (.worker w (.serving n a .settling)) (.customer c (.dealing stay w .announcingFinish))
    simpa [Person.servedAt, Visiting.servedBy?, Dealing.isDone] using hset
  refine ⟨fun v hv => ?_, fun v hv x => ?_⟩
  · rw [hcompletions]
    by_cases hwv : w = v
    · subst hwv
      show _ ≤ (Trace.served w f.premises.events).length
      refine Nat.le_of_eq ?_
      rw [hcount, hannounced, if_pos rfl, List.length_append, List.length_singleton]
    · rw [if_neg hwv]
      exact h.announced v hv
  · rw [hserved, h.served v hv, completed, completed, hcompletions]
    show _ = List.count x (List.take _ (Trace.served v f.premises.events))
    by_cases hwv : w = v
    · -- the customer comes behind those who were served before
      subst hwv
      rw [hcount, hannounced, if_pos rfl, List.take_left, ← List.length_singleton (a := c),
        ← List.length_append, List.take_length, List.count_append, List.count_singleton]
      simp
    · rw [if_neg hwv, if_neg fun hx => hwv hx.2]
      rfl

/-- **An exchange** keeps both sides in agreement. -/
theorem Agrees.exchange (h : f.Agrees workers) (hkept : f.Kept workers ledgers) {i j w : Nat}
    {people' : List Person} (hex : Exchanges f.people i j w people') :
    Agrees workers ⟨f.premises, people'⟩ := by
  obtain ⟨-, -, -, -, -, -, hij, -⟩ := hex.swaps
  have quiet : ∀ {a a' b b' : Person}, f.people[i]? = some a → f.people[j]? = some b →
      (∀ w, a'.settling w = a.settling w ∧ b'.settling w = b.settling w) →
      (∀ w x, a'.servedAt w x = a.servedAt w x ∧ b'.servedAt w x = b.servedAt w x) →
      Agrees workers ⟨f.premises, (f.people.set i a').set j b'⟩ := by
    intro a a' b b' hi hj hsettling hserved
    refine h.still (fun w => ?_) ⟨[], (List.append_nil _).symm⟩ fun w x => ?_
    · have hset := tally_set_set (f := Person.settling w) hi hj hij a' b'
      have hsame := hsettling w
      simp only [completions]
      omega
    · have hset := tally_set_set (f := Person.servedAt w x) hi hj hij a' b'
      have hsame := hserved w x
      show tally _ ((f.people.set i a').set j b') = _
      omega
  cases hex with
  | published hi hj => exact quiet hi hj (fun _ => ⟨rfl, rfl⟩) fun _ _ => ⟨rfl, rfl⟩
  | acknowledged hi hj => exact quiet hi hj (fun _ => ⟨rfl, rfl⟩) fun _ _ => ⟨rfl, rfl⟩
  | proceeded hi hj => exact quiet hi hj (fun _ => ⟨rfl, rfl⟩) fun _ _ => ⟨rfl, rfl⟩
  | completed hi hj => exact h.completes hkept hi hj hij

/-- **Every move but a panic** keeps both sides of every desk in agreement. -/
theorem Agrees.move (h : f.Agrees workers) (hkept : f.Kept workers ledgers) {f' : Floor}
    {m : Move} (hmove : f.move? m = some f') (hm : ∀ i, m ≠ .unwind i)
    (hjoin : ∀ p, m = .join p → ∀ w, p.settling w = 0 ∧ ∀ x, p.servedAt w x = 0) :
    f'.Agrees workers := by
  cases m with
  | step i =>
      cases steps_of_step? hmove with
      | @customer c v v' p' hi hv =>
          refine h.still (fun w => ?_) ⟨_, hv.events_eq⟩ fun w x => tally_set_of_eq hi ?_
          · rw [completions, hv.countAt_eq, completions]
            congr 1
            exact tally_set_of_eq hi rfl
          · simp only [Person.servedAt, hv.servedBy_eq]
      | @worker id k k' p' hi hk =>
          refine h.still (fun w => ?_) ⟨_, hk.events_eq⟩ fun w x => tally_set_of_eq hi rfl
          have hset := tally_set (f := Person.settling w) hi (.worker id k')
          have hcount := hk.countAt_eq w
          simp only [completions]
          omega
      | @closer k k' p' hi hk =>
          refine h.still (fun w => ?_) ⟨[], by rw [List.append_nil]; exact hk.events_eq⟩
            fun w x => tally_set_of_eq hi rfl
          rw [completions, hk.countAt_eq, completions]
          congr 1
          exact tally_set_of_eq hi rfl
  | exchange i j =>
      obtain ⟨w, people', -, hex, rfl⟩ := exchanges_of_exchange? hmove
      exact h.exchange hkept hex
  | unwind i => exact absurd rfl (hm i)
  | fire =>
      obtain rfl := Option.some.inj hmove
      exact h.still (fun w => rfl) ⟨[], (List.append_nil _).symm⟩ fun w x => rfl
  | join p =>
      obtain rfl := Option.some.inj hmove
      refine h.still (fun w => ?_) ⟨[], (List.append_nil _).symm⟩ fun w x => ?_
      · rw [completions, Floor.join, tally_concat, (hjoin p rfl w).1, completions]
        rfl
      · rw [Floor.join, tally_concat, (hjoin p rfl w).2, Nat.add_zero]

end Kept

/-- A customer who arrives has not been served. -/
theorem arrives_unserved (c : Customer) (w : Nat) :
    (Person.arrives c).settling w = 0 ∧ ∀ x, (Person.arrives c).servedAt w x = 0 := by
  refine ⟨rfl, fun x => ?_⟩
  simp [Person.arrives, Person.servedAt, Visiting.start, Visiting.servedBy?]

/-- A worker who starts has no service to book. -/
theorem starts_unserved (v w : Nat) :
    (Person.starts v).settling w = 0 ∧ ∀ x, (Person.starts v).servedAt w x = 0 := by
  refine ⟨?_, fun x => rfl⟩
  simp [Person.starts, Person.settling, Working.start, Working.isSettling]

/-- Nobody has been served in an office that has just opened. -/
theorem agrees_opening (capacity workers minute clock : Nat) :
    (opening (.furnish capacity workers minute) clock).Agrees workers := by
  have hnone : ∀ w, w < workers →
      (opening (.furnish capacity workers minute) clock).completions w = 0 := by
    intro w hw
    simp [completions, opening, Premises.opening, Office.furnish, Premises.countAt, hw, Slot.fresh]
  refine ⟨fun w hw => ?_, fun w hw x => ?_⟩
  · rw [hnone w hw]
    exact Nat.zero_le _
  · rw [completed, hnone w hw]
    rfl

/-- **Both sides of every desk agree** in every regular run without a panic. -/
theorem agrees_run {capacity workers minute clock : Nat} {ms : List Move} {f : Floor}
    (hms : Regular workers ms) (hunwind : ∀ i, .unwind i ∉ ms)
    (hrun : run? ms (.opening (.furnish capacity workers minute) clock) = some f) :
    f.Agrees workers := by
  refine (regular_induction (motive := Agrees workers) hms
    (agrees_opening capacity workers minute clock) ?_ hrun).2
  intro m g g' ledgers hm hkept hg hmove
  refine hg.move hkept hmove (fun i hi => hunwind i (hi ▸ hm)) fun p hp w => ?_
  rcases hms.begins p (hp ▸ hm) with ⟨c, rfl⟩ | ⟨v, -, rfl⟩ | rfl
  · exact arrives_unserved c w
  · exact starts_unserved v w
  · exact ⟨rfl, fun x => rfl⟩

end Floor

/-! ## §4 — what a visit says of itself -/

/-- Whether the visit that a customer leaves with is its own, with a worker of the office. -/
def Visiting.Own (workers : Nat) (c : Customer) : Visiting → Prop
  | .leaving _ (.returned visit) | .ended (.returned visit) =>
    visit.customer = c ∧ visit.worker < workers
  | _ => True

/-- Whether the visit that a person leaves with is its own, with a worker of the office. -/
def Person.Own (workers : Nat) : Person → Prop
  | .customer c v => v.Own workers c
  | _ => True

/-- A customer at a desk of the office leaves with a visit of its own. -/
theorem Visiting.Steps.own {c : Customer} {p p' : Premises} {v v' : Visiting} {workers : Nat}
    (h : v.Steps c p v' p') (hdesk : ∀ stay w d, v = .dealing stay w d → w < workers)
    (hv : v.Own workers c) : v'.Own workers c := by
  cases h with
  | @enters pos progress gate henter => rcases progress with pos' | ⟨e | ticket⟩ <;> trivial
  | @claims stay pos progress pool hclaim =>
      rcases progress with pos' | ⟨e | worker⟩
      · trivial
      · trivial
      · simp only [Progress.within, afterSearch]
        split <;> trivial
  | departs => exact ⟨rfl, hdesk _ _ _ rfl⟩
  | @stepsOut ending => cases ending <;> exact hv
  | @leaves ending => cases ending <;> exact hv
  | _ => trivial

namespace Floor

/-- **Every move** keeps it that everybody leaves with a visit of its own. -/
theorem Kept.own {workers : Nat} {f f' : Floor} {ledgers : Nat → Ledger}
    (hkept : f.Kept workers ledgers) {m : Move} (hmove : f.move? m = some f')
    (hjoin : ∀ p, m = .join p → p.Own workers)
    (h : ∀ (i : Nat) (p : Person), f.people[i]? = some p → p.Own workers) :
    ∀ (i : Nat) (p : Person), f'.people[i]? = some p → p.Own workers := by
  intro i p hi
  cases becomes_of_move hmove hi with
  | stays hi' => exact h i _ hi'
  | @visits c v v' hi' hv =>
      refine hv.own ?_ (h i _ hi')
      rintro stay w d rfl
      exact (hkept.fits i _ hi').1
  | works hi' hk => trivial
  | closes hi' hk => trivial
  | swaps hi' hswap => cases hswap <;> trivial
  | unwinds hm hi' hunwind => cases Person.unwinds_of_unwind? hunwind <;> trivial
  | comes hm hlast => exact hjoin p hm

/-- **Everybody leaves with a visit of its own** in every regular run. -/
theorem own_run {capacity workers minute clock : Nat} {ms : List Move} {f : Floor}
    (hms : Regular workers ms)
    (hrun : run? ms (.opening (.furnish capacity workers minute) clock) = some f) :
    ∀ (i : Nat) (p : Person), f.people[i]? = some p → p.Own workers := by
  refine (regular_induction (motive := fun f =>
    ∀ (i : Nat) (p : Person), f.people[i]? = some p → p.Own workers) hms ?_ ?_ hrun).2
  · intro i p hi
    simp [opening] at hi
  · intro m g g' ledgers hm hkept hg hmove
    refine hkept.own hmove (fun p hp => ?_) hg
    rcases hms.begins p (hp ▸ hm) with ⟨c, rfl⟩ | ⟨w, -, rfl⟩ | rfl <;> trivial

end Floor

/-! ## §5 — the end -/

/-- The visit that a person has left with. -/
def Person.visit? : Person → Option Visit
  | .customer _ (.ended (.returned visit)) => some visit
  | _ => none

namespace Floor

/-- The visits with worker `w` of all who have left, in the order in which they came. -/
def visitsWith (f : Floor) (w : Nat) : List Visit :=
  (f.people.filterMap Person.visit?).filter (·.worker = w)

/-- **When everybody has left with a visit of its own**, the visits with a worker are those of the
customers who have taken its completion. -/
theorem count_visitsWith {people : List Person} {workers : Nat}
    (hended : ∀ p ∈ people, p.badge ≠ .closer → p.hasEnded = true)
    (hown : ∀ p ∈ people, p.Own workers) (w : Nat) (x : Customer) :
    (((people.filterMap Person.visit?).filter (·.worker = w)).map (·.customer)).count x =
      tally (Person.servedAt w x) people := by
  induction people with
  | nil => rfl
  | cons p people ih =>
      have hrest := ih (fun q hq => hended q (List.mem_cons_of_mem _ hq))
        fun q hq => hown q (List.mem_cons_of_mem _ hq)
      have hover := hended p (List.mem_cons_self ..)
      have hself := hown p (List.mem_cons_self ..)
      rw [tally_cons, ← hrest, List.filterMap_cons]
      cases p with
      | closer k => exact (Nat.zero_add _).symm
      | worker v k => exact (Nat.zero_add _).symm
      | customer c v =>
          cases v with
          | ended e =>
              cases e with
              | returned visit =>
                  obtain ⟨rfl, -⟩ := hself
                  by_cases hw : visit.worker = w
                  · simp [Person.visit?, Person.servedAt, Visiting.servedBy?, hw,
                      List.count_cons, Nat.add_comm]
                  · simp [Person.visit?, Person.servedAt, Visiting.servedBy?, hw]
              | failed e => simp [Person.visit?, Person.servedAt, Visiting.servedBy?]
              | panicked => simp [Person.visit?, Person.servedAt, Visiting.servedBy?]
          | _ => cases hover (by simp [Person.badge])

/-- Nobody else has the id of a customer, where no id occurs twice. -/
theorem customer_unique {f : Floor} (hids : (f.badges.filterMap Badge.customerId?).Nodup)
    {i j : Nat} {c c' : Customer} {v v' : Visiting} (hi : f.people[i]? = some (.customer c v))
    (hj : f.people[j]? = some (.customer c' v')) (hid : c'.id = c.id) : i = j := by
  have hdiffer := List.pairwise_filterMap.1 hids
  -- of two people with one id the later one would differ from the earlier one
  have apart : ∀ {a b : Nat} {x y : Customer}, f.badges[a]? = some (.customer x) →
      f.badges[b]? = some (.customer y) → x.id = y.id → ¬ a < b := by
    intro a b x y ha hb hxy hlt
    obtain ⟨ha', ha⟩ := List.getElem?_eq_some_iff.1 ha
    obtain ⟨hb', hb⟩ := List.getElem?_eq_some_iff.1 hb
    have hpair := List.pairwise_iff_getElem.1 hdiffer a b ha' hb' hlt
    rw [ha, hb] at hpair
    exact hpair x.id rfl y.id rfl hxy
  have hle := apart (badge_of_getElem? hi) (badge_of_getElem? hj) hid.symm
  have hge := apart (badge_of_getElem? hj) (badge_of_getElem? hi) hid
  omega

section Kept

variable {workers : Nat} {f : Floor} {ledgers : Nat → Ledger}

/-- Nothing is in the book of a desk before its worker has announced anything. -/
theorem Kept.past_of_absent (h : f.Kept workers ledgers) (hagrees : f.Agrees workers) {w : Nat}
    (hw : w < workers) (hstage : (ledgers w).stage = .absent) : (ledgers w).past = [] := by
  have hnone : Trace.served w f.premises.events = [] := by
    rw [← Trace.served_worker, h.events_eq hw, Ledger.events, if_pos hstage]
    rfl
  have hfew := hagrees.announced w hw
  rw [completions, h.countAt_eq hw, hnone, List.length_nil] at hfew
  exact List.length_eq_zero_iff.1 (by omega)

/-- Of all who have left nobody is about to book a service, so what is completed at a desk is what
is in its book. -/
theorem Kept.completed_eq (h : f.Kept workers ledgers) (hagrees : f.Agrees workers)
    (hended : ∀ p ∈ f.people, p.badge ≠ .closer → p.hasEnded = true) {w : Nat} (hw : w < workers) :
    f.completed w = (ledgers w).past := by
  have hbooked : f.completions w = (ledgers w).past.length := by
    rw [completions, h.countAt_eq hw, tally_eq_zero, Nat.add_zero]
    intro i p hi
    by_contra hne
    obtain ⟨k, rfl, hk⟩ := worker_of_settling (Nat.pos_of_ne_zero hne)
    have hover := hended _ (List.mem_of_getElem? hi) (by simp [Person.badge])
    cases k with
    | serving n a position => cases hover
    | _ => cases hk
  by_cases hstage : (ledgers w).stage = .absent
  · have hnone := h.past_of_absent hagrees hw hstage
    rw [completed, hbooked, hnone]
    rfl
  · rw [completed, hbooked, h.served_eq hw hstage, List.take_left]

/-- The customers in the book of a desk are those who have taken a completion there. -/
theorem Kept.tally_servedAt (h : f.Kept workers ledgers) (hagrees : f.Agrees workers)
    (hended : ∀ p ∈ f.people, p.badge ≠ .closer → p.hasEnded = true) {w : Nat} (hw : w < workers)
    (x : Customer) : tally (Person.servedAt w x) f.people = (ledgers w).past.count x := by
  rw [hagrees.served w hw, h.completed_eq hagrees hended hw]

/-- The visits with a worker are those of the customers in its book. -/
theorem Kept.visits_perm (h : f.Kept workers ledgers) (hagrees : f.Agrees workers)
    (hended : ∀ p ∈ f.people, p.badge ≠ .closer → p.hasEnded = true)
    (hown : ∀ (i : Nat) (p : Person), f.people[i]? = some p → p.Own workers) {w : Nat}
    (hw : w < workers) : ((f.visitsWith w).map (·.customer)).Perm (ledgers w).past := by
  have hself : ∀ p ∈ f.people, p.Own workers := by
    intro p hp
    obtain ⟨i, hi⟩ := List.mem_iff_getElem?.1 hp
    exact hown i p hi
  refine List.perm_iff_count.2 fun x => ?_
  rw [← h.tally_servedAt hagrees hended hw x]
  exact count_visitsWith hended hself w x

/-- **A worker reports** as many services as there are visits with it. -/
theorem Kept.report_eq (h : f.Kept workers ledgers) (hagrees : f.Agrees workers)
    (hended : ∀ p ∈ f.people, p.badge ≠ .closer → p.hasEnded = true)
    (hown : ∀ (i : Nat) (p : Person), f.people[i]? = some p → p.Own workers) {i w : Nat}
    {r : WorkerReport} (hi : f.people[i]? = some (.worker w (.ended (.returned r)))) :
    r.worker = w ∧ r.served = (f.visitsWith w).length := by
  obtain ⟨hw, hk⟩ := h.worker_fits hi
  refine ⟨hk.report r rfl, ?_⟩
  rw [← List.length_map (f := (·.customer)), (h.visits_perm hagrees hended hown hw).length_eq]
  exact hk.served r.served rfl

/-- Whoever has left with a visit is in the book of its worker. -/
theorem Kept.mem_past (h : f.Kept workers ledgers) (hagrees : f.Agrees workers)
    (hended : ∀ p ∈ f.people, p.badge ≠ .closer → p.hasEnded = true) {i w : Nat} {c : Customer}
    {v : Visiting} (hi : f.people[i]? = some (.customer c v)) (hv : v.servedBy? = some w)
    (hw : w < workers) : c ∈ (ledgers w).past := by
  have hle := le_tally (f := Person.servedAt w c) hi
  rw [h.tally_servedAt hagrees hended hw] at hle
  simp only [Person.servedAt, hv, and_self, if_true] at hle
  exact List.count_pos_iff.1 hle

/-- Whoever has taken no completion is in no book, when nobody else has its id. -/
theorem Kept.not_mem_past (h : f.Kept workers ledgers) (hagrees : f.Agrees workers)
    (hended : ∀ p ∈ f.people, p.badge ≠ .closer → p.hasEnded = true)
    (hids : (f.badges.filterMap Badge.customerId?).Nodup) {i w : Nat} {c : Customer}
    {v : Visiting} (hi : f.people[i]? = some (.customer c v)) (hv : v.servedBy? = none)
    (hw : w < workers) : c ∉ (ledgers w).past := by
  intro hmem
  have hpos := List.count_pos_iff.2 hmem
  rw [← h.tally_servedAt hagrees hended hw] at hpos
  obtain ⟨j, p, hj, hp⟩ := exists_of_tally_pos hpos
  cases p with
  | customer c' v' =>
      simp only [Person.servedAt] at hp
      split at hp
      · next hx =>
        -- whoever is in the book is the customer itself
        obtain ⟨rfl, htaken⟩ := hx
        obtain rfl := customer_unique hids hi hj rfl
        obtain ⟨-, rfl⟩ := Person.customer.inj (Option.some.inj (hi.symm.trans hj))
        cases hv.symm.trans htaken
      · cases hp
  | worker w' k => cases hp
  | closer k => cases hp

end Kept

end Floor

namespace Ledger

/-- The customer at a desk whose claim was announced and whose service is not in the book. -/
def unbooked (l : Ledger) : List Customer := if 2 ≤ l.stage.announced then [l.current] else []

theorem length_unbooked (l : Ledger) : l.unbooked.length ≤ 1 := by
  rw [unbooked]
  split
  · exact Nat.le_refl 1
  · exact Nat.zero_le 1

theorem served_eq_append (l : Ledger) (hpast : l.stage = .absent → l.past = []) :
    l.served = l.past ++ l.unbooked := by
  rw [served, unbooked]
  split
  · next hstage =>
    rw [hpast hstage, hstage]
    rfl
  · split
    · rfl
    · exact (List.append_nil _).symm

/-- The services in the book were announced one after another. -/
theorem shift_of_past (l : Ledger) (w : Nat) (hstage : l.stage ≠ .absent) :
    Trace.shift w l.past <+: l.events w := by
  rw [events, if_neg hstage]
  exact List.prefix_append _ _

end Ledger

namespace Floor

/-- **Both sides agree on what was served.** Take an office, customers with distinct ids, a shift
for each worker at most, closes and the shutdown at any moment, and any interleaving without a
panic. Once all visits and shifts are over there is a list of customers for every worker such that
the visits with the worker are those of exactly these customers, and both the slot and the report of
the worker count as many. The services of the list were announced one after another, and of at most
one more customer a service was begun; nobody occurs twice in all this. Each customer has left with
a visit of its own and is in the list of its worker, or was interrupted and is in no list. -/
theorem both_sides_agree (capacity workers minute clock : Nat) (hword : workers ≤ wordMax)
    (ms : List Move) (hms : Regular workers ms)
    (hcustomers : ((newcomers ms).filterMap Badge.customerId?).Nodup)
    (hunwind : ∀ i, .unwind i ∉ ms) (f : Floor)
    (hrun : run? ms (.opening (.furnish capacity workers minute) clock) = some f)
    (hended : ∀ p ∈ f.people, p.badge ≠ .closer → p.hasEnded = true) :
    ∃ served broken : Nat → List Customer,
      ((List.range workers).flatMap fun w => (served w ++ broken w).map (·.id)).Nodup ∧
      (∀ w, w < workers →
        ((f.visitsWith w).map (·.customer)).Perm (served w) ∧
        (∃ s, f.premises.slots[w]? = some s ∧ s.served = (f.visitsWith w).length) ∧
        (∀ (i : Nat) (k : Working), f.people[i]? = some (.worker w k) →
          ∃ r, k.ending? = some (.returned r) ∧ r.worker = w ∧
            r.served = (f.visitsWith w).length) ∧
        (served w = [] ∨ Trace.shift w (served w) <+: Trace.worker w f.premises.events) ∧
        Trace.worker w f.premises.events <+:
          Trace.shift w (served w ++ broken w) ++ [.workerIdle w] ∧
        (broken w).length ≤ 1) ∧
      ∀ (i : Nat) (c : Customer) (v : Visiting), f.people[i]? = some (.customer c v) →
        (∃ visit, v.ending? = some (.returned visit) ∧ visit.customer = c ∧
          visit.worker < workers ∧ c ∈ served visit.worker) ∨
        v.ending? = some (.failed .interrupted) ∧ ∀ w, w < workers → c ∉ served w := by
  obtain ⟨⟨ledgers, h⟩, -, -, hsound⟩ := sound_run hword hms hrun
  have hagrees := agrees_run hms hunwind hrun
  have hown := own_run hms hrun
  have hbadges : f.badges = newcomers ms := badges_run hrun
  have hunhurt : ∀ (i : Nat) (p : Person), f.people[i]? = some p → p.Unhurt :=
    fun i => unhurt_run hms (hunwind i) hrun
  have hserved : ∀ w, w < workers →
      (ledgers w).served = (ledgers w).past ++ (ledgers w).unbooked :=
    fun w hw => (ledgers w).served_eq_append fun hstage => h.past_of_absent hagrees hw hstage
  refine ⟨fun w => (ledgers w).past, fun w => (ledgers w).unbooked, ?_, fun w hw => ?_,
    fun i c v hi => ?_⟩
  · have hnodup := h.served_nodup (claims_nodup hms hcustomers hrun)
    rwa [List.flatMap_congr fun w hw => by rw [hserved w (List.mem_range.1 hw)]] at hnodup
  · have hperm := h.visits_perm hagrees hended hown hw
    have hlength : (ledgers w).past.length = (f.visitsWith w).length := by
      rw [← hperm.length_eq, List.length_map]
    obtain ⟨s, hs⟩ := h.slot hw
    refine ⟨hperm, ⟨s, hs, ?_⟩, fun i k hi => ?_, ?_, ?_, (ledgers w).length_unbooked⟩
    · rw [← hlength]
      exact (Premises.slot_of_view (h.views w hw) hs).2.2
    · have hover := hended _ (List.mem_of_getElem? hi) (by simp [Person.badge])
      obtain ⟨e, he⟩ := Option.isSome_iff_exists.1 hover
      rcases (hsound i _ hi).shift_ending he with ⟨r, rfl⟩ | ⟨-, hhurt⟩
      · obtain rfl := Working.eq_ended he
        exact ⟨r, rfl, h.report_eq hagrees hended hown hi⟩
      · exact absurd (hunhurt i _ hi) hhurt
    · rw [h.events_eq hw]
      by_cases hstage : (ledgers w).stage = .absent
      · exact .inl (h.past_of_absent hagrees hw hstage)
      · exact .inr ((ledgers w).shift_of_past w hstage)
    · rw [h.events_eq hw, ← hserved w hw]
      exact (ledgers w).events_begin w
  · have hover := hended _ (List.mem_of_getElem? hi) (by simp [Person.badge])
    obtain ⟨e, he⟩ := Option.isSome_iff_exists.1 hover
    rcases (hsound i _ hi).visit_ending he with ⟨visit, rfl⟩ | rfl | ⟨-, hhurt⟩
    · obtain rfl := Visiting.eq_ended he
      obtain ⟨hself, hw⟩ := hown i _ hi
      exact .inl ⟨visit, rfl, hself, hw, h.mem_past hagrees hended hi rfl hw⟩
    · obtain rfl := Visiting.eq_ended he
      exact .inr ⟨rfl, fun w hw =>
        h.not_mem_past hagrees hended (hbadges ▸ hcustomers) hi rfl hw⟩
    · exact absurd (hunhurt i _ hi) hhurt

/-- One worker serves one customer, and has announced the second one's task as finished when the
office is closed: the log shows two services, but only the first one counts, and the second customer
was interrupted. -/
theorem both_sides_agree_interrupted :
    let c : Customer := ⟨7, .mailPackage⟩
    let d : Customer := ⟨8, .buyStamps⟩
    let ms : List Move := List.flatten [[.join (.starts 0), .join (.arrives c), .join (.arrives d)],
      .replicate 7 (.step 0), .replicate 10 (.step 1), [.exchange 1 0, .step 0, .step 0, .step 0,
      .exchange 0 1, .step 1, .step 1, .exchange 1 0], .replicate 10 (.step 0), [.exchange 0 1],
      .replicate 6 (.step 0), .replicate 5 (.step 1), .replicate 10 (.step 2), [.exchange 2 0,
      .step 0, .step 0, .step 0, .exchange 0 2, .step 2, .step 2, .exchange 2 0],
      .replicate 5 (.step 0), [.join .closes], .replicate 7 (.step 3),
      [.step 0, .step 2, .step 2, .step 2]]
    1 ≤ wordMax ∧ Regular 1 ms ∧ ((newcomers ms).filterMap Badge.customerId?).Nodup ∧
      (∀ i, .unwind i ∉ ms) ∧ ∃ f, run? ms (.opening (.furnish 1 1 0) 0) = some f ∧
        (∀ p ∈ f.people, p.badge ≠ .closer → p.hasEnded = true) ∧
        Trace.worker 0 f.premises.events = Trace.shift 0 [c, d] ∧
        ∃ served : List Customer, ((f.visitsWith 0).map (·.customer)).Perm served ∧
          c ∈ served ∧ d ∉ served := by
  intro c d ms
  have hms : Regular 1 ms := by decide
  have hids : ((newcomers ms).filterMap Badge.customerId?).Nodup := by decide
  have hunwind : ∀ i, .unwind i ∉ ms := by
    intro i hi
    simp [ms] at hi
  have hends : (run? ms (.opening (.furnish 1 1 0) 0)).map
      (fun f => (f.people, Trace.worker 0 f.premises.events)) =
      some ([.worker 0 (.ended (.returned ⟨0, 1⟩)),
        .customer c (.ended (.returned ⟨c, 0, 0, 0, 0⟩)),
        .customer d (.ended (.failed .interrupted)), .closer .ended],
        Trace.shift 0 [c, d]) := by
    decide +kernel
  obtain ⟨f, hrun, hf⟩ := Option.map_eq_some_iff.1 hends
  obtain ⟨hpeople, hevents⟩ := Prod.mk.inj hf
  have hended : ∀ p ∈ f.people, p.badge ≠ .closer → p.hasEnded = true := by
    rw [hpeople]
    decide
  obtain ⟨served, _, -, hdesks, hvisits⟩ :=
    both_sides_agree 1 1 0 0 (by decide) ms hms hids hunwind f hrun hended
  refine ⟨by decide, hms, hids, hunwind, f, hrun, hended, hevents, served 0,
    (hdesks 0 (by decide)).1, ?_, ?_⟩
  · rcases hvisits 1 c _ (by rw [hpeople]; rfl) with ⟨visit, hvisit, -, -, hmem⟩ | ⟨hfailed, -⟩
    · obtain rfl := Ending.returned.inj (Option.some.inj hvisit)
      exact hmem
    · cases hfailed
  · rcases hvisits 2 d _ (by rw [hpeople]; rfl) with ⟨visit, hvisit, -⟩ | ⟨-, hno⟩
    · cases hvisit
    · exact hno 0 (by decide)

end Floor

end Postal

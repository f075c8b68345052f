import Postal.Proofs.Floor
import Postal.Proofs.Pool

/-!
# One step of a shift, of a visit and of a close.

Everything that the next step of a person can do, said once for each kind of person. Nothing later
takes the rules of the office apart: an invariant of the floor goes through the cases of
`Working.Steps` and `Visiting.Steps`, with the guards of each of them at hand.

## §1 — workers.
## §2 — customers.
## §3 — whoever closes the office.
## §4 — everybody on the floor.
-/

namespace Postal

namespace Premises

theorem events_record (p : Premises) (e : Event) : (p.record e).events = p.events ++ [e] := by
  simp [events, record]

/-- A section of a slot that is there runs there. -/
theorem section?_of_some {p : Premises} {w : Nat} {s : Slot} (hs : p.slots[w]? = some s)
    (run : Slot → Except Fault Slot) :
    p.section? w run = match run s with
      | .ok s' => some (.ok (), p.setSlot w s')
      | .error f => some (.error f, p) := by
  cases hrun : run s <;> simp [section?, hs, hrun]

/-- Whatever section runs, it runs at a slot that is there. -/
theorem section?_eq_some {p : Premises} {w : Nat} {run : Slot → Except Fault Slot}
    {r : Except Fault Unit × Premises} (h : p.section? w run = some r) :
    ∃ s, p.slots[w]? = some s ∧
      ((∃ s', run s = .ok s' ∧ r = (.ok (), p.setSlot w s')) ∨
        ∃ f, run s = .error f ∧ r = (.error f, p)) := by
  obtain ⟨s, hs, -⟩ := Option.bind_eq_some_iff.1 h
  rw [section?_of_some hs] at h
  refine ⟨s, hs, ?_⟩
  cases hrun : run s with
  | ok s' =>
      rw [hrun] at h
      exact .inl ⟨s', rfl, (Option.some.inj h).symm⟩
  | error f =>
      rw [hrun] at h
      exact .inr ⟨f, rfl, (Option.some.inj h).symm⟩

/-- A section that needs a phase changes a slot in that phase, and fails at any other one. -/
theorem section?_cases {p : Premises} {w : Nat} {run : Slot → Except Fault Slot} {needed : Phase}
    {next : Slot → Slot} {r : Except Fault Unit × Premises}
    (hrun : ∀ s, (s.phase = needed ∧ run s = .ok (next s)) ∨
      (s.phase ≠ needed ∧ ∃ b, run s = .error (s.breach b)))
    (h : p.section? w run = some r) :
    ∃ s, p.slots[w]? = some s ∧ ((s.phase = needed ∧ r = (.ok (), p.setSlot w (next s))) ∨
      (s.phase ≠ needed ∧ ∃ b, r = (.error (s.breach b), p))) := by
  obtain ⟨s, hs, -⟩ := section?_eq_some h
  rw [section?_of_some hs] at h
  refine ⟨s, hs, ?_⟩
  rcases hrun s with ⟨hphase, hok⟩ | ⟨hphase, b, herror⟩
  · rw [hok] at h
    exact .inl ⟨hphase, (Option.some.inj h).symm⟩
  · rw [herror] at h
    exact .inr ⟨hphase, b, (Option.some.inj h).symm⟩

end Premises

namespace Slot

/-- A turn to another phase succeeds from the phase that it needs, and from no other. -/
theorem turn_cases (needed goal : Phase) (s : Slot) :
    (s.phase = needed ∧ s.turn needed goal = .ok { s with phase := goal }) ∨
      (s.phase ≠ needed ∧ ∃ b, s.turn needed goal = .error (s.breach b)) := by
  by_cases h : s.phase = needed
  · exact .inl ⟨h, if_pos h⟩
  · exact .inr ⟨h, _, if_neg h⟩

/-- A slot is bound to a customer while it waits for one, and at no other time. -/
theorem bind_cases (a : Assignment) (s : Slot) :
    (s.phase = .awaitingPublish ∧
        s.bind a = .ok { s with phase := .published, customer := some a.customer }) ∨
      (s.phase ≠ .awaitingPublish ∧ ∃ b, s.bind a = .error (s.breach b)) := by
  by_cases h : s.phase = .awaitingPublish
  · exact .inl ⟨h, if_pos h⟩
  · exact .inr ⟨h, _, if_neg h⟩

end Slot

/-! ## §1 — workers -/

/-- Whether a worker waits at its slot for the other side, within a service. -/
def Service.Waits : Service → Prop
  | .sendingAcknowledge | .awaitingProceed | .sendingCompletion => True
  | _ => False

/-- The phase that the slot must be in when a worker takes its next section there. -/
def Working.needs? : Working → Option Phase
  | .opening _ => some .idle
  | .checkingReceived _ _ => some .published
  | .serving _ _ .acknowledging => some .published
  | .serving _ _ .checkingProceed => some .executingTask
  | .serving _ _ .completing => some .executingTask
  | _ => none

namespace Working

/-- Where a worker stands after its offer. -/
def afterOffer (n : Nat) : Except Fault Unit → Working
  | .ok () => .awaitingPublish n
  | .error f => .ended (.failed f)

/-- Where a worker stands after it has asked for the scale. -/
def afterWeighing (id n : Nat) (a : Assignment) : Except Fault Unit → Working
  | .ok () => .serving n a .announcingStart
  | .error f => stop id n f

/-- Where a worker stands after a service. -/
def afterService (id n : Nat) : Except Fault Unit → Working
  | .ok () => .deciding (n + 1)
  | .error f => stop id n f

/-- **`Steps id p offered k k' p'`** — everything that the next step of worker `id` can do. -/
inductive Steps (id : Nat) (p : Premises) (offered : Bool) : Working → Working → Premises → Prop
  | enrolls (h : id < p.workerCount) : Steps id p offered .arriving .announcingCreation p
  | unknown (h : p.workerCount ≤ id) :
      Steps id p offered .arriving (.ended (.failed (.violation id .noSuchWorker))) p
  | announcesCreation :
      Steps id p offered .announcingCreation (.deciding 0) (p.record (.workerCreated id))
  | stays {n : Nat} (h : p.fired = false) : Steps id p offered (.deciding n) (.opening n) p
  | retires {n : Nat} (h : p.fired = true) : Steps id p offered (.deciding n) (report id n) p
  | opens {n : Nat} {s : Slot} (hs : p.slots[id]? = some s) (hphase : s.phase = .idle) :
      Steps id p offered (.opening n) (.announcingIdle n)
        (p.setSlot id { s with phase := .awaitingPublish })
  | announcesIdle {n : Nat} :
      Steps id p offered (.announcingIdle n) (.advertising n .token) (p.record (.workerIdle id))
  | advertises {n : Nat} {pos : Pool.Advertising}
      {progress : Progress Pool.Advertising (Except Fault Unit)} {pool : Pool}
      (h : Pool.Offers p.pool id pos progress pool) :
      Steps id p offered (.advertising n pos)
        (progress.within (.advertising n) (afterOffer n)) { p with pool }
  | goesHome {n : Nat} (h : p.isSlotClosed id = true ∨ p.fired = true ∧ offered = false) :
      Steps id p offered (.awaitingPublish n) (report id n) p
  | accepts {n : Nat} {a : Assignment} {s : Slot} (hs : p.slots[id]? = some s)
      (hphase : s.phase = .published) (hcustomer : s.customer = some a.customer) :
      Steps id p offered (.checkingReceived n a) (.serving n a .announcingIntent) p
  | rejects {n : Nat} {a : Assignment} {s : Slot} (hs : p.slots[id]? = some s)
      (h : ¬ (s.phase = .published ∧ s.customer = some a.customer)) (f : Fault) :
      Steps id p offered (.checkingReceived n a) (.ended (.failed f)) p
  | announcesIntent {n : Nat} {a : Assignment} :
      Steps id p offered (.serving n a .announcingIntent) (.serving n a .acknowledging)
        (p.record (.workerAnnouncesIntent id a.customer))
  | acknowledges {n : Nat} {a : Assignment} {s : Slot} (hs : p.slots[id]? = some s)
      (hphase : s.phase = .published) :
      Steps id p offered (.serving n a .acknowledging) (.serving n a .sendingAcknowledge)
        (p.setSlot id { s with phase := .workerAcknowledged })
  | interrupted {n : Nat} {a : Assignment} {position : Service} (hwaits : position.Waits)
      (hclosed : p.isSlotClosed id = true) :
      Steps id p offered (.serving n a position) (report id n) p
  | starts {n : Nat} {a : Assignment} {s : Slot} (hs : p.slots[id]? = some s)
      (hphase : s.phase = .executingTask) :
      Steps id p offered (.serving n a .checkingProceed)
        (.serving n a (if a.task.needsScale then .weighing .trying else .announcingStart)) p
  | weighs {n : Nat} {a : Assignment} {pos : Scale.Acquiring}
      {progress : Progress Scale.Acquiring (Except Fault Unit)} {scale : Scale}
      (h : p.scale.acquire? pos = some (progress, scale)) :
      Steps id p offered (.serving n a (.weighing pos))
        (progress.within (fun pos => .serving n a (.weighing pos)) (afterWeighing id n a))
        { p with scale }
  | announcesStart {n : Nat} {a : Assignment} :
      Steps id p offered (.serving n a .announcingStart)
        (.serving n a (.busy (p.clock + a.task.duration p.minute)))
        (p.record (.taskStarted id a.customer a.task))
  | works {n deadline : Nat} {a : Assignment} :
      Steps id p offered (.serving n a (.busy deadline))
        (.serving n a (if a.task.needsScale then .releasing .counted else .announcingFinish))
        { p with clock := max p.clock deadline }
  | drops {n : Nat} {a : Assignment} {pos : Scale.Dropping} :
      Steps id p offered (.serving n a (.releasing pos))
        ((p.scale.drop pos).1.within (fun pos => .serving n a (.releasing pos)) fun _ =>
          .serving n a .announcingFinish) { p with scale := (p.scale.drop pos).2 }
  | announcesFinish {n : Nat} {a : Assignment} :
      Steps id p offered (.serving n a .announcingFinish) (.serving n a .completing)
        (p.record (.taskFinished id a.customer a.task))
  | completes {n : Nat} {a : Assignment} {s : Slot} (hs : p.slots[id]? = some s)
      (hphase : s.phase = .executingTask) :
      Steps id p offered (.serving n a .completing) (.serving n a .sendingCompletion)
        (p.setSlot id { s with phase := .completed })
  | settles {n : Nat} {a : Assignment} {s : Slot} (hs : p.slots[id]? = some s) :
      Steps id p offered (.serving n a .settling) (.deciding (n + 1)) (p.setSlot id s.settle)
  | unwinds {pos : Scale.Dropping} :
      Steps id p offered (.unwinding pos)
        ((p.scale.drop pos).1.within .unwinding fun _ => .ended .panicked)
        { p with scale := (p.scale.drop pos).2 }
  | breaks {k : Working} {s : Slot} {needed : Phase} (hs : p.slots[id]? = some s)
      (hneeds : k.needs? = some needed) (hphase : s.phase ≠ needed) (f : Fault) :
      Steps id p offered k (.ended (.failed f)) p

/-- **A section of a service** that turns the slot over from one phase to the next: it goes on from
the phase that it needs, and breaks off at any other one. -/
theorem steps_of_turn {id n : Nat} {a : Assignment} {p p' : Premises} {offered : Bool}
    {position next : Service} {progress : Progress Service (Except Fault Unit)}
    {needed goal : Phase}
    (h : (p.section? id (·.turn needed goal)).map (fun r => (Service.afterSection next r.1, r.2)) =
      some (progress, p'))
    (hneeds : (Working.serving n a position).needs? = some needed)
    (hok : ∀ s, p.slots[id]? = some s → s.phase = needed →
      Steps id p offered (.serving n a position) (.serving n a next)
        (p.setSlot id { s with phase := goal })) :
    Steps id p offered (.serving n a position)
      (progress.within (.serving n a) (afterService id n)) p' := by
  obtain ⟨r, hsec, hend⟩ := Option.map_eq_some_iff.1 h
  obtain ⟨s, hs, ⟨hphase, rfl⟩ | ⟨hphase, b, rfl⟩⟩ :=
    Premises.section?_cases (Slot.turn_cases needed goal) hsec
  · obtain ⟨rfl, rfl⟩ := Prod.mk.inj hend
    exact hok s hs hphase
  · obtain ⟨rfl, rfl⟩ := Prod.mk.inj hend
    exact .breaks hs hneeds hphase _

/-- **A wait of a service** takes a step only when the slot is closed. -/
theorem steps_of_orClosed {id n : Nat} {a : Assignment} {p p' : Premises} {offered : Bool}
    {position : Service} {progress : Progress Service (Except Fault Unit)}
    (hwaits : position.Waits) (h : Service.orClosed p id = some (progress, p')) :
    Steps id p offered (.serving n a position)
      (progress.within (.serving n a) (afterService id n)) p' := by
  rw [Service.orClosed] at h
  split at h
  · next hclosed =>
    obtain ⟨rfl, rfl⟩ := Prod.mk.inj (Option.some.inj h)
    exact .interrupted hwaits hclosed
  · cases h

/-- The steps of a service. -/
theorem steps_of_service {id n : Nat} {a : Assignment} {p p' : Premises} {offered : Bool}
    {position : Service} {progress : Progress Service (Except Fault Unit)}
    (h : position.step? id a p = some (progress, p')) :
    Steps id p offered (.serving n a position)
      (progress.within (.serving n a) (afterService id n)) p' := by
  cases position with
  | announcingIntent =>
      obtain ⟨rfl, rfl⟩ := Prod.mk.inj (Option.some.inj h)
      exact .announcesIntent
  | acknowledging => exact steps_of_turn h rfl fun s hs hphase => .acknowledges hs hphase
  | sendingAcknowledge => exact steps_of_orClosed trivial h
  | awaitingProceed => exact steps_of_orClosed trivial h
  | checkingProceed =>
      obtain ⟨s, hs, h⟩ := Option.bind_eq_some_iff.1 h
      by_cases hphase : s.phase = .executingTask
      · rw [show s.checkProceed = .ok () from if_pos hphase] at h
        obtain ⟨rfl, rfl⟩ := Prod.mk.inj (Option.some.inj h)
        exact .starts hs hphase
      · rw [show s.checkProceed = .error _ from if_neg hphase] at h
        obtain ⟨rfl, rfl⟩ := Prod.mk.inj (Option.some.inj h)
        exact .breaks hs rfl hphase _
  | weighing pos =>
      obtain ⟨⟨progress', scale⟩, hacq, hend⟩ := Option.map_eq_some_iff.1 h
      obtain ⟨rfl, rfl⟩ := Prod.mk.inj hend
      rcases progress' with pos' | ⟨f | ⟨⟩⟩
      · exact .weighs hacq
      · exact .weighs hacq
      · exact .weighs hacq
  | announcingStart =>
      obtain ⟨rfl, rfl⟩ := Prod.mk.inj (Option.some.inj h)
      exact .announcesStart
  | busy deadline =>
      obtain ⟨rfl, rfl⟩ := Prod.mk.inj (Option.some.inj h)
      exact .works
  | releasing pos =>
      obtain ⟨rfl, rfl⟩ := Prod.mk.inj (Option.some.inj h)
      cases pos with
      | counted => exact .drops
      | releasing => exact .drops
  | announcingFinish =>
      obtain ⟨rfl, rfl⟩ := Prod.mk.inj (Option.some.inj h)
      exact .announcesFinish
  | completing => exact steps_of_turn h rfl fun s hs hphase => .completes hs hphase
  | sendingCompletion => exact steps_of_orClosed trivial h
  | settling =>
      obtain ⟨⟨r, q⟩, hsec, hend⟩ := Option.map_eq_some_iff.1 h
      obtain ⟨rfl, rfl⟩ := Prod.mk.inj hend
      obtain ⟨s, hs, ⟨s', hs', hr⟩ | ⟨f, hf, -⟩⟩ := Premises.section?_eq_some hsec
      · obtain rfl := Except.ok.inj hs'
        obtain ⟨rfl, rfl⟩ := Prod.mk.inj hr
        exact .settles hs
      · cases hf

theorem steps_of_step? {id : Nat} {p p' : Premises} {offered : Bool} {k k' : Working}
    (h : k.step? id p offered = some (k', p')) : Steps id p offered k k' p' := by
  cases k with
  | arriving =>
      obtain ⟨rfl, rfl⟩ := Prod.mk.inj (Option.some.inj h)
      split
      · next hlt => exact .enrolls hlt
      · next hge => exact .unknown (Nat.le_of_not_lt hge)
  | announcingCreation =>
      obtain ⟨rfl, rfl⟩ := Prod.mk.inj (Option.some.inj h)
      exact .announcesCreation
  | deciding n =>
      obtain ⟨rfl, rfl⟩ := Prod.mk.inj (Option.some.inj h)
      split
      · next hfired => exact .retires hfired
      · next hfired => exact .stays (Bool.not_eq_true _ ▸ hfired)
  | opening n =>
      obtain ⟨r, hsec, hend⟩ := Option.map_eq_some_iff.1 h
      obtain ⟨s, hs, ⟨hphase, rfl⟩ | ⟨hphase, b, rfl⟩⟩ :=
        Premises.section?_cases (Slot.turn_cases .idle .awaitingPublish) hsec
      · obtain ⟨rfl, rfl⟩ := Prod.mk.inj hend
        exact .opens hs hphase
      · obtain ⟨rfl, rfl⟩ := Prod.mk.inj hend
        exact .breaks hs rfl hphase _
  | announcingIdle n =>
      obtain ⟨rfl, rfl⟩ := Prod.mk.inj (Option.some.inj h)
      exact .announcesIdle
  | advertising n pos =>
      obtain ⟨rfl, rfl⟩ := Prod.mk.inj (Option.some.inj h)
      exact .advertises (Pool.offers_advertise _ _ _)
  | awaitingPublish n =>
      simp only [step?] at h
      split at h
      · next hcond =>
        obtain ⟨rfl, rfl⟩ := Prod.mk.inj (Option.some.inj h)
        exact .goesHome (by simpa using hcond)
      · cases h
  | checkingReceived n a =>
      obtain ⟨s, hs, h⟩ := Option.bind_eq_some_iff.1 h
      by_cases hcond : s.phase = .published ∧ s.customer = some a.customer
      · rw [show s.checkReceived a = .ok () from if_pos hcond] at h
        obtain ⟨rfl, rfl⟩ := Prod.mk.inj (Option.some.inj h)
        exact .accepts hs hcond.1 hcond.2
      · rw [show s.checkReceived a = .error _ from if_neg hcond] at h
        obtain ⟨rfl, rfl⟩ := Prod.mk.inj (Option.some.inj h)
        exact .rejects hs hcond _
  | serving n a position =>
      obtain ⟨⟨progress, q⟩, hstep, hend⟩ := Option.map_eq_some_iff.1 h
      obtain ⟨rfl, rfl⟩ := Prod.mk.inj hend
      exact steps_of_service hstep
  | unwinding pos =>
      obtain ⟨rfl, rfl⟩ := Prod.mk.inj (Option.some.inj h)
      exact .unwinds
  | ended e => cases h

end Working

/-- **A step of a worker announces** what the worker was about to announce, and nothing else. -/
theorem Working.Steps.events_eq {id : Nat} {p p' : Premises} {offered : Bool} {k k' : Working}
    (h : k.Steps id p offered k' p') : p'.events = p.events ++ (k.emits? id).toList := by
  cases h with
  | announcesCreation => exact Premises.events_record _ _
  | announcesIdle => exact Premises.events_record _ _
  | announcesIntent => exact Premises.events_record _ _
  | announcesStart => exact Premises.events_record _ _
  | announcesFinish => exact Premises.events_record _ _
  | @interrupted n a position hwaits hclosed =>
      cases position <;> first | exact (List.append_nil _).symm | exact hwaits.elim
  | @breaks k s needed hs hneeds hphase f =>
      cases k with
      | serving n a position =>
          cases position <;> first | exact (List.append_nil _).symm | cases hneeds
      | _ => first | exact (List.append_nil _).symm | cases hneeds
  | _ => exact (List.append_nil _).symm

/-! ## §2 — customers -/

/-- Whether a customer waits at the slot for the other side. -/
def Dealing.Waits : Dealing → Prop
  | .handing | .awaitingAcknowledge | .sendingProceed | .awaitingCompletion => True
  | _ => False

/-- The phase that the slot must be in when a customer takes its next section there. -/
def Dealing.needs? : Dealing → Option Phase
  | .publishing => some .awaitingPublish
  | .proceeding => some .workerAcknowledged
  | _ => none

namespace Visiting

/-- Where a customer stands after it has asked to enter. -/
def afterEntry : Except Fault Nat → Visiting
  | .ok ticket => .admitted ticket
  | .error f => .ended (.failed f)

/-- Where a customer stands after its search. -/
def afterSearch (workers : Nat) (stay : Stay) : Except Fault Nat → Visiting
  | .ok worker =>
    if worker < workers then .dealing stay worker .announcingClaim
    else leave (.failed (.violation worker .noSuchWorker))
  | .error f => leave (.failed f)

/-- **`Steps c p v v' p'`** — everything that the next step of customer `c` can do. -/
inductive Steps (c : Customer) (p : Premises) : Visiting → Visiting → Premises → Prop
  | announcesCreation :
      Steps c p .announcingCreation (.entering .start) (p.record (.customerCreated c.id))
  | enters {pos : Gate.Entering} {progress : Progress Gate.Entering (Except Fault Nat)}
      {gate : Gate} (h : p.gate.enter? pos = some (progress, gate)) :
      Steps c p (.entering pos)
        (progress.within .entering afterEntry) { p with gate }
  | looksUp {ticket : Nat} :
      Steps c p (.admitted ticket) (.announcingAdmission ⟨ticket, p.clock⟩) p
  | announcesAdmission {stay : Stay} :
      Steps c p (.announcingAdmission stay) (.claiming stay .start)
        (p.record (.customerAdmitted c.id))
  | claims {stay : Stay} {pos : Pool.Claiming}
      {progress : Progress Pool.Claiming (Except Fault Nat)} {pool : Pool}
      (h : Pool.Claims p.pool pos progress pool) :
      Steps c p (.claiming stay pos)
        (progress.within (.claiming stay) (afterSearch p.workerCount stay)) { p with pool }
  | announcesClaim {stay : Stay} {w : Nat} :
      Steps c p (.dealing stay w .announcingClaim) (.dealing stay w .publishing)
        (p.record (.customerClaimsWorker c.id w))
  | binds {stay : Stay} {w : Nat} {s : Slot} (hs : p.slots[w]? = some s)
      (hphase : s.phase = .awaitingPublish) :
      Steps c p (.dealing stay w .publishing) (.dealing stay w .offering)
        (p.setSlot w { s with phase := .published, customer := some c.id })
  | linesUp {stay : Stay} {w : Nat} :
      Steps c p (.dealing stay w .offering) (.dealing stay w .handing) p
  | interrupted {stay : Stay} {w : Nat} {d : Dealing} (hwaits : d.Waits)
      (hclosed : p.isSlotClosed w = true) :
      Steps c p (.dealing stay w d) (leave (.failed .interrupted)) p
  | announcesIntent {stay : Stay} {w : Nat} :
      Steps c p (.dealing stay w .announcingIntent) (.dealing stay w .proceeding)
        (p.record (.customerAnnouncesIntent c.id w c.task))
  | proceeds {stay : Stay} {w : Nat} {s : Slot} (hs : p.slots[w]? = some s)
      (hphase : s.phase = .workerAcknowledged) :
      Steps c p (.dealing stay w .proceeding) (.dealing stay w .sendingProceed)
        (p.setSlot w { s with phase := .executingTask })
  | announcesFinish {stay : Stay} {w : Nat} :
      Steps c p (.dealing stay w .announcingFinish) (.dealing stay w .announcingDeparture)
        (p.record (.customerFinished c.id c.task))
  | announcesDeparture {stay : Stay} {w : Nat} :
      Steps c p (.dealing stay w .announcingDeparture) (.dealing stay w .departing)
        (p.record (.customerDeparts c.id))
  | departs {stay : Stay} {w : Nat} :
      Steps c p (.dealing stay w .departing)
        (leave (.returned ⟨c, w, stay.ticket, stay.admittedAt, p.clock⟩)) p
  | stepsOut {ending : Ending Visit} :
      Steps c p (.leaving .counted ending) (.leaving .releasing ending)
        { p with gate := (p.gate.leave .counted).2 }
  | leaves {ending : Ending Visit} :
      Steps c p (.leaving .releasing ending) (.ended ending)
        { p with gate := (p.gate.leave .releasing).2 }
  | breaks {stay : Stay} {w : Nat} {d : Dealing} {s : Slot} {needed : Phase}
      (hs : p.slots[w]? = some s) (hneeds : d.needs? = some needed) (hphase : s.phase ≠ needed)
      (f : Fault) :
      Steps c p (.dealing stay w d) (leave (.failed f)) p

/-- **A section of a visit** that needs a phase: it goes on from there, and breaks off at any other
one. -/
theorem steps_of_section {c : Customer} {p p' : Premises} {stay : Stay} {w : Nat} {d d' : Dealing}
    {v' : Visiting} {run : Slot → Except Fault Slot} {needed : Phase} {next : Slot → Slot}
    (hrun : ∀ s, (s.phase = needed ∧ run s = .ok (next s)) ∨
      (s.phase ≠ needed ∧ ∃ b, run s = .error (s.breach b)))
    (h : (p.section? w run).map (fun r => (afterSection (.dealing stay w d') r.1, r.2)) =
      some (v', p'))
    (hneeds : d.needs? = some needed)
    (hok : ∀ s, p.slots[w]? = some s → s.phase = needed →
      Steps c p (.dealing stay w d) (.dealing stay w d') (p.setSlot w (next s))) :
    Steps c p (.dealing stay w d) v' p' := by
  obtain ⟨r, hsec, hend⟩ := Option.map_eq_some_iff.1 h
  obtain ⟨s, hs, ⟨hphase, rfl⟩ | ⟨hphase, b, rfl⟩⟩ := Premises.section?_cases hrun hsec
  · obtain ⟨rfl, rfl⟩ := Prod.mk.inj hend
    exact hok s hs hphase
  · obtain ⟨rfl, rfl⟩ := Prod.mk.inj hend
    exact .breaks hs hneeds hphase _

/-- **A wait of a visit** takes a step only when the slot is closed. -/
theorem steps_of_orClosed {c : Customer} {p p' : Premises} {stay : Stay} {w : Nat} {d : Dealing}
    {v' : Visiting} (hwaits : d.Waits) (h : orClosed p w = some (v', p')) :
    Steps c p (.dealing stay w d) v' p' := by
  rw [orClosed] at h
  split at h
  · next hclosed =>
    obtain ⟨rfl, rfl⟩ := Prod.mk.inj (Option.some.inj h)
    exact .interrupted hwaits hclosed
  · cases h

/-- The steps at the slot of the claimed worker. -/
theorem steps_of_deal {c : Customer} {p p' : Premises} {stay : Stay} {w : Nat} {d : Dealing}
    {v' : Visiting} (h : deal? c p stay w d = some (v', p')) :
    Steps c p (.dealing stay w d) v' p' := by
  cases d with
  | announcingClaim =>
      obtain ⟨rfl, rfl⟩ := Prod.mk.inj (Option.some.inj h)
      exact .announcesClaim
  | publishing =>
      exact steps_of_section (Slot.bind_cases c.assignment) h rfl fun s hs hphase =>
        .binds hs hphase
  | offering =>
      obtain ⟨rfl, rfl⟩ := Prod.mk.inj (Option.some.inj h)
      exact .linesUp
  | handing => exact steps_of_orClosed trivial h
  | awaitingAcknowledge => exact steps_of_orClosed trivial h
  | announcingIntent =>
      obtain ⟨rfl, rfl⟩ := Prod.mk.inj (Option.some.inj h)
      exact .announcesIntent
  | proceeding =>
      exact steps_of_section (Slot.turn_cases .workerAcknowledged .executingTask) h rfl
        fun s hs hphase => .proceeds hs hphase
  | sendingProceed => exact steps_of_orClosed trivial h
  | awaitingCompletion => exact steps_of_orClosed trivial h
  | announcingFinish =>
      obtain ⟨rfl, rfl⟩ := Prod.mk.inj (Option.some.inj h)
      exact .announcesFinish
  | announcingDeparture =>
      obtain ⟨rfl, rfl⟩ := Prod.mk.inj (Option.some.inj h)
      exact .announcesDeparture
  | departing =>
      obtain ⟨rfl, rfl⟩ := Prod.mk.inj (Option.some.inj h)
      exact .departs

theorem steps_of_step? {c : Customer} {p p' : Premises} {v v' : Visiting}
    (h : v.step? c p = some (v', p')) : Steps c p v v' p' := by
  cases v with
  | announcingCreation =>
      obtain ⟨rfl, rfl⟩ := Prod.mk.inj (Option.some.inj h)
      exact .announcesCreation
  | entering pos =>
      obtain ⟨⟨progress, gate⟩, henter, hend⟩ := Option.map_eq_some_iff.1 h
      obtain ⟨rfl, rfl⟩ := Prod.mk.inj hend
      exact .enters henter
  | admitted ticket =>
      obtain ⟨rfl, rfl⟩ := Prod.mk.inj (Option.some.inj h)
      exact .looksUp
  | announcingAdmission stay =>
      obtain ⟨rfl, rfl⟩ := Prod.mk.inj (Option.some.inj h)
      exact .announcesAdmission
  | claiming stay pos =>
      obtain ⟨⟨progress, pool⟩, hclaim, hend⟩ := Option.map_eq_some_iff.1 h
      obtain ⟨rfl, rfl⟩ := Prod.mk.inj hend
      exact .claims (Pool.claims_of_claim? hclaim)
  | dealing stay w d => exact steps_of_deal h
  | leaving pos ending =>
      obtain ⟨rfl, rfl⟩ := Prod.mk.inj (Option.some.inj h)
      cases pos with
      | counted => exact .stepsOut
      | releasing => exact .leaves
  | ended e => cases h

end Visiting

/-- **A step of a customer announces** what the customer was about to announce, and nothing else. -/
theorem Visiting.Steps.events_eq {c : Customer} {p p' : Premises} {v v' : Visiting}
    (h : v.Steps c p v' p') : p'.events = p.events ++ (v.emits? c).toList := by
  cases h with
  | announcesCreation => exact Premises.events_record _ _
  | announcesAdmission => exact Premises.events_record _ _
  | announcesClaim => exact Premises.events_record _ _
  | announcesIntent => exact Premises.events_record _ _
  | announcesFinish => exact Premises.events_record _ _
  | announcesDeparture => exact Premises.events_record _ _
  | @interrupted stay w d hwaits hclosed =>
      cases d <;> first | exact (List.append_nil _).symm | exact hwaits.elim
  | @breaks stay w d s needed hs hneeds hphase f =>
      cases d <;> first | exact (List.append_nil _).symm | cases hneeds
  | _ => exact (List.append_nil _).symm

/-! ## §3 — whoever closes the office -/

namespace Closing

/-- **`Steps p k k' p'`** — everything that the next step of a close can do. -/
inductive Steps (p : Premises) : Closing → Closing → Premises → Prop
  | gate : Steps p .gate (.pool .aggregate) { p with gate := p.gate.close }
  | aggregate :
      Steps p (.pool .aggregate) (.pool (.slot 0))
        { p with pool := { p.pool with available := p.pool.available.close } }
  | token {w : Nat} {s : Semaphore} (hs : p.pool.slots[w]? = some s) :
      Steps p (.pool (.slot w)) (.pool (.slot (w + 1)))
        { p with pool := p.pool.setSlot w s.close }
  | tokens {w : Nat} (hs : p.pool.slots[w]? = none) : Steps p (.pool (.slot w)) .scale p
  | scale : Steps p .scale (.slot 0) { p with scale := p.scale.close }
  | slot {w : Nat} {s : Slot} (hs : p.slots[w]? = some s) :
      Steps p (.slot w) (.slot (w + 1)) (p.setSlot w s.close)
  | slots {w : Nat} (hs : p.slots[w]? = none) : Steps p (.slot w) .ended p

theorem steps_of_step? {k k' : Closing} {p p' : Premises} (h : k.step? p = some (k', p')) :
    Steps p k k' p' := by
  cases k with
  | gate =>
      obtain ⟨rfl, rfl⟩ := Prod.mk.inj (Option.some.inj h)
      exact .gate
  | pool pos =>
      cases pos with
      | aggregate =>
          obtain ⟨rfl, rfl⟩ := Prod.mk.inj (Option.some.inj h)
          exact .aggregate
      | slot w =>
          cases hs : p.pool.slots[w]? with
          | none =>
              simp only [step?, Pool.close, hs] at h
              obtain ⟨rfl, rfl⟩ := Prod.mk.inj (Option.some.inj h)
              exact .tokens hs
          | some s =>
              simp only [step?, Pool.close, hs] at h
              obtain ⟨rfl, rfl⟩ := Prod.mk.inj (Option.some.inj h)
              exact .token hs
  | scale =>
      obtain ⟨rfl, rfl⟩ := Prod.mk.inj (Option.some.inj h)
      exact .scale
  | slot w =>
      cases hs : p.slots[w]? with
      | none =>
          simp only [step?, hs] at h
          obtain ⟨rfl, rfl⟩ := Prod.mk.inj (Option.some.inj h)
          exact .slots hs
      | some s =>
          simp only [step?, hs] at h
          obtain ⟨rfl, rfl⟩ := Prod.mk.inj (Option.some.inj h)
          exact .slot hs
  | ended => cases h

end Closing

/-- **A step of a close announces** nothing. -/
theorem Closing.Steps.events_eq {p p' : Premises} {k k' : Closing} (h : k.Steps p k' p') :
    p'.events = p.events := by
  cases h <;> rfl

/-! ## §4 — everybody on the floor -/

/-- **`f.Steps i f'`** — everything that the next step of person `i` can do. -/
inductive Floor.Steps (f : Floor) (i : Nat) : Floor → Prop
  | customer {c : Customer} {v v' : Visiting} {p' : Premises}
      (hi : f.people[i]? = some (.customer c v)) (h : v.Steps c f.premises v' p') :
      Steps f i ⟨p', f.people.set i (.customer c v')⟩
  | worker {id : Nat} {k k' : Working} {p' : Premises}
      (hi : f.people[i]? = some (.worker id k))
      (h : k.Steps id f.premises (f.offered id) k' p') :
      Steps f i ⟨p', f.people.set i (.worker id k')⟩
  | closer {k k' : Closing} {p' : Premises} (hi : f.people[i]? = some (.closer k))
      (h : k.Steps f.premises k' p') :
      Steps f i ⟨p', f.people.set i (.closer k')⟩

theorem Floor.steps_of_step? {f f' : Floor} {i : Nat} (h : f.step? i = some f') :
    f.Steps i f' := by
  obtain ⟨p, p', premises', hi, hstep, rfl⟩ := Floor.step?_eq_some h
  cases p with
  | customer c v =>
      obtain ⟨⟨v', q⟩, hv, hend⟩ := Option.map_eq_some_iff.1 hstep
      obtain ⟨rfl, rfl⟩ := Prod.mk.inj hend
      exact .customer hi (Visiting.steps_of_step? hv)
  | worker id k =>
      obtain ⟨⟨k', q⟩, hk, hend⟩ := Option.map_eq_some_iff.1 hstep
      obtain ⟨rfl, rfl⟩ := Prod.mk.inj hend
      exact .worker hi (Working.steps_of_step? hk)
  | closer k =>
      obtain ⟨⟨k', q⟩, hk, hend⟩ := Option.map_eq_some_iff.1 hstep
      obtain ⟨rfl, rfl⟩ := Prod.mk.inj hend
      exact .closer hi (Closing.steps_of_step? hk)

end Postal

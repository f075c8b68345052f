import Postal.Event.Trace
import Postal.Proofs.Steps

/-!
# The book of a desk.

Nobody in the office sees a service as a whole: the worker knows its own half, the customer the
other one, and the slot only a phase. The **ledger** of a desk is the book in which all of that is
written down: whom the worker has served, who is being served, and at which **stage** that service
stands. From the ledger follows everything that can be seen of the desk (`Ledger.view`), and
every position of a worker or of a customer is right at certain stages only (`Working.stages`,
`Dealing.stages`).

The two sides take turns. A turn of the worker keeps the customer where it may be
(`Stage.ByWorker.dealing`), a turn of the customer keeps the worker where it may be
(`Stage.ByCustomer.working`), and only an exchange moves both.
-/

namespace Postal

/-! ## §1 — stages -/

/-- How far the service at a desk has come, from the arrival of the worker to the completion that
the customer has taken and the worker has not booked yet. -/
inductive Stage where
  | absent
  | resting
  | opened
  | idle
  | free
  | claimed
  | approached
  | bound
  | received
  | greeted
  | accepting
  | accepted
  | asked
  | permitting
  | permitted
  | started
  | finished
  | completing
  | completed
  deriving DecidableEq, Repr

namespace Stage

/-- The phase of the slot at a stage. -/
def phase : Stage → Phase
  | .absent | .resting => .idle
  | .opened | .idle | .free | .claimed | .approached => .awaitingPublish
  | .bound | .received | .greeted => .published
  | .accepting | .accepted | .asked => .workerAcknowledged
  | .permitting | .permitted | .started | .finished => .executingTask
  | .completing | .completed => .completed

/-- The token of the worker lies in the pool at one stage only. -/
def tokens : Stage → Nat
  | .free => 1
  | _ => 0

/-- How many of the events of the current service were announced. -/
def announced : Stage → Nat
  | .absent | .resting | .opened => 0
  | .idle | .free | .claimed => 1
  | .approached | .bound | .received => 2
  | .greeted | .accepting | .accepted => 3
  | .asked | .permitting | .permitted => 4
  | .started => 5
  | .finished | .completing | .completed => 6

/-- Whether a customer has claimed the desk and has not taken the completion. -/
def isEngaged : Stage → Bool
  | .absent | .resting | .opened | .idle | .free | .completed => false
  | _ => true

/-- Whether the current service has a customer. -/
def isTaken : Stage → Bool
  | .absent | .resting | .opened | .idle | .free => false
  | _ => true

/-- Every stage from the one at which the worker lies down its token up to the one at which it
receives an assignment. -/
def offered : List Stage := [.free, .claimed, .approached, .bound]

end Stage

/-- The stages at which a customer can be at a position; none once the completion was taken. -/
def Dealing.stages : Dealing → List Stage
  | .announcingClaim => [.claimed]
  | .publishing => [.approached]
  | .offering | .handing => [.bound]
  | .awaitingAcknowledge => [.received, .greeted, .accepting]
  | .announcingIntent => [.accepted]
  | .proceeding => [.asked]
  | .sendingProceed => [.permitting]
  | .awaitingCompletion => [.permitted, .started, .finished, .completing]
  | .announcingFinish | .announcingDeparture | .departing => []

/-- The stages at which a worker can be at a position of a service. -/
def Service.stages : Service → List Stage
  | .announcingIntent => [.received]
  | .acknowledging => [.greeted]
  | .sendingAcknowledge => [.accepting]
  | .awaitingProceed => [.accepted, .asked, .permitting]
  | .checkingProceed | .weighing _ | .announcingStart => [.permitted]
  | .busy _ | .releasing _ | .announcingFinish => [.started]
  | .completing => [.finished]
  | .sendingCompletion => [.completing]
  | .settling => [.completed]

/-- Whether a worker that has left with its report can have left at a stage. -/
def Stage.isLeft : Stage → Bool
  | .resting | .free | .claimed | .approached | .bound => true
  | .accepting | .accepted | .asked | .permitting | .permitted | .completing => true
  | _ => false

/-- Whether a worker can be at a position at a stage. Of a worker that a panic has unwound nothing
is said. -/
def Working.Allows : Working → Stage → Prop
  | .arriving, s | .announcingCreation, s => s = .absent
  | .deciding _, s | .opening _, s => s = .resting
  | .announcingIdle _, s => s = .opened
  | .advertising _ .token, s => s = .idle
  | .advertising _ .aggregate, s | .awaitingPublish _, s => s ∈ Stage.offered
  | .checkingReceived _ _, s => s = .received
  | .serving _ _ position, s => s ∈ position.stages
  | .ended (.returned _), s => s.isLeft = true
  | .unwinding _, _ | .ended _, _ => True

/-- A worker can have left from every stage at which it waits for an assignment. -/
theorem Stage.isLeft_of_offered {s : Stage} (h : s ∈ offered) : s.isLeft = true := by
  simp only [offered, List.mem_cons, List.not_mem_nil, or_false] at h
  rcases h with rfl | rfl | rfl | rfl <;> rfl

/-- A worker that waits for the other side does so at a desk that is engaged, and can have left from
there. -/
theorem Service.engaged_of_waits (position : Service) (h : position.Waits) {s : Stage}
    (hs : s ∈ position.stages) : s.isEngaged = true ∧ s.isLeft = true := by
  cases position <;> simp only [Service.Waits] at h <;>
    simp only [Service.stages, List.mem_cons, List.not_mem_nil, or_false] at hs
  case sendingAcknowledge => exact hs ▸ ⟨rfl, rfl⟩
  case awaitingProceed => rcases hs with rfl | rfl | rfl <;> exact ⟨rfl, rfl⟩
  case sendingCompletion => exact hs ▸ ⟨rfl, rfl⟩

/-! ## §2 — turns -/

namespace Stage

/-- **`ByWorker s s'`** — the worker brings the service from one stage to the next. -/
inductive ByWorker : Stage → Stage → Prop
  | created : ByWorker .absent .resting
  | opened : ByWorker .resting .opened
  | announced : ByWorker .opened .idle
  | offered : ByWorker .idle .free
  | greeted : ByWorker .received .greeted
  | accepted : ByWorker .greeted .accepting
  | started : ByWorker .permitted .started
  | finished : ByWorker .started .finished
  | completed : ByWorker .finished .completing
  | settled : ByWorker .completed .resting

/-- **`ByCustomer s s'`** — the customer brings the service from one stage to the next. -/
inductive ByCustomer : Stage → Stage → Prop
  | claimed : ByCustomer .free .claimed
  | approached : ByCustomer .claimed .approached
  | bound : ByCustomer .approached .bound
  | asked : ByCustomer .accepted .asked
  | permitted : ByCustomer .asked .permitting

/-- From one stage to the other the next event of the service is announced, and nothing else can be
seen of it. -/
def Announces (s s' : Stage) : Prop :=
  s ≠ .absent ∧ s' ≠ .absent ∧ s'.announced = s.announced + 1 ∧ s'.phase = s.phase ∧
    s'.tokens = s.tokens ∧ s'.isTaken = s.isTaken

/-- From one stage to the other at most the slot looks different. -/
def Quiet (s s' : Stage) : Prop :=
  s ≠ .absent ∧ s' ≠ .absent ∧ s'.announced = s.announced ∧ s'.tokens = s.tokens ∧
    s'.isTaken = s.isTaken

instance (s s' : Stage) : Decidable (s.Announces s') := inferInstanceAs (Decidable (_ ∧ _))

instance (s s' : Stage) : Decidable (s.Quiet s') := inferInstanceAs (Decidable (_ ∧ _))

/-- A turn of the worker keeps the customer where it may be. -/
theorem ByWorker.dealing {s s' : Stage} (h : ByWorker s s') {d : Dealing} (hd : s ∈ d.stages) :
    s' ∈ d.stages := by
  cases h <;> cases d <;> simp_all [Dealing.stages]

/-- A turn of the customer keeps the worker where it may be. -/
theorem ByCustomer.working {s s' : Stage} (h : ByCustomer s s') {k : Working} (hk : k.Allows s) :
    k.Allows s' := by
  cases k with
  | serving n a position => cases h <;> cases position <;> simp_all [Working.Allows, Service.stages]
  | advertising n pos => cases h <;> cases pos <;> simp_all [Working.Allows, Stage.offered]
  | ended e => cases h <;> cases e <;> simp_all [Working.Allows, Stage.isLeft]
  | _ => cases h <;> simp_all [Working.Allows, Stage.offered]

/-- A turn of the worker engages nobody. -/
theorem ByWorker.engaged {s s' : Stage} (h : ByWorker s s') (hs : s'.isEngaged = true) :
    s.isEngaged = true := by
  cases h <;> simp_all [isEngaged]

/-- A token that is there tells the stage. -/
theorem eq_free_of_tokens {s : Stage} (h : 0 < s.tokens) : s = .free := by
  cases s <;> first | rfl | exact absurd h (by decide)

end Stage

/-! ## §3 — the book and the view of a desk -/

/-- **The book of a desk**: the customers whom the worker has served, the customer of the current
service, which person that is on the floor, and the stage of the service. Before somebody claims
the desk, `current` and `claimant` mean nothing. -/
structure Ledger where
  past : List Customer
  current : Customer
  claimant : Nat
  stage : Stage

/-- What can be seen of a desk: the phase of the slot, the customer bound to it and its count of
services, the token of the worker and its ceiling, and the events of the worker. -/
structure View where
  slot : Option (Phase × Option Nat × Nat)
  token : Option (Nat × Nat)
  events : List Event

/-- The view of a desk in the office. -/
def Premises.view (p : Premises) (w : Nat) : View where
  slot := (p.slots[w]?).map fun s => (s.phase, s.customer, s.served)
  token := (p.pool.slots[w]?).map fun s => (s.permits, s.ceiling)
  events := Trace.worker w p.events

namespace Ledger

/-- The book of a desk at which nobody has worked. -/
def blank : Ledger := ⟨[], ⟨0, .buyStamps⟩, 0, .absent⟩

/-- Nothing is in the book. -/
def Fresh (l : Ledger) : Prop := l.stage = .absent ∧ l.past = []

/-- The book at another stage of the same service. -/
def turn (l : Ledger) (s : Stage) : Ledger := { l with stage := s }

/-- The book once a customer has claimed the desk. -/
def claim (l : Ledger) (c : Customer) (i : Nat) : Ledger := ⟨l.past, c, i, .claimed⟩

/-- The book once the completed service is booked. -/
def settle (l : Ledger) : Ledger := ⟨l.past ++ [l.current], l.current, l.claimant, .resting⟩

/-- The customer who is bound to the slot. -/
def bound (l : Ledger) : Option Nat := if l.stage.phase.hasCustomer then some l.current.id else none

/-- The events of the desk of worker `w`: the services of the past, and the current one as far as
it was announced. -/
def events (l : Ledger) (w : Nat) : List Event :=
  if l.stage = .absent then []
  else Trace.shift w l.past ++ (Trace.service w l.current).take l.stage.announced

/-- The customers whom the worker has served or is serving. -/
def present (l : Ledger) : List Customer :=
  if l.stage.isTaken then l.past ++ [l.current] else l.past

/-- The view of the desk of worker `w` that the book tells of. -/
def view (l : Ledger) (w : Nat) : View where
  slot := some (l.stage.phase, l.bound, l.past.length)
  token := some (l.stage.tokens, 1)
  events := l.events w

end Ledger

/-! What a section of the office does to the views. -/

namespace Premises

variable {p : Premises} {w v : Nat}

/-- An announcement appears in the views of the desk that it concerns. -/
theorem view_record (p : Premises) (e : Event) (w : Nat) :
    (p.record e).view w =
      { p.view w with events := (p.view w).events ++ if e.worker? = some w then [e] else [] } := by
  have hevents : Trace.worker w (p.record e).events =
      Trace.worker w p.events ++ if e.worker? = some w then [e] else [] := by
    rw [events_record, Trace.worker, List.filter_append]
    congr 1
    by_cases he : e.worker? = some w <;> simp [List.filter, he]
  show (⟨_, _, _⟩ : View) = _
  rw [hevents]
  rfl

theorem view_record_of_ne {e : Event} (he : e.worker? ≠ some w) :
    (p.record e).view w = p.view w := by
  rw [view_record, if_neg he, List.append_nil]

/-- What concerns no desk appears in no view. -/
theorem view_record_of_none {e : Event} (he : e.worker? = none) (w : Nat) :
    (p.record e).view w = p.view w := by
  rw [view_record, he, if_neg (Option.some_ne_none w).symm, List.append_nil]

theorem view_record_self {e : Event} (he : e.worker? = some w) :
    (p.record e).view w = { p.view w with events := (p.view w).events ++ [e] } := by
  rw [view_record, if_pos he]

theorem view_setSlot_of_ne (s : Slot) (h : v ≠ w) : (p.setSlot w s).view v = p.view v := by
  simp only [view, setSlot, List.getElem?_set_ne h.symm]
  rfl

theorem view_setSlot_self (s : Slot) (hw : w < p.slots.length) :
    (p.setSlot w s).view w = { p.view w with slot := some (s.phase, s.customer, s.served) } := by
  simp only [view, setSlot, List.getElem?_set_self hw, Option.map_some]
  rfl

theorem view_setToken_of_ne (s : Semaphore) (h : v ≠ w) :
    ({ p with pool := p.pool.setSlot w s } : Premises).view v = p.view v := by
  simp only [view, Pool.setSlot, List.getElem?_set_ne h.symm]
  rfl

theorem view_setToken_self (s : Semaphore) (hw : w < p.pool.size) :
    ({ p with pool := p.pool.setSlot w s } : Premises).view w =
      { p.view w with token := some (s.permits, s.ceiling) } := by
  simp only [view, Pool.setSlot, List.getElem?_set_self (show w < p.pool.slots.length from hw),
    Option.map_some]
  rfl

/-- The slot of a desk as its view shows it. -/
theorem slot_of_view {l : Ledger} {s : Slot} (hview : p.view w = l.view w)
    (hs : p.slots[w]? = some s) :
    s.phase = l.stage.phase ∧ s.customer = l.bound ∧ s.served = l.past.length := by
  have hslot := congrArg View.slot hview
  simp only [view, Ledger.view, hs, Option.map_some, Option.some.injEq, Prod.mk.injEq] at hslot
  exact hslot

/-- A slot is bound to the same customer at every stage of one binding. -/
theorem customer_of_view {l : Ledger} {slot : Slot} (hview : p.view w = l.view w)
    (hslot : p.slots[w]? = some slot) {s s' : Stage} (hstage : l.stage = s)
    (hphase : s'.phase.hasCustomer = s.phase.hasCustomer) : slot.customer = (l.turn s').bound := by
  rw [(slot_of_view hview hslot).2.1, Ledger.bound, Ledger.bound, hstage,
    show (l.turn s').stage = s' from rfl, hphase]
  rfl

/-- The token of a desk as its view shows it. -/
theorem token_of_view {l : Ledger} {s : Semaphore} (hview : p.view w = l.view w)
    (hs : p.pool.slots[w]? = some s) : s.permits = l.stage.tokens ∧ s.ceiling = 1 := by
  have htoken := congrArg View.token hview
  simp only [view, Ledger.view, hs, Option.map_some, Option.some.injEq, Prod.mk.injEq] at htoken
  exact htoken

end Premises

/-! What the book tells after a turn. -/

namespace Ledger

variable {l : Ledger} {w : Nat} {s : Stage} {e : Event}

/-- A turn that announces the next event of the service. -/
theorem view_turn_announced (hturn : l.stage.Announces s)
    (he : (Trace.service w l.current)[l.stage.announced]? = some e) :
    (l.turn s).view w = { l.view w with events := (l.view w).events ++ [e] } := by
  obtain ⟨hl, hs, hcount, hphase, htokens, -⟩ := hturn
  have hevents : (l.turn s).events w = l.events w ++ [e] := by
    rw [events, events, if_neg hl, if_neg (by exact hs)]
    show _ ++ List.take s.announced _ = _
    rw [hcount, List.take_add_one, List.append_assoc]
    show _ ++ (_ ++ (Trace.service w l.current)[l.stage.announced]?.toList) = _
    rw [he]
    rfl
  show (⟨some (s.phase, (l.turn s).bound, l.past.length), some (s.tokens, 1), _⟩ : View) = _
  rw [hevents, hphase, htokens, show (l.turn s).bound = l.bound by
    rw [bound, bound, turn, hphase]]
  rfl

/-- A turn that announces nothing. -/
theorem view_turn_silent (hl : l.stage ≠ .absent) (hs : s ≠ .absent)
    (hcount : s.announced = l.stage.announced) :
    (l.turn s).view w =
      ⟨some (s.phase, (l.turn s).bound, l.past.length), some (s.tokens, 1), (l.view w).events⟩ := by
  have hevents : (l.turn s).events w = l.events w := by
    rw [events, events, if_neg hl, if_neg (by exact hs)]
    show _ ++ List.take s.announced _ = _
    rw [hcount]
    rfl
  show (⟨_, _, (l.turn s).events w⟩ : View) = _
  rw [hevents]
  rfl

end Ledger

/-! ## §4 — sections of the office in the book -/

namespace Premises

variable {p p' : Premises} {w : Nat} {l : Ledger} {e : Event} {st : Stage}

/-- **`p.AlikeBut w p'`** — all desks but that of worker `w` look the same. -/
structure AlikeBut (w : Nat) (p p' : Premises) : Prop where
  slots : p'.slots.length = p.slots.length
  pool : p'.pool.size = p.pool.size
  views : ∀ v, v ≠ w → p'.view v = p.view v

/-- An announcement shows only at the desk that it concerns. -/
theorem alikeBut_record (he : e.worker? = some w) : p.AlikeBut w (p.record e) :=
  ⟨rfl, rfl, fun _ hv => view_record_of_ne fun h => hv (Option.some.inj (h.symm.trans he))⟩

theorem alikeBut_setSlot (s : Slot) : p.AlikeBut w (p.setSlot w s) :=
  ⟨List.length_set, rfl, fun _ hv => view_setSlot_of_ne s hv⟩

theorem alikeBut_setToken (s : Semaphore) :
    p.AlikeBut w { p with pool := p.pool.setSlot w s } :=
  ⟨rfl, Pool.size_setSlot _ _ _, fun _ hv => view_setToken_of_ne s hv⟩

/-- The next announcement of a service turns the book over. -/
theorem view_announce (hview : p.view w = l.view w) (hturn : l.stage.Announces st)
    (hw : e.worker? = some w)
    (he : (Trace.service w l.current)[l.stage.announced]? = some e) :
    (p.record e).view w = (l.turn st).view w := by
  rw [view_record_self hw, hview, Ledger.view_turn_announced hturn he]

/-- A section of the slot turns the book over without an announcement. -/
theorem view_section (hview : p.view w = l.view w) (hturn : l.stage.Quiet st) {s s' : Slot}
    (hs : p.slots[w]? = some s) (hphase : s'.phase = st.phase)
    (hcustomer : s'.customer = (l.turn st).bound) (hserved : s'.served = s.served) :
    (p.setSlot w s').view w = (l.turn st).view w := by
  obtain ⟨hl, hst, hcount, htokens, -⟩ := hturn
  rw [view_setSlot_self s' (List.getElem?_eq_some_iff.1 hs).1, hview,
    Ledger.view_turn_silent hl hst hcount, hphase, hcustomer, hserved, htokens,
    (slot_of_view hview hs).2.2]
  rfl

/-- A section of the token turns the book over without an announcement. -/
theorem view_token (hview : p.view w = l.view w) {s s' : Semaphore}
    (hs : p.pool.slots[w]? = some s) (hl : l.stage ≠ .absent) (hst : st ≠ .absent)
    (hcount : st.announced = l.stage.announced) (hphase : st.phase = l.stage.phase)
    (htokens : s'.permits = st.tokens) (hceiling : s'.ceiling = s.ceiling) :
    ({ p with pool := p.pool.setSlot w s' } : Premises).view w = (l.turn st).view w := by
  rw [view_setToken_self s' (List.getElem?_eq_some_iff.1 hs).1, hview,
    Ledger.view_turn_silent hl hst hcount, hphase, htokens, hceiling, (token_of_view hview hs).2,
    show (l.turn st).bound = l.bound by rw [Ledger.bound, Ledger.bound, Ledger.turn, hphase]]
  rfl

/-- A worker that comes opens its book. -/
theorem view_created (hview : p.view w = l.view w) (hfresh : l.Fresh) :
    (p.record (.workerCreated w)).view w = (l.turn .resting).view w := by
  obtain ⟨hstage, hpast⟩ := hfresh
  rw [view_record_self rfl, hview]
  simp [Ledger.view, Ledger.events, Ledger.turn, Ledger.bound, hstage, hpast, Trace.shift,
    Stage.phase, Stage.announced, Stage.tokens, Phase.hasCustomer]

/-- The completed service goes into the past of the book. -/
theorem view_settle (hview : p.view w = l.view w) {s : Slot} (hs : p.slots[w]? = some s)
    (hl : l.stage = .completed) : (p.setSlot w s.settle).view w = l.settle.view w := by
  rw [view_setSlot_self _ (List.getElem?_eq_some_iff.1 hs).1, hview]
  simp only [Ledger.view, Ledger.settle, Ledger.events, Ledger.bound, hl, Slot.settle,
    (slot_of_view hview hs).2.2, Stage.phase, Stage.announced, Stage.tokens, Phase.hasCustomer,
    Trace.shift, List.length_append, List.flatMap_append]
  simp [Trace.service]

/-- A customer that takes the token of a desk has its claim in the book. -/
theorem view_claim (hview : p.view w = l.view w) {s s' : Semaphore}
    (hs : p.pool.slots[w]? = some s) (hl : l.stage = .free) (hpermits : s'.permits = 0)
    (hceiling : s'.ceiling = s.ceiling) (c : Customer) (i : Nat) :
    ({ p with pool := p.pool.setSlot w s' } : Premises).view w = (l.claim c i).view w := by
  rw [view_setToken_self s' (List.getElem?_eq_some_iff.1 hs).1, hview, hpermits, hceiling,
    (token_of_view hview hs).2]
  simp [Ledger.view, Ledger.claim, Ledger.events, Ledger.bound, hl, Stage.phase, Stage.announced,
    Stage.tokens, Phase.hasCustomer, Trace.service]

/-- A change of a token that keeps its permits shows nowhere. -/
theorem view_setToken_same {s s' : Semaphore} (hs : p.pool.slots[w]? = some s)
    (hpermits : s'.permits = s.permits) (hceiling : s'.ceiling = s.ceiling) (v : Nat) :
    ({ p with pool := p.pool.setSlot w s' } : Premises).view v = p.view v := by
  by_cases hv : v = w
  · subst hv
    rw [view_setToken_self s' (List.getElem?_eq_some_iff.1 hs).1, hpermits, hceiling]
    simp only [view, hs, Option.map_some]
  · exact view_setToken_of_ne s' hv

end Premises

end Postal

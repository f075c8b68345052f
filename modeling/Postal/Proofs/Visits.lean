import Postal.Proofs.Booking

/-!
# How far a visit has come.

Of everything that concerns a customer, some is announced by the customer, some by the worker that
serves it, and the last word is the driver's. Whoever it is, the announcements that concern one
customer are the first ones of a fixed list (`Trace.visit`): nobody announces anything before the
other side is through with what comes before. At every position of a customer the log holds a
certain number of them, or one of a few while the worker has its turn (`Dealing.marks`); and a
worker that serves the customer knows that number, too (`Service.marks`). Both sides together are
the invariant of the floor (`Floor.Traced`).

## §1 — the events of a visit.
## §2 — single steps.
## §3 — the invariant, and steps of a customer and of a worker.
## §4 — the other moves.
-/

namespace Postal

/-! ## §1 — the events of a visit -/

namespace Trace

/-- The events of the visit of a customer, until the driver has joined it. -/
def visit (worker : Nat) (c : Customer) : List Event := [
  .customerCreated c.id,
  .customerAdmitted c.id,
  .customerClaimsWorker c.id worker,
  .workerAnnouncesIntent worker c.id,
  .customerAnnouncesIntent c.id worker c.task,
  .taskStarted worker c.id c.task,
  .taskFinished worker c.id c.task,
  .customerFinished c.id c.task,
  .customerDeparts c.id,
  .customerJoined c.id]

theorem customer_append (id : Nat) (es es' : List Event) :
    customer id (es ++ es') = customer id es ++ customer id es' := List.filter_append es es'

/-- An announcement is one more event of the customer whom it concerns, and of nobody else. -/
theorem customer_toList (id : Nat) {e : Option Event}
    (h : ∀ e', e = some e' → e'.customer? = some id) :
    customer id e.toList = e.toList := by
  cases e with
  | none => rfl
  | some e => exact List.filter_cons_of_pos (by simpa using h e rfl)

theorem customer_toList_of_ne {id : Nat} {e : Option Event}
    (h : ∀ e', e = some e' → e'.customer? ≠ some id) : customer id e.toList = [] := by
  cases e with
  | none => rfl
  | some e => exact List.filter_cons_of_neg (by simpa using h e rfl)

/-- One more event of a visit. -/
theorem visit_take_succ {w n : Nat} {c : Customer} {e : Event} (h : (visit w c)[n]? = some e) :
    (visit w c).take (n + 1) = (visit w c).take n ++ [e] := by
  rw [List.take_add_one, h, Option.toList_some]

end Trace

/-- How many events of its visit can be announced while a customer is at a position at the slot. -/
def Dealing.marks : Dealing → List Nat
  | .announcingClaim => [2]
  | .publishing | .offering | .handing => [3]
  | .awaitingAcknowledge => [3, 4]
  | .announcingIntent => [4]
  | .proceeding | .sendingProceed => [5]
  | .awaitingCompletion => [5, 6, 7]
  | .announcingFinish => [7]
  | .announcingDeparture => [8]
  | .departing => [9]

/-- How many events of the visit of its customer can be announced while a worker is at a position of
a service; nothing is said once the completion was taken. -/
def Service.marks : Service → List Nat
  | .announcingIntent => [3]
  | .acknowledging | .sendingAcknowledge => [4]
  | .awaitingProceed => [4, 5]
  | .checkingProceed | .weighing _ | .announcingStart => [5]
  | .busy _ | .releasing _ | .announcingFinish => [6]
  | .completing | .sendingCompletion => [7]
  | .settling => []

/-- How many events of the visit of its customer can be announced while a worker is at a
position. -/
def Working.marks : Working → List Nat
  | .checkingReceived _ _ => [3]
  | .serving _ _ position => position.marks
  | _ => []

/-- The customer whom a worker serves, until the completion is taken. -/
def Working.client? : Working → Option Nat
  | .checkingReceived _ a => some a.customer
  | .serving _ _ .settling => none
  | .serving _ a _ => some a.customer
  | _ => none

/-- **`v.Reaches w n`** — a visit, with worker `w` if it has come to one, of which `n` events are
announced. Of a visit that has broken off nothing is said. -/
def Visiting.Reaches (w n : Nat) : Visiting → Prop
  | .announcingCreation => n = 0
  | .entering _ | .admitted _ | .announcingAdmission _ => n = 1
  | .claiming _ _ => n = 2
  | .dealing _ v d => v = w ∧ n ∈ d.marks
  | .leaving _ (.returned visit) => visit.worker = w ∧ n = 9
  | .ended (.returned visit) => visit.worker = w ∧ (n = 9 ∨ n = 10)
  | .leaving _ _ | .ended _ => True

/-! ## §2 — single steps -/

/-- What a customer announces concerns itself. -/
theorem Visiting.customer?_of_emits {c : Customer} {v : Visiting} {e : Event}
    (h : v.emits? c = some e) : e.customer? = some c.id := by
  cases v with
  | dealing stay w d =>
      cases d <;> first | (obtain rfl := Option.some.inj h; rfl) | cases h
  | _ => first | (obtain rfl := Option.some.inj h; rfl) | cases h

/-- What a worker announces concerns the customer whom it serves. -/
theorem Working.customer?_of_emits {w : Nat} {k : Working} {e : Event}
    (h : k.emits? w = some e) : e.customer? = k.client? := by
  cases k with
  | serving n a position =>
      cases position <;> first | (obtain rfl := Option.some.inj h; rfl) | cases h
  | _ => first | (obtain rfl := Option.some.inj h; rfl) | cases h

/-- **`v.Advances c w n v'`** — everything that a step of customer `c` can mean for its visit, of
which `n` events are announced: it stays where it is, it turns to a worker before any event names
one, or it announces the next event. -/
inductive Visiting.Advances (c : Customer) (w n : Nat) (v v' : Visiting) : Prop
  | rests (hnone : v.emits? c = none) (h : v'.Reaches w n)
  | turns {stay : Stay} {pos : Pool.Claiming} {w' : Nat} (hv : v = .claiming stay pos)
      (h : v'.Reaches w' n)
  | announces {e : Event} (he : v.emits? c = some e) (hnext : (Trace.visit w c)[n]? = some e)
      (h : v'.Reaches w (n + 1))

/-- **A step of a customer** advances its visit. -/
theorem Visiting.Steps.advances {c : Customer} {p p' : Premises} {v v' : Visiting} {w n : Nat}
    (h : v.Steps c p v' p') (hv : v.Reaches w n) : v.Advances c w n v' := by
  cases h with
  | announcesCreation =>
      obtain rfl := hv
      exact .announces rfl rfl rfl
  | @enters pos progress gate henter =>
      refine .rests rfl ?_
      rcases progress with pos' | ⟨e | ticket⟩
      · exact hv
      · trivial
      · exact hv
  | looksUp => exact .rests rfl hv
  | announcesAdmission =>
      obtain rfl := hv
      exact .announces rfl rfl rfl
  | @claims stay pos progress pool hclaim =>
      rcases progress with pos' | ⟨e | worker⟩
      · exact .rests rfl hv
      · exact .rests rfl trivial
      · simp only [Progress.within, afterSearch]
        split
        · exact .turns rfl ⟨rfl, List.mem_singleton.2 hv⟩
        · exact .rests rfl trivial
  | announcesClaim =>
      obtain ⟨rfl, hn⟩ := hv
      obtain rfl := List.mem_singleton.1 hn
      exact .announces rfl rfl ⟨rfl, List.mem_singleton.2 rfl⟩
  | binds hs hphase => exact .rests rfl hv
  | linesUp => exact .rests rfl hv
  | @interrupted stay v d hwaits hclosed =>
      refine .rests ?_ trivial
      cases d <;> first | rfl | exact hwaits.elim
  | announcesIntent =>
      obtain ⟨rfl, hn⟩ := hv
      obtain rfl := List.mem_singleton.1 hn
      exact .announces rfl rfl ⟨rfl, List.mem_singleton.2 rfl⟩
  | proceeds hs hphase => exact .rests rfl hv
  | announcesFinish =>
      obtain ⟨rfl, hn⟩ := hv
      obtain rfl := List.mem_singleton.1 hn
      exact .announces rfl rfl ⟨rfl, List.mem_singleton.2 rfl⟩
  | announcesDeparture =>
      obtain ⟨rfl, hn⟩ := hv
      obtain rfl := List.mem_singleton.1 hn
      exact .announces rfl rfl ⟨rfl, List.mem_singleton.2 rfl⟩
  | departs =>
      obtain ⟨rfl, hn⟩ := hv
      exact .rests rfl ⟨rfl, List.mem_singleton.1 hn⟩
  | @stepsOut ending => cases ending <;> exact .rests rfl hv
  | @leaves ending =>
      refine .rests rfl ?_
      cases ending with
      | returned visit => exact ⟨hv.1, .inl hv.2⟩
      | failed e => trivial
      | panicked => trivial
  | @breaks stay v d s needed hs hneeds hphase f =>
      refine .rests ?_ trivial
      cases d <;> first | rfl | cases hneeds

/-- **`k.Advances id k'`** — everything that a step of worker `id` can mean for the visit of the
customer whom it serves: the worker is through with it or never was with it, the visit stays where
it is, or the worker announces the next event. -/
inductive Working.Advances (id : Nat) (k k' : Working) : Prop
  | lets (hquiet : (k.emits? id).bind Event.customer? = none) (h : k'.client? = none)
  | rests (hnone : k.emits? id = none) (hclient : k'.client? = k.client?) (h : k'.marks = k.marks)
  | announces {a : Assignment} {e : Event} {n : Nat} (he : k.emits? id = some e)
      (ha : k.assignment? = some a)
      (hnext : ∀ c : Customer, a = c.assignment → (Trace.visit id c)[n]? = some e)
      (hclient : k'.client? = k.client?) (hmarks : k.marks = [n]) (h : n + 1 ∈ k'.marks)

/-- **A step of a worker** advances the visit of its customer. -/
theorem Working.Steps.advances {id : Nat} {p p' : Premises} {offered : Bool} {k k' : Working}
    (h : k.Steps id p offered k' p') : k.Advances id k' := by
  cases h with
  | @advertises m pos progress pool hoffer =>
      rcases progress with pos' | ⟨e | ⟨⟩⟩ <;> exact .lets rfl rfl
  | accepts hs hphase hcustomer => exact .rests rfl rfl rfl
  | announcesIntent =>
      exact .announces rfl rfl (fun c hc => by rw [hc]; rfl) rfl rfl (List.mem_singleton.2 rfl)
  | acknowledges hs hphase => exact .rests rfl rfl rfl
  | @interrupted m a position hwaits hclosed =>
      refine .lets ?_ rfl
      cases position <;> first | rfl | exact hwaits.elim
  | @starts m a s hs hphase => cases a.task.needsScale <;> exact .rests rfl rfl rfl
  | @weighs m a pos progress scale hacq =>
      rcases progress with pos' | ⟨e | ⟨⟩⟩
      · exact .rests rfl rfl rfl
      · cases e <;> exact .lets rfl rfl
      · exact .rests rfl rfl rfl
  | announcesStart =>
      exact .announces rfl rfl (fun c hc => by rw [hc]; rfl) rfl rfl (List.mem_singleton.2 rfl)
  | @works m deadline a => cases a.task.needsScale <;> exact .rests rfl rfl rfl
  | @drops m a pos => cases pos <;> exact .rests rfl rfl rfl
  | announcesFinish =>
      exact .announces rfl rfl (fun c hc => by rw [hc]; rfl) rfl rfl (List.mem_singleton.2 rfl)
  | completes hs hphase => exact .rests rfl rfl rfl
  | @unwinds pos => cases pos <;> exact .lets rfl rfl
  | @breaks k s needed hs hneeds hphase f =>
      refine .lets ?_ rfl
      cases k with
      | serving m a position => cases position <;> first | rfl | cases hneeds
      | _ => rfl
  | _ => exact .lets rfl rfl

/-! What the stage of a service says of the two sides. -/

/-- Whoever serves a customer is engaged. -/
theorem Working.engaged_of_client {k : Working} {s : Stage} (hk : k.Allows s)
    (hclient : k.client? ≠ none) : s.isEngaged = true := by
  cases k with
  | checkingReceived n a =>
      obtain rfl := hk
      rfl
  | serving n a position =>
      cases position with
      | settling => exact absurd rfl hclient
      | awaitingProceed =>
          simp only [Allows, Service.stages, List.mem_cons, List.not_mem_nil, or_false] at hk
          rcases hk with rfl | rfl | rfl <;> rfl
      | _ =>
          obtain rfl := List.mem_singleton.1 hk
          rfl
  | _ => exact absurd rfl hclient

/-- Nobody serves the customer yet who has just claimed a desk. -/
theorem Working.client?_of_claimed {k : Working} (hk : k.Allows .claimed) : k.client? = none := by
  cases k with
  | checkingReceived n a => cases hk
  | serving n a position => cases position <;> simp [Allows, Service.stages] at hk
  | _ => rfl

/-- A worker that has accepted its customer waits for the go-ahead. -/
theorem Working.marks_of_accepted {k : Working} (hk : k.Allows .accepted)
    (hclient : k.client? ≠ none) : 5 ∈ k.marks := by
  cases k with
  | checkingReceived n a => cases hk
  | serving n a position =>
      cases position <;> simp_all [Allows, Service.stages, marks, Service.marks]
  | _ => exact absurd rfl hclient

/-- A worker announces something of a service at three stages, in which the log holds what its
customer has seen of it. -/
theorem Working.stage_of_emits {k : Working} {s : Stage} {w n : Nat} {e : Event}
    (hk : k.Allows s) (hclient : k.client? ≠ none) (he : k.emits? w = some e)
    (hmarks : k.marks = [n]) : s ∈ [.received, .permitted, .started] ∧ n = s.announced + 1 := by
  cases k with
  | checkingReceived m a => cases he
  | serving m a position =>
      cases position with
      | announcingIntent | announcingStart | announcingFinish =>
          obtain rfl := List.mem_singleton.1 hk
          exact ⟨by decide, (List.singleton_inj.1 hmarks).symm⟩
      | _ => cases he
  | _ => exact absurd rfl hclient

/-- A customer who waits at one of these stages may wait on after the announcement. -/
theorem Dealing.marks_of_stage {d : Dealing} {s : Stage} (hd : s ∈ d.stages)
    (hs : s ∈ [Stage.received, .permitted, .started]) : s.announced + 2 ∈ d.marks := by
  simp only [List.mem_cons, List.not_mem_nil, or_false] at hs
  rcases hs with rfl | rfl | rfl <;> cases d <;> simp_all [stages, marks, Stage.announced]

/-- Of a visit that has broken off nothing is said. -/
theorem Visiting.Attends.reaches {v : Visiting} {w : Nat} (hv : v.Attends w)
    (hdeals : ∀ stay d, v ≠ .dealing stay w d) (u n : Nat) : v.Reaches u n := by
  have broken : ∀ ending : Ending Visit, ending.isReturned = false →
      (Visiting.ended ending).Reaches u n ∧
        ∀ pos, (Visiting.leaving pos ending).Reaches u n := by
    intro ending hno
    cases ending with
    | returned visit => cases hno
    | failed f => exact ⟨trivial, fun _ => trivial⟩
    | panicked => exact ⟨trivial, fun _ => trivial⟩
  cases v with
  | leaving pos ending => exact (broken ending hv).2 pos
  | ended ending => exact (broken ending hv).1
  | dealing stay v d =>
      obtain ⟨rfl, -⟩ := hv
      exact absurd rfl (hdeals stay d)
  | _ => exact hv.elim

/-! ## §3 — the invariant -/

namespace Floor

/-- **`f.Records c w n`** — the log holds the first `n` events of the visit of customer `c` with
worker `w`, and nobody else serves the customer, nor at any other point of its visit. -/
structure Records (f : Floor) (c : Customer) (w n : Nat) : Prop where
  events : Trace.customer c.id f.premises.events = (Trace.visit w c).take n
  worker : ∀ (j v : Nat) (k : Working), f.people[j]? = some (.worker v k) →
    k.client? = some c.id → v = w ∧ n ∈ k.marks

/-- **`f.Traced`** — the log holds of every customer as much of its visit as fits its position, and
nothing of anybody who has not come. -/
structure Traced (f : Floor) : Prop where
  visits : ∀ (i : Nat) (c : Customer) (v : Visiting), f.people[i]? = some (.customer c v) →
    ∃ w n, v.Reaches w n ∧ f.Records c w n
  strangers : ∀ id, id ∉ f.badges.filterMap Badge.customerId? →
    Trace.customer id f.premises.events = []

/-- An office that has just opened has seen nobody. -/
theorem traced_opening (o : Office) (clock : Nat) : (opening o clock).Traced where
  visits i c v hi := by simp [opening] at hi
  strangers id _ := rfl

/-- Whoever is there has its id among the customers. -/
theorem mem_customerIds {f : Floor} {i : Nat} {c : Customer} {v : Visiting}
    (hi : f.people[i]? = some (.customer c v)) : c.id ∈ f.badges.filterMap Badge.customerId? :=
  List.mem_filterMap.2 ⟨_, List.mem_of_getElem? (badge_of_getElem? hi), rfl⟩

section Records

variable {f f' : Floor} {c : Customer} {w n : Nat}

/-- **Nothing happens to a customer.** Nothing is announced that concerns it, and whoever serves it
stays at the same point of its visit. -/
theorem Records.still (h : f.Records c w n)
    (hevents : Trace.customer c.id f'.premises.events = Trace.customer c.id f.premises.events)
    (hworker : ∀ (j v : Nat) (k' : Working), f'.people[j]? = some (.worker v k') →
      k'.client? = some c.id → ∃ k, f.people[j]? = some (.worker v k) ∧ k.client? = some c.id ∧
        k'.marks = k.marks) : f'.Records c w n where
  events := hevents.trans h.events
  worker j v k' hj hclient := by
    obtain ⟨k, hk, hclient, hmarks⟩ := hworker j v k' hj hclient
    rw [hmarks]
    exact h.worker j v k hk hclient

end Records

section Kept

variable {workers : Nat} {f : Floor} {ledgers : Nat → Ledger}

/-- **Whom a worker serves**: somebody who attends to the desk, and whose assignment the worker has
in hand. -/
theorem Kept.exists_client (h : f.Kept workers ledgers) {j w id : Nat} {k : Working}
    (hj : f.people[j]? = some (.worker w k)) (hclient : k.client? = some id) :
    ∃ (i : Nat) (c : Customer) (v : Visiting), f.people[i]? = some (.customer c v) ∧ c.id = id ∧
      v.Attends w ∧ k.assignment? = some c.assignment := by
  obtain ⟨hw, hk⟩ := h.worker_fits hj
  have hengaged := Working.engaged_of_client hk.stage (by rw [hclient]; nofun)
  obtain ⟨v, hv, hattends⟩ := h.attended w hw hengaged
  have hand : ∃ a, k.assignment? = some a ∧ a.customer = id := by
    cases k with
    | checkingReceived n a => exact ⟨a, rfl, Option.some.inj hclient⟩
    | serving n a position =>
        cases position <;> first | exact ⟨a, rfl, Option.some.inj hclient⟩ | cases hclient
    | _ => cases hclient
  -- the assignment in hand is that of the customer on record
  obtain ⟨a, ha, rfl⟩ := hand
  obtain rfl := hk.assignment a ha
  exact ⟨_, _, v, hv, rfl, hattends, ha⟩

/-- Nobody else is served in the place of a customer. -/
theorem Kept.client (h : f.Kept workers ledgers)
    (hids : (f.badges.filterMap Badge.customerId?).Nodup) {i j w : Nat} {c : Customer}
    {v : Visiting} {k : Working} (hi : f.people[i]? = some (.customer c v))
    (hj : f.people[j]? = some (.worker w k)) (hclient : k.client? = some c.id) :
    v.Attends w ∧ k.Allows (ledgers w).stage ∧ k.assignment? = some c.assignment := by
  obtain ⟨i', c', v', hi', hid, hattends, ha⟩ := h.exists_client hj hclient
  obtain rfl := customer_unique hids hi hi' hid
  obtain ⟨rfl, rfl⟩ := Person.customer.inj (Option.some.inj (hi.symm.trans hi'))
  exact ⟨hattends, (h.worker_fits hj).2.stage, ha⟩

/-- Nobody serves a customer who attends to no desk. -/
theorem Kept.unserved (h : f.Kept workers ledgers)
    (hids : (f.badges.filterMap Badge.customerId?).Nodup) {i j w : Nat} {c : Customer}
    {v : Visiting} {k : Working} (hi : f.people[i]? = some (.customer c v))
    (hj : f.people[j]? = some (.worker w k)) (hv : ∀ u, ¬ v.Attends u) : k.client? ≠ some c.id :=
  fun hclient => hv w (h.client hids hi hj hclient).1

/-- **The worker of a customer** who announces something of its own waits for that. -/
theorem Kept.client_waits (h : f.Kept workers ledgers)
    (hids : (f.badges.filterMap Badge.customerId?).Nodup) {i j w u n : Nat} {c : Customer}
    {v : Visiting} {k : Working} {e : Event} (hi : f.people[i]? = some (.customer c v))
    (hj : f.people[j]? = some (.worker w k)) (hclient : k.client? = some c.id)
    (he : v.emits? c = some e) (hv : v.Reaches u n) : n + 1 ∈ k.marks := by
  obtain ⟨hattends, hk, -⟩ := h.client hids hi hj hclient
  have hsome : k.client? ≠ none := by rw [hclient]; nofun
  cases v with
  | dealing stay w' d =>
      obtain ⟨rfl, hd⟩ := hattends
      obtain ⟨-, -, -, hstage⟩ := h.dealing_fits hi hd
      cases d with
      | announcingClaim =>
          rw [List.mem_singleton.1 hstage] at hk
          exact absurd (Working.client?_of_claimed hk) hsome
      | announcingIntent =>
          rw [List.mem_singleton.1 hstage] at hk
          obtain rfl := List.mem_singleton.1 hv.2
          exact Working.marks_of_accepted hk hsome
      | announcingFinish | announcingDeparture => cases hd
      | _ => cases he
  | leaving pos ending => cases he
  | ended ending => cases he
  | _ => exact hattends.elim

/-- **The customer of a worker** that announces something waits for that. -/
theorem Kept.client_reaches (h : f.Kept workers ledgers)
    (hids : (f.badges.filterMap Badge.customerId?).Nodup) {i j w n : Nat} {c : Customer}
    {v : Visiting} {k : Working} {e : Event} (hi : f.people[i]? = some (.customer c v))
    (hj : f.people[j]? = some (.worker w k)) (hclient : k.client? = some c.id)
    (he : k.emits? w = some e) (hmarks : k.marks = [n]) : v.Reaches w (n + 1) := by
  obtain ⟨hattends, hk, -⟩ := h.client hids hi hj hclient
  by_cases hdeals : ∃ stay d, v = .dealing stay w d
  · obtain ⟨stay, d, rfl⟩ := hdeals
    obtain ⟨-, -, -, hstage⟩ := h.dealing_fits hi hattends.2
    obtain ⟨hmem, rfl⟩ := Working.stage_of_emits hk (by rw [hclient]; nofun) he hmarks
    exact ⟨rfl, Dealing.marks_of_stage hstage hmem⟩
  · exact hattends.reaches (fun stay d heq => hdeals ⟨stay, d, heq⟩) w (n + 1)

/-- **A step of a customer** keeps the log in order. -/
theorem Traced.customer_step (h : f.Traced) (hkept : f.Kept workers ledgers)
    (hids : (f.badges.filterMap Badge.customerId?).Nodup) {i : Nat} {c : Customer}
    {v v' : Visiting} {p' : Premises} (hi : f.people[i]? = some (.customer c v))
    (hv : v.Steps c f.premises v' p') : Traced ⟨p', f.people.set i (.customer c v')⟩ := by
  have hworkers : ∀ (j w : Nat) (k : Working),
      (f.people.set i (.customer c v'))[j]? = some (.worker w k) →
        f.people[j]? = some (.worker w k) := by
    intro j w k hj
    rcases getElem?_set_cases hj with ⟨-, heq⟩ | ⟨-, hj'⟩
    · cases heq
    · exact hj'
  have hself : ∀ e, v.emits? c = some e → e.customer? = some c.id :=
    fun e he => Visiting.customer?_of_emits he
  -- what does not concern the customer is as it was
  have hother : ∀ id, id ≠ c.id →
      Trace.customer id p'.events = Trace.customer id f.premises.events := by
    intro id hid
    rw [hv.events_eq, Trace.customer_append, Trace.customer_toList_of_ne, List.append_nil]
    intro e he hcustomer
    exact hid (Option.some.inj (hcustomer.symm.trans (hself e he)))
  have hown : Trace.customer c.id p'.events =
      Trace.customer c.id f.premises.events ++ (v.emits? c).toList := by
    rw [hv.events_eq, Trace.customer_append, Trace.customer_toList _ hself]
  refine ⟨fun j c' u hj => ?_, fun id hid => ?_⟩
  · rcases getElem?_set_cases hj with ⟨rfl, heq⟩ | ⟨hji, hj'⟩
    · obtain ⟨rfl, rfl⟩ := Person.customer.inj heq
      obtain ⟨w, n, hreaches, hrecords⟩ := h.visits _ _ _ hi
      have hevents := hrecords.events
      cases hv.advances hreaches with
      | rests hnone hreaches' =>
          refine ⟨w, n, hreaches', hrecords.still ?_ fun j w k hj hclient =>
            ⟨k, hworkers j w k hj, hclient, rfl⟩⟩
          rw [hown, hnone, Option.toList_none, List.append_nil]
      | @turns stay pos w' hclaiming hreaches' =>
          -- the log names no worker yet, and nobody serves the customer
          subst hclaiming
          obtain rfl := hreaches
          refine ⟨w', 2, hreaches', ?_, fun j w k hj hclient => ?_⟩
          · rw [hown, hevents]
            rfl
          · exact absurd hclient (hkept.unserved hids hi (hworkers j w k hj) fun _ => id)
      | @announces e he hnext hreaches' =>
          refine ⟨w, n + 1, hreaches', ?_, fun j v k hj hclient => ?_⟩
          · rw [hown, hevents, he, Trace.visit_take_succ hnext, Option.toList_some]
          · have hj' := hworkers j v k hj
            exact ⟨(hrecords.worker j v k hj' hclient).1,
              hkept.client_waits hids hi hj' hclient he hreaches⟩
    · have hne : c'.id ≠ c.id := fun hid => hji (customer_unique hids hj' hi hid.symm)
      obtain ⟨w, n, hreaches, hrecords⟩ := h.visits _ _ _ hj'
      exact ⟨w, n, hreaches, hrecords.still (hother _ hne) fun j w k hj hclient =>
        ⟨k, hworkers j w k hj, hclient, rfl⟩⟩
  · rw [show badges ⟨p', f.people.set i (.customer c v')⟩ = f.badges from map_set_of_eq hi rfl]
      at hid
    rw [hother id, h.strangers id hid]
    rintro rfl
    exact hid (mem_customerIds hi)

/-- **A worker moves on**, and the visit of a customer with it, if it is the one that serves the
customer. -/
theorem Records.worker_moves {c : Customer} {u n m i w : Nat} {k k' : Working} {p' : Premises}
    (h : f.Records c u n) (hkept : f.Kept workers ledgers)
    (hi : f.people[i]? = some (.worker w k))
    (hevents : Trace.customer c.id p'.events = (Trace.visit u c).take m)
    (hself : k'.client? = some c.id → w = u ∧ m ∈ k'.marks) (hothers : m = n ∨ w = u) :
    Records ⟨p', f.people.set i (.worker w k')⟩ c u m := by
  refine ⟨hevents, fun j v l hj hclient => ?_⟩
  rcases getElem?_set_cases hj with ⟨rfl, heq⟩ | ⟨hji, hj'⟩
  · obtain ⟨rfl, rfl⟩ := Person.worker.inj heq
    exact hself hclient
  · obtain ⟨rfl, hn⟩ := h.worker j v l hj' hclient
    rcases hothers with rfl | rfl
    · exact ⟨rfl, hn⟩
    · exact absurd (hkept.worker_unique hj' hi) hji

/-- **A step of a worker** keeps the log in order. -/
theorem Traced.worker_step (h : f.Traced) (hkept : f.Kept workers ledgers)
    (hids : (f.badges.filterMap Badge.customerId?).Nodup) {i w : Nat} {k k' : Working}
    {offered : Bool} {p' : Premises} (hi : f.people[i]? = some (.worker w k))
    (hk : k.Steps w f.premises offered k' p') :
    Traced ⟨p', f.people.set i (.worker w k')⟩ := by
  -- what does not concern the customer of the worker is as it was
  have hother : ∀ id, (∀ e, k.emits? w = some e → e.customer? ≠ some id) →
      Trace.customer id p'.events = Trace.customer id f.premises.events := by
    intro id hid
    rw [hk.events_eq, Trace.customer_append, Trace.customer_toList_of_ne hid, List.append_nil]
  refine ⟨fun j c v hj => ?_, fun id hid => ?_⟩
  · have hj' : f.people[j]? = some (.customer c v) := by
      rcases getElem?_set_cases hj with ⟨-, heq⟩ | ⟨-, hj'⟩
      · cases heq
      · exact hj'
    obtain ⟨u, n, hreaches, hrecords⟩ := h.visits _ _ _ hj'
    have hevents := hrecords.events
    cases hk.advances with
    | lets hquiet hnone =>
        refine ⟨u, n, hreaches, hrecords.worker_moves hkept hi ((hother _ ?_).trans hevents)
          (fun hclient => ?_) (.inl rfl)⟩
        · intro e he hcustomer
          rw [he, Option.bind_some, hcustomer] at hquiet
          cases hquiet
        · cases hnone.symm.trans hclient
    | rests hnone hclient' hmarks =>
        refine ⟨u, n, hreaches, hrecords.worker_moves hkept hi ((hother _ ?_).trans hevents)
          (fun hclient => ?_) (.inl rfl)⟩
        · intro e he
          cases hnone.symm.trans he
        · rw [hmarks]
          exact hrecords.worker i w k hi (hclient'.symm.trans hclient)
    | @announces a e m he ha hnext hclient' hmarks hm =>
        by_cases hclient : k.client? = some c.id
        · obtain ⟨hattends, hallows, hassignment⟩ := hkept.client hids hj' hi hclient
          obtain ⟨rfl, hn⟩ := hrecords.worker i w k hi hclient
          rw [hmarks] at hn
          obtain rfl := List.mem_singleton.1 hn
          obtain rfl := Option.some.inj (ha.symm.trans hassignment)
          refine ⟨w, n + 1, hkept.client_reaches hids hj' hi hclient he hmarks,
            hrecords.worker_moves hkept hi ?_ (fun _ => ⟨rfl, hm⟩) (.inr rfl)⟩
          rw [hk.events_eq, Trace.customer_append, Trace.customer_toList, hevents, he,
            Trace.visit_take_succ (hnext c rfl), Option.toList_some]
          intro e' he'
          rw [Working.customer?_of_emits he', hclient]
        · refine ⟨u, n, hreaches, hrecords.worker_moves hkept hi ((hother _ ?_).trans hevents)
            (fun hclient'' => absurd (hclient'.symm.trans hclient'') hclient) (.inl rfl)⟩
          intro e' he'
          rwa [Working.customer?_of_emits he']
  · rw [show badges ⟨p', f.people.set i (.worker w k')⟩ = f.badges from map_set_of_eq hi rfl]
      at hid
    rw [hother id, h.strangers id hid]
    intro e he hcustomer
    rw [Working.customer?_of_emits he] at hcustomer
    obtain ⟨j, c, v, hj, rfl, -⟩ := hkept.exists_client hi hcustomer
    exact hid (mem_customerIds hj)

end Kept

/-! ## §4 — the other moves -/

/-- **Nothing is announced**, and everybody stays at the same point of its visit, or breaks it
off. -/
theorem Traced.quiet {f f' : Floor} (h : f.Traced)
    (hevents : f'.premises.events = f.premises.events)
    (hids : ∀ id ∈ f.badges.filterMap Badge.customerId?,
      id ∈ f'.badges.filterMap Badge.customerId?)
    (hcustomer : ∀ (i : Nat) (c : Customer) (v' : Visiting),
      f'.people[i]? = some (.customer c v') →
        ∃ v, f.people[i]? = some (.customer c v) ∧ ∀ w n, v.Reaches w n → v'.Reaches w n)
    (hworker : ∀ (i w : Nat) (k' : Working), f'.people[i]? = some (.worker w k') →
      k'.client? = none ∨ ∃ k, f.people[i]? = some (.worker w k) ∧ k'.client? = k.client? ∧
        k'.marks = k.marks) : f'.Traced := by
  refine ⟨fun i c v' hi => ?_, fun id hid => ?_⟩
  · obtain ⟨v, hv, hreaches⟩ := hcustomer i c v' hi
    obtain ⟨w, n, hn, hrecords⟩ := h.visits i c v hv
    refine ⟨w, n, hreaches w n hn, hrecords.still (by rw [hevents]) fun j u k' hj hclient => ?_⟩
    rcases hworker j u k' hj with hnone | ⟨k, hk, hsame, hmarks⟩
    · cases hnone.symm.trans hclient
    · exact ⟨k, hk, hsame.symm.trans hclient, hmarks⟩
  · rw [hevents]
    exact h.strangers id fun hmem => hid (hids id hmem)

/-- **The premises change**, and nothing is announced. -/
theorem Traced.premises {f : Floor} (h : f.Traced) {premises' : Premises}
    (hevents : premises'.events = f.premises.events) :
    Traced { f with premises := premises' } :=
  h.quiet hevents (fun _ hid => hid) (fun _ _ v hi => ⟨v, hi, fun _ _ hn => hn⟩)
    fun _ _ k hi => .inr ⟨k, hi, rfl, rfl⟩

/-- The shutdown fires. -/
theorem Traced.fire {f : Floor} (h : f.Traced) : f.fire.Traced := h.premises rfl

/-- **One person changes**, and nothing is announced. -/
theorem Traced.quiet_set {f : Floor} (h : f.Traced) {i : Nat} {p p' : Person} {premises' : Premises}
    (hi : f.people[i]? = some p) (hevents : premises'.events = f.premises.events)
    (hbadge : p'.badge = p.badge)
    (hcustomer : ∀ c v', p' = .customer c v' → ∀ w n, v'.Reaches w n)
    (hworker : ∀ w k', p' = .worker w k' → k'.client? = none) :
    Traced ⟨premises', f.people.set i p'⟩ := by
  have hbadges : badges ⟨premises', f.people.set i p'⟩ = f.badges := map_set_of_eq hi hbadge
  refine h.quiet hevents (fun id hid => by rwa [hbadges]) (fun j c v' hj => ?_)
    fun j w k' hj => ?_
  · rcases getElem?_set_cases hj with ⟨rfl, rfl⟩ | ⟨-, hj'⟩
    · cases p with
      | customer c' v =>
          obtain rfl := Badge.customer.inj hbadge
          exact ⟨v, hi, fun w n _ => hcustomer c v' rfl w n⟩
      | worker w k => cases hbadge
      | closer k => cases hbadge
    · exact ⟨v', hj', fun _ _ hn => hn⟩
  · rcases getElem?_set_cases hj with ⟨-, rfl⟩ | ⟨-, hj'⟩
    · exact .inl (hworker w k' rfl)
    · exact .inr ⟨k', hj', rfl, rfl⟩

/-- **A panic** breaks a visit off, or a service. -/
theorem Traced.unwind {f : Floor} (h : f.Traced) {i : Nat} {p p' : Person}
    (hi : f.people[i]? = some p) (hunwind : p.unwind? = some p') :
    Traced ⟨f.premises, f.people.set i p'⟩ := by
  refine h.quiet_set hi rfl (Person.unwind?_badge hunwind) ?_ ?_
  · rintro c v' rfl w n
    cases Person.unwinds_of_unwind? hunwind <;> trivial
  · rintro w k' rfl
    cases Person.unwinds_of_unwind? hunwind <;> rfl

section Kept

variable {workers : Nat} {f : Floor} {ledgers : Nat → Ledger}

/-- **A customer and a worker meet.** Nothing is announced, and both go on at the same point of the
visit of that customer. -/
theorem Traced.meets (h : f.Traced) (hids : (f.badges.filterMap Badge.customerId?).Nodup)
    {i j w : Nat} {c : Customer} {v v' : Visiting} {k k' : Working}
    (hi : f.people[i]? = some (.customer c v)) (hj : f.people[j]? = some (.worker w k))
    (hclient : ∀ id, k'.client? = some id → id = c.id)
    (hturn : ∀ u n, v.Reaches u n → f.Records c u n →
      v'.Reaches u n ∧ (k'.client? ≠ none → w = u ∧ n ∈ k'.marks)) :
    Traced ⟨f.premises, (f.people.set i (.customer c v')).set j (.worker w k')⟩ := by
  have hij : i ≠ j := by
    rintro rfl
    cases hi.symm.trans hj
  have hj' : (f.people.set i (.customer c v'))[j]? = some (.worker w k) := by
    rw [List.getElem?_set_ne hij]
    exact hj
  have hbadges : badges ⟨f.premises, (f.people.set i (.customer c v')).set j (.worker w k')⟩ =
      f.badges :=
    (map_set_of_eq (g := Person.badge) (b := .worker w k') hj' rfl).trans
      (map_set_of_eq (g := Person.badge) (b := .customer c v') hi rfl)
  have hworker : ∀ (x u : Nat) (l : Working),
      ((f.people.set i (.customer c v')).set j (.worker w k'))[x]? = some (.worker u l) →
        (u = w ∧ l = k') ∨ f.people[x]? = some (.worker u l) := by
    intro x u l hx
    rcases getElem?_set_cases hx with ⟨-, heq⟩ | ⟨-, hx'⟩
    · exact .inl (Person.worker.inj heq)
    · rcases getElem?_set_cases hx' with ⟨-, heq⟩ | ⟨-, hx''⟩
      · cases heq
      · exact .inr hx''
  refine ⟨fun x c' v'' hx => ?_, fun id hid => ?_⟩
  · rcases getElem?_set_cases hx with ⟨-, heq⟩ | ⟨-, hx'⟩
    · cases heq
    · rcases getElem?_set_cases hx' with ⟨rfl, heq⟩ | ⟨hne, hx''⟩
      · obtain ⟨rfl, rfl⟩ := Person.customer.inj heq
        obtain ⟨u, n, hreaches, hrecords⟩ := h.visits _ _ _ hi
        obtain ⟨hreaches', hserved⟩ := hturn u n hreaches hrecords
        refine ⟨u, n, hreaches', hrecords.events, fun y w' l hy hl => ?_⟩
        rcases hworker y w' l hy with ⟨rfl, rfl⟩ | hy'
        · exact hserved (by rw [hl]; nofun)
        · exact hrecords.worker y w' l hy' hl
      · obtain ⟨u, n, hreaches, hrecords⟩ := h.visits _ _ _ hx''
        refine ⟨u, n, hreaches, hrecords.events, fun y w' l hy hl => ?_⟩
        rcases hworker y w' l hy with ⟨rfl, rfl⟩ | hy'
        · exact absurd (customer_unique hids hi hx'' (hclient _ hl)) (Ne.symm hne)
        · exact hrecords.worker y w' l hy' hl
  · rw [hbadges] at hid
    exact h.strangers id hid

/-- **An exchange** keeps the log in order. -/
theorem Traced.exchange (h : f.Traced) (hkept : f.Kept workers ledgers)
    (hids : (f.badges.filterMap Badge.customerId?).Nodup) {i j w : Nat} {people' : List Person}
    (hex : Exchanges f.people i j w people') : Traced ⟨f.premises, people'⟩ := by
  -- a worker at the desk of a customer has no other assignment in hand
  have hand : ∀ {x y : Nat} {c : Customer} {stay : Stay} {d : Dealing} {k : Working}
      {a : Assignment}, f.people[x]? = some (.customer c (.dealing stay w d)) → d.isDone = false →
      f.people[y]? = some (.worker w k) → k.assignment? = some a → a = c.assignment := by
    intro x y c stay d k a hx hd hy ha
    obtain ⟨-, -, hcurrent, -⟩ := hkept.dealing_fits hx hd
    rw [← hcurrent]
    exact (hkept.worker_fits hy).2.assignment a ha
  cases hex with
  | published hi hj =>
      refine h.meets hids hi hj (fun id hid => (Option.some.inj hid).symm) fun u n hn _ => ?_
      obtain ⟨rfl, hn⟩ := hn
      obtain rfl := List.mem_singleton.1 hn
      exact ⟨⟨rfl, List.mem_cons_self⟩, fun _ => ⟨rfl, List.mem_singleton.2 rfl⟩⟩
  | acknowledged hi hj =>
      obtain rfl := hand hj rfl hi rfl
      rw [set_customer_set_worker hj hi]
      refine h.meets hids hj hi (fun id hid => (Option.some.inj hid).symm) fun u n _ hrecords => ?_
      obtain ⟨rfl, hn⟩ := hrecords.worker _ _ _ hi rfl
      obtain rfl := List.mem_singleton.1 hn
      exact ⟨⟨rfl, List.mem_singleton.2 rfl⟩, fun _ => ⟨rfl, List.mem_cons_self⟩⟩
  | proceeded hi hj =>
      obtain rfl := hand hi rfl hj rfl
      refine h.meets hids hi hj (fun id hid => (Option.some.inj hid).symm) fun u n hn _ => ?_
      obtain ⟨rfl, hn⟩ := hn
      obtain rfl := List.mem_singleton.1 hn
      exact ⟨⟨rfl, List.mem_cons_self⟩, fun _ => ⟨rfl, List.mem_singleton.2 rfl⟩⟩
  | completed hi hj =>
      obtain rfl := hand hj rfl hi rfl
      rw [set_customer_set_worker hj hi]
      refine h.meets hids hj hi nofun fun u n _ hrecords => ?_
      obtain ⟨rfl, hn⟩ := hrecords.worker _ _ _ hi rfl
      obtain rfl := List.mem_singleton.1 hn
      exact ⟨⟨rfl, List.mem_singleton.2 rfl⟩, fun hsome => absurd rfl hsome⟩

/-- **Somebody comes**: of a customer nothing is in the log yet. -/
theorem Traced.join (h : f.Traced) (hkept : f.Kept workers ledgers) {p : Person}
    (hids : ((f.join p).badges.filterMap Badge.customerId?).Nodup)
    (hp : (∃ c, p = .arrives c) ∨ (∃ w, p = .starts w) ∨ p = .closes) : (f.join p).Traced := by
  have hbadges : (f.join p).badges = f.badges ++ [p.badge] := by simp [badges, Floor.join]
  rw [hbadges, List.filterMap_append] at hids
  have hmember : ∀ id ∈ f.badges.filterMap Badge.customerId?,
      id ∈ (f.join p).badges.filterMap Badge.customerId? := by
    intro id hid
    rw [hbadges, List.filterMap_append]
    exact List.mem_append_left _ hid
  have quiet : (∀ c v, p ≠ .customer c v) → (∀ w k, p = .worker w k → k.client? = none) →
      (f.join p).Traced := by
    intro hcustomer hworker
    refine h.quiet rfl hmember (fun i c v hi => ?_) fun i w k hi => ?_
    · rcases getElem?_concat_cases hi with hi' | ⟨-, rfl⟩
      · exact ⟨v, hi', fun _ _ hn => hn⟩
      · exact absurd rfl (hcustomer c v)
    · rcases getElem?_concat_cases hi with hi' | ⟨-, rfl⟩
      · exact .inr ⟨k, hi', rfl, rfl⟩
      · exact .inl (hworker w k rfl)
  rcases hp with ⟨c, rfl⟩ | ⟨w, rfl⟩ | rfl
  · -- nobody who was there has the id of the newcomer
    have hnew : c.id ∉ f.badges.filterMap Badge.customerId? := fun hmem =>
      (List.nodup_append.1 hids).2.2 c.id hmem c.id (List.mem_singleton.2 rfl) rfl
    have hworker : ∀ (j v : Nat) (k : Working),
        (f.join (.arrives c)).people[j]? = some (.worker v k) →
          f.people[j]? = some (.worker v k) := by
      intro j v k hj
      rcases getElem?_concat_cases hj with hj' | ⟨-, heq⟩
      · exact hj'
      · cases heq
    refine ⟨fun i c' v hi => ?_, fun id hid => h.strangers id fun hmem => hid (hmember id hmem)⟩
    rcases getElem?_concat_cases hi with hi' | ⟨-, heq⟩
    · obtain ⟨w, n, hreaches, hrecords⟩ := h.visits i c' v hi'
      exact ⟨w, n, hreaches, hrecords.still rfl fun j v k hj hclient =>
        ⟨k, hworker j v k hj, hclient, rfl⟩⟩
    · obtain ⟨rfl, rfl⟩ := Person.customer.inj heq
      refine ⟨0, 0, rfl, h.strangers _ hnew, fun j v k hj hclient => ?_⟩
      obtain ⟨i', c'', v', hi', hid, -⟩ := hkept.exists_client (hworker j v k hj) hclient
      exact absurd (hid ▸ mem_customerIds hi') hnew
  · refine quiet (by rintro _ _ ⟨⟩) fun v k hk => ?_
    obtain ⟨-, rfl⟩ := Person.worker.inj hk
    rfl
  · exact quiet (by rintro _ _ ⟨⟩) (by rintro _ _ ⟨⟩)

/-- **Every move** keeps the log in order, as long as nobody comes who has the id of another
customer. -/
theorem Traced.move (h : f.Traced) (hkept : f.Kept workers ledgers) {f' : Floor} {m : Move}
    (hmove : f.move? m = some f') (hids : (f'.badges.filterMap Badge.customerId?).Nodup)
    (hjoin : ∀ p, m = .join p → (∃ c, p = .arrives c) ∨ (∃ w, p = .starts w) ∨ p = .closes) :
    f'.Traced := by
  have hbadges := badges_move hmove
  have hids' : (f.badges.filterMap Badge.customerId?).Nodup := by
    rw [hbadges, List.filterMap_append] at hids
    exact (List.nodup_append.1 hids).1
  cases m with
  | step i =>
      cases steps_of_step? hmove with
      | customer hi hv => exact h.customer_step hkept hids' hi hv
      | worker hi hk => exact h.worker_step hkept hids' hi hk
      | closer hi hk => exact h.quiet_set hi hk.events_eq rfl nofun nofun
  | exchange i j =>
      obtain ⟨w, people', -, hex, rfl⟩ := exchanges_of_exchange? hmove
      exact h.exchange hkept hids' hex
  | unwind i =>
      obtain ⟨p, p', hi, hunwind, rfl⟩ := unwind?_eq_some hmove
      exact h.unwind hi hunwind
  | fire =>
      obtain rfl := Option.some.inj hmove
      exact h.fire
  | join p =>
      obtain rfl := Option.some.inj hmove
      exact h.join hkept hids (hjoin p rfl)

end Kept

/-- **The log holds the beginning of a visit** of everybody who has come. -/
theorem Traced.begun {f : Floor} (h : f.Traced) {c : Customer} (hc : .customer c ∈ f.badges) :
    ∃ w, Trace.customer c.id f.premises.events <+: Trace.visit w c := by
  obtain ⟨i, hi⟩ := List.mem_iff_getElem?.1 hc
  rw [badges, List.getElem?_map] at hi
  obtain ⟨p, hp, hbadge⟩ := Option.map_eq_some_iff.1 hi
  cases p with
  | customer c' v =>
      obtain rfl := Badge.customer.inj hbadge
      obtain ⟨w, n, -, hrecords⟩ := h.visits i _ v hp
      exact ⟨w, hrecords.events ▸ List.take_prefix _ _⟩
  | worker w k => cases hbadge
  | closer k => cases hbadge

/-- **The log of every office.** Take an office, customers with distinct ids, a shift for each
worker at most, closes, panics and the shutdown at any moment, and any interleaving. Then the log
holds of every customer the first events of a visit with some worker, and nothing of anybody else.
-/
theorem visits_in_order {capacity workers minute clock : Nat} {ms : List Move} {f : Floor}
    (hms : Regular workers ms) (hids : ((newcomers ms).filterMap Badge.customerId?).Nodup)
    (hrun : run? ms (.opening (.furnish capacity workers minute) clock) = some f) :
    (∀ c, .customer c ∈ newcomers ms →
      ∃ w, Trace.customer c.id f.premises.events <+: Trace.visit w c) ∧
      ∀ id, id ∉ (newcomers ms).filterMap Badge.customerId? →
        Trace.customer id f.premises.events = [] := by
  have hbadges : f.badges = newcomers ms := badges_run hrun
  have htraced : f.Traced := by
    have hend := (kept_induction
      (motive := fun rest g => g.badges ++ newcomers rest = newcomers ms ∧ g.Traced)
      ⟨_, kept_opening capacity workers minute clock⟩ hms.begins hms.once
      ⟨rfl, traced_opening _ _⟩ (fun {m rest g g' ledgers} hm hkept hg hmove => ?_) hrun).2
    · exact hend.2
    · obtain ⟨hcome, htraced⟩ := hg
      have hcome' : g'.badges ++ newcomers rest = newcomers ms := by
        rw [badges_move hmove, ← hcome, List.append_assoc, newcomers_cons]
      refine ⟨hcome', htraced.move hkept hmove ?_ fun p hp => ?_⟩
      · rw [← hcome', List.filterMap_append] at hids
        exact (List.nodup_append.1 hids).1
      · rcases hms.begins p (hp ▸ hm) with hc | ⟨w, -, hw⟩ | hk
        · exact .inl hc
        · exact .inr (.inl ⟨w, hw⟩)
        · exact .inr (.inr hk)
  exact ⟨fun c hc => htraced.begun (hbadges ▸ hc),
    fun id hid => htraced.strangers id (hbadges ▸ hid)⟩

end Floor

end Postal

import Postal.Proofs.Calm

/-!
# When nobody can move.

Everybody who can neither step nor exchange anything stands at one of a few positions, where it
waits for somebody else (`Working.Parked`, `Visiting.Parked`). In a calm office the waits do not
close up into a circle. Nobody waits for the scale, which nobody holds; nobody waits at a desk,
where the other side would be ready; nobody waits for the aggregate, since all tokens would be free;
and nobody waits at the gate, since nobody would be inside. So all customers are gone, and the
workers wait for more of them until the shutdown has fired (`Floor.Calm.standstill`).

## §1 — positions at which somebody may wait.
## §2 — a floor on which nothing moves.
-/

namespace Postal

/-! ## §1 — positions at which somebody may wait -/

/-- **The positions** at which a worker may be unable to step. -/
inductive Working.Parked : Working → Prop
  | awaitingPublish (n : Nat) : Parked (.awaitingPublish n)
  | sendingAcknowledge (n : Nat) (a : Assignment) : Parked (.serving n a .sendingAcknowledge)
  | awaitingProceed (n : Nat) (a : Assignment) : Parked (.serving n a .awaitingProceed)
  | sendingCompletion (n : Nat) (a : Assignment) : Parked (.serving n a .sendingCompletion)
  | queued (n : Nat) (a : Assignment) (ticket : Nat) :
      Parked (.serving n a (.weighing (.acquiring (.queued ticket))))
  | ended (ending : Ending WorkerReport) : Parked (.ended ending)

/-- **The positions** at which a customer may be unable to step. -/
inductive Visiting.Parked : Visiting → Prop
  | outside (ticket : Nat) : Parked (.entering (.acquiring (.queued ticket)))
  | waiting (stay : Stay) (ticket : Nat) : Parked (.claiming stay (.aggregate (.queued ticket)))
  | dealing (stay : Stay) (w : Nat) {d : Dealing} (hwaits : d.Waits) : Parked (.dealing stay w d)
  | ended (ending : Ending Visit) : Parked (.ended ending)

/-- A section of a slot that is there never waits. -/
theorem Premises.section?_isSome {p : Premises} {w : Nat} {s : Slot} (hs : p.slots[w]? = some s)
    (run : Slot → Except Fault Slot) : (p.section? w run).isSome = true := by
  rw [section?_of_some hs]
  split <;> rfl

/-- A search waits in the line in front of the aggregate, and at the last slot. -/
theorem Pool.claim?_isSome {p : Pool} {pos : Pool.Claiming}
    (haggregate : ∀ position, pos = .aggregate position →
      (p.available.acquire? position).isSome = true)
    (hprobing : ∀ w, pos = .probing w → w < p.size)
    (hlast : ∀ position, pos = .last position → ∃ s, p.slots[p.size - 1]? = some s ∧
      (s.acquire? position).isSome = true) : (p.claim? pos).isSome = true := by
  cases pos with
  | aggregate position =>
      obtain ⟨⟨progress, available⟩, hacq⟩ := Option.isSome_iff_exists.1 (haggregate position rfl)
      simp only [claim?, hacq, Option.bind_eq_bind, Option.bind_some]
      split <;> rfl
  | probing w =>
      have hw : w < p.slots.length := hprobing w rfl
      have hs : p.slots[w]? = some p.slots[w] := List.getElem?_eq_getElem hw
      simp only [claim?, hs, Option.bind_eq_bind, Option.bind_some]
      split <;> rfl
  | last position =>
      obtain ⟨s, hs, hsome⟩ := hlast position rfl
      obtain ⟨⟨progress, s'⟩, hacq⟩ := Option.isSome_iff_exists.1 hsome
      simp only [claim?, hs, hacq, Option.bind_eq_bind, Option.bind_some]
      split <;> rfl

/-- **A worker that cannot step** is parked. -/
theorem Working.parked_of_step? {id : Nat} {k : Working} {p : Premises} {offered : Bool}
    (hid : id < p.slots.length) (h : (k.step? id p offered).isSome = false) : k.Parked := by
  have hs : p.slots[id]? = some p.slots[id] := List.getElem?_eq_getElem hid
  cases k with
  | opening n =>
      have hsome := Premises.section?_isSome hs (·.openUp)
      simp only [step?, Option.isSome_map, hsome] at h
      cases h
  | awaitingPublish n => exact .awaitingPublish n
  | checkingReceived n a =>
      simp only [step?, hs, Option.bind_eq_bind, Option.bind_some] at h
      split at h <;> cases h
  | serving n a position =>
      simp only [step?, Option.isSome_map] at h
      cases position with
      | acknowledging =>
          have hsome := Premises.section?_isSome hs (·.acknowledge)
          simp only [Service.step?, Option.isSome_map, hsome] at h
          cases h
      | sendingAcknowledge => exact .sendingAcknowledge n a
      | awaitingProceed => exact .awaitingProceed n a
      | checkingProceed =>
          simp only [Service.step?, hs, Option.bind_eq_bind, Option.bind_some] at h
          split at h <;> cases h
      | weighing pos =>
          have hwaits : (p.scale.acquire? pos).isSome = false := by
            simpa only [Service.step?, Option.isSome_map] using h
          cases pos with
          | acquiring position =>
              cases position with
              | queued ticket => exact .queued n a ticket
              | arriving =>
                  rw [Scale.acquire?_isSome fun position hpos => by
                    obtain rfl := Scale.Acquiring.acquiring.inj hpos
                    exact Semaphore.acquire?_arriving _] at hwaits
                  cases hwaits
          | _ => cases hwaits
      | completing =>
          have hsome := Premises.section?_isSome hs (·.complete)
          simp only [Service.step?, Option.isSome_map, hsome] at h
          cases h
      | sendingCompletion => exact .sendingCompletion n a
      | settling =>
          have hsome := Premises.section?_isSome hs fun s => .ok s.settle
          simp only [Service.step?, Option.isSome_map, hsome] at h
          cases h
      | _ => cases h
  | ended ending => exact .ended ending
  | _ => cases h

/-- **A customer that cannot step** is parked, if it is past the tokens that it has tried, and the
last slot does not keep it. -/
theorem Visiting.parked_of_step? {c : Customer} {v : Visiting} {p : Premises}
    (hdesk : ∀ stay w d, v = .dealing stay w d → w < p.slots.length)
    (hprobing : ∀ stay w, v = .claiming stay (.probing w) → w < p.pool.size)
    (hlast : ∀ stay position, v = .claiming stay (.last position) →
      ∃ s, p.pool.slots[p.pool.size - 1]? = some s ∧ (s.acquire? position).isSome = true)
    (h : (v.step? c p).isSome = false) : v.Parked := by
  cases v with
  | entering pos =>
      have hwaits : (p.gate.enter? pos).isSome = false := by
        simpa only [step?, Option.isSome_map] using h
      cases pos with
      | counting ticket => cases hwaits
      | acquiring position =>
          cases position with
          | queued ticket => exact .outside ticket
          | arriving =>
              rw [Gate.enter?_isSome fun position hpos => by
                obtain rfl := Gate.Entering.acquiring.inj hpos
                exact Semaphore.acquire?_arriving _] at hwaits
              cases hwaits
  | claiming stay pos =>
      have hwaits : (p.pool.claim? pos).isSome = false := by
        simpa only [step?, Option.isSome_map] using h
      by_cases hqueued : ∃ ticket, pos = .aggregate (.queued ticket)
      · obtain ⟨ticket, rfl⟩ := hqueued
        exact .waiting stay ticket
      · have hsome : (p.pool.claim? pos).isSome = true := by
          refine Pool.claim?_isSome (fun position hpos => ?_)
            (fun w hpos => hprobing stay w (by rw [hpos]))
            fun position hpos => hlast stay position (by rw [hpos])
          cases position with
          | arriving => exact Semaphore.acquire?_arriving _
          | queued ticket => exact absurd ⟨ticket, hpos⟩ hqueued
        rw [hsome] at hwaits
        cases hwaits
  | dealing stay w d =>
      have hw := hdesk stay w d rfl
      have hs : p.slots[w]? = some p.slots[w] := List.getElem?_eq_getElem hw
      cases d with
      | publishing =>
          have hsome := Premises.section?_isSome hs (·.bind c.assignment)
          simp only [step?, deal?, Option.isSome_map, hsome] at h
          cases h
      | proceeding =>
          have hsome := Premises.section?_isSome hs (·.proceed)
          simp only [step?, deal?, Option.isSome_map, hsome] at h
          cases h
      | handing => exact .dealing stay w trivial
      | awaitingAcknowledge => exact .dealing stay w trivial
      | sendingProceed => exact .dealing stay w trivial
      | awaitingCompletion => exact .dealing stay w trivial
      | _ => cases h
  | ended ending => exact .ended ending
  | _ => cases h

/-- No stage is in two lists that have none in common. -/
theorem Stage.apart {s : Stage} {l m : List Stage} (hl : s ∈ l) (hm : s ∈ m)
    (h : ∀ s ∈ l, s ∉ m) : False := h s hl hm

/-! ## §2 — a floor on which nothing moves -/

namespace Floor

/-- **A floor stands still** when nobody can take a step and nobody can exchange anything. -/
structure Still (f : Floor) : Prop where
  steps : ∀ i, (f.step? i).isSome = false
  exchanges : ∀ i j, (f.exchange? i j).isSome = false

/-- **Nobody has a ticket** where a permit is free and nobody is served: whoever is at the head of
the line would be. -/
theorem no_ticket {people : List Person} {s : Semaphore} {ticket : Person → Nat → Nat}
    (h : s.Lined fun n => tally (fun p => ticket p n) people) (hopen : s.closed = false)
    (hpermits : 0 < s.permits)
    (hunserved : ∀ (i : Nat) (p : Person) (n : Nat), people[i]? = some p → 0 < ticket p n →
      (s.acquire? (.queued n)).isSome = false)
    {i : Nat} {p : Person} (hi : people[i]? = some p) (n : Nat) : ticket p n = 0 := by
  by_contra hne
  have hline : 0 < tally (fun p => ticket p n) people :=
    Nat.lt_of_lt_of_le (Nat.pos_of_ne_zero hne) (le_tally (f := fun p => ticket p n) hi)
  -- the caller with the ticket at the head would be served
  have hhead := h.head hopen hline
  obtain ⟨j, q, hj, hticket⟩ := exists_of_tally_pos (f := fun p => ticket p s.nowServing)
    (l := people) (by rw [hhead]; exact Nat.one_pos)
  have hserved := Semaphore.acquire?_head hpermits
  rw [hunserved j q _ hj hticket] at hserved
  cases hserved

section Standstill

variable {workers room : Nat} {f : Floor} {ledgers : Nat → Ledger}

/-- Where nothing moves nobody can step. -/
theorem Still.step? (hstill : f.Still) {i : Nat} {p : Person} (hi : f.people[i]? = some p) :
    (p.step? f.premises f.offered).isSome = false := by
  by_contra hsome
  have hstep := step?_isSome hi (eq_true_of_ne_false hsome)
  rw [hstill.steps i] at hstep
  cases hstep

/-- Where nothing moves all workers are parked. -/
theorem Kept.worker_parked (h : f.Kept workers ledgers) (hstill : f.Still) {i w : Nat}
    {k : Working} (hi : f.people[i]? = some (.worker w k)) : k.Parked := by
  have hnone := hstill.step? hi
  rw [Person.step?, Option.isSome_map] at hnone
  exact Working.parked_of_step? (Nat.lt_of_lt_of_eq (h.worker_fits hi).1 h.slots.symm) hnone

/-- A customer that cannot step is parked, unless it stands at the last slot. -/
theorem Kept.customer_parked (h : f.Kept workers ledgers) {i : Nat} {c : Customer} {v : Visiting}
    (hi : f.people[i]? = some (.customer c v))
    (hlast : ∀ stay position, v = .claiming stay (.last position) →
      ∃ s, f.premises.pool.slots[f.premises.pool.size - 1]? = some s ∧
        (s.acquire? position).isSome = true)
    (hnone : (v.step? c f.premises).isSome = false) : v.Parked := by
  refine Visiting.parked_of_step? (fun stay w d hv => ?_) (fun stay w hv => ?_) hlast hnone
  · subst hv
    exact Nat.lt_of_lt_of_eq (h.fits i _ hi).1 h.slots.symm
  · subst hv
    have hw : w + 1 < workers := h.fits i _ hi
    rw [h.pool]
    omega

/-- Where nothing moves all customers are parked. -/
theorem Calm.customer_parked (h : f.Calm workers room) (hkept : f.Kept workers ledgers)
    (hstill : f.Still) {i : Nat} {c : Customer} {v : Visiting}
    (hi : f.people[i]? = some (.customer c v)) : v.Parked := by
  have hnone := hstill.step? hi
  rw [Person.step?, Option.isSome_map] at hnone
  refine hkept.customer_parked hi (fun stay position hv => ?_) hnone
  subst hv
  have hscans : ∀ q, tally (Person.scansFrom f.premises.pool.size q) f.people =
      tally (Person.scansFrom f.premises.pool.size q) (f.people.eraseIdx i) +
        (Pool.Claiming.last position).scansFrom f.premises.pool.size q :=
    fun q => tally_eq_add hi
  have hsize : 0 < f.premises.pool.size := by
    have htoken := h.covered.token_ahead hscans rfl
    by_contra hzero
    rw [Pool.tokensFrom_of_size_le (by omega)] at htoken
    exact absurd htoken (by decide)
  obtain ⟨s, hs, -⟩ := h.covered.last hscans hsize rfl
  cases position with
  | arriving => exact ⟨s, hs, Semaphore.acquire?_arriving s⟩
  | queued ticket => exact absurd (h.well i _ hi).unqueued id

/-- A worker with a ticket of the scale is not served where nothing moves. -/
theorem Still.unserved_scale (hstill : f.Still) (hkept : f.Kept workers ledgers) (i : Nat)
    (p : Person) (n : Nat) (hi : f.people[i]? = some p) (hticket : 0 < p.scaleHand.ticket n) :
    (f.premises.scale.permit.acquire? (.queued n)).isSome = false := by
  cases p with
  | worker w k =>
      cases hkept.worker_parked hstill hi with
      | queued m a ticket =>
          obtain rfl := Semaphore.Acquiring.eq_of_holds hticket
          by_contra hserved
          have hsome : (f.premises.scale.acquire? (.acquiring (.queued ticket))).isSome = true :=
            Scale.acquire?_isSome fun position hpos => by
              obtain rfl := Scale.Acquiring.acquiring.inj hpos
              exact eq_true_of_ne_false hserved
          have hnone := hstill.step? hi
          simp only [Person.step?, Working.step?, Service.step?, Option.isSome_map, hsome]
            at hnone
          cases hnone
      | _ => exact absurd hticket (Nat.lt_irrefl 0)
  | _ => exact absurd hticket (Nat.lt_irrefl 0)

/-- **Nobody waits for the scale**, since nobody who has it is kept from going on. -/
theorem Calm.nobody_weighs (h : f.Calm workers room) (hkept : f.Kept workers ledgers)
    (hstill : f.Still) {i w n : Nat} {a : Assignment} {pos : Scale.Acquiring}
    (hi : f.people[i]? = some (.worker w (.serving n a (.weighing pos)))) : False := by
  -- whoever has the permit could go on, so nobody has it
  have hfree : f.held Person.scaleHand = 0 := by
    refine tally_eq_zero fun j p hj => ?_
    cases p with
    | worker v k => cases hkept.worker_parked hstill hj <;> rfl
    | _ => rfl
  have hscale := h.scale
  rw [hfree] at hscale
  cases hkept.worker_parked hstill hi with
  | queued n a ticket =>
      have hnone := no_ticket hscale.lined h.isOpen.scale (hscale.free Nat.one_pos)
        (hstill.unserved_scale hkept) hi ticket
      exact Nat.one_ne_zero ((Semaphore.Acquiring.holds_self ticket).symm.trans hnone)

/-- Where nothing moves nobody can exchange anything. -/
theorem Still.exchange? (hstill : f.Still) (hopen : f.premises.IsOpen) {i j w : Nat}
    {sender receiver : Person} {m : Message} (hi : f.people[i]? = some sender)
    (hj : f.people[j]? = some receiver) (hsend : sender.sends? = some (w, m))
    (hreceive : receiver.receives? = some (w, m.signal)) : False := by
  have hsome := exchange?_isSome hi hj hsend hreceive (hopen.slot w)
  rw [hstill.exchanges i j] at hsome
  cases hsome

/-- The worker of a desk that has a stage is on the floor. -/
theorem Kept.exists_worker (h : f.Kept workers ledgers) {w : Nat} (hw : w < workers)
    (hstage : (ledgers w).stage ≠ .absent) :
    ∃ (i : Nat) (k : Working), f.people[i]? = some (.worker w k) := by
  have hmember : .worker w ∈ f.badges := by
    by_contra hno
    exact hstage (h.blank w hw hno).1
  obtain ⟨p, hp, hbadge⟩ := List.mem_map.1 hmember
  obtain ⟨i, hi⟩ := List.mem_iff_getElem?.1 hp
  cases p with
  | worker v k =>
      obtain rfl := Badge.worker.inj hbadge
      exact ⟨i, k, hi⟩
  | _ => cases hbadge

/-- **Whoever waits at a desk** where nothing moves waits for a worker that has left: otherwise the
two sides would be ready for each other. -/
theorem Calm.worker_has_left (h : f.Calm workers room) (hkept : f.Kept workers ledgers)
    (hstill : f.Still) {i j w : Nat} {c : Customer} {stay : Stay} {d : Dealing} {k : Working}
    (hi : f.people[i]? = some (.customer c (.dealing stay w d)))
    (hj : f.people[j]? = some (.worker w k)) : k.ending?.isSome = true := by
  have hwaits : d.Waits := by
    cases h.customer_parked hkept hstill hi with
    | dealing _ _ hwaits => exact hwaits
  have hdone : d.isDone = false := by cases d <;> first | rfl | exact hwaits.elim
  have hstage := (hkept.dealing_fits hi hdone).2.2.2
  have hallows := (hkept.worker_fits hj).2.stage
  have hopen := h.isOpen
  -- of each pair of positions either the stage allows one of them only, or the two can exchange
  cases hkept.worker_parked hstill hj with
  | queued n a ticket => exact (h.nobody_weighs hkept hstill hj).elim
  | ended ending => rfl
  | awaitingPublish n =>
      exfalso
      cases d with
      | handing => exact hstill.exchange? hopen hi hj rfl rfl
      | awaitingAcknowledge => exact Stage.apart hallows hstage (by decide)
      | sendingProceed => exact Stage.apart hallows hstage (by decide)
      | awaitingCompletion => exact Stage.apart hallows hstage (by decide)
      | _ => exact hwaits
  | sendingAcknowledge n a =>
      exfalso
      cases d with
      | handing => exact Stage.apart hallows hstage (by decide)
      | awaitingAcknowledge => exact hstill.exchange? hopen hj hi rfl rfl
      | sendingProceed => exact Stage.apart hallows hstage (by decide)
      | awaitingCompletion => exact Stage.apart hallows hstage (by decide)
      | _ => exact hwaits
  | awaitingProceed n a =>
      exfalso
      cases d with
      | handing => exact Stage.apart hallows hstage (by decide)
      | awaitingAcknowledge => exact Stage.apart hallows hstage (by decide)
      | sendingProceed => exact hstill.exchange? hopen hi hj rfl rfl
      | awaitingCompletion => exact Stage.apart hallows hstage (by decide)
      | _ => exact hwaits
  | sendingCompletion n a =>
      exfalso
      cases d with
      | handing => exact Stage.apart hallows hstage (by decide)
      | awaitingAcknowledge => exact Stage.apart hallows hstage (by decide)
      | sendingProceed => exact Stage.apart hallows hstage (by decide)
      | awaitingCompletion => exact hstill.exchange? hopen hj hi rfl rfl
      | _ => exact hwaits

/-- **Nobody waits at a desk** as long as customers come, since no worker leaves. -/
theorem Calm.nobody_deals (h : f.Calm workers room) (hkept : f.Kept workers ledgers)
    (hstill : f.Still) (hfired : f.premises.fired = false) {i w : Nat} {c : Customer} {stay : Stay}
    {d : Dealing} (hi : f.people[i]? = some (.customer c (.dealing stay w d))) : False := by
  have hwaits : d.Waits := by
    cases h.customer_parked hkept hstill hi with
    | dealing _ _ hwaits => exact hwaits
  have hdone : d.isDone = false := by cases d <;> first | rfl | exact hwaits.elim
  obtain ⟨hw, -, -, hstage⟩ := hkept.dealing_fits hi hdone
  have habsent : (ledgers w).stage ≠ .absent := by
    intro habsent
    rw [habsent] at hstage
    cases d <;> exact absurd hstage (by decide)
  obtain ⟨j, k, hj⟩ := hkept.exists_worker hw habsent
  exact h.loyal hfired j _ hj (h.worker_has_left hkept hstill hi hj)

/-- **Workers wait for customers only**: no worker holds anything out where nothing moves. -/
theorem Calm.workers_wait (h : f.Calm workers room) (hkept : f.Kept workers ledgers)
    (hstill : f.Still) (hquiet : ∀ w, w < workers → (ledgers w).stage.isEngaged = false)
    {i w : Nat} {k : Working} (hi : f.people[i]? = some (.worker w k)) :
    (∃ n, k = .awaitingPublish n ∧ (ledgers w).stage = .free) ∨ k.ending?.isSome = true := by
  obtain ⟨hw, hk⟩ := hkept.worker_fits hi
  have hidle := hquiet w hw
  have hallows := hk.stage
  have engaged : ∀ position : Service, position.Waits → (ledgers w).stage ∈ position.stages →
      (ledgers w).stage.isEngaged ≠ false := fun position hwaits hstage =>
    ne_false_of_eq_true (position.engaged_of_waits hwaits hstage).1
  cases hkept.worker_parked hstill hi with
  | awaitingPublish n =>
      refine .inl ⟨n, rfl, ?_⟩
      simp only [Working.Allows, Stage.offered, List.mem_cons, List.not_mem_nil, or_false]
        at hallows
      rcases hallows with hs | hs | hs | hs
      · exact hs
      · rw [hs] at hidle
        cases hidle
      · rw [hs] at hidle
        cases hidle
      · rw [hs] at hidle
        cases hidle
  | sendingAcknowledge n a => exact absurd hidle (engaged .sendingAcknowledge trivial hallows)
  | awaitingProceed n a => exact absurd hidle (engaged .awaitingProceed trivial hallows)
  | sendingCompletion n a => exact absurd hidle (engaged .sendingCompletion trivial hallows)
  | queued n a ticket => exact (h.nobody_weighs hkept hstill hi).elim
  | ended ending => exact .inr rfl

/-- In a calm office the customer who has claimed a desk deals with its worker until the completion
is taken. -/
theorem Calm.claimant_deals (h : f.Calm workers room) (hkept : f.Kept workers ledgers) {w : Nat}
    (hw : w < workers) (hengaged : (ledgers w).stage.isEngaged = true) :
    ∃ stay d, f.people[(ledgers w).claimant]? =
      some (.customer (ledgers w).current (.dealing stay w d)) := by
  obtain ⟨v, hv, hattends⟩ := hkept.attended w hw hengaged
  have hwell := h.well _ _ hv
  cases v with
  | dealing stay u d =>
      obtain ⟨rfl, -⟩ := hattends
      exact ⟨stay, d, hv⟩
  | leaving pos ending =>
      cases ending with
      | returned visit => cases hattends
      | failed e => exact (hwell.sound e rfl).2.elim
      | panicked => exact hwell.unhurt.elim
  | ended ending =>
      cases ending with
      | returned visit => cases hattends
      | failed e => exact (hwell.sound e rfl).2.elim
      | panicked => exact hwell.unhurt.elim
  | _ => exact hattends.elim

/-- No desk is engaged when no customer deals with anybody. -/
theorem Calm.disengaged (h : f.Calm workers room) (hkept : f.Kept workers ledgers)
    (hnone : ∀ (i : Nat) (c : Customer) (stay : Stay) (w : Nat) (d : Dealing),
      f.people[i]? ≠ some (.customer c (.dealing stay w d))) {w : Nat} (hw : w < workers) :
    (ledgers w).stage.isEngaged = false := by
  by_contra hengaged
  obtain ⟨stay, d, hdeals⟩ := h.claimant_deals hkept hw (eq_true_of_ne_false hengaged)
  exact hnone _ _ stay w d hdeals

/-- **All tokens are free** where nothing moves and nobody deals with anybody, and the aggregate
stands for them. -/
theorem Calm.aggregate_free (h : f.Calm workers room) (hkept : f.Kept workers ledgers)
    (hstill : f.Still) (hfired : f.premises.fired = false)
    (hquiet : ∀ w, w < workers → (ledgers w).stage.isEngaged = false) {i w : Nat} {k : Working}
    (hi : f.people[i]? = some (.worker w k)) : 0 < f.premises.pool.available.permits := by
  have hw := (hkept.worker_fits hi).1
  -- nobody scans, and nobody is between the two releases of an offer
  have hscans : tally (Person.scansFrom f.premises.pool.size 0) f.people = 0 := by
    refine tally_eq_zero fun j p hj => ?_
    cases p with
    | customer c v => cases h.customer_parked hkept hstill hj <;> rfl
    | worker u k => cases hkept.worker_parked hstill hj <;> rfl
    | closer k => rfl
  have hoffers : tally Person.offering f.people = 0 := by
    refine tally_eq_zero fun j p hj => ?_
    cases p with
    | customer c v => cases h.customer_parked hkept hstill hj <;> rfl
    | worker u k => cases hkept.worker_parked hstill hj <;> rfl
    | closer k => rfl
  -- the token of a worker that waits lies in the pool, and no worker has left yet
  have htokens : 0 < f.premises.pool.tokensFrom 0 := by
    rcases h.workers_wait hkept hstill hquiet hi with ⟨n, -, hfree⟩ | hleft
    · obtain ⟨s, hs⟩ : ∃ s, f.premises.pool.slots[w]? = some s :=
        ⟨_, List.getElem?_eq_getElem (Nat.lt_of_lt_of_eq hw hkept.pool.symm)⟩
      have hpermits := (Premises.token_of_view (hkept.views w hw) hs).1
      rw [hfree] at hpermits
      rw [Pool.tokensFrom, List.drop_zero]
      exact Nat.lt_of_lt_of_le (by rw [hpermits]; exact Nat.one_pos)
        (le_tally (f := fun s : Semaphore => s.permits) hs)
    · exact absurd hleft (h.loyal hfired i _ hi)
  have hspare := h.spare
  rw [pending, hscans, hoffers] at hspare
  omega

/-- A customer with a ticket of the aggregate is not served where nothing moves. -/
theorem Calm.unserved_aggregate (h : f.Calm workers room) (hkept : f.Kept workers ledgers)
    (hstill : f.Still) (i : Nat) (p : Person) (n : Nat) (hi : f.people[i]? = some p)
    (hticket : 0 < p.poolShare.ticket n) :
    (f.premises.pool.available.acquire? (.queued n)).isSome = false := by
  cases p with
  | customer c v =>
      cases h.customer_parked hkept hstill hi with
      | waiting stay ticket =>
          obtain rfl := Semaphore.Acquiring.eq_of_holds hticket
          by_contra hserved
          have hsome : (f.premises.pool.claim? (.aggregate (.queued ticket))).isSome = true :=
            Pool.claim?_isSome (fun position hpos => by
              obtain rfl := Pool.Claiming.aggregate.inj hpos
              exact eq_true_of_ne_false hserved) nofun nofun
          have hnone := hstill.step? hi
          simp only [Person.step?, Visiting.step?, Option.isSome_map, hsome] at hnone
          cases hnone
      | _ => exact absurd hticket (Nat.lt_irrefl 0)
  | worker w k => cases hkept.worker_parked hstill hi <;> exact absurd hticket (Nat.lt_irrefl 0)
  | closer k => exact absurd hticket (Nat.lt_irrefl 0)

/-- **Nobody waits for the aggregate** as long as there is a worker. -/
theorem Calm.nobody_searches (h : f.Calm workers room) (hkept : f.Kept workers ledgers)
    (hstill : f.Still) (hfired : f.premises.fired = false)
    (hquiet : ∀ w, w < workers → (ledgers w).stage.isEngaged = false) {i j w : Nat} {k : Working}
    (hj : f.people[j]? = some (.worker w k)) {c : Customer} {stay : Stay} {pos : Pool.Claiming}
    (hi : f.people[i]? = some (.customer c (.claiming stay pos))) : False := by
  have hpermits := h.aggregate_free hkept hstill hfired hquiet hj
  cases h.customer_parked hkept hstill hi with
  | waiting stay ticket =>
      have hnone := no_ticket h.queue h.isOpen.available hpermits
        (h.unserved_aggregate hkept hstill) hi ticket
      exact Nat.one_ne_zero ((Semaphore.Acquiring.holds_self ticket).symm.trans hnone)

/-- A customer with a ticket of the gate is not served where nothing moves. -/
theorem Calm.unserved_gate (h : f.Calm workers room) (hkept : f.Kept workers ledgers)
    (hstill : f.Still) (i : Nat) (p : Person) (n : Nat) (hi : f.people[i]? = some p)
    (hticket : 0 < p.gateHand.ticket n) :
    (f.premises.gate.permits.acquire? (.queued n)).isSome = false := by
  cases p with
  | customer c v =>
      cases h.customer_parked hkept hstill hi with
      | outside ticket =>
          obtain rfl := Semaphore.Acquiring.eq_of_holds hticket
          by_contra hserved
          have hsome : (f.premises.gate.enter? (.acquiring (.queued ticket))).isSome = true :=
            Gate.enter?_isSome fun position hpos => by
              obtain rfl := Gate.Entering.acquiring.inj hpos
              exact eq_true_of_ne_false hserved
          have hnone := hstill.step? hi
          simp only [Person.step?, Visiting.step?, Option.isSome_map, hsome] at hnone
          cases hnone
      | _ => exact absurd hticket (Nat.lt_irrefl 0)
  | _ => exact absurd hticket (Nat.lt_irrefl 0)

/-- **Nobody is left inside or outside**: where nothing moves before the shutdown and there is a
worker, all customers are gone. -/
theorem Calm.customers_gone (h : f.Calm workers room) (hkept : f.Kept workers ledgers)
    (hroom : 0 < room) (hstill : f.Still) (hfired : f.premises.fired = false) {j w : Nat}
    {k : Working} (hj : f.people[j]? = some (.worker w k)) {i : Nat} {c : Customer} {v : Visiting}
    (hi : f.people[i]? = some (.customer c v)) : v.ending?.isSome = true := by
  have hquiet : ∀ w, w < workers → (ledgers w).stage.isEngaged = false :=
    fun w hw => h.disengaged hkept (fun _ _ _ _ _ hd => h.nobody_deals hkept hstill hfired hd) hw
  -- nobody is inside, so all permits of the gate are free
  have hfree : f.held Person.gateHand = 0 := by
    refine tally_eq_zero fun l p hl => ?_
    cases p with
    | customer c' v' =>
        cases h.customer_parked hkept hstill hl with
        | waiting stay ticket => exact (h.nobody_searches hkept hstill hfired hquiet hj hl).elim
        | dealing stay u hwaits => exact (h.nobody_deals hkept hstill hfired hl).elim
        | _ => rfl
    | _ => rfl
  have hgate := h.gate
  rw [hfree] at hgate
  cases h.customer_parked hkept hstill hi with
  | outside ticket =>
      have hnone := no_ticket hgate.lined h.isOpen.gate (hgate.free hroom)
        (h.unserved_gate hkept hstill) hi ticket
      exact absurd ((Semaphore.Acquiring.holds_self ticket).symm.trans hnone) Nat.one_ne_zero
  | waiting stay ticket => exact (h.nobody_searches hkept hstill hfired hquiet hj hi).elim
  | dealing stay u hwaits => exact (h.nobody_deals hkept hstill hfired hi).elim
  | ended ending => rfl

/-- **A standstill.** Where nothing moves in a calm office that has a worker, and the shutdown has
not fired before all customers were gone, all customers are gone; and a worker has left, or waits
for more customers before the shutdown. -/
theorem Calm.standstill (h : f.Calm workers room) (hroom : 0 < room) (hstill : f.Still) {j w : Nat}
    {k : Working} (hj : f.people[j]? = some (.worker w k))
    (hfired : f.premises.fired = true → ∀ (i : Nat) (c : Customer) (v : Visiting),
      f.people[i]? = some (.customer c v) → v.ending?.isSome = true) :
    (∀ (i : Nat) (c : Customer) (v : Visiting), f.people[i]? = some (.customer c v) →
      v.ending?.isSome = true) ∧
    (f.premises.fired = true → ∀ (i w : Nat) (k : Working), f.people[i]? = some (.worker w k) →
      k.ending?.isSome = true) := by
  obtain ⟨ledgers, hkept⟩ := h.kept
  have hcustomers : ∀ (i : Nat) (c : Customer) (v : Visiting),
      f.people[i]? = some (.customer c v) → v.ending?.isSome = true := by
    intro i c v hi
    cases hbefore : f.premises.fired with
    | true => exact hfired hbefore i c v hi
    | false => exact h.customers_gone hkept hroom hstill hbefore hj hi
  have hnone : ∀ (i : Nat) (c : Customer) (stay : Stay) (w : Nat) (d : Dealing),
      f.people[i]? ≠ some (.customer c (.dealing stay w d)) :=
    fun i c stay w d hd => nomatch hcustomers i c _ hd
  refine ⟨hcustomers, fun hafter i u k hi => ?_⟩
  rcases h.workers_wait hkept hstill (fun v hv => h.disengaged hkept hnone hv) hi with
    ⟨n, rfl, -⟩ | hleft
  · -- nobody holds an assignment out any more, so the shutdown ends the wait
    have hoffered : f.offered u = false := by
      rw [offered, List.any_eq_false]
      intro p hp
      obtain ⟨l, hl⟩ := List.mem_iff_getElem?.1 hp
      cases p with
      | customer c v =>
          have hgone := hcustomers l c v hl
          cases v with
          | ended ending => exact Bool.false_ne_true
          | _ => cases hgone
      | worker u k => cases hkept.worker_parked hstill hl <;> exact Bool.false_ne_true
      | closer k => exact Bool.false_ne_true
    have hstep := hstill.step? hi
    rw [Person.step?, Working.step?, hafter, hoffered, Bool.not_false, Bool.and_true,
      Bool.or_true] at hstep
    cases hstep
  · exact hleft

end Standstill

end Floor

end Postal

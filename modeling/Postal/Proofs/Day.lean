import Postal.Day.Rota
import Postal.Proofs.Measure
import Postal.Proofs.Orderly
import Postal.Proofs.Standstill

/-!
# A day comes to its end.

On a day on which nobody panics there is always something that can move, until the driver has
returned its report (`Day.Orderly.can_move`), and every move takes something away from what is left
to do (`Day.Orderly.left_lt`). So whatever the interleaving is, the day ends, after a number of
moves that depends on the workers and the customers only, and then everybody is gone
(`Day.comes_to_its_end`).

## §1 — what is left of a day.
## §2 — somebody can move.
## §3 — the end.
-/

namespace Postal

/-! ## §1 — what is left of a day -/

/-- Steps that the driver has left, but for those in which it lets somebody come or takes an
outcome. As long as it can still take a failure, it has a whole close ahead. -/
def Driver.left (workers customers : Nat) : Driver → Nat
  | .hiring => 2 * customers + 2 * workers + 12
  | .welcoming => 2 * customers + 2 * workers + 11
  | .collecting => 2 * customers + 2 * workers + 10
  | .joining k => 2 * (customers - k) + 2 * workers + 9
  | .announcingJoined k _ => 2 * (customers - k) + 2 * workers + 8
  | .firing => 2 * workers + 8
  | .gathering => 2 * workers + 7
  | .parting k => workers - k + 1
  | .aborting position _ => position.left workers + 2
  | .givingUp _ => 1
  | .ended _ => 0

namespace Day

/-- **`d.left`** — moves that are left of an orderly day: those of everybody who has come, of
everybody who is still to come, the reports that are not posted and not taken, and the driver. -/
def left (d : Day) : Nat :=
  d.floor.left (.ofWorkers d.config.workerCount) +
    (d.staffing - d.floor.people.length) * (d.config.workerCount + 50) +
    (d.staffing - d.posted.length) + (d.staffing - d.taken) +
    d.driver.left d.config.workerCount d.customers.length

/-- One person fewer is still to come. -/
theorem to_come {staffing come : Nat} (h : come < staffing) (effort : Nat) :
    (staffing - come) * effort = (staffing - (come + 1)) * effort + effort := by
  rw [← Nat.succ_mul]
  congr 1
  omega

theorem left_join (pool : Pool) (f : Floor) (p : Person) :
    (f.join p).left pool = f.left pool + p.left pool :=
  tally_concat _ _ _

@[simp] theorem size_ofWorkers (n : Nat) : (Pool.ofWorkers n).size = n := by
  simp [Pool.ofWorkers, Pool.size]

section Left

variable {workers : Nat} {customers : List Customer} {d d' : Day}

/-- **The floor moves on** and leaves less to do. -/
theorem left_lt_of_floor {floor' : Floor}
    (hleft : floor'.left (.ofWorkers d.config.workerCount) <
      d.floor.left (.ofWorkers d.config.workerCount))
    (hbadges : floor'.badges = d.floor.badges) :
    ({ d with floor := floor' } : Day).left < d.left := by
  have hpeople := Floor.length_of_badges hbadges
  unfold left staffing
  simp only [hpeople]
  omega

/-- **Somebody comes** who has fewer moves to make than a newcomer is counted for. -/
theorem left_lt_of_join {p : Person} {driver : Driver} (hdriver : d.driver = driver)
    (hcome : d.floor.people.length < d.staffing)
    (heffort : p.left (.ofWorkers d.config.workerCount) < d.config.workerCount + 50) :
    ({ d with floor := d.floor.join p, driver } : Day).left < d.left := by
  subst hdriver
  have hfewer := to_come hcome (d.config.workerCount + 50)
  have hmore : (d.floor.join p).people.length = d.floor.people.length + 1 := by simp [Floor.join]
  unfold left
  simp only [staffing, left_join, hmore] at hfewer ⊢
  omega

/-- **Whoever moves but the driver** leaves less to do. -/
theorem Staffed.left_lt (h : d.Staffed workers customers)
    (hsize : d.floor.premises.pool.size = workers) {m : Move} (hm : m ≠ .drive)
    (hm' : m ≠ .unwindDriver) (hmove : d.move? m = some d') : d'.left < d.left := by
  have hpool : (Pool.ofWorkers d.config.workerCount).size = d.floor.premises.pool.size := by
    rw [size_ofWorkers, h.crew, hsize]
  cases m with
  | step i =>
      obtain ⟨floor', hstep, rfl⟩ := Option.map_eq_some_iff.1 hmove
      refine left_lt_of_floor ((Floor.steps_of_step? hstep).left_lt h.unclosed hpool) ?_
      simpa [Floor.Move.newcomer?] using Floor.badges_move (m := .step i) hstep
  | exchange i j =>
      obtain ⟨floor', hexchange, rfl⟩ := Option.map_eq_some_iff.1 hmove
      obtain ⟨w, people', -, hex, rfl⟩ := Floor.exchanges_of_exchange? hexchange
      exact left_lt_of_floor hex.left_lt hex.badges
  | unwind i =>
      obtain ⟨floor', hunwind, rfl⟩ := Option.map_eq_some_iff.1 hmove
      refine left_lt_of_floor (Floor.unwind_left_lt _ hunwind) ?_
      simpa [Floor.Move.newcomer?] using Floor.badges_move (m := .unwind i) hunwind
  | post i =>
      obtain ⟨p, hp, hsome, hnew, rfl⟩ := post?_eq_some hmove
      have hposted := (h.post hp hsome hnew).posted_le
      simp only [staffing, List.length_append, List.length_singleton] at hposted
      unfold left
      simp only [staffing, List.length_append, List.length_singleton]
      omega
  | drive => exact absurd rfl hm
  | unwindDriver => exact absurd rfl hm'

/-- **A step of a driver** that takes no failure leaves less to do. -/
theorem Going.drive_left (h : d.Going workers customers)
    (hdrives : d.Drives workers customers d') : d'.left < d.left := by
  have hcrew := h.crew
  have hlist := h.list
  have hposted := h.posted_le
  have hstaff := h.staffing_eq
  cases hdrives with
  | hires hdriver hlt =>
      refine left_lt_of_join hdriver (show d.floor.people.length < d.staffing by omega) ?_
      show 8 < _
      omega
  | hired hdriver hge =>
      simp only [left, staffing, hdriver, Driver.left]
      omega
  | @welcomes c hdriver hc =>
      have hlt := (List.getElem?_eq_some_iff.1 hc).1
      have hge := (h.stands_at hdriver).1
      have heffort : (Person.arrives c).left (.ofWorkers d.config.workerCount) =
          d.config.workerCount + 49 := by
        simp [Person.arrives, Person.left, Visiting.start, Visiting.left]
      refine left_lt_of_join hdriver (show d.floor.people.length < d.staffing by omega) ?_
      omega
  | welcomed hdriver hall =>
      simp only [left, staffing, hdriver, Driver.left]
      omega
  | collected hdriver hall =>
      simp only [left, staffing, hdriver, Driver.left]
      omega
  | takesVisit hdriver hi hguest hvisit =>
      have hlt := (List.getElem?_eq_some_iff.1 hi).1
      simp only [left, staffing] at hposted ⊢
      omega
  | takesReport hdriver hi hworker hreport =>
      have hlt := (List.getElem?_eq_some_iff.1 hi).1
      simp only [left, staffing] at hposted ⊢
      omega
  | joins hdriver hk =>
      simp only [left, staffing, hdriver, Driver.left]
      omega
  | joined hdriver hk =>
      simp only [left, staffing, hdriver, Driver.left]
      omega
  | @announces k c hdriver =>
      obtain ⟨-, -, -, hk⟩ := h.stands_at hdriver
      rw [← hlist] at hk
      simp only [left, staffing, hdriver, Driver.left, Floor.left]
      omega
  | fires hdriver =>
      simp only [left, staffing, hdriver, Driver.left, Floor.left, Floor.fire]
      omega
  | gathered hdriver hall =>
      simp only [left, staffing, hdriver, Driver.left]
      omega
  | parts hdriver hk =>
      simp only [left, staffing, hdriver, Driver.left]
      omega
  | returns hdriver hk =>
      simp only [left, staffing, hdriver, Driver.left]
      omega

/-- **A driver that takes a failure** leaves less to do, with the whole close. -/
theorem Fails.left_lt {f : Fault} (hfails : d.Fails f d') (h : d.Staffed workers customers) :
    d'.left < d.left := by
  obtain ⟨hdriver, hi, hfailed⟩ := hfails
  have hposted := h.posted_le
  have hlt := (List.getElem?_eq_some_iff.1 hi).1
  rcases hdriver with hdriver | hdriver
  · simp only [left, abort, staffing, hdriver, Driver.left, Closing.left] at hposted ⊢
    omega
  · simp only [left, abort, staffing, hdriver, Driver.left, Closing.left] at hposted ⊢
    omega

end Left

section Orderly

variable {workers room : Nat} {customers : List Customer} {d d' : Day}

/-- **Every move but a panic** leaves less to do. -/
theorem Orderly.left_lt (h : d.Orderly workers room customers) {m : Move} (hm : ¬ m.IsPanic)
    (hmove : d.move? m = some d') : d'.left < d.left := by
  obtain ⟨ledgers, hkept⟩ := h.calm.kept
  by_cases hdrive : m = .drive
  · subst hdrive
    exact h.drive_left (h.drives hmove)
  · refine h.toStaffed.left_lt hkept.pool hdrive ?_ hmove
    rintro rfl
    exact hm trivial

/-- **A run** uses up what is left to do, and keeps the day orderly. -/
theorem Orderly.run (hword : workers ≤ wordMax) {ms : List Move}
    (hms : ∀ m ∈ ms, ¬ m.IsPanic) (h : d.Orderly workers room customers)
    (hrun : run? ms d = some d') :
    d'.Orderly workers room customers ∧ ms.length + d'.left ≤ d.left := by
  -- the motive: no panic is to come, the day is orderly, and what the moves so far have taken away
  have hend := run_induction (motive := fun rest g => (∀ m ∈ rest, ¬ m.IsPanic) ∧
    g.Orderly workers room customers ∧ ms.length + g.left ≤ rest.length + d.left)
    (fun {m rest g g'} hg hmove => ?_) ⟨hms, h, Nat.le_refl _⟩ hrun
  · obtain ⟨-, horderly, hsum⟩ := hend
    rw [List.length_nil, Nat.zero_add] at hsum
    exact ⟨horderly, hsum⟩
  · obtain ⟨hcalm, horderly, hsum⟩ := hg
    have hm := hcalm m (List.mem_cons_self ..)
    have hless := horderly.left_lt hm hmove
    rw [List.length_cons] at hsum
    exact ⟨fun m hm => hcalm m (List.mem_cons_of_mem _ hm), horderly.move hword hm hmove, by omega⟩

/-- What is left of a day before its first step is less than `lengthBound`. -/
theorem left_opening {plan : Plan} {chance clock : Nat} {runId : RunId}
    (h : opening plan chance runId clock = .ok d) :
    d.left < lengthBound plan.config.workerCount (plan.customers chance).length := by
  have horderly := orderly_opening h
  rw [left, horderly.staffing_eq, horderly.crew, horderly.list]
  obtain rfl := opening_eq h
  simp only [Floor.left, Floor.opening, tally_nil, List.length_nil, Nat.sub_zero, Driver.left,
    lengthBound]
  generalize plan.config.workerCount = n
  generalize (plan.customers chance).length = k
  have hsplit : (n + k + 1) * (n + 100) = (n + k) * (n + 50) + (n + k) * 50 + (n + 100) := by
    rw [Nat.succ_mul, ← Nat.mul_add]
  omega

end Orderly

/-! ## §2 — somebody can move -/

section Orderly

variable {workers room : Nat} {customers : List Customer} {d : Day}

/-- Whoever has something to report and cannot do so any more has reported. -/
theorem posted_of_post? {i : Nat} {p : Person} (hpost : (d.post? i).isSome = false)
    (hi : d.floor.people[i]? = some p) (ho : p.outcome?.isSome = true) : i ∈ d.posted := by
  obtain ⟨o, ho⟩ := Option.isSome_iff_exists.1 ho
  by_contra hnew
  simp only [post?, hi, ho, Option.bind_eq_bind, Option.bind_some, if_neg hnew] at hpost
  cases hpost

/-- Where a visit has been taken from every customer, all of them are gone. -/
theorem Going.customers_gone (h : d.Going workers customers)
    (hall : d.visits.length = customers.length) (i : Nat) (c : Customer) (v : Visiting)
    (hi : d.floor.people[i]? = some (.customer c v)) : v.ending?.isSome = true := by
  obtain ⟨p, hp, hsome⟩ := h.finished _ (List.mem_of_mem_take (h.customer_taken hall hi))
  obtain rfl := Option.some.inj (hi.symm.trans hp)
  rwa [Person.outcome?, Option.isSome_map] at hsome

/-- **A driver that waits** for an outcome, where everything is taken, does not wait for people who
are all gone. -/
theorem Orderly.out (h : d.Orderly workers room customers) (hworkers : 0 < workers)
    (hroom : 0 < room) (hstill : d.floor.Still) (hpost : ∀ i, (d.post? i).isSome = false)
    (htaken : d.taken = d.posted.length) :
    ¬ (d.driver = .collecting ∧ ¬ customers.length ≤ d.visits.length) ∧
      ¬ (d.driver = .gathering ∧ ¬ workers ≤ d.reports.length) := by
  refine ⟨?_, ?_⟩
  · rintro ⟨hdriver, hmore⟩
    obtain ⟨hpeople, hfired⟩ := h.stands_at hdriver
    obtain ⟨k, hk⟩ := h.worker hworkers (by omega)
    obtain ⟨hgone, -⟩ := h.calm.standstill hroom hstill hk fun hout =>
      absurd (hfired.symm.trans hout) Bool.false_ne_true
    refine hmore (h.visits_of_posted htaken fun n hn => ?_)
    obtain ⟨v, hv⟩ := h.customer (List.getElem?_eq_getElem hn) (by omega)
    exact posted_of_post? (hpost _) hv (Person.outcome?_of_hasEnded (hgone _ _ v hv) nofun)
  · rintro ⟨hdriver, hmore⟩
    obtain ⟨hpeople, hall, hfired⟩ := h.stands_at hdriver
    -- the shutdown has fired and all customers are gone, so no worker waits any more
    obtain ⟨k, hk⟩ := h.worker hworkers (by omega)
    obtain ⟨-, hgone⟩ := h.calm.standstill hroom hstill hk fun _ => h.customers_gone hall
    refine hmore (h.reports_of_posted htaken fun w hw => ?_)
    obtain ⟨k', hk'⟩ := h.worker hw (by omega)
    exact posted_of_post? (hpost _) hk'
      (Person.outcome?_of_hasEnded (hgone hfired _ _ k' hk') nofun)

/-- **Somebody can move** until the driver has returned. -/
theorem Orderly.can_move (h : d.Orderly workers room customers) (hworkers : 0 < workers)
    (hroom : 0 < room) (hopen : d.ending? = none) :
    ∃ m : Move, ¬ m.IsPanic ∧ (d.move? m).isSome = true := by
  by_contra hnone
  -- nobody can move, so the driver waits for an outcome and the floor stands still
  have stuck : ∀ m : Move, ¬ m.IsPanic → (d.move? m).isSome = false :=
    fun m hm => Bool.eq_false_iff.2 fun hsome => hnone ⟨m, hm, hsome⟩
  have hpost : ∀ i, (d.post? i).isSome = false := fun i => stuck (.post i) id
  have hdrive : (d.drive?).isSome = false := stuck .drive id
  have hstill : d.floor.Still := by
    refine ⟨fun i => ?_, fun i j => ?_⟩
    · have hstep := stuck (.step i) id
      rwa [move?, Option.isSome_map] at hstep
    · have hexchange := stuck (.exchange i j) id
      rwa [move?, Option.isSome_map] at hexchange
  rcases h.drives_or_waits hopen with hsome | ⟨htaken, hwaits⟩
  · rw [hdrive] at hsome
    cases hsome
  · obtain ⟨hcollecting, hgathering⟩ := h.out hworkers hroom hstill hpost htaken
    exact hwaits.elim hcollecting hgathering

/-! ## §3 — the end -/

/-- **At the end** the driver has returned its report, every worker has stopped and every customer
has departed. -/
theorem Orderly.ends (h : d.Orderly workers room customers) {e : Ending Report}
    (hended : d.ending? = some e) :
    (∃ r, e = .returned r) ∧ d.floor.people.length = workers + customers.length ∧
      (∀ w, w < workers → ∃ r, d.floor.people[w]? = some (.worker w (.ended (.returned r)))) ∧
      ∀ (k : Nat) (c : Customer), customers[k]? = some c →
        ∃ v, d.floor.people[workers + k]? = some (.customer c (.ended (.returned v))) := by
  obtain ⟨hreturned, hpeople, htaken⟩ := h.toGoing.ends hended
  refine ⟨hreturned, hpeople, fun w hw => ?_, fun k c hk => ?_⟩
  · rcases h.taken_outcome (htaken w (by omega)) with ⟨-, hstopped⟩ | ⟨hge, -⟩
    · exact hstopped
    · omega
  · have hlt := (List.getElem?_eq_some_iff.1 hk).1
    rcases h.taken_outcome (htaken (workers + k) (by omega)) with ⟨hlt', -⟩ | ⟨-, c', v, hv⟩
    · omega
    · have hbadge := h.badge hv
      rw [staff_customer, hk] at hbadge
      obtain rfl := Badge.customer.inj (Option.some.inj hbadge)
      exact ⟨v, hv⟩

/-- **At the end nothing can follow** any more. -/
theorem Orderly.at_rest (h : d.Orderly workers room customers) {e : Ending Report}
    (hended : d.ending? = some e) {m : Move} (hm : ¬ m.IsPanic) : d.move? m = none := by
  have hdriver := driver_of_ending? hended
  obtain ⟨-, -, htaken⟩ := h.toGoing.ends hended
  -- everybody is gone and has reported
  have hgone : ∀ (i : Nat) (p : Person), d.floor.people[i]? = some p →
      i ∈ d.posted ∧ p.step? d.floor.premises d.floor.offered = none ∧ p.sends? = none := by
    intro i p hi
    have hmem := htaken i (List.getElem?_eq_some_iff.1 hi).1
    rcases h.taken_outcome hmem with ⟨-, r, hr⟩ | ⟨-, c, v, hv⟩
    · obtain rfl := Option.some.inj (hi.symm.trans hr)
      exact ⟨List.mem_of_mem_take hmem, rfl, rfl⟩
    · obtain rfl := Option.some.inj (hi.symm.trans hv)
      exact ⟨List.mem_of_mem_take hmem, rfl, rfl⟩
  cases m with
  | step i =>
      cases hi : d.floor.people[i]? with
      | none => simp [move?, Floor.step?, hi]
      | some p => simp [move?, Floor.step?, hi, (hgone i p hi).2.1]
  | exchange i j =>
      cases hi : d.floor.people[i]? with
      | none => simp [move?, Floor.exchange?, hi]
      | some p => simp [move?, Floor.exchange?, hi, (hgone i p hi).2.2]
  | unwind i => exact absurd trivial hm
  | post i =>
      cases hi : d.floor.people[i]? with
      | none => simp [move?, post?, hi]
      | some p => simp [move?, post?, hi, (hgone i p hi).1]
  | drive => simp only [move?, drive?, hdriver]
  | unwindDriver => exact absurd trivial hm

end Orderly

/-- **A day comes to its end.** Take any configuration with room for a customer and with a worker,
and any list of tasks, and let nobody panic. The day begins, and then in every interleaving of the
workers, the customers and the driver: after any run there is a move that can follow, as long as the
driver has not returned; a run is shorter than `lengthBound`; and at the end of a run that nothing
can follow, the driver has returned its report, every worker has stopped and every customer has
departed. -/
theorem comes_to_its_end (plan : Plan) (chance : Nat) (runId : RunId) (clock : Nat)
    (hcapacity : 0 < plan.config.capacity) (hworkers : 0 < plan.config.workerCount)
    (hword : plan.config.workerCount ≤ wordMax) :
    ∃ d₀, opening plan chance runId clock = .ok d₀ ∧
      ∀ (ms : List Move) (d : Day), (∀ m ∈ ms, ¬ m.IsPanic) → run? ms d₀ = some d →
        ms.length < lengthBound plan.config.workerCount (plan.customers chance).length ∧
        (d.ending? = none → ∃ m : Move, ¬ m.IsPanic ∧ (d.move? m).isSome = true) ∧
        ((∀ m : Move, ¬ m.IsPanic → d.move? m = none) →
          (∃ r, d.ending? = some (.returned r)) ∧
          d.floor.people.length = plan.config.workerCount + (plan.customers chance).length ∧
          (∀ w, w < plan.config.workerCount →
            ∃ r, d.floor.people[w]? = some (.worker w (.ended (.returned r)))) ∧
          ∀ (k : Nat) (c : Customer), (plan.customers chance)[k]? = some c →
            ∃ v, d.floor.people[plan.config.workerCount + k]? =
              some (.customer c (.ended (.returned v)))) := by
  obtain ⟨d₀, hd₀⟩ := exists_opening chance runId clock hcapacity hworkers
  refine ⟨d₀, hd₀, fun ms d hms hrun => ?_⟩
  obtain ⟨h, hlength⟩ := (orderly_opening hd₀).run hword hms hrun
  -- a gate has no more permits than a word can count, and at least one
  have hroom : 0 < min plan.config.capacity wordMax :=
    Nat.lt_min.2 ⟨hcapacity, Nat.lt_of_lt_of_le hworkers hword⟩
  have hmoves := h.can_move hworkers hroom
  refine ⟨Nat.lt_of_le_of_lt (Nat.le_of_add_right_le hlength) (left_opening hd₀), hmoves,
    fun hstuck => ?_⟩
  cases hended : d.ending? with
  | none =>
      -- whoever has not ended can move
      obtain ⟨m, hm, hsome⟩ := hmoves hended
      rw [hstuck m hm] at hsome
      cases hsome
  | some e =>
      obtain ⟨⟨r, rfl⟩, hend⟩ := h.ends hended
      exact ⟨⟨r, rfl⟩, hend⟩

/-- One worker and one customer: a run of 64 moves, after which everybody is gone. -/
theorem comes_to_its_end_one :
    let plan : Plan := ⟨⟨1, 1, 1, 0, none⟩, some [.mailPackage]⟩
    let ms : List Move := List.flatten [[.drive], .replicate 7 (.step 0), [.drive, .drive],
      .replicate 10 (.step 1), [.exchange 1 0, .step 0, .step 0, .step 0, .exchange 0 1, .step 1,
      .step 1, .exchange 1 0], .replicate 10 (.step 0), [.exchange 0 1], .replicate 6 (.step 0),
      .replicate 5 (.step 1), [.post 1], .replicate 7 .drive, [.step 0, .post 0],
      .replicate 4 .drive]
    0 < plan.config.capacity ∧ 0 < plan.config.workerCount ∧ plan.config.workerCount ≤ wordMax ∧
      ∃ d₀ d, opening plan 0 ⟨0⟩ 0 = .ok d₀ ∧ run? ms d₀ = some d ∧ (∀ m ∈ ms, ¬ m.IsPanic) ∧
        ms.length < lengthBound 1 1 ∧ (∀ m : Move, ¬ m.IsPanic → d.move? m = none) ∧
        (∃ r, d.ending? = some (.returned r)) ∧ d.floor.people.length = 2 := by
  intro plan ms
  have hcalm : ∀ m ∈ ms, ¬ m.IsPanic := by
    simp [ms, or_imp, forall_and, Move.IsPanic]
  have hends : ((opening plan 0 ⟨0⟩ 0).toOption.bind (run? ms)).map (·.ending?.isSome) =
      some true := by
    decide +kernel
  obtain ⟨d₀, hd₀, hday⟩ :=
    comes_to_its_end plan 0 ⟨0⟩ 0 (by decide) (by decide) (by decide)
  rw [hd₀, Except.toOption, Option.bind_some] at hends
  obtain ⟨d, hrun, hsome⟩ := Option.map_eq_some_iff.1 hends
  obtain ⟨e, hended⟩ := Option.isSome_iff_exists.1 hsome
  obtain ⟨hlength, -, hrest⟩ := hday ms d hcalm hrun
  have horderly := (orderly_opening hd₀).run (by decide) hcalm hrun
  have hstuck : ∀ m : Move, ¬ m.IsPanic → d.move? m = none :=
    fun m hm => horderly.1.at_rest hended hm
  obtain ⟨hreturned, hpeople, -⟩ := hrest hstuck
  exact ⟨by decide, by decide, by decide, d₀, d, hd₀, hrun, hcalm, hlength, hstuck, hreturned,
    hpeople⟩

end Day

end Postal

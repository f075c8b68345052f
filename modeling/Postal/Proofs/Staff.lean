import Mathlib.Data.List.Nodup
import Mathlib.Data.List.Perm.Subperm
import Postal.Day
import Postal.Proofs.Facilities

/-!
# The staff of a day, and the books of its driver.

People come in the order in which the driver starts them, workers first, so that whoever has a
number is known before it comes (`Day.staff`). Everybody reports once, and what somebody has
reported stays (`Day.Staffed`). As long as the driver has taken no failure, its books hold the
outcomes that it has taken and nothing else (`Day.Going`): one visit from each customer who has
reported to it, and one report from each worker.

## §1 — people who have reported.
## §2 — the staff.
## §3 — the books of the driver.
-/

namespace Postal

/-! ## §1 — people who have reported -/

section Counting

variable {l t : List Nat} {p : Nat → Bool}

/-- No more numbers of a kind occur than there are, if none occurs twice. -/
theorem countP_le_of_subset (hl : l.Nodup) (hsub : ∀ x ∈ l, p x = true → x ∈ t) :
    l.countP p ≤ t.length := by
  rw [List.countP_eq_length_filter]
  refine (hl.filter p).length_le_of_subset fun x hx => ?_
  obtain ⟨hmem, hp⟩ := List.mem_filter.1 hx
  exact hsub x hmem hp

/-- If as many numbers of a kind occur as there are, then all of them do. -/
theorem mem_of_le_countP (hl : l.Nodup) (hsub : ∀ x ∈ l, p x = true → x ∈ t)
    (hcount : t.length ≤ l.countP p) {x : Nat} (hx : x ∈ t) : x ∈ l := by
  have hsubperm : (l.filter p).Subperm t := by
    refine List.subperm_of_subset (hl.filter p) fun x hx => ?_
    obtain ⟨hmem, hp⟩ := List.mem_filter.1 hx
    exact hsub x hmem hp
  rw [List.countP_eq_length_filter] at hcount
  exact (List.mem_filter.1 ((hsubperm.perm_of_length_le hcount).mem_iff.2 hx)).1

/-- If all numbers of a kind occur then so many do. -/
theorem le_countP_of_subset (ht : t.Nodup) (hsub : ∀ x ∈ t, x ∈ l ∧ p x = true) :
    t.length ≤ l.countP p := by
  rw [List.countP_eq_length_filter]
  exact ht.length_le_of_subset fun x hx => List.mem_filter.2 (hsub x hx)

/-- What stands at a place of a list without repetitions does not stand before it. -/
theorem not_mem_take_of_getElem? (hl : l.Nodup) {i x : Nat} (hi : l[i]? = some x) :
    x ∉ l.take i := by
  intro hmem
  obtain ⟨j, hj⟩ := List.mem_iff_getElem?.1 hmem
  rw [List.getElem?_take] at hj
  split at hj
  · next hlt =>
    have heq := (List.getElem?_inj (List.getElem?_eq_some_iff.1 hj).1 hl).1 (hj.trans hi.symm)
    omega
  · cases hj

end Counting

/-- Whoever steps has nothing to report yet. -/
theorem Visiting.Steps.going {c : Customer} {p p' : Premises} {v v' : Visiting}
    (h : v.Steps c p v' p') : v.ending? = none := by
  cases h <;> rfl

theorem Working.Steps.going {id : Nat} {p p' : Premises} {offered : Bool} {k k' : Working}
    (h : k.Steps id p offered k' p') : k.ending? = none := by
  cases h with
  | @breaks k s needed hs hneeds hphase f => cases k <;> first | rfl | cases hneeds
  | _ => rfl

/-- Whoever has ended has something to report, unless it has closed the office. -/
theorem Person.outcome?_of_hasEnded {p : Person} (h : p.hasEnded = true)
    (hbadge : p.badge ≠ .closer) : p.outcome?.isSome = true := by
  cases p with
  | closer k => exact absurd rfl hbadge
  | _ => rwa [outcome?, Option.isSome_map]

/-- Whoever announces something has nothing to report yet. -/
theorem Person.outcome?_of_unwind {p p' : Person} (h : p.unwind? = some p') :
    p.outcome? = none := by
  cases unwinds_of_unwind? h with
  | @working w k e he hscale => cases k <;> first | rfl | cases he
  | _ => rfl

namespace Floor

/-- **Whoever has something to report** stays as it is in every step. -/
theorem Steps.outcome_stays {f f' : Floor} {i j : Nat} {p : Person} (h : f.Steps i f')
    (hj : f.people[j]? = some p) (ho : p.outcome?.isSome = true) : f'.people[j]? = some p := by
  have other : ∀ {q q' : Person}, f.people[i]? = some q → q.outcome? = none →
      (f.people.set i q')[j]? = some p := by
    intro q q' hi hnone
    rw [List.getElem?_set_ne]
    · exact hj
    · rintro rfl
      obtain rfl := Option.some.inj (hi.symm.trans hj)
      rw [hnone] at ho
      cases ho
  cases h with
  | customer hi hv => exact other hi (by rw [Person.outcome?, hv.going]; rfl)
  | worker hi hk => exact other hi (by rw [Person.outcome?, hk.going]; rfl)
  | closer hi hk => exact other hi rfl

/-- Whoever has something to report has no part in an exchange. -/
theorem Exchanges.outcome_stays {people people' : List Person} {i j k w : Nat} {p : Person}
    (h : Exchanges people i j w people') (hk : people[k]? = some p)
    (ho : p.outcome?.isSome = true) : people'[k]? = some p := by
  obtain ⟨a, a', b, b', ha, hb, -, haa', hbb', rfl⟩ := h.swaps
  rw [List.getElem?_set_ne, List.getElem?_set_ne]
  · exact hk
  · rintro rfl
    obtain rfl := Option.some.inj (ha.symm.trans hk)
    cases haa' <;> cases ho
  · rintro rfl
    obtain rfl := Option.some.inj (hb.symm.trans hk)
    cases hbb' <;> cases ho

/-- **Whoever has something to report** stays as it is in every move. -/
theorem outcome_stays {f f' : Floor} {m : Move} {i : Nat} {p : Person}
    (hmove : f.move? m = some f') (hi : f.people[i]? = some p) (ho : p.outcome?.isSome = true) :
    f'.people[i]? = some p := by
  cases m with
  | step j => exact (steps_of_step? hmove).outcome_stays hi ho
  | exchange j k =>
      obtain ⟨w, people', -, hex, rfl⟩ := exchanges_of_exchange? hmove
      exact hex.outcome_stays hi ho
  | unwind j =>
      obtain ⟨q, q', hj, hunwind, rfl⟩ := unwind?_eq_some hmove
      rw [List.getElem?_set_ne]
      · exact hi
      · rintro rfl
        obtain rfl := Option.some.inj (hj.symm.trans hi)
        rw [Person.outcome?_of_unwind hunwind] at ho
        cases ho
  | fire =>
      obtain rfl := Option.some.inj hmove
      exact hi
  | join q =>
      obtain rfl := Option.some.inj hmove
      exact (List.getElem?_append_left (List.getElem?_eq_some_iff.1 hi).1).trans hi

/-- What person `i` has to report. -/
def outcome? (f : Floor) (i : Nat) : Option Outcome := (f.people[i]?).bind Person.outcome?

theorem outcome?_eq_some {f : Floor} {i : Nat} {o : Outcome} :
    f.outcome? i = some o ↔ ∃ p, f.people[i]? = some p ∧ p.outcome? = some o :=
  Option.bind_eq_some_iff

end Floor

/-- The visit that an outcome brings. -/
def Outcome.visit? : Outcome → Option Visit
  | .visit v => some v
  | _ => none

/-- The report that an outcome brings. -/
def Outcome.report? : Outcome → Option WorkerReport
  | .report r => some r
  | _ => none

namespace Day

/-- The next outcome to be taken is that of the next person who has reported. -/
theorem next?_eq (d : Day) : d.next? = (d.posted[d.taken]?).bind d.floor.outcome? := rfl

/-! ## §2 — the staff -/

/-- The numbers of the customers, who come after the workers. -/
def guests (workers : Nat) (customers : List Customer) : List Nat :=
  List.range' workers customers.length

/-- Everybody whom the driver starts, in that order. -/
def staff (workers : Nat) (customers : List Customer) : List Badge :=
  (List.range workers).map .worker ++ customers.map .customer

theorem length_staff (workers : Nat) (customers : List Customer) :
    (staff workers customers).length = workers + customers.length := by
  simp [staff]

theorem staff_worker {workers : Nat} (customers : List Customer) {w : Nat} (hw : w < workers) :
    (staff workers customers)[w]? = some (.worker w) := by
  rw [staff, List.getElem?_append_left (by simpa using hw)]
  simp [hw]

theorem staff_customer (workers : Nat) (customers : List Customer) (k : Nat) :
    (staff workers customers)[workers + k]? = customers[k]?.map .customer := by
  rw [staff, List.getElem?_append_right (by simp)]
  simp

/-- Only the number of a worker has its badge. -/
theorem staff_lt_of_worker {workers : Nat} {customers : List Customer} {i w : Nat}
    (h : (staff workers customers)[i]? = some (.worker w)) : i < workers := by
  by_contra hi
  obtain ⟨k, rfl⟩ := Nat.exists_eq_add_of_le (Nat.le_of_not_lt hi)
  rw [staff_customer] at h
  obtain ⟨c, -, hc⟩ := Option.map_eq_some_iff.1 h
  cases hc

theorem staff_eq_worker {workers : Nat} {customers : List Customer} {i w : Nat}
    (h : (staff workers customers)[i]? = some (.worker w)) : i = w := by
  rw [staff_worker customers (staff_lt_of_worker h)] at h
  exact Badge.worker.inj (Option.some.inj h)

/-- Nobody of the staff closes the office. -/
theorem staff_ne_closer {workers : Nat} {customers : List Customer} :
    .closer ∉ staff workers customers := by
  simp [staff]

/-- **`d.Staffed workers customers`** — those of the staff who have come, in their order, and those
of them who have reported, each of them once. -/
structure Staffed (workers : Nat) (customers : List Customer) (d : Day) : Prop where
  crew : d.config.workerCount = workers
  list : d.customers = customers
  come : d.floor.badges = (staff workers customers).take d.floor.people.length
  once : d.posted.Nodup
  finished : ∀ i ∈ d.posted, ∃ p, d.floor.people[i]? = some p ∧ p.outcome?.isSome = true
  taken : d.taken ≤ d.posted.length

section Staffed

variable {workers : Nat} {customers : List Customer} {d : Day}

/-- Whoever has come is the next of the staff. -/
theorem Staffed.badge (h : d.Staffed workers customers) {i : Nat} {p : Person}
    (hi : d.floor.people[i]? = some p) : (staff workers customers)[i]? = some p.badge := by
  have hlt := (List.getElem?_eq_some_iff.1 hi).1
  have hbadge := Floor.badge_of_getElem? hi
  rw [h.come, List.getElem?_take, if_pos hlt] at hbadge
  exact hbadge

/-- No more come than the staff. -/
theorem Staffed.people_le (h : d.Staffed workers customers) :
    d.floor.people.length ≤ workers + customers.length := by
  have hlength := congrArg List.length h.come
  rw [Floor.badges, List.length_map, List.length_take, length_staff] at hlength
  omega

/-- Nobody comes to close the office. -/
theorem Staffed.unclosed (h : d.Staffed workers customers) : .closer ∉ d.floor.badges := by
  intro hmem
  rw [h.come] at hmem
  exact staff_ne_closer (List.mem_of_mem_take hmem)

/-- Customers come after all workers. -/
theorem Staffed.le_of_customer (h : d.Staffed workers customers) {i : Nat} {c : Customer}
    {v : Visiting} (hi : d.floor.people[i]? = some (.customer c v)) : workers ≤ i := by
  have hbadge := h.badge hi
  by_contra hlt
  rw [staff_worker customers (Nat.lt_of_not_le hlt)] at hbadge
  cases hbadge

/-- A worker has the number of its badge. -/
theorem Staffed.worker (h : d.Staffed workers customers) {w : Nat} (hw : w < workers)
    (hcome : w < d.floor.people.length) : ∃ k, d.floor.people[w]? = some (.worker w k) := by
  have hp := List.getElem?_eq_getElem hcome
  have hbadge := h.badge hp
  rw [staff_worker customers hw] at hbadge
  cases hperson : d.floor.people[w] with
  | worker v k =>
      rw [hperson] at hp hbadge
      obtain rfl := Badge.worker.inj (Option.some.inj hbadge)
      exact ⟨k, hp⟩
  | customer c v =>
      rw [hperson] at hbadge
      cases hbadge
  | closer k =>
      rw [hperson] at hbadge
      cases hbadge

/-- A customer has the number that follows from its place in the list. -/
theorem Staffed.customer (h : d.Staffed workers customers) {k : Nat} {c : Customer}
    (hk : customers[k]? = some c) (hcome : workers + k < d.floor.people.length) :
    ∃ v, d.floor.people[workers + k]? = some (.customer c v) := by
  have hp := List.getElem?_eq_getElem hcome
  have hbadge := h.badge hp
  rw [staff_customer, hk] at hbadge
  cases hperson : d.floor.people[workers + k] with
  | customer c' v =>
      rw [hperson] at hp hbadge
      obtain rfl := Badge.customer.inj (Option.some.inj hbadge)
      exact ⟨v, hp⟩
  | worker w k' =>
      rw [hperson] at hbadge
      cases hbadge
  | closer k' =>
      rw [hperson] at hbadge
      cases hbadge

/-- The next worker to come is not there yet. -/
theorem Staffed.newcomer (h : d.Staffed workers customers) :
    .worker d.floor.people.length ∉ d.floor.badges := by
  intro hmem
  obtain ⟨i, hi⟩ := List.mem_iff_getElem?.1 hmem
  rw [h.come, List.getElem?_take] at hi
  split at hi
  · next hlt => exact absurd (staff_eq_worker hi) (Nat.ne_of_lt hlt)
  · cases hi

/-- Whoever has reported is one of the staff. -/
theorem Staffed.posted_lt (h : d.Staffed workers customers) {i : Nat} (hi : i ∈ d.posted) :
    i < workers + customers.length := by
  obtain ⟨p, hp, -⟩ := h.finished i hi
  exact Nat.lt_of_lt_of_le (List.getElem?_eq_some_iff.1 hp).1 h.people_le

theorem Staffed.staffing_eq (h : d.Staffed workers customers) :
    d.staffing = workers + customers.length := by
  rw [staffing, h.crew, h.list]

/-- No more people report than there are. -/
theorem Staffed.posted_le (h : d.Staffed workers customers) : d.posted.length ≤ d.staffing := by
  have hsub : d.posted ⊆ List.range d.staffing := by
    intro i hi
    rw [List.mem_range, h.staffing_eq]
    exact h.posted_lt hi
  have hle := h.once.length_le_of_subset hsub
  rwa [List.length_range] at hle

/-- The numbers that the driver has taken are different numbers of the staff. -/
theorem Staffed.taken_nodup (h : d.Staffed workers customers) : (d.posted.take d.taken).Nodup :=
  h.once.sublist (List.take_sublist _ _)

/-- **What somebody reports**: a failure, or else a worker a report and a customer a visit. -/
theorem Staffed.outcome (h : d.Staffed workers customers) {i : Nat} {p : Person} {o : Outcome}
    (hi : d.floor.people[i]? = some p) (ho : p.outcome? = some o) :
    (∃ e, o = .failed e) ∨
      (i < workers ∧ ∃ r, p = .worker i (.ended (.returned r)) ∧ o = .report r) ∨
      workers ≤ i ∧ ∃ c v, p = .customer c (.ended (.returned v)) ∧ o = .visit v := by
  have hbadge := h.badge hi
  cases p with
  | closer k => cases ho
  | worker w k =>
      obtain ⟨e, he, rfl⟩ := Option.map_eq_some_iff.1 ho
      obtain rfl := Working.eq_ended he
      obtain rfl := staff_eq_worker hbadge
      cases e with
      | returned r => exact .inr (.inl ⟨staff_lt_of_worker hbadge, r, rfl, rfl⟩)
      | failed f => exact .inl ⟨f, rfl⟩
      | panicked => exact .inl ⟨_, rfl⟩
  | customer c v =>
      obtain ⟨e, he, rfl⟩ := Option.map_eq_some_iff.1 ho
      obtain rfl := Visiting.eq_ended he
      cases e with
      | returned visit => exact .inr (.inr ⟨h.le_of_customer hi, c, visit, rfl, rfl⟩)
      | failed f => exact .inl ⟨f, rfl⟩
      | panicked => exact .inl ⟨_, rfl⟩

/-- **What is next to be taken**: nothing, when everything is, or the outcome of the next person
who has reported. -/
theorem Staffed.next?_cases (h : d.Staffed workers customers) :
    (d.next? = none ∧ d.taken = d.posted.length) ∨
      ∃ i, d.posted[d.taken]? = some i ∧
        ((i < workers ∧ ∃ r, d.floor.outcome? i = some (.report r)) ∨
          (workers ≤ i ∧ ∃ v, d.floor.outcome? i = some (.visit v)) ∨
          ∃ e, d.floor.outcome? i = some (.failed e)) := by
  rcases Nat.lt_or_ge d.taken d.posted.length with hlt | hge
  · have hi : d.posted[d.taken]? = some d.posted[d.taken] := List.getElem?_eq_getElem hlt
    refine .inr ⟨_, hi, ?_⟩
    obtain ⟨p, hp, hsome⟩ := h.finished _ (List.mem_of_getElem? hi)
    obtain ⟨o, ho⟩ := Option.isSome_iff_exists.1 hsome
    have hout := Floor.outcome?_eq_some.2 ⟨p, hp, ho⟩
    rcases h.outcome hp ho with ⟨e, rfl⟩ | ⟨hw, r, -, rfl⟩ | ⟨hg, c, v, -, rfl⟩
    · exact .inr (.inr ⟨e, hout⟩)
    · exact .inl ⟨hw, r, hout⟩
    · exact .inr (.inl ⟨hg, v, hout⟩)
  · refine .inl ⟨?_, Nat.le_antisymm h.taken hge⟩
    rw [next?_eq, List.getElem?_eq_none hge, Option.bind_none]

end Staffed

end Day

/-! ## §3 — the books of the driver -/

/-- Where a driver that has taken no failure can stand: who has come, whether the shutdown has
fired, and how many have reported. -/
def Driver.Stands (workers : Nat) (customers : List Customer) (d : Day) : Driver → Prop
  | .hiring => d.floor.people.length ≤ workers ∧ d.floor.premises.fired = false
  | .welcoming => workers ≤ d.floor.people.length ∧ d.floor.premises.fired = false
  | .collecting =>
    d.floor.people.length = workers + customers.length ∧ d.floor.premises.fired = false
  | .joining _ | .firing =>
    d.floor.people.length = workers + customers.length ∧ d.visits.length = customers.length ∧
      d.floor.premises.fired = false
  | .announcingJoined k _ =>
    d.floor.people.length = workers + customers.length ∧ d.visits.length = customers.length ∧
      d.floor.premises.fired = false ∧ k < customers.length
  | .gathering =>
    d.floor.people.length = workers + customers.length ∧ d.visits.length = customers.length ∧
      d.floor.premises.fired = true
  | .parting _ | .ended (.returned _) =>
    d.floor.people.length = workers + customers.length ∧ d.visits.length = customers.length ∧
      d.reports.length = workers
  | _ => False

/-- Where the driver can stand depends on a few numbers only. -/
theorem Driver.Stands.congr {workers : Nat} {customers : List Customer} {d d' : Day}
    {driver : Driver} (h : driver.Stands workers customers d)
    (hpeople : d'.floor.people.length = d.floor.people.length)
    (hfired : d'.floor.premises.fired = d.floor.premises.fired)
    (hvisits : d'.visits.length = d.visits.length)
    (hreports : d'.reports.length = d.reports.length) : driver.Stands workers customers d' := by
  cases driver with
  | aborting position f => exact h.elim
  | givingUp f => exact h.elim
  | ended e =>
      cases e with
      | returned r => simpa only [Stands, hpeople, hvisits, hreports] using h
      | failed f => exact h.elim
      | panicked => exact h.elim
  | _ => simpa only [Stands, hpeople, hfired, hvisits, hreports] using h

namespace Day

/-- **`d.Going workers customers`** — a day whose driver has taken no failure: its books hold the
visits and the reports that it has taken, in that order. -/
structure Going (workers : Nat) (customers : List Customer) (d : Day) : Prop
    extends Staffed workers customers d where
  visits : d.visits =
    (d.posted.take d.taken).filterMap fun i => (d.floor.outcome? i).bind Outcome.visit?
  reports : d.reports =
    (d.posted.take d.taken).filterMap fun i => (d.floor.outcome? i).bind Outcome.report?
  clean : ∀ i ∈ d.posted.take d.taken, ∀ e, d.floor.outcome? i ≠ some (.failed e)
  stands : d.driver.Stands workers customers d

/-- What holds of a day where the driver stands. -/
theorem Going.stands_at {workers : Nat} {customers : List Customer} {d : Day}
    (h : d.Going workers customers) {driver : Driver} (hdriver : d.driver = driver) :
    driver.Stands workers customers d := hdriver ▸ h.stands

/-- Where the day has ended the driver has. -/
theorem driver_of_ending? {d : Day} {e : Ending Report} (hended : d.ending? = some e) :
    d.driver = .ended e := by
  rw [ending?] at hended
  split at hended
  · next hdriver => rw [hdriver, Option.some.inj hended]
  · cases hended

section Going

variable {workers : Nat} {customers : List Customer} {d : Day}

/-- Whoever the driver has taken an outcome from is a worker with a report or a customer with a
visit. -/
theorem Going.taken_outcome (h : d.Going workers customers) {i : Nat}
    (hi : i ∈ d.posted.take d.taken) :
    (i < workers ∧ ∃ r, d.floor.people[i]? = some (.worker i (.ended (.returned r)))) ∨
      workers ≤ i ∧ ∃ c v, d.floor.people[i]? = some (.customer c (.ended (.returned v))) := by
  obtain ⟨p, hp, hsome⟩ := h.finished i (List.mem_of_mem_take hi)
  obtain ⟨o, ho⟩ := Option.isSome_iff_exists.1 hsome
  rcases h.outcome hp ho with ⟨e, rfl⟩ | ⟨hw, r, rfl, -⟩ | ⟨hg, c, v, rfl, -⟩
  · exact absurd (Floor.outcome?_eq_some.2 ⟨p, hp, ho⟩) (h.clean i hi e)
  · exact .inl ⟨hw, r, hp⟩
  · exact .inr ⟨hg, c, v, hp⟩

/-- There is a visit in the books for each customer whose outcome was taken. -/
theorem Going.length_visits (h : d.Going workers customers) :
    d.visits.length = (d.posted.take d.taken).countP (workers ≤ ·) := by
  rw [h.visits, List.length_filterMap_eq_countP]
  refine List.countP_congr fun i hi => ?_
  rcases h.taken_outcome hi with ⟨hw, r, hp⟩ | ⟨hg, c, v, hp⟩
  · simp [Floor.outcome?, hp, Person.outcome?, Working.ending?, Outcome.ofShift, Outcome.visit?, hw]
  · simp [Floor.outcome?, hp, Person.outcome?, Visiting.ending?, Outcome.ofVisit, Outcome.visit?,
      hg]

/-- There is a report in the books for each worker whose outcome was taken. -/
theorem Going.length_reports (h : d.Going workers customers) :
    d.reports.length = (d.posted.take d.taken).countP (· < workers) := by
  rw [h.reports, List.length_filterMap_eq_countP]
  refine List.countP_congr fun i hi => ?_
  rcases h.taken_outcome hi with ⟨hw, r, hp⟩ | ⟨hg, c, v, hp⟩
  · simp [Floor.outcome?, hp, Person.outcome?, Working.ending?, Outcome.ofShift, Outcome.report?,
      hw]
  · simp [Floor.outcome?, hp, Person.outcome?, Visiting.ending?, Outcome.ofVisit, Outcome.report?,
      hg]

/-- There are no more visits than customers. -/
theorem Going.visits_le (h : d.Going workers customers) : d.visits.length ≤ customers.length := by
  have hle := countP_le_of_subset (t := guests workers customers) (p := (workers ≤ ·))
    h.taken_nodup fun i hi hguest => by
      have hlt := h.posted_lt (List.mem_of_mem_take hi)
      simp only [decide_eq_true_eq] at hguest
      simp only [guests, List.mem_range'_1]
      omega
  rw [guests, List.length_range'] at hle
  rw [h.length_visits]
  exact hle

/-- There are no more reports than workers. -/
theorem Going.reports_le (h : d.Going workers customers) : d.reports.length ≤ workers := by
  have hle := countP_le_of_subset (t := List.range workers) (p := (· < workers))
    h.taken_nodup fun i _ hworker => by simpa using hworker
  rw [List.length_range] at hle
  rw [h.length_reports]
  exact hle

/-- **Once there are as many visits as customers**, the driver has taken them from all. -/
theorem Going.all_visits (h : d.Going workers customers)
    (hall : d.visits.length = customers.length) {k : Nat} (hk : k < customers.length) :
    workers + k ∈ d.posted.take d.taken := by
  refine mem_of_le_countP (t := guests workers customers) (p := (workers ≤ ·)) h.taken_nodup
    (fun i hi hguest => ?_) ?_ ?_
  · have hlt := h.posted_lt (List.mem_of_mem_take hi)
    simp only [decide_eq_true_eq] at hguest
    simp only [guests, List.mem_range'_1]
    omega
  · rw [guests, List.length_range', ← h.length_visits]
    exact Nat.le_of_eq hall.symm
  · simp only [guests, List.mem_range'_1]
    omega

/-- Once there are as many visits as customers, the driver has taken that of every customer. -/
theorem Going.customer_taken (h : d.Going workers customers)
    (hall : d.visits.length = customers.length) {i : Nat} {c : Customer} {v : Visiting}
    (hi : d.floor.people[i]? = some (.customer c v)) : i ∈ d.posted.take d.taken := by
  have hlt := (List.getElem?_eq_some_iff.1 hi).1
  have hle := h.people_le
  obtain ⟨k, rfl⟩ := Nat.exists_eq_add_of_le (h.le_of_customer hi)
  exact h.all_visits hall (by omega)

/-- **Once there are as many reports as workers**, the driver has taken them from all. -/
theorem Going.all_reports (h : d.Going workers customers) (hall : d.reports.length = workers)
    {w : Nat} (hw : w < workers) : w ∈ d.posted.take d.taken := by
  refine mem_of_le_countP (t := List.range workers) (p := (· < workers)) h.taken_nodup
    (fun i _ hworker => by simpa using hworker) ?_ (by simpa using hw)
  rw [List.length_range, ← h.length_reports]
  exact Nat.le_of_eq hall.symm

/-- **At the end** of a day whose driver has taken no failure, it has returned its report, and it
has taken what everybody has reported. -/
theorem Going.ends (h : d.Going workers customers) {ending : Ending Report}
    (hended : d.ending? = some ending) :
    (∃ r, ending = .returned r) ∧ d.floor.people.length = workers + customers.length ∧
      ∀ i, i < d.floor.people.length → i ∈ d.posted.take d.taken := by
  have hstands := h.stands_at (driver_of_ending? hended)
  cases ending with
  | failed e => exact hstands.elim
  | panicked => exact hstands.elim
  | returned r =>
      obtain ⟨hpeople, hvisits, hreports⟩ := hstands
      refine ⟨⟨r, rfl⟩, hpeople, fun i hi => ?_⟩
      rcases Nat.lt_or_ge i workers with hw | hg
      · exact h.all_reports hreports hw
      · obtain ⟨k, rfl⟩ := Nat.exists_eq_add_of_le hg
        exact h.all_visits hvisits (by omega)

/-- When all customers have reported and everything is taken, there are as many visits. -/
theorem Going.visits_of_posted (h : d.Going workers customers) (htaken : d.taken = d.posted.length)
    (hall : ∀ k, k < customers.length → workers + k ∈ d.posted) :
    customers.length ≤ d.visits.length := by
  have hle := le_countP_of_subset (l := d.posted) (t := guests workers customers)
    (p := (workers ≤ ·)) List.nodup_range' fun i hi => by
      simp only [guests, List.mem_range'_1] at hi
      obtain ⟨k, rfl⟩ := Nat.exists_eq_add_of_le hi.1
      exact ⟨hall k (by omega), by simp⟩
  rw [guests, List.length_range'] at hle
  rw [h.length_visits, htaken, List.take_length]
  exact hle

/-- When all workers have reported and everything is taken, there are as many reports. -/
theorem Going.reports_of_posted (h : d.Going workers customers) (htaken : d.taken = d.posted.length)
    (hall : ∀ w, w < workers → w ∈ d.posted) : workers ≤ d.reports.length := by
  have hle := le_countP_of_subset (l := d.posted) (t := List.range workers) (p := (· < workers))
    List.nodup_range fun i hi => by
      rw [List.mem_range] at hi
      exact ⟨hall i hi, by simpa using hi⟩
  rw [List.length_range] at hle
  rw [h.length_reports, htaken, List.take_length]
  exact hle

/-- When everybody has reported and everything is taken, all visits and all reports are there. -/
theorem Going.complete (h : d.Going workers customers)
    (hall : workers + customers.length ≤ d.posted.length) (htaken : d.taken = d.posted.length) :
    d.visits.length = customers.length ∧ d.reports.length = workers := by
  have hvisits := h.length_visits
  have hreports := h.length_reports
  have hvisits_le := h.visits_le
  have hreports_le := h.reports_le
  rw [htaken, List.take_length] at hvisits hreports
  -- whoever has reported is a customer or a worker, and there are no more of either than came
  have hparts := List.length_eq_countP_add_countP (l := d.posted) (p := (workers ≤ ·))
  have hrest : d.posted.countP (fun i => decide ¬ decide (workers ≤ i) = true) =
      d.posted.countP (· < workers) :=
    List.countP_congr fun i _ => by simp
  rw [hrest] at hparts
  omega

end Going

end Day

end Postal

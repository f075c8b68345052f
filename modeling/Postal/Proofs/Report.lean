import Postal.Proofs.Abort
import Postal.Proofs.Booking
import Postal.Proofs.Draws
import Postal.Proofs.Tickets

/-!
# What the report of a day says.

A day that ends with a report has seen no panic, so it was orderly from its beginning. Then both
sides of every desk agree on what was served, everybody leaves with a visit of its own, and no
ticket is given out twice (`Floor.Booked`). At the end the books of the driver hold the visits and
the reports of all people, in the order in which they came out; the report lists them by their
numbers, which is the order of the staff (`Day.report_accounts_for_all`).

## §1 — the order of the report.
## §2 — the customers of a plan.
## §3 — what an orderly day keeps of the visits.
## §4 — the books at the end.
## §5 — the report.
-/

namespace Postal

/-! ## §1 — the order of the report -/

section Order

variable {A B : Type}

/-- A list in the order of its keys is the one with the same members that is strictly so. -/
theorem eq_of_ordered (key : A → Nat) {l l' : List A} (hperm : l.Perm l')
    (hl : l.Pairwise fun a b => key a ≤ key b) (hl' : l'.Pairwise fun a b => key a < key b) :
    l = l' := by
  have hdiffer : l.Pairwise fun a b => key a ≠ key b :=
    (hperm.pairwise_iff fun h => Ne.symm h).2 (hl'.imp Nat.ne_of_lt)
  have hstrict : l.Pairwise fun a b => key a < key b :=
    hl.imp₂ (fun _ _ hle hne => Nat.lt_of_le_of_ne hle hne) hdiffer
  exact hperm.eq_of_pairwise (fun a b _ _ hab hba => absurd hab (Nat.lt_asymm hba)) hstrict hl'

/-- **What is sorted by a key** of what the members show, is shown in the order of these keys. -/
theorem map_mergeSort (key : B → Nat) (shown : A → B) {l : List A} {l' : List B}
    (hperm : (l.map shown).Perm l') (hl' : l'.Pairwise fun a b => key a < key b) :
    (l.mergeSort fun a b => key (shown a) ≤ key (shown b)).map shown = l' := by
  refine eq_of_ordered key (((List.mergeSort_perm l _).map shown).trans hperm) ?_ hl'
  rw [List.pairwise_map]
  have hsorted : (l.mergeSort fun a b => key (shown a) ≤ key (shown b)).Pairwise
      fun a b => decide (key (shown a) ≤ key (shown b)) = true := by
    refine List.pairwise_mergeSort (fun a b c hab hbc => ?_) (fun a b => ?_) l
    · simp only [decide_eq_true_eq] at *
      omega
    · simp only [Bool.or_eq_true, decide_eq_true_eq]
      omega
  exact hsorted.imp fun h => of_decide_eq_true h

/-- What is at the places of a list, one after another. -/
theorem filterMap_range (l : List A) (bring : A → Option B) :
    ((List.range l.length).filterMap fun i => (l[i]?).bind bring) = l.filterMap bring := by
  induction l with
  | nil => rfl
  | cons a l ih =>
      rw [List.length_cons, List.range_succ_eq_map, List.filterMap_cons, List.filterMap_map,
        List.filterMap_cons, ← ih]
      rfl

end Order

/-! ## §2 — the customers of a plan -/

/-- **The plans that can be made**: with tasks that are drawn, or with fixed ones, which then are as
many as the customers. -/
inductive Plan.Made : Plan → Prop
  | drawn (c : Config) : Made (.ofConfig c)
  | fixed {p : Plan} (h : Made p) (tasks : List Task) : Made (p.withTasks tasks)

/-- **As many customers come** as the configuration says. -/
theorem Plan.Made.length_customers {p : Plan} (h : p.Made) (chance : Nat) :
    (p.customers chance).length = p.config.customerCount := by
  cases h with
  | drawn c => simp [Plan.customers, Plan.tasks, Plan.ofConfig, Customer.ofTasks, Random.tasks,
      Random.length_draw]
  | fixed h tasks => simp [Plan.customers, Plan.tasks, Plan.withTasks, Customer.ofTasks]

/-- The ids of the customers are the numbers from 0 on. -/
theorem map_id_ofTasks (tasks : List Task) :
    (Customer.ofTasks tasks).map (·.id) = List.range (Customer.ofTasks tasks).length := by
  refine List.ext_getElem (by simp) fun i hi _ => ?_
  simp [Customer.ofTasks]

/-- The customers have the tasks that they were made for. -/
theorem map_task_ofTasks (tasks : List Task) :
    (Customer.ofTasks tasks).map (·.task) = tasks := by
  refine List.ext_getElem (by simp [Customer.ofTasks]) fun i hi _ => ?_
  simp [Customer.ofTasks]

/-- The customers are in the order of their ids. -/
theorem pairwise_ofTasks (tasks : List Task) :
    (Customer.ofTasks tasks).Pairwise fun c d => c.id < d.id := by
  have hids := List.pairwise_lt_range (n := (Customer.ofTasks tasks).length)
  rwa [← map_id_ofTasks, List.pairwise_map] at hids

/-! ## §3 — what an orderly day keeps of the visits -/

namespace Floor

/-- **`f.Booked workers`** — both sides of every desk agree, everybody leaves with a visit of its
own, and has a ticket of its own. -/
structure Booked (workers : Nat) (f : Floor) : Prop where
  agrees : f.Agrees workers
  own : ∀ (i : Nat) (p : Person), f.people[i]? = some p → p.Own workers
  ticketed : f.Ticketed

variable {workers room : Nat} {f f' : Floor}

/-- **Every move in a calm office** keeps the visits in order. -/
theorem Booked.move (h : f.Booked workers) (hcalm : f.Calm workers room)
    (hcalm' : f'.Calm workers room) {m : Move} (hmove : f.move? m = some f')
    (hm : ∀ i, m ≠ .unwind i)
    (hjoin : ∀ p, m = .join p → (∃ c, p = .arrives c) ∨ ∃ w, p = .starts w) :
    f'.Booked workers := by
  obtain ⟨ledgers, hkept⟩ := hcalm.kept
  refine ⟨h.agrees.move hkept hmove hm fun p hp w => ?_, hkept.own hmove (fun p hp => ?_) h.own,
    h.ticketed.move hmove hcalm.isOpen hcalm.unclosed (fun i p hi => (hcalm'.well i p hi).sound) hm
      fun p hp n => ?_⟩
  · rcases hjoin p hp with ⟨c, rfl⟩ | ⟨v, rfl⟩
    · exact arrives_unserved c w
    · exact starts_unserved v w
  · rcases hjoin p hp with ⟨c, rfl⟩ | ⟨w, rfl⟩ <;> trivial
  · rcases hjoin p hp with ⟨c, rfl⟩ | ⟨w, rfl⟩ <;> rfl

/-- **Whatever the driver does** on the floor keeps the visits in order. -/
theorem Booked.tended (h : f.Booked workers) (hcalm : f.Calm workers room)
    (htended : f.Tended workers f') : f'.Booked workers := by
  have hcalm' := hcalm.tended htended
  cases htended with
  | leftAlone => exact h
  | hires hw hnew =>
      apply h.move hcalm hcalm' (m := .join (.starts _)) rfl nofun
      intro p hp
      exact .inr ⟨_, (Move.join.inj hp).symm⟩
  | welcomes c =>
      apply h.move hcalm hcalm' (m := .join (.arrives c)) rfl nofun
      intro p hp
      exact .inl ⟨c, (Move.join.inj hp).symm⟩
  | announces c =>
      refine ⟨h.agrees.still (fun w => rfl) ?_ fun w x => rfl, h.own, h.ticketed⟩
      exact ⟨_, Premises.events_record _ _⟩
  | fires => exact h.move hcalm hcalm' (m := .fire) rfl nofun fun _ hp => by cases hp

/-- An office that has just opened has no visits. -/
theorem booked_opening (capacity workers minute clock : Nat) :
    (opening (.furnish capacity workers minute) clock).Booked workers := by
  refine ⟨agrees_opening capacity workers minute clock, fun i p hi => ?_, fun n => ?_⟩
  · simp [opening] at hi
  · exact (if_neg (Nat.not_lt_zero n)).symm

end Floor

namespace Day

/-- **`d.Accounted config`** — a day with that configuration whose visits are in order, and whose
driver returns, if it does, what is in its books. -/
structure Accounted (config : Config) (d : Day) : Prop where
  planned : d.config = config
  booked : d.floor.Booked config.workerCount
  returned : ∀ r, d.driver = .ended (.returned r) → r.config = config ∧
    r.visits = d.report.visits ∧ r.workers = d.report.workers

section Accounted

variable {config : Config} {room : Nat} {customers : List Customer} {d d' : Day}

/-- **A step of the driver** of an orderly day returns what is in its books. -/
theorem Accounted.drive (h : d.Accounted config)
    (hday : d.Orderly config.workerCount room customers)
    (hdrives : d.Drives config.workerCount customers d') : d'.Accounted config := by
  have hbooked := h.booked.tended hday.calm (hday.tends hdrives)
  have hconfig := h.planned
  cases hdrives with
  | returns hdriver hk =>
      refine ⟨hconfig, hbooked, fun r hr => ?_⟩
      obtain rfl := Ending.returned.inj (Driver.ended.inj hr)
      exact ⟨hconfig, rfl, rfl⟩
  | takesVisit hdriver hi hguest hvisit =>
      refine ⟨hconfig, hbooked, fun r hr => ?_⟩
      cases hdriver.symm.trans hr
  | takesReport hdriver hi hworker hreport =>
      refine ⟨hconfig, hbooked, fun r hr => ?_⟩
      rcases hdriver with hdriver | hdriver <;> cases hdriver.symm.trans hr
  | _ => exact ⟨hconfig, hbooked, nofun⟩

/-- **Every move but a panic** keeps an orderly day accounted for. -/
theorem Accounted.move (h : d.Accounted config)
    (hday : d.Orderly config.workerCount room customers) (hword : config.workerCount ≤ wordMax)
    {m : Move} (hm : ¬ m.IsPanic) (hmove : d.move? m = some d') : d'.Accounted config := by
  have hday' := hday.move hword hm hmove
  cases moves_of_move? hmove with
  | @goes _ a floor' hofFloor hgoes =>
      obtain ⟨-, -, hjoin⟩ := plain_of_ofFloor? hofFloor
      refine ⟨h.planned, h.booked.move hday.calm hday'.calm hgoes ?_ fun p hp => ?_, h.returned⟩
      · rintro i rfl
        obtain rfl := Option.some.inj hofFloor
        exact hm trivial
      · exact absurd hp (hjoin p)
  | posts hpost =>
      obtain ⟨p, hp, hsome, hnew, rfl⟩ := post?_eq_some hpost
      exact ⟨h.planned, h.booked, h.returned⟩
  | drives hdrive => exact h.drive hday (hday.drives hdrive)
  | panics hunwind => exact absurd trivial hm

/-- **A run without a panic** keeps an orderly day accounted for. -/
theorem Accounted.run (hword : config.workerCount ≤ wordMax) {ms : List Move}
    (hms : ∀ m ∈ ms, ¬ m.IsPanic) (h : d.Accounted config)
    (hday : d.Orderly config.workerCount room customers) (hrun : run? ms d = some d') :
    d'.Accounted config := by
  -- every move finds the day orderly
  refine (run_induction (motive := fun rest g => (∀ m ∈ rest, ¬ m.IsPanic) ∧
    g.Orderly config.workerCount room customers ∧ g.Accounted config)
    (fun {m rest g g'} hg hmove => ?_) ⟨hms, hday, h⟩ hrun).2.2
  obtain ⟨hcalm, horderly, haccounted⟩ := hg
  have hm := hcalm m (List.mem_cons_self ..)
  exact ⟨fun m hm => hcalm m (List.mem_cons_of_mem _ hm), horderly.move hword hm hmove,
    haccounted.move horderly hword hm hmove⟩

end Accounted

end Day

/-! ## §4 — the books at the end -/

/-- The report that a person has left with. -/
def Person.report? : Person → Option WorkerReport
  | .worker _ k => k.report?
  | _ => none

/-- The visit and the report that somebody sends are those that it has left with. -/
theorem Person.bind_outcome? (p : Person) :
    p.outcome?.bind Outcome.visit? = p.visit? ∧ p.outcome?.bind Outcome.report? = p.report? := by
  cases p with
  | customer c v =>
      cases v with
      | ended e => cases e <;> exact ⟨rfl, rfl⟩
      | _ => exact ⟨rfl, rfl⟩
  | worker w k =>
      cases k with
      | ended e => cases e <;> exact ⟨rfl, rfl⟩
      | _ => exact ⟨rfl, rfl⟩
  | closer k => exact ⟨rfl, rfl⟩

/-- Whoever has left, with a visit or with a report. -/
inductive Person.Gone : Person → Prop
  | worker (w : Nat) (r : WorkerReport) : Gone (.worker w (.ended (.returned r)))
  | customer (c : Customer) (v : Visit) : Gone (.customer c (.ended (.returned v)))

/-- The customer of a badge. -/
def Badge.customer? : Badge → Option Customer
  | .customer c => some c
  | _ => none

/-- The worker of a badge. -/
def Badge.worker? : Badge → Option Nat
  | .worker w => some w
  | _ => none

/-- **What people leave with** shows what their badges show. -/
theorem map_filterMap_badge {B C : Type} {people : List Person} {bring : Person → Option B}
    {shown : B → C} (mark : Badge → Option C)
    (h : ∀ p ∈ people, (bring p).map shown = mark p.badge) :
    (people.filterMap bring).map shown = (people.map Person.badge).filterMap mark := by
  rw [List.map_filterMap, List.filterMap_map]
  exact List.filterMap_congr h

namespace Floor

variable {f : Floor}

/-- **The tickets of those who have left**, when everybody has left with something. -/
theorem Ticketed.visits (h : f.Ticketed) (hgone : ∀ p ∈ f.people, p.Gone) :
    ((f.people.filterMap Person.visit?).map (·.ticket)).Perm
      (List.range f.premises.gate.permits.nextTicket) := by
  refine List.perm_iff_count.2 fun n => ?_
  rw [List.map_filterMap, count_filterMap, List.count_range]
  refine (tally_congr fun p hp => ?_).trans (h n)
  cases hgone p hp with
  | worker w r => rfl
  | customer c v => rfl

end Floor

namespace Day

/-- The customers of the staff. -/
theorem staff_customers (workers : Nat) (customers : List Customer) :
    (staff workers customers).filterMap Badge.customer? = customers := by
  rw [staff, List.filterMap_append, List.filterMap_map, List.filterMap_map]
  simp [Function.comp_def, Badge.customer?]

/-- The workers of the staff. -/
theorem staff_workers (workers : Nat) (customers : List Customer) :
    (staff workers customers).filterMap Badge.worker? = List.range workers := by
  rw [staff, List.filterMap_append, List.filterMap_map, List.filterMap_map]
  simp [Function.comp_def, Badge.worker?]

section Going

variable {workers : Nat} {customers : List Customer} {d : Day} {ending : Ending Report}

/-- At the end the driver has taken the outcome of everybody, in some order. -/
theorem Going.taken_perm (h : d.Going workers customers) (hended : d.ending? = some ending) :
    (d.posted.take d.taken).Perm (List.range d.floor.people.length) := by
  refine (List.perm_ext_iff_of_nodup h.taken_nodup List.nodup_range).2 fun i => ?_
  rw [List.mem_range]
  refine ⟨fun hi => ?_, (h.ends hended).2.2 i⟩
  obtain ⟨p, hp, -⟩ := h.finished i (List.mem_of_mem_take hi)
  exact (List.getElem?_eq_some_iff.1 hp).1

/-- **What the outcomes have brought** at the end, is what all people bring. -/
theorem Going.brought_perm {B : Type} (h : d.Going workers customers)
    (hended : d.ending? = some ending) (bring : Outcome → Option B) :
    ((d.posted.take d.taken).filterMap fun i => (d.floor.outcome? i).bind bring).Perm
      (d.floor.people.filterMap fun p => p.outcome?.bind bring) := by
  have hperm := (h.taken_perm hended).filterMap fun i => (d.floor.outcome? i).bind bring
  rw [← filterMap_range d.floor.people]
  refine hperm.trans (.of_eq (List.filterMap_congr fun i _ => ?_))
  rw [Floor.outcome?, Option.bind_assoc]

/-- **The visits in the books** at the end. -/
theorem Going.visits_perm (h : d.Going workers customers) (hended : d.ending? = some ending) :
    d.visits.Perm (d.floor.people.filterMap Person.visit?) := by
  rw [h.visits]
  refine (h.brought_perm hended Outcome.visit?).trans (.of_eq ?_)
  exact List.filterMap_congr fun p _ => p.bind_outcome?.1

/-- **The reports in the books** at the end. -/
theorem Going.reports_perm (h : d.Going workers customers) (hended : d.ending? = some ending) :
    d.reports.Perm (d.floor.people.filterMap Person.report?) := by
  rw [h.reports]
  refine (h.brought_perm hended Outcome.report?).trans (.of_eq ?_)
  exact List.filterMap_congr fun p _ => p.bind_outcome?.2

/-- At the end everybody has left with a visit or with a report. -/
theorem Going.gone (h : d.Going workers customers) (hended : d.ending? = some ending) :
    ∀ p ∈ d.floor.people, p.Gone := by
  intro p hp
  obtain ⟨i, hi⟩ := List.mem_iff_getElem?.1 hp
  have htaken := (h.ends hended).2.2 i (List.getElem?_eq_some_iff.1 hi).1
  rcases h.taken_outcome htaken with ⟨-, r, hperson⟩ | ⟨-, c, v, hperson⟩
  · obtain rfl := Option.some.inj (hi.symm.trans hperson)
    exact .worker _ r
  · obtain rfl := Option.some.inj (hi.symm.trans hperson)
    exact .customer c v

/-- At the end the whole staff has come. -/
theorem Going.badges_eq (h : d.Going workers customers) (hended : d.ending? = some ending) :
    d.floor.people.map Person.badge = staff workers customers := by
  have hcome := h.come
  rw [(h.ends hended).2.1, ← length_staff, List.take_length] at hcome
  exact hcome

end Going

/-! ## §5 — the report -/

end Day

namespace Report

/-- **All visits are counted** under their tasks. -/
theorem tally_countOf (r : Report) : tally r.countOf Task.all = r.visits.length :=
  tally_length_filter (fun v : Visit => v.customer.task) (by decide)
    fun v _ => Task.mem_all v.customer.task

/-- **All visits are counted** under their workers, when the workers have counted right. -/
theorem tally_servedBy {r : Report} {workers : Nat}
    (hserved : ∀ w, r.servedBy w = (r.visits.filter (·.worker = w)).length)
    (hwithin : ∀ v ∈ r.visits, v.worker < workers) :
    tally r.servedBy (List.range workers) = r.visits.length := by
  rw [tally_congr fun w _ => hserved w]
  exact tally_length_filter _ List.nodup_range fun v hv => List.mem_range.2 (hwithin v hv)

/-- **What a report says of a worker** is how many visits were with it, when there is an entry for
each worker of the office that says so. -/
theorem servedBy_eq {r : Report} {workers : Nat}
    (hworkers : r.workers.map (·.worker) = List.range workers)
    (hserved : ∀ x ∈ r.workers, x.served = (r.visits.filter (·.worker = x.worker)).length)
    (hwithin : ∀ v ∈ r.visits, v.worker < workers) (w : Nat) :
    r.servedBy w = (r.visits.filter (·.worker = w)).length := by
  rw [servedBy]
  split
  · next x hx =>
    obtain rfl : x.worker = w := by simpa using List.find?_some hx
    exact hserved x (List.mem_of_find?_eq_some hx)
  · next hnone =>
    -- without an entry it is no worker of the office, so nobody was with it
    symm
    rw [List.length_eq_zero_iff, List.filter_eq_nil_iff]
    intro v hv hvw
    obtain rfl : v.worker = w := of_decide_eq_true hvw
    have hentry : v.worker ∈ r.workers.map (·.worker) := by
      rw [hworkers, List.mem_range]
      exact hwithin v hv
    obtain ⟨x, hx, hxw⟩ := List.mem_map.1 hentry
    exact absurd hxw (by simpa using List.find?_eq_none.1 hnone x hx)

end Report

namespace Day

section Accounted

variable {config : Config} {room : Nat} {customers : List Customer} {d : Day} {r : Report}
  (h : d.Accounted config) (hday : d.Orderly config.workerCount room customers)
  (hended : d.ending? = some (.returned r))

include h hday hended

/-- **The visits of a report** are those that all people have left with. -/
theorem Accounted.visits_perm : r.visits.Perm (d.floor.people.filterMap Person.visit?) := by
  obtain ⟨-, hvisits, -⟩ := h.returned r (driver_of_ending? hended)
  rw [hvisits]
  exact (List.mergeSort_perm _ _).trans (hday.visits_perm hended)

/-- **The worker reports of a report** are those that all people have left with. -/
theorem Accounted.workers_perm : r.workers.Perm (d.floor.people.filterMap Person.report?) := by
  obtain ⟨-, -, hworkers⟩ := h.returned r (driver_of_ending? hended)
  rw [hworkers]
  exact (List.mergeSort_perm _ _).trans (hday.reports_perm hended)

/-- **The customers of the report** are those of the day, in the order of their ids. -/
theorem Accounted.customers_eq (hcustomers : customers.Pairwise fun a b => a.id < b.id) :
    r.visits.map (·.customer) = customers := by
  obtain ⟨-, hvisits, -⟩ := h.returned r (driver_of_ending? hended)
  rw [hvisits]
  refine map_mergeSort (fun c : Customer => c.id) (fun v : Visit => v.customer) ?_ hcustomers
  refine ((hday.visits_perm hended).map _).trans (.of_eq ?_)
  rw [map_filterMap_badge Badge.customer?, hday.badges_eq hended, staff_customers]
  intro p hp
  obtain ⟨i, hi⟩ := List.mem_iff_getElem?.1 hp
  have hown := h.booked.own i p hi
  cases hday.gone hended p hp with
  | worker w r => rfl
  | customer c v => exact congrArg some hown.1

/-- **The workers of the report** are those of the office, in their order. -/
theorem Accounted.workers_eq : r.workers.map (·.worker) = List.range config.workerCount := by
  obtain ⟨-, -, hworkers⟩ := h.returned r (driver_of_ending? hended)
  obtain ⟨ledgers, hkept⟩ := hday.calm.kept
  rw [hworkers]
  refine map_mergeSort (fun n => n) (fun x : WorkerReport => x.worker) ?_ List.pairwise_lt_range
  refine ((hday.reports_perm hended).map _).trans (.of_eq ?_)
  rw [map_filterMap_badge Badge.worker?, hday.badges_eq hended, staff_workers]
  intro p hp
  obtain ⟨i, hi⟩ := List.mem_iff_getElem?.1 hp
  cases hday.gone hended p hp with
  | worker w r => exact congrArg some ((hkept.worker_fits hi).2.report r rfl)
  | customer c v => rfl

/-- **Every visit** is what some customer has returned, and its own. -/
theorem Accounted.returned_by {v : Visit} (hv : v ∈ r.visits) :
    ∃ i : Nat, d.floor.people[i]? = some (.customer v.customer (.ended (.returned v))) ∧
      v.worker < config.workerCount := by
  obtain ⟨p, hp, hvisit⟩ := List.mem_filterMap.1 ((h.visits_perm hday hended).mem_iff.1 hv)
  obtain ⟨i, hi⟩ := List.mem_iff_getElem?.1 hp
  have hown := h.booked.own i p hi
  cases hday.gone hended p hp with
  | worker w r => cases hvisit
  | customer c v' =>
      obtain rfl := Option.some.inj hvisit
      obtain ⟨hcustomer, hworker⟩ := hown
      exact ⟨i, hcustomer ▸ hi, hworker⟩

/-- **Every visit** was with a worker of the office. -/
theorem Accounted.worker_lt {v : Visit} (hv : v ∈ r.visits) : v.worker < config.workerCount := by
  obtain ⟨_, -, hworker⟩ := h.returned_by hday hended hv
  exact hworker

/-- **The tickets of the visits** are the first ones that the gate has given out. -/
theorem Accounted.tickets_perm :
    (r.visits.map (·.ticket)).Perm (List.range r.visits.length) := by
  have hperm := ((h.visits_perm hday hended).map (·.ticket)).trans
    (h.booked.ticketed.visits (hday.gone hended))
  have hlength := hperm.length_eq
  rw [List.length_map, List.length_range] at hlength
  rwa [hlength]

/-- **What the report says of a worker** is how many visits were with it. -/
theorem Accounted.servedBy_eq (w : Nat) :
    r.servedBy w = (r.visits.filter (·.worker = w)).length := by
  obtain ⟨ledgers, hkept⟩ := hday.calm.kept
  have hvisits := h.visits_perm hday hended
  have hgone := hday.gone hended
  have hover : ∀ p ∈ d.floor.people, p.badge ≠ .closer → p.hasEnded = true := by
    intro p hp _
    cases hgone p hp <;> rfl
  have hentries : ∀ x ∈ r.workers,
      x.served = (r.visits.filter (·.worker = x.worker)).length := by
    intro x hx
    obtain ⟨p, hp, hreport⟩ := List.mem_filterMap.1 ((h.workers_perm hday hended).mem_iff.1 hx)
    obtain ⟨i, hi⟩ := List.mem_iff_getElem?.1 hp
    cases hgone p hp with
    | customer c v => cases hreport
    | worker v x' =>
        obtain rfl := Option.some.inj hreport
        obtain ⟨hself, hserved⟩ := hkept.report_eq h.booked.agrees hover h.booked.own hi
        rw [hserved, hself, Floor.visitsWith, (hvisits.filter _).length_eq]
  exact Report.servedBy_eq (h.workers_eq hday hended) hentries
    (fun v hv => h.worker_lt hday hended hv) w

end Accounted

/-- A day before its first step is accounted for. -/
theorem accounted_opening {plan : Plan} {chance clock : Nat} {runId : RunId} {d : Day}
    (h : opening plan chance runId clock = .ok d) : d.Accounted plan.config := by
  obtain rfl := opening_eq h
  exact ⟨rfl, Floor.booked_opening _ _ _ _, nofun⟩

/-- **The report accounts for everybody.** Take any plan that can be made, and any interleaving in
which the day ends with a report. Then the report has the configuration of the plan, it lists one
visit for each customer, in the order of their ids and with their tasks, and one entry for each
worker, in their order. The tickets of the visits are the first ones, each of them once. Every visit
was with a worker of the office, the report says of every worker how many visits were with it, and
both the counts of the workers and those of the tasks sum up to the number of customers. -/
theorem report_accounts_for_all (plan : Plan) (hmade : plan.Made) (chance : Nat) (runId : RunId)
    (clock : Nat) (hword : plan.config.workerCount ≤ wordMax) (d₀ : Day)
    (hopening : opening plan chance runId clock = .ok d₀) (ms : List Move) (d : Day)
    (hrun : run? ms d₀ = some d) (r : Report) (hended : d.ending? = some (.returned r)) :
    r.config = plan.config ∧
      (plan.customers chance).map (·.id) = List.range r.config.customerCount ∧
      (plan.customers chance).map (·.task) = plan.tasks chance ∧
      r.visits.map (·.customer) = plan.customers chance ∧
      (r.visits.map (·.ticket)).Perm (List.range r.config.customerCount) ∧
      r.workers.map (·.worker) = List.range r.config.workerCount ∧
      (∀ v ∈ r.visits, v.worker < r.config.workerCount) ∧
      (∀ w, r.servedBy w = (r.visits.filter (·.worker = w)).length) ∧
      tally r.servedBy (List.range r.config.workerCount) = r.config.customerCount ∧
      tally r.countOf Task.all = r.config.customerCount := by
  have hcalm := no_panic_of_returned hword hopening hrun hended
  have horderly := orderly_opening hopening
  have hday := (horderly.run hword hcalm hrun).1
  have h := (accounted_opening hopening).run hword hcalm horderly hrun
  obtain ⟨hconfig, -, -⟩ := h.returned r (driver_of_ending? hended)
  have hcustomers := h.customers_eq hday hended (pairwise_ofTasks _)
  have hcount : r.visits.length = plan.config.customerCount := by
    rw [← hmade.length_customers chance, ← hcustomers, List.length_map]
  have hserved := h.servedBy_eq hday hended
  have hwithin : ∀ v ∈ r.visits, v.worker < plan.config.workerCount :=
    fun v hv => h.worker_lt hday hended hv
  rw [hconfig]
  refine ⟨rfl, ?_, map_task_ofTasks _, hcustomers, ?_, h.workers_eq hday hended, hwithin, hserved,
    ?_, ?_⟩
  · rw [← hmade.length_customers chance]
    exact map_id_ofTasks _
  · rw [← hcount]
    exact h.tickets_perm hday hended
  · rw [Report.tally_servedBy hserved hwithin, hcount]
  · rw [Report.tally_countOf, hcount]

/-- Two workers, one of whom serves nobody, and two customers who come out, and report, in the order
opposite to their ids; then the workers report, in that order, too. -/
theorem report_accounts_for_all_reversed :
    let plan : Plan := (Plan.ofConfig ⟨1, 2, 5, 0, none⟩).withTasks [.mailPackage, .buyStamps]
    let ms : List Move := List.flatten [.replicate 5 .drive, .replicate 7 (.step 0),
      .replicate 7 (.step 1), .replicate 10 (.step 3), [.exchange 3 0, .step 0, .step 0, .step 0,
      .exchange 0 3, .step 3, .step 3, .exchange 3 0], .replicate 5 (.step 0), [.exchange 0 3],
      .replicate 6 (.step 0), .replicate 5 (.step 3), [.post 3], .replicate 10 (.step 2),
      [.exchange 2 0, .step 0, .step 0, .step 0, .exchange 0 2, .step 2, .step 2, .exchange 2 0],
      .replicate 10 (.step 0), [.exchange 0 2], .replicate 6 (.step 0), .replicate 5 (.step 2),
      [.post 2], .replicate 10 .drive, [.step 0, .step 1, .post 1, .drive, .post 0],
      .replicate 5 .drive]
    plan.Made ∧ plan.config.workerCount ≤ wordMax ∧
      ∃ (d₀ d : Day) (r : Report), opening plan 0 ⟨0⟩ 0 = .ok d₀ ∧ run? ms d₀ = some d ∧
        d.ending? = some (.returned r) ∧ d.posted = [3, 2, 1, 0] ∧
        d.visits = [⟨⟨1, .buyStamps⟩, 0, 0, 0, 0⟩, ⟨⟨0, .mailPackage⟩, 0, 1, 0, 0⟩] ∧
        d.reports = [⟨1, 0⟩, ⟨0, 2⟩] ∧ r.config = plan.config ∧
        r.visits.map (·.customer) = [⟨0, .mailPackage⟩, ⟨1, .buyStamps⟩] ∧
        (r.visits.map (·.ticket)).Perm [0, 1] ∧ r.workers.map (·.worker) = [0, 1] ∧
        (∀ w, r.servedBy w = (r.visits.filter (·.worker = w)).length) ∧
        tally r.servedBy [0, 1] = 2 ∧ tally r.countOf Task.all = 2 := by
  intro plan ms
  have hmade : plan.Made := .fixed (.drawn _) _
  have hcalm : ∀ m ∈ ms, ¬ m.IsPanic := by
    simp [ms, or_imp, forall_and, Move.IsPanic]
  have hends : ((opening plan 0 ⟨0⟩ 0).toOption.bind (run? ms)).map (fun d =>
      (d.posted, d.visits, d.reports, d.ending?.isSome)) =
        some ([3, 2, 1, 0], [⟨⟨1, .buyStamps⟩, 0, 0, 0, 0⟩, ⟨⟨0, .mailPackage⟩, 0, 1, 0, 0⟩],
          [⟨1, 0⟩, ⟨0, 2⟩], true) := by
    decide +kernel
  obtain ⟨d₀, hd₀⟩ := exists_opening 0 ⟨0⟩ 0 (show 0 < plan.config.capacity by decide)
    (show 0 < plan.config.workerCount by decide)
  rw [hd₀, Except.toOption, Option.bind_some] at hends
  obtain ⟨d, hrun, hall⟩ := Option.map_eq_some_iff.1 hends
  obtain ⟨hposted, hbooks⟩ := Prod.mk.inj hall
  obtain ⟨hvisits, hrest⟩ := Prod.mk.inj hbooks
  obtain ⟨hreports, hsome⟩ := Prod.mk.inj hrest
  obtain ⟨ending, hended⟩ := Option.isSome_iff_exists.1 hsome
  have horderly := (orderly_opening hd₀).run (by decide) hcalm hrun
  obtain ⟨⟨r, rfl⟩, -⟩ := horderly.1.toGoing.ends hended
  obtain ⟨hconfig, -, -, hcustomers, htickets, hworkers, -, hserved, hsum, htasks⟩ :=
    report_accounts_for_all plan hmade 0 ⟨0⟩ 0 (by decide) d₀ hd₀ ms d hrun r hended
  rw [hconfig] at htickets hworkers hsum htasks
  exact ⟨hmade, by decide, d₀, d, r, hd₀, hrun, hended, hposted, hvisits, hreports, hconfig,
    hcustomers, htickets, hworkers, hserved, hsum, htasks⟩

end Day

end Postal

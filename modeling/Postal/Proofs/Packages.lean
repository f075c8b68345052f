import Postal.Proofs.Chronicle
import Postal.Proofs.Stances

/-!
# What the report says of the scale.

The report has the figures of the scale as they are when the driver returns. By then everybody is
gone, so that each attempt of the day stands for a package whose end was announced, and the log
tells of every package once. What is left are the bounds: nobody notes more than one holder, and the
first attempt of all is not among those that were counted as waits.

## §1 — a day.
## §2 — what the log tells of the packages.
## §3 — the report.
-/

namespace Postal

/-! ## §1 — a day -/

namespace Day

/-- The attempt at the scale that a move makes: for which assignment, and whether it succeeds. -/
def attempt? (x : Happening Day Move) : Option (Assignment × Bool) :=
  match x.move with
  | .step i => x.before.floor.attempt? i
  | _ => none

/-- A move is the step of a worker that serves somebody with a package. -/
def ServesPackage (x : Happening Day Move) : Prop :=
  ∃ i w n a position, x.move = .step i ∧
    x.before.floor.people[i]? = some (.worker w (.serving n a position)) ∧ a.task = .mailPackage

/-- **`d.Metered workers past`** — a day on which the attempts of the past are in order, and only
services of packages have touched the scale; if the driver has returned, then with the figures of
the scale. -/
structure Metered (workers : Nat) (past : List (Happening Day Move)) (d : Day) : Prop where
  weighed : d.floor.Weighed workers (past.filterMap attempt?)
  touched : ∀ x ∈ past, x.after.floor.premises.scale ≠ x.before.floor.premises.scale →
    ServesPackage x
  returned : ∀ r, d.driver = .ended (.returned r) →
    r.peakScaleHolders = d.floor.premises.figures.peak ∧
      r.scaleWaits = d.floor.premises.figures.waits

section Metered

variable {workers room : Nat} {customers : List Customer} {d d' : Day} {m : Move}
  {past : List (Happening Day Move)}

/-- **The floor moves on**, and the driver has not returned. -/
theorem Metered.goes (h : d.Metered workers past) (hday : d.Orderly workers room customers)
    {a : Floor.Move} {floor' : Floor} (hofFloor : Move.ofFloor? a = some m)
    (hgoes : d.floor.move? a = some floor') (ha : ∀ i, a ≠ .unwind i)
    (hgoing : ∀ e, d.driver ≠ .ended e) :
    ({ d with floor := floor' } : Day).Metered workers
      (past ++ [⟨d, m, { d with floor := floor' }⟩]) := by
  refine ⟨?_, List.forall_mem_append.2 ⟨h.touched, List.forall_mem_singleton.2 ?_⟩,
    fun r hr => absurd hr (hgoing _)⟩
  · rw [filterMap_concat]
    cases a with
    | step i =>
        obtain rfl := Option.some.inj hofFloor
        exact h.weighed.step hday.calm hgoes
    | exchange i j =>
        obtain rfl := Option.some.inj hofFloor
        show floor'.Weighed workers (_ ++ [])
        rw [List.append_nil]
        exact h.weighed.exchange hgoes
    | unwind i => exact absurd rfl (ha i)
    | fire => cases hofFloor
    | join p => cases hofFloor
  · intro htouched
    obtain ⟨i, w, n, b, position, rfl, hi, hneeds⟩ := h.weighed.touched hday.calm hgoes ha htouched
    obtain rfl := Option.some.inj hofFloor
    exact ⟨i, w, n, b, position, rfl, hi, Task.needsScale_iff.1 hneeds⟩

/-- **A move beside the scale**, that makes no attempt either. -/
theorem Metered.beside (h : d.Metered workers past)
    (hweighed : d'.floor.Weighed workers (past.filterMap attempt?))
    (hscale : d'.floor.premises.scale = d.floor.premises.scale) (htry : attempt? ⟨d, m, d'⟩ = none)
    (hreturned : ∀ r, d'.driver = .ended (.returned r) →
      r.peakScaleHolders = d'.floor.premises.figures.peak ∧
        r.scaleWaits = d'.floor.premises.figures.waits) :
    d'.Metered workers (past ++ [⟨d, m, d'⟩]) := by
  refine ⟨?_, List.forall_mem_append.2 ⟨h.touched, List.forall_mem_singleton.2 ?_⟩, hreturned⟩
  · rw [filterMap_concat, htry, Option.toList_none, List.append_nil]
    exact hweighed
  · exact fun htouched => absurd hscale htouched

/-- **A step of the driver** returns the figures of the scale, if it returns. -/
theorem Metered.drive (h : d.Metered workers past) (hday : d.Orderly workers room customers)
    (hdrives : d.Drives workers customers d') (hgoing : ∀ e, d.driver ≠ .ended e) :
    d'.Metered workers (past ++ [⟨d, .drive, d'⟩]) := by
  have htended := hday.tends hdrives
  refine h.beside (h.weighed.tended htended) htended.scale_eq rfl ?_
  cases hdrives with
  | returns hdriver hk =>
      intro r hr
      obtain rfl := Ending.returned.inj (Driver.ended.inj hr)
      exact ⟨rfl, rfl⟩
  | takesVisit hdriver hi hguest hvisit => exact fun r hr => absurd hr (hgoing _)
  | takesReport hdriver hi hworker hreport => exact fun r hr => absurd hr (hgoing _)
  | _ => exact nofun

/-- **Every move but a panic** keeps the day metered. -/
theorem Metered.move (h : d.Metered workers past) (hday : d.Orderly workers room customers)
    (hm : ¬ m.IsPanic) (hmove : d.move? m = some d') :
    d'.Metered workers (past ++ [⟨d, m, d'⟩]) := by
  -- where the driver has ended nothing moves any more
  have hgoing : ∀ e, d.driver ≠ .ended e := by
    intro e hdriver
    have hended : d.ending? = some e := by rw [ending?, hdriver]
    rw [hday.at_rest hended hm] at hmove
    cases hmove
  cases moves_of_move? hmove with
  | @goes _ a floor' hofFloor hgoes =>
      refine h.goes hday hofFloor hgoes ?_ hgoing
      rintro i rfl
      obtain rfl := Option.some.inj hofFloor
      exact hm trivial
  | posts hpost =>
      obtain ⟨p, hp, hsome, hnew, rfl⟩ := post?_eq_some hpost
      exact h.beside h.weighed rfl rfl fun r hr => absurd hr (hgoing _)
  | drives hdrive => exact h.drive hday (hday.drives hdrive) hgoing
  | panics hunwind => exact absurd trivial hm

/-- **A run without a panic** is metered from its beginning. -/
theorem metered_of_runs {d₀ : Day} (hword : workers ≤ wordMax)
    (hruns : Runs move? d₀ past d) (hday : d₀.Orderly workers room customers)
    (h : d₀.Metered workers []) (hcalm : ∀ x ∈ past, ¬ x.move.IsPanic) :
    d.Metered workers past ∧ d.Orderly workers room customers := by
  induction hruns with
  | start => exact ⟨h, hday⟩
  | more hruns hmove ih =>
      obtain ⟨hmetered, horderly⟩ := ih fun x hx => hcalm x (List.mem_append_left _ hx)
      have hm := hcalm _ List.mem_concat_self
      exact ⟨hmetered.move horderly hm hmove, horderly.move hword hm hmove⟩

end Metered

/-- A day before its first step has seen no attempt. -/
theorem metered_opening {plan : Plan} {chance clock : Nat} {runId : RunId} {d : Day}
    (h : opening plan chance runId clock = .ok d) : d.Metered plan.config.workerCount [] := by
  obtain rfl := opening_eq h
  exact ⟨Floor.weighed_opening _ _ _ _, fun x hx => absurd hx List.not_mem_nil, nofun⟩

end Day

/-! ## §2 — what the log tells of the packages -/

/-- The assignment of a customer that comes with a package. -/
def Customer.package? (c : Customer) : Option Assignment :=
  if c.task.needsScale then some c.assignment else none

/-- The end of a task concerns the customer of the assignment. -/
theorem Event.customer?_of_weighed {e : Event} {a : Assignment} (h : e.weighed? = some a) :
    e.customer? = some a.customer := by
  unfold weighed? at h
  split at h
  · split at h
    · obtain rfl := Option.some.inj h
      rfl
    · cases h
  · cases h

/-- The assignment of a package is that of its customer. -/
theorem Customer.id_of_package {c : Customer} {a : Assignment} (h : c.package? = some a) :
    c.id = a.customer := by
  unfold package? at h
  split at h
  · obtain rfl := Option.some.inj h
    rfl
  · cases h

namespace Trace

/-- What the visit of a customer tells of the scale. -/
theorem weighed_visit (w : Nat) (c : Customer) : weighed (visit w c) = c.package?.toList := by
  rw [Customer.package?]
  cases hneeds : c.task.needsScale <;>
    simp [visit, weighed, List.filterMap_cons, Event.weighed?, hneeds, Customer.assignment]

/-- How often an assignment was weighed is told by the events of its customer. -/
theorem count_weighed (es : List Event) (a : Assignment) :
    (weighed es).count a = (weighed (customer a.customer es)).count a := by
  induction es with
  | nil => rfl
  | cons e es ih =>
      by_cases he : e.customer? = some a.customer
      · have hcons : customer a.customer (e :: es) = e :: customer a.customer es :=
          List.filter_cons_of_pos (by simpa using he)
        rw [hcons, weighed, weighed, List.filterMap_cons, List.filterMap_cons]
        cases e.weighed? with
        | none => exact ih
        | some b =>
            show (b :: weighed es).count a = (b :: weighed (customer a.customer es)).count a
            rw [List.count_cons, List.count_cons, ih]
      · have hcons : customer a.customer (e :: es) = customer a.customer es :=
          List.filter_cons_of_neg (by simpa using he)
        rw [hcons, ← ih, weighed, List.filterMap_cons]
        cases hb : e.weighed? with
        | none => rfl
        | some b =>
            refine List.count_cons_of_ne ?_
            rintro rfl
            exact he (Event.customer?_of_weighed hb)

end Trace

namespace Day

section Told

variable {workers room : Nat} {customers : List Customer} {d : Day} {ending : Ending Report}

/-- **Every package is weighed once**: of a day that has ended with everybody joined, the log tells
of the packages that their tasks are finished, and of no others. -/
theorem Told.packages (h : d.Told customers) (hday : d.Orderly workers room customers)
    (hids : (customers.map (·.id)).Nodup) (hended : d.ending? = some ending)
    (hjoined : Trace.joined d.floor.premises.events = customers.map (·.id)) :
    (Trace.weighed d.floor.premises.events).Perm (customers.filterMap Customer.package?) := by
  refine List.perm_iff_count.2 fun a => ?_
  rw [Trace.count_weighed, count_filterMap]
  by_cases hmem : a.customer ∈ customers.map (·.id)
  · obtain ⟨c, hc, hid⟩ := List.mem_map.1 hmem
    obtain ⟨k, hk⟩ := List.mem_iff_getElem?.1 hc
    obtain ⟨visit, hi⟩ := (hday.ends hended).2.2.2 k c hk
    have hvisit := h.whole hi (hjoined ▸ List.mem_map_of_mem hc)
    -- nobody else has the id of this customer
    have halone : ∀ (j : Nat) (b : Customer), customers[j]? = some b →
        0 < (if b.package? = some a then 1 else 0) → j = k := by
      intro j b hj hpos
      split at hpos
      · next hb =>
        have hsame : b.id = c.id := (Customer.id_of_package hb).trans hid.symm
        have hj' : (customers.map (·.id))[j]? = (customers.map (·.id))[k]? := by
          rw [List.getElem?_map, List.getElem?_map, hj, hk, Option.map_some, Option.map_some, hsame]
        refine (List.getElem?_inj ?_ hids).1 hj'
        rw [List.length_map]
        exact (List.getElem?_eq_some_iff.1 hj).1
      · exact absurd hpos (Nat.lt_irrefl 0)
    rw [← hid, hvisit, Trace.weighed_visit, tally_eq_of_alone hk halone]
    cases c.package? with
    | none => rfl
    | some b => simp [List.count_singleton]
  · have hnone : Trace.customer a.customer d.floor.premises.events = [] := by
      apply h.traced.strangers
      rw [Floor.badges, hday.badges_eq hended, staff_customerIds]
      exact hmem
    rw [hnone]
    refine (tally_eq_zero_of_mem fun c hc => if_neg fun hpackage => hmem ?_).symm
    exact Customer.id_of_package hpackage ▸ List.mem_map_of_mem hc

end Told

/-! ## §3 — the report -/

/-- At the end nobody is at the scale. -/
theorem Going.nobody_at_scale {workers : Nat} {customers : List Customer} {d : Day}
    {ending : Ending Report} (h : d.Going workers customers) (hended : d.ending? = some ending) :
    d.floor.atScale = [] := by
  refine List.filterMap_eq_nil_iff.2 fun p hp => ?_
  cases h.gone hended p hp with
  | worker w r => rfl
  | customer c v => rfl

/-- As many customers come with a package as there are tasks to mail one. -/
theorem length_packages (plan : Plan) (chance : Nat) :
    ((plan.customers chance).filterMap Customer.package?).length =
      (plan.tasks chance).count .mailPackage := by
  have htasks : (plan.customers chance).map (·.task) = plan.tasks chance := map_task_ofTasks _
  rw [← htasks, List.count, List.countP_map, List.length_filterMap_eq_countP]
  refine List.countP_congr fun c _ => ?_
  cases htask : c.task <;> simp [Customer.package?, htask, Task.needsScale]

/-- The first attempt is none of those that have missed. -/
theorem missed_le {tries : List (Assignment × Bool)}
    (hfirst : ∀ t, tries.head? = some t → t.2 = true) :
    tries.countP (!·.2) ≤ tries.length - 1 := by
  cases tries with
  | nil => exact Nat.le_refl 0
  | cons t rest =>
      have htaken := hfirst t rfl
      rw [List.countP_cons_of_neg (by simp [htaken])]
      exact List.countP_le_length

/-- **Every package is weighed once.** Take any plan, and any interleaving in which the day ends
with a report, and let `p` be the number of customers who come with a package. Then the peak of the
scale is one, or nothing if `p` is zero; nobody has waited for the scale if there is no package or a
single worker, and in any case fewer services have than there are packages. One attempt was made to
take the scale for each package, and none for anybody else; the first of them has succeeded, and the
report counts those that have not. And whatever has changed anything of the scale was a step of a
worker that served somebody with a package. -/
theorem every_package_is_weighed_once (plan : Plan) (chance : Nat) (runId : RunId) (clock : Nat)
    (hword : plan.config.workerCount ≤ wordMax) (d₀ : Day)
    (hopening : opening plan chance runId clock = .ok d₀) (ms : List Move) (d : Day)
    (hrun : run? ms d₀ = some d) (r : Report) (hended : d.ending? = some (.returned r)) :
    let p := (plan.tasks chance).count .mailPackage
    let past := course move? ms d₀
    let tries := past.filterMap attempt?
    r.peakScaleHolders = min p 1 ∧
      (p = 0 ∨ plan.config.workerCount = 1 → r.scaleWaits = 0) ∧
      r.scaleWaits ≤ p - 1 ∧
      (tries.map Prod.fst).Perm ((plan.customers chance).filterMap Customer.package?) ∧
      (∀ t, tries.head? = some t → t.2 = true) ∧
      r.scaleWaits = tries.countP (!·.2) ∧
      ∀ x ∈ past, x.after.floor.premises.scale ≠ x.before.floor.premises.scale →
        ServesPackage x := by
  intro p past tries
  have hcalm := no_panic_of_returned hword hopening hrun hended
  have hids : ((plan.customers chance).map (·.id)).Nodup :=
    List.pairwise_map.2 ((pairwise_ofTasks (plan.tasks chance)).imp Nat.ne_of_lt)
  have horderly := orderly_opening hopening
  obtain ⟨hmetered, hday⟩ := metered_of_runs hword
    (runs_of_run? (fun _ => rfl) (fun _ _ _ => rfl) hrun) horderly (metered_opening hopening)
    fun x hx => hcalm _ (move_mem_of_course hx)
  obtain ⟨htold, -⟩ := (told_opening hopening).run hword hids (.inl horderly.steady.1) hrun
  have hjoined : Trace.joined d.floor.premises.events = (plan.customers chance).map (·.id) := by
    have hdriver := htold.joined
    rwa [driver_of_ending? hended] at hdriver
  obtain ⟨hpeak, hwaits⟩ := hmetered.returned r (driver_of_ending? hended)
  -- at the end every attempt stands for an assignment that was announced as finished
  have htallied := hmetered.weighed.tallied
  rw [hday.nobody_at_scale hended] at htallied
  have honce : (tries.map Prod.fst).Perm ((plan.customers chance).filterMap Customer.package?) := by
    have hdone := htallied.once
    rw [List.map_nil, List.append_nil] at hdone
    exact hdone.trans (htold.packages hday hids hended hjoined)
  have hlength : tries.length = p := by
    rw [← List.length_map Prod.fst, honce.length_eq, length_packages]
  have hmissed : r.scaleWaits = tries.countP (!·.2) := hwaits.trans htallied.waits
  have hfirst := hmetered.weighed.first
  refine ⟨?_, ?_, ?_, honce, hfirst, hmissed, hmetered.touched⟩
  · obtain ⟨noted, hnoted, hmin⟩ := htallied.peak
    rw [hpeak, hmin, ← hlength]
    exact congrArg (min · 1) hnoted.symm
  · rw [hmissed]
    rintro (hnone | hone)
    · rw [List.eq_nil_of_length_eq_zero (hlength.trans hnone)]
      rfl
    · refine List.countP_eq_zero.2 fun t ht => ?_
      simp [hmetered.weighed.alone hone t ht]
  · rw [hmissed, ← hlength]
    exact missed_le hfirst

/-- Two workers and two customers with packages: the second worker waits for the scale. -/
theorem every_package_is_weighed_once_contended :
    let plan : Plan := (Plan.ofConfig ⟨2, 2, 5, 0, none⟩).withTasks [.mailPackage, .mailPackage]
    let ms : List Move := List.flatten [.replicate 6 .drive, .replicate 7 (.step 0),
      .replicate 7 (.step 1), .replicate 10 (.step 3), .replicate 11 (.step 2),
      [.exchange 3 0, .exchange 2 1, .step 0, .step 0, .step 0, .step 1, .step 1, .step 1,
      .exchange 0 3, .exchange 1 2, .step 3, .step 3, .step 2, .step 2, .exchange 3 0,
      .exchange 2 1, .step 0, .step 0, .step 1, .step 1, .step 1, .step 1],
      .replicate 8 (.step 0), .replicate 9 (.step 1), [.exchange 0 3, .exchange 1 2],
      .replicate 6 (.step 0), .replicate 6 (.step 1), .replicate 5 (.step 3),
      .replicate 5 (.step 2), [.post 3, .post 2], .replicate 9 .drive,
      [.step 0, .step 1, .post 1, .post 0], .replicate 6 .drive]
    plan.config.workerCount ≤ wordMax ∧
      ∃ (d₀ d : Day) (r : Report), opening plan 0 ⟨0⟩ 0 = .ok d₀ ∧ run? ms d₀ = some d ∧
        d.ending? = some (.returned r) ∧ r.peakScaleHolders = 1 ∧ r.scaleWaits = 1 ∧
        (((course move? ms d₀).filterMap attempt?).map Prod.fst).Perm
          [⟨0, .mailPackage⟩, ⟨1, .mailPackage⟩] ∧
        ((course move? ms d₀).filterMap attempt?).countP (!·.2) = 1 := by
  intro plan ms
  have hends : (opening plan 0 ⟨0⟩ 0).toOption.bind (fun d₀ => (run? ms d₀).map fun d =>
      (((course move? ms d₀).filterMap attempt?).countP (!·.2),
        d.ending?.map Ending.isReturned)) = some (1, some true) := by
    decide +kernel
  obtain ⟨d₀, hd₀⟩ := exists_opening 0 ⟨0⟩ 0 (show 0 < plan.config.capacity by decide)
    (show 0 < plan.config.workerCount by decide)
  rw [hd₀, Except.toOption, Option.bind_some] at hends
  obtain ⟨d, hrun, hall⟩ := Option.map_eq_some_iff.1 hends
  obtain ⟨hcount, hreturned⟩ := Prod.mk.inj hall
  obtain ⟨ending, hended, hsome⟩ := Option.map_eq_some_iff.1 hreturned
  cases ending with
  | returned r =>
      obtain ⟨hpeak, -, -, honce, -, hmissed, -⟩ :=
        every_package_is_weighed_once plan 0 ⟨0⟩ 0 (by decide) d₀ hd₀ ms d hrun r hended
      exact ⟨by decide, d₀, d, r, hd₀, hrun, hended, hpeak, hmissed.trans hcount, honce, hcount⟩
  | failed f => cases hsome
  | panicked => cases hsome

end Day

end Postal

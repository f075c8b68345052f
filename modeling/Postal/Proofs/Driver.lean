import Postal.Proofs.Staff

/-!
# The driver of a day.

The next step of a driver that has taken no failure is one of those in `Day.Drives`, or takes a
failure (`Day.Fails`); that it could find nobody left to report, or a visit too many, is out of the
question (`Day.Going.drives`). None of these steps can be awaited in vain but the one that takes the
next outcome (`Day.Going.drives_or_waits`). Whatever else moves, the staff and the books stay in
order.

## §1 — what the driver can do.
## §2 — what every move keeps.
## §3 — what the driver does on the floor.
-/

namespace Postal

namespace Day

/-! ## §1 — what the driver can do -/

/-- **`d.Drives workers customers d'`** — everything that the next step of a driver can do that has
taken no failure and takes none. -/
inductive Drives (workers : Nat) (customers : List Customer) (d : Day) : Day → Prop
  | hires (hdriver : d.driver = .hiring) (h : d.floor.people.length < workers) :
      Drives workers customers d
        { d with floor := d.floor.join (.starts d.floor.people.length), driver := .hiring }
  | hired (hdriver : d.driver = .hiring) (h : workers ≤ d.floor.people.length) :
      Drives workers customers d { d with driver := .welcoming }
  | welcomes {c : Customer} (hdriver : d.driver = .welcoming)
      (hc : customers[d.floor.people.length - workers]? = some c) :
      Drives workers customers d { d with floor := d.floor.join (.arrives c), driver := .welcoming }
  | welcomed (hdriver : d.driver = .welcoming)
      (h : customers.length ≤ d.floor.people.length - workers) :
      Drives workers customers d { d with driver := .collecting }
  | collected (hdriver : d.driver = .collecting) (h : customers.length ≤ d.visits.length) :
      Drives workers customers d { d with driver := .joining 0 }
  | takesVisit {i : Nat} {v : Visit} (hdriver : d.driver = .collecting)
      (hi : d.posted[d.taken]? = some i) (hguest : workers ≤ i)
      (hvisit : d.floor.outcome? i = some (.visit v)) :
      Drives workers customers d { d with taken := d.taken + 1, visits := d.visits ++ [v] }
  | takesReport {i : Nat} {r : WorkerReport}
      (hdriver : d.driver = .collecting ∨ d.driver = .gathering)
      (hi : d.posted[d.taken]? = some i) (hworker : i < workers)
      (hreport : d.floor.outcome? i = some (.report r)) :
      Drives workers customers d { d with taken := d.taken + 1, reports := d.reports ++ [r] }
  | joins {k : Nat} {c : Customer} (hdriver : d.driver = .joining k) (hk : k < customers.length) :
      Drives workers customers d { d with driver := .announcingJoined k c }
  | joined {k : Nat} (hdriver : d.driver = .joining k) (hk : customers.length ≤ k) :
      Drives workers customers d { d with driver := .firing }
  | announces {k : Nat} {c : Customer} (hdriver : d.driver = .announcingJoined k c) :
      Drives workers customers d
        { d with
          floor := { d.floor with premises := d.floor.premises.record (.customerJoined c.id) }
          driver := .joining (k + 1) }
  | fires (hdriver : d.driver = .firing) :
      Drives workers customers d { d with floor := d.floor.fire, driver := .gathering }
  | gathered (hdriver : d.driver = .gathering) (h : workers ≤ d.reports.length) :
      Drives workers customers d { d with driver := .parting 0 }
  | parts {k : Nat} (hdriver : d.driver = .parting k) (hk : k < workers) :
      Drives workers customers d { d with driver := .parting (k + 1) }
  | returns {k : Nat} (hdriver : d.driver = .parting k) (hk : workers ≤ k) :
      Drives workers customers d { d with driver := .ended (.returned d.report) }

/-- **`d.Fails f d'`** — the driver takes a failure, and gives the day up because of it. -/
inductive Fails (d : Day) (f : Fault) : Day → Prop
  | mk {i : Nat} (hdriver : d.driver = .collecting ∨ d.driver = .gathering)
      (hi : d.posted[d.taken]? = some i) (hfailed : d.floor.outcome? i = some (.failed f)) :
      Fails d f ({ d with taken := d.taken + 1 }.abort f)

section Going

variable {workers : Nat} {customers : List Customer} {d d' : Day}

/-- **While visits are missing**, the driver takes the next outcome, of whatever kind. It never
finds that nobody can report any more. -/
theorem Going.collects (h : d.Going workers customers) (hdriver : d.driver = .collecting)
    (hmore : ¬ customers.length ≤ d.visits.length) (hcollect : d.collect? = some d') :
    d.Drives workers customers d' ∨ ∃ f, d.Fails f d' := by
  rcases h.next?_cases with ⟨hnext, htaken⟩ | ⟨i, hi, hout⟩
  · simp only [collect?, hnext, staffing, h.crew, h.list] at hcollect
    split at hcollect
    · next hsilent => exact absurd (Nat.le_of_eq (h.complete hsilent htaken).1.symm) hmore
    · cases hcollect
  · have hnext : d.next? = d.floor.outcome? i := by rw [next?_eq, hi, Option.bind_some]
    rcases hout with ⟨hw, r, hr⟩ | ⟨hg, v, hv⟩ | ⟨e, he⟩
    · simp only [collect?, hnext, hr] at hcollect
      obtain rfl := Option.some.inj hcollect
      exact .inl (.takesReport (.inl hdriver) hi hw hr)
    · simp only [collect?, hnext, hv] at hcollect
      obtain rfl := Option.some.inj hcollect
      exact .inl (.takesVisit hdriver hi hg hv)
    · simp only [collect?, hnext, he] at hcollect
      obtain rfl := Option.some.inj hcollect
      exact .inr ⟨e, .mk (.inl hdriver) hi he⟩

/-- **While reports are missing**, the driver takes the next outcome, and no visit. -/
theorem Going.gathers (h : d.Going workers customers) (hdriver : d.driver = .gathering)
    (hmore : ¬ workers ≤ d.reports.length) (hgather : d.gather? = some d') :
    d.Drives workers customers d' ∨ ∃ f, d.Fails f d' := by
  obtain ⟨-, hall, -⟩ := h.stands_at hdriver
  rcases h.next?_cases with ⟨hnext, htaken⟩ | ⟨i, hi, hout⟩
  · simp only [gather?, hnext, staffing, h.crew, h.list] at hgather
    split at hgather
    · next hsilent => exact absurd (Nat.le_of_eq (h.complete hsilent htaken).2.symm) hmore
    · cases hgather
  · have hnext : d.next? = d.floor.outcome? i := by rw [next?_eq, hi, Option.bind_some]
    rcases hout with ⟨hw, r, hr⟩ | ⟨hg, v, hv⟩ | ⟨e, he⟩
    · simp only [gather?, hnext, hr] at hgather
      obtain rfl := Option.some.inj hgather
      exact .inl (.takesReport (.inr hdriver) hi hw hr)
    · -- all visits are taken, and this one is not
      have hlt := h.posted_lt (List.mem_of_getElem? hi)
      obtain ⟨k, rfl⟩ := Nat.exists_eq_add_of_le hg
      have hmem := h.all_visits hall (k := k) (by omega)
      exact absurd hmem (not_mem_take_of_getElem? h.once hi)
    · simp only [gather?, hnext, he] at hgather
      obtain rfl := Option.some.inj hgather
      exact .inr ⟨e, .mk (.inr hdriver) hi he⟩

/-- **The driver of a day without a failure** goes on in one of these ways, or takes one. -/
theorem Going.drives (h : d.Going workers customers) (hdrive : d.drive? = some d') :
    d.Drives workers customers d' ∨ ∃ f, d.Fails f d' := by
  have hcrew := h.crew
  have hlist := h.list
  cases hdriver : d.driver with
  | hiring =>
      simp only [drive?, hdriver, hcrew, Option.some.injEq] at hdrive
      split at hdrive
      · next hlt =>
        subst hdrive
        exact .inl (.hires hdriver hlt)
      · next hge =>
        subst hdrive
        exact .inl (.hired hdriver (Nat.le_of_not_lt hge))
  | welcoming =>
      simp only [drive?, hdriver, hcrew] at hdrive
      split at hdrive
      · next c hc =>
        obtain rfl := Option.some.inj hdrive
        exact .inl (.welcomes hdriver (hlist ▸ hc))
      · next hc =>
        obtain rfl := Option.some.inj hdrive
        exact .inl (.welcomed hdriver (hlist ▸ List.getElem?_eq_none_iff.1 hc))
  | collecting =>
      simp only [drive?, hdriver] at hdrive
      split at hdrive
      · next hall =>
        obtain rfl := Option.some.inj hdrive
        exact .inl (.collected hdriver (hlist ▸ hall))
      · next hmore => exact h.collects hdriver (hlist ▸ hmore) hdrive
  | joining k =>
      simp only [drive?, hdriver] at hdrive
      split at hdrive
      · next hc =>
        obtain rfl := Option.some.inj hdrive
        exact .inl (.joined hdriver (hlist ▸ List.getElem?_eq_none_iff.1 hc))
      · next c hc =>
        split at hdrive
        · obtain rfl := Option.some.inj hdrive
          exact .inl (.joins hdriver (hlist ▸ (List.getElem?_eq_some_iff.1 hc).1))
        · cases hdrive
  | announcingJoined k c =>
      simp only [drive?, hdriver, Option.some.injEq] at hdrive
      subst hdrive
      exact .inl (.announces hdriver)
  | firing =>
      simp only [drive?, hdriver, Option.some.injEq] at hdrive
      subst hdrive
      exact .inl (.fires hdriver)
  | gathering =>
      simp only [drive?, hdriver, hcrew] at hdrive
      split at hdrive
      · next hreports =>
        obtain rfl := Option.some.inj hdrive
        exact .inl (.gathered hdriver hreports)
      · next hmore => exact h.gathers hdriver hmore hdrive
  | parting k =>
      simp only [drive?, hdriver, hcrew] at hdrive
      split at hdrive
      · next hk =>
        split at hdrive
        · obtain rfl := Option.some.inj hdrive
          exact .inl (.parts hdriver hk)
        · cases hdrive
      · next hk =>
        obtain rfl := Option.some.inj hdrive
        exact .inl (.returns hdriver (Nat.le_of_not_lt hk))
  | aborting position f => exact (h.stands_at hdriver).elim
  | givingUp f => exact (h.stands_at hdriver).elim
  | ended e =>
      simp only [drive?, hdriver] at hdrive
      cases hdrive

/-- An outcome that is there can be taken while visits are missing. -/
theorem collect?_isSome {o : Outcome} (h : d.next? = some o) : d.collect?.isSome = true := by
  cases o <;> simp only [collect?, h, Option.isSome_some]

/-- An outcome that is there can be taken while reports are missing. -/
theorem gather?_isSome {o : Outcome} (h : d.next? = some o) : d.gather?.isSome = true := by
  cases o <;> simp only [gather?, h, Option.isSome_some]

/-- There is a next outcome, or all that there are have been taken. -/
theorem Going.next_or_taken (h : d.Going workers customers) :
    (∃ o, d.next? = some o) ∨ d.taken = d.posted.length := by
  rcases h.next?_cases with ⟨-, htaken⟩ | ⟨i, hi, hout⟩
  · exact .inr htaken
  · rw [next?_eq, hi, Option.bind_some]
    rcases hout with ⟨-, r, hr⟩ | ⟨-, v, hv⟩ | ⟨e, he⟩
    · exact .inl ⟨_, hr⟩
    · exact .inl ⟨_, hv⟩
    · exact .inl ⟨_, he⟩

/-- **The driver goes on**, or it waits for an outcome and has taken all that there are, or it has
returned. -/
theorem Going.drives_or_waits (h : d.Going workers customers) (hopen : d.ending? = none) :
    (d.drive?).isSome = true ∨ d.taken = d.posted.length ∧
      (d.driver = .collecting ∧ ¬ customers.length ≤ d.visits.length ∨
        d.driver = .gathering ∧ ¬ workers ≤ d.reports.length) := by
  cases hdriver : d.driver with
  | hiring => exact .inl (by simp only [drive?, hdriver, Option.isSome_some])
  | welcoming =>
      left
      simp only [drive?, hdriver]
      split <;> rfl
  | collecting =>
      simp only [drive?, hdriver, h.list]
      split
      · exact .inl rfl
      · next hmore =>
        rcases h.next_or_taken with ⟨o, ho⟩ | htaken
        · exact .inl (collect?_isSome ho)
        · exact .inr ⟨htaken, .inl ⟨trivial, hmore⟩⟩
  | joining k =>
      left
      simp only [drive?, hdriver]
      split
      · rfl
      · next c hc =>
        rw [h.list] at hc
        have hmem := h.all_visits (h.stands_at hdriver).2.1 (List.getElem?_eq_some_iff.1 hc).1
        rw [h.crew, if_pos (List.mem_of_mem_take hmem)]
        rfl
  | announcingJoined k c => exact .inl (by simp only [drive?, hdriver, Option.isSome_some])
  | firing => exact .inl (by simp only [drive?, hdriver, Option.isSome_some])
  | gathering =>
      simp only [drive?, hdriver, h.crew]
      split
      · exact .inl rfl
      · next hmore =>
        rcases h.next_or_taken with ⟨o, ho⟩ | htaken
        · exact .inl (gather?_isSome ho)
        · exact .inr ⟨htaken, .inr ⟨trivial, hmore⟩⟩
  | parting k =>
      left
      simp only [drive?, hdriver, h.crew]
      split
      · next hk =>
        rw [if_pos (List.mem_of_mem_take (h.all_reports (h.stands_at hdriver).2.2 hk))]
        rfl
      · rfl
  | aborting position f => exact (h.stands_at hdriver).elim
  | givingUp f => exact (h.stands_at hdriver).elim
  | ended e =>
      rw [ending?, hdriver] at hopen
      cases hopen

end Going

/-! ## §2 — what every move keeps -/

section Staffed

variable {workers : Nat} {customers : List Customer} {d d' : Day}

/-- **The floor moves on**, and nobody comes. -/
theorem Staffed.moves (h : d.Staffed workers customers) {floor' : Floor}
    (hbadges : floor'.badges = d.floor.badges)
    (hover : ∀ (i : Nat) (p : Person), d.floor.people[i]? = some p → p.outcome?.isSome = true →
      floor'.people[i]? = some p) :
    ({ d with floor := floor' } : Day).Staffed workers customers := by
  refine { h with
    come := ?_
    finished := fun i hi => ?_ }
  · show floor'.badges = (staff workers customers).take floor'.people.length
    rw [hbadges, Floor.length_of_badges hbadges]
    exact h.come
  · obtain ⟨p, hp, hsome⟩ := h.finished i hi
    exact ⟨p, hover i p hp hsome, hsome⟩

/-- **The next of the staff** comes. -/
theorem Staffed.comes (h : d.Staffed workers customers) {p : Person}
    (hnext : (staff workers customers)[d.floor.people.length]? = some p.badge) :
    ({ d with floor := d.floor.join p } : Day).Staffed workers customers := by
  refine { h with
    come := ?_
    finished := fun i hi => ?_ }
  · show (d.floor.people ++ [p]).map Person.badge =
      (staff workers customers).take (d.floor.people ++ [p]).length
    rw [List.map_append, List.length_append, List.length_singleton, List.take_add_one, hnext,
      ← h.come]
    rfl
  · obtain ⟨q, hq, hsome⟩ := h.finished i hi
    exact ⟨q, (List.getElem?_append_left (List.getElem?_eq_some_iff.1 hq).1).trans hq, hsome⟩

/-- The driver takes an outcome, whatever it makes of it. -/
theorem Staffed.takes (h : d.Staffed workers customers) {i : Nat}
    (hi : d.posted[d.taken]? = some i) :
    ({ d with taken := d.taken + 1 } : Day).Staffed workers customers :=
  { h with taken := (List.getElem?_eq_some_iff.1 hi).1 }

/-- Who can report. -/
theorem post?_eq_some {i : Nat} (hpost : d.post? i = some d') :
    ∃ p, d.floor.people[i]? = some p ∧ p.outcome?.isSome = true ∧ i ∉ d.posted ∧
      d' = { d with posted := d.posted ++ [i] } := by
  simp only [post?, Option.bind_eq_bind, Option.bind_eq_some_iff] at hpost
  obtain ⟨p, hp, o, ho, hif⟩ := hpost
  split at hif
  · cases hif
  · next hnew => exact ⟨p, hp, by rw [ho]; rfl, hnew, (Option.some.inj hif).symm⟩

/-- **A report** is one more, from somebody who had not reported. -/
theorem Staffed.post (h : d.Staffed workers customers) {i : Nat} {p : Person}
    (hp : d.floor.people[i]? = some p) (hsome : p.outcome?.isSome = true) (hnew : i ∉ d.posted) :
    ({ d with posted := d.posted ++ [i] } : Day).Staffed workers customers := by
  refine { h with
    once := ?_
    finished := fun j hj => ?_
    taken := ?_ }
  · exact List.nodup_append.2 ⟨h.once, List.nodup_singleton i, fun x hx y hy hxy =>
      hnew (List.mem_singleton.1 hy ▸ hxy ▸ hx)⟩
  · rcases List.mem_append.1 hj with hold | hself
    · exact h.finished j hold
    · obtain rfl := List.mem_singleton.1 hself
      exact ⟨p, hp, hsome⟩
  · show d.taken ≤ (d.posted ++ [i]).length
    rw [List.length_append]
    exact Nat.le_add_right_of_le h.taken

/-- Of whoever has reported the outcome stays the same when people with an outcome stay. -/
theorem Staffed.outcome?_eq (h : d.Staffed workers customers) {floor' : Floor}
    (hover : ∀ (i : Nat) (p : Person), d.floor.people[i]? = some p → p.outcome?.isSome = true →
      floor'.people[i]? = some p) {i : Nat} (hi : i ∈ d.posted) :
    floor'.outcome? i = d.floor.outcome? i := by
  obtain ⟨p, hp, hsome⟩ := h.finished i hi
  rw [Floor.outcome?, Floor.outcome?, hp, hover i p hp hsome]

end Staffed

/-- **`d.Moves m d'`** — everything that a move of a day can be: a move on the floor, a report, a
step of the driver, or its panic. -/
inductive Moves (d : Day) : Move → Day → Prop
  | goes {m : Move} {a : Floor.Move} {floor' : Floor} (hm : Move.ofFloor? a = some m)
      (h : d.floor.move? a = some floor') : Moves d m { d with floor := floor' }
  | posts {i : Nat} {d' : Day} (h : d.post? i = some d') : Moves d (.post i) d'
  | drives {d' : Day} (h : d.drive? = some d') : Moves d .drive d'
  | panics {d' : Day} (h : d.unwind? = some d') : Moves d .unwindDriver d'

theorem moves_of_move? {d d' : Day} {m : Move} (hmove : d.move? m = some d') : d.Moves m d' := by
  cases m with
  | step i =>
      obtain ⟨floor', hstep, rfl⟩ := Option.map_eq_some_iff.1 hmove
      exact .goes (a := .step i) rfl hstep
  | exchange i j =>
      obtain ⟨floor', hexchange, rfl⟩ := Option.map_eq_some_iff.1 hmove
      exact .goes (a := .exchange i j) rfl hexchange
  | unwind i =>
      obtain ⟨floor', hunwind, rfl⟩ := Option.map_eq_some_iff.1 hmove
      exact .goes (a := .unwind i) rfl hunwind
  | post i => exact .posts hmove
  | drive => exact .drives hmove
  | unwindDriver => exact .panics hmove

/-- **A driver that has ended** stays where it is. -/
theorem ending_stays {d d' : Day} {m : Move} {ending : Ending Report}
    (hended : d.ending? = some ending) (hmove : d.move? m = some d') :
    d'.ending? = some ending := by
  have hdriver := driver_of_ending? hended
  cases moves_of_move? hmove with
  | goes hm hgoes => exact hended
  | posts hpost =>
      obtain ⟨p, hp, hsome, hnew, rfl⟩ := post?_eq_some hpost
      exact hended
  | drives hdrive =>
      simp only [drive?, hdriver] at hdrive
      cases hdrive
  | panics hunwind =>
      simp only [unwind?, emits?, hdriver] at hunwind
      cases hunwind

/-- **Induction over the run of a day.** `motive` speaks of the moves that are still to come and of
the day; if every move keeps it, then it holds at the end. -/
theorem run_induction {motive : List Move → Day → Prop}
    (hmove : ∀ {m : Move} {ms : List Move} {d d' : Day}, motive (m :: ms) d →
      d.move? m = some d' → motive ms d') :
    ∀ {ms : List Move} {d d' : Day}, motive ms d → run? ms d = some d' → motive [] d' := by
  intro ms
  induction ms with
  | nil =>
      intro d d' hd hrun
      exact Option.some.inj hrun ▸ hd
  | cons m ms ih =>
      intro d d' hd hrun
      obtain ⟨d₁, hd₁, hrest⟩ := Option.bind_eq_some_iff.1 hrun
      exact ih (hmove hd hd₁) hrest

/-- **A driver that returns its report** has not panicked. -/
theorem not_unwound {d d' : Day} {ms : List Move} {r : Report} (hrun : run? ms d = some d')
    (hended : d'.ending? = some (.returned r)) : .unwindDriver ∉ ms := by
  intro hmem
  -- the motive: the panic is still to come, or it has ended the day
  have hend := run_induction (motive := fun rest g => .unwindDriver ∈ rest ∨
    g.ending? = some .panicked) (fun {m rest g g'} hg hmove => ?_) (.inl hmem) hrun
  · rcases hend with hnone | hpanicked
    · cases hnone
    · cases hpanicked.symm.trans hended
  · rcases hg with hmem | hpanicked
    · rcases List.mem_cons.1 hmem with rfl | hlater
      · obtain ⟨e, -, rfl⟩ := Option.map_eq_some_iff.1 hmove
        exact .inr rfl
      · exact .inl hlater
    · exact .inr (ending_stays hpanicked hmove)

/-- Nobody comes in a move on the floor that is one of the day, and the shutdown does not fire. -/
theorem plain_of_ofFloor? {m : Move} {a : Floor.Move} (hm : Move.ofFloor? a = some m) :
    a.newcomer? = none ∧ a ≠ .fire ∧ ∀ p, a ≠ .join p := by
  cases a with
  | fire => cases hm
  | join p => cases hm
  | _ => exact ⟨rfl, by simp, by simp⟩

section Going

variable {workers : Nat} {customers : List Customer} {d d' : Day}

/-- **The floor changes**, and whoever has an outcome keeps it. -/
theorem Going.settles (h : d.Going workers customers) {floor' : Floor} {driver : Driver}
    (hstaffed : ({ d with floor := floor' } : Day).Staffed workers customers)
    (hover : ∀ (i : Nat) (p : Person), d.floor.people[i]? = some p → p.outcome?.isSome = true →
      floor'.people[i]? = some p)
    (hstands : driver.Stands workers customers { d with floor := floor' }) :
    ({ d with floor := floor', driver } : Day).Going workers customers := by
  have hsame : ∀ i ∈ d.posted.take d.taken, floor'.outcome? i = d.floor.outcome? i :=
    fun i hi => h.outcome?_eq hover (List.mem_of_mem_take hi)
  refine { hstaffed with
    visits := ?_
    reports := ?_
    clean := fun i hi e => ?_
    stands := hstands.congr rfl rfl rfl rfl }
  · rw [show _ = _ from h.visits]
    exact List.filterMap_congr fun i hi => by rw [hsame i hi]
  · rw [show _ = _ from h.reports]
    exact List.filterMap_congr fun i hi => by rw [hsame i hi]
  · rw [hsame i hi]
    exact h.clean i hi e

/-- Only the driver moves on. -/
theorem Going.turns (h : d.Going workers customers) {driver : Driver}
    (hstands : driver.Stands workers customers d) :
    ({ d with driver } : Day).Going workers customers :=
  { h with stands := hstands.congr rfl rfl rfl rfl }

/-- **The floor moves on**, and nobody comes. -/
theorem Going.moves (h : d.Going workers customers) {floor' : Floor}
    (hbadges : floor'.badges = d.floor.badges)
    (hfired : floor'.premises.fired = d.floor.premises.fired)
    (hover : ∀ (i : Nat) (p : Person), d.floor.people[i]? = some p → p.outcome?.isSome = true →
      floor'.people[i]? = some p) :
    ({ d with floor := floor' } : Day).Going workers customers :=
  h.settles (h.toStaffed.moves hbadges hover) hover
    (h.stands.congr (Floor.length_of_badges hbadges) hfired rfl rfl)

/-- **People move on the floor**, and nobody comes. -/
theorem Going.goes (h : d.Going workers customers) {m : Move} {a : Floor.Move} {floor' : Floor}
    (hm : Move.ofFloor? a = some m) (hmove : d.floor.move? a = some floor') :
    ({ d with floor := floor' } : Day).Going workers customers := by
  obtain ⟨hnobody, hfire, -⟩ := plain_of_ofFloor? hm
  have hbadges := Floor.badges_move hmove
  rw [hnobody, Option.toList_none, List.append_nil] at hbadges
  exact h.moves hbadges (Floor.fired_of_move hmove hfire)
    fun i p hi ho => Floor.outcome_stays hmove hi ho

/-- **The next of the staff** comes. -/
theorem Going.comes (h : d.Going workers customers) {p : Person} {driver : Driver}
    (hnext : (staff workers customers)[d.floor.people.length]? = some p.badge)
    (hstands : driver.Stands workers customers { d with floor := d.floor.join p }) :
    ({ d with floor := d.floor.join p, driver } : Day).Going workers customers :=
  h.settles (h.toStaffed.comes hnext)
    (fun _ _ hi _ =>
      (List.getElem?_append_left (List.getElem?_eq_some_iff.1 hi).1).trans hi)
    hstands

/-- **The driver takes an outcome** that is no failure, and enters it into its books. -/
theorem Going.takes (h : d.Going workers customers) {i : Nat} {o : Outcome} {visits' : List Visit}
    {reports' : List WorkerReport} (hi : d.posted[d.taken]? = some i)
    (ho : d.floor.outcome? i = some o) (hsound : ∀ e, o ≠ .failed e)
    (hvisits : visits' = d.visits ++ o.visit?.toList)
    (hreports : reports' = d.reports ++ o.report?.toList)
    (hstands : d.driver.Stands workers customers
      { d with taken := d.taken + 1, visits := visits', reports := reports' }) :
    ({ d with taken := d.taken + 1, visits := visits', reports := reports' } : Day).Going workers
      customers := by
  have htake : d.posted.take (d.taken + 1) = d.posted.take d.taken ++ [i] := by
    rw [List.take_add_one, hi, Option.toList_some]
  refine { h.toStaffed.takes hi with
    visits := ?_
    reports := ?_
    clean := fun j hj e => ?_
    stands := hstands }
  · show visits' = (d.posted.take (d.taken + 1)).filterMap _
    rw [htake, List.filterMap_append, ← h.visits, hvisits]
    congr 1
    simp only [List.filterMap_cons, List.filterMap_nil, ho, Option.bind_some]
    cases o <;> rfl
  · show reports' = (d.posted.take (d.taken + 1)).filterMap _
    rw [htake, List.filterMap_append, ← h.reports, hreports]
    congr 1
    simp only [List.filterMap_cons, List.filterMap_nil, ho, Option.bind_some]
    cases o <;> rfl
  · rcases List.mem_append.1 (htake ▸ hj) with hold | hself
    · exact h.clean j hold e
    · obtain rfl := List.mem_singleton.1 hself
      rw [show d.floor.outcome? j = some o from ho, ne_eq, Option.some.injEq]
      exact hsound e

/-- **A report** is not taken yet. -/
theorem Going.post (h : d.Going workers customers) {i : Nat} (hpost : d.post? i = some d') :
    d'.Going workers customers := by
  obtain ⟨p, hp, hsome, hnew, rfl⟩ := post?_eq_some hpost
  have htake : (d.posted ++ [i]).take d.taken = d.posted.take d.taken :=
    List.take_append_of_le_length h.taken
  refine { h.toStaffed.post hp hsome hnew with
    visits := ?_
    reports := ?_
    clean := ?_
    stands := h.stands.congr rfl rfl rfl rfl }
  · show d.visits = ((d.posted ++ [i]).take d.taken).filterMap _
    rw [htake]
    exact h.visits
  · show d.reports = ((d.posted ++ [i]).take d.taken).filterMap _
    rw [htake]
    exact h.reports
  · show ∀ j ∈ (d.posted ++ [i]).take d.taken, _
    rw [htake]
    exact h.clean

/-- **A step of the driver** keeps its books, unless it takes a failure. -/
theorem Going.drive (h : d.Going workers customers) (hdrives : d.Drives workers customers d') :
    d'.Going workers customers := by
  cases hdrives with
  | hires hdriver hlt =>
      refine h.comes (staff_worker customers hlt) ⟨?_, (h.stands_at hdriver).2⟩
      show (d.floor.people ++ [_]).length ≤ workers
      rw [List.length_append]
      exact hlt
  | hired hdriver hge =>
      exact h.turns ⟨hge, (h.stands_at hdriver).2⟩
  | @welcomes c hdriver hc =>
      obtain ⟨hge, hfired⟩ := h.stands_at hdriver
      refine h.comes ?_ ⟨?_, hfired⟩
      · have hnext := staff_customer workers customers (d.floor.people.length - workers)
        rw [Nat.add_sub_cancel' hge, hc] at hnext
        exact hnext
      · show workers ≤ (d.floor.people ++ [_]).length
        rw [List.length_append]
        exact Nat.le_add_right_of_le hge
  | welcomed hdriver hall =>
      obtain ⟨hge, hfired⟩ := h.stands_at hdriver
      have hle := h.people_le
      exact h.turns ⟨by omega, hfired⟩
  | collected hdriver hall =>
      obtain ⟨hpeople, hfired⟩ := h.stands_at hdriver
      exact h.turns ⟨hpeople, Nat.le_antisymm h.visits_le hall, hfired⟩
  | takesVisit hdriver hi hguest hvisit =>
      refine h.takes hi hvisit nofun rfl (List.append_nil _).symm ?_
      rw [hdriver]
      exact h.stands_at hdriver
  | takesReport hdriver hi hworker hreport =>
      refine h.takes hi hreport nofun (List.append_nil _).symm rfl ?_
      rcases hdriver with hdriver | hdriver
      · rw [hdriver]
        exact h.stands_at hdriver
      · rw [hdriver]
        exact h.stands_at hdriver
  | joins hdriver hk =>
      obtain ⟨hpeople, hall, hfired⟩ := h.stands_at hdriver
      exact h.turns ⟨hpeople, hall, hfired, hk⟩
  | joined hdriver hk =>
      have hstands := h.stands_at hdriver
      exact h.turns hstands
  | announces hdriver =>
      obtain ⟨hpeople, hall, hfired, hk⟩ := h.stands_at hdriver
      exact h.settles (h.toStaffed.moves rfl fun i p hp _ => hp) (fun i p hp _ => hp)
        ⟨hpeople, hall, hfired⟩
  | fires hdriver =>
      obtain ⟨hpeople, hall, -⟩ := h.stands_at hdriver
      exact h.settles (h.toStaffed.moves rfl fun i p hp _ => hp) (fun i p hp _ => hp)
        ⟨hpeople, hall, rfl⟩
  | gathered hdriver hall =>
      obtain ⟨hpeople, hvisited, -⟩ := h.stands_at hdriver
      exact h.turns ⟨hpeople, hvisited, Nat.le_antisymm h.reports_le hall⟩
  | parts hdriver hk =>
      have hstands := h.stands_at hdriver
      exact h.turns hstands
  | returns hdriver hk =>
      have hstands := h.stands_at hdriver
      exact h.turns hstands

end Going

end Day

/-! ## §3 — what the driver does on the floor -/

/-- **`f.Tended workers f'`** — everything that the driver of a day can do on the floor, as long as
it has taken no failure. -/
inductive Floor.Tended (workers : Nat) (f : Floor) : Floor → Prop
  | leftAlone : Tended workers f f
  | hires {w : Nat} (hw : w < workers) (hnew : .worker w ∉ f.badges) :
      Tended workers f (f.join (.starts w))
  | welcomes (c : Customer) : Tended workers f (f.join (.arrives c))
  | announces (c : Nat) :
      Tended workers f { f with premises := f.premises.record (.customerJoined c) }
  | fires : Tended workers f f.fire

/-- A step of the driver does one of these things on the floor. -/
theorem Day.Going.tends {workers : Nat} {customers : List Customer} {d d' : Day}
    (h : d.Going workers customers) (hdrives : d.Drives workers customers d') :
    d.floor.Tended workers d'.floor := by
  cases hdrives with
  | hires hdriver hlt => exact .hires hlt h.newcomer
  | welcomes hdriver hc => exact .welcomes _
  | announces hdriver => exact .announces _
  | fires hdriver => exact .fires
  | _ => exact .leftAlone

end Postal

import Postal.Proofs.Report
import Postal.Proofs.Visits

/-!
# The log of a day.

On the floor the events of a customer are the first nine of its visit at most; the tenth is the
driver's, who joins the customers one by one once all of them are gone. So the log tells how far the
driver has come (`Driver.HasJoined`), nobody departs after somebody was joined, and whoever is
joined has nothing else to announce (`Day.Told`). This holds whatever panics and whatever is closed;
on a day that ends with a report it makes the events of every customer a whole visit
(`Day.every_visit_is_told`).

## §1 — the joined customers.
## §2 — a day whatever happens.
## §3 — what the log tells.
## §4 — the end.
-/

namespace Postal

/-! ## §1 — the joined customers -/

/-- The customer whom the driver has joined. -/
def Event.joined? : Event → Option Nat
  | .customerJoined c => some c
  | _ => none

namespace Trace

/-- The customers whom the driver has joined, in that order. -/
def joined (es : List Event) : List Nat := es.filterMap Event.joined?

theorem joined_concat (es : List Event) (e : Event) :
    joined (es ++ [e]) = joined es ++ e.joined?.toList := by
  rw [joined, List.filterMap_append]
  cases e <;> rfl

theorem mem_joined {es : List Event} {c : Nat} : c ∈ joined es ↔ .customerJoined c ∈ es := by
  rw [joined, List.mem_filterMap]
  refine ⟨?_, fun hmem => ⟨_, hmem, rfl⟩⟩
  rintro ⟨e, hmem, he⟩
  cases e with
  | customerJoined c' =>
      obtain rfl := Option.some.inj he
      exact hmem
  | _ => cases he

end Trace

/-- Nobody on the floor joins a customer. -/
theorem Person.joined?_of_emits {p : Person} {e : Event} (h : p.emits? = some e) :
    e.joined? = none := by
  cases p with
  | customer c v =>
      cases v with
      | dealing stay w d =>
          cases d <;> first | (obtain rfl := Option.some.inj h; rfl) | cases h
      | _ => first | (obtain rfl := Option.some.inj h; rfl) | cases h
  | worker w k =>
      cases k with
      | serving n a position =>
          cases position <;> first | (obtain rfl := Option.some.inj h; rfl) | cases h
      | _ => first | (obtain rfl := Option.some.inj h; rfl) | cases h
  | closer k => cases h

/-- Only a customer announces a departure, and then it is still there. -/
theorem Person.customer_of_departs {p : Person} {id : Nat}
    (h : p.emits? = some (.customerDeparts id)) :
    ∃ c v, p = .customer c v ∧ v.ending? = none := by
  cases p with
  | customer c v =>
      refine ⟨c, v, rfl, ?_⟩
      cases v with
      | ended e => cases h
      | _ => rfl
  | worker w k =>
      cases k with
      | serving n a position => cases position <;> cases h
      | _ => cases h
  | closer k => cases h

/-- **Whom a driver has joined**, as its position tells: nobody before it starts to, and everybody
once it is through. Of a driver that gives up, only that it has joined them in their order. -/
def Driver.HasJoined (customers : List Customer) (joined : List Nat) : Driver → Prop
  | .hiring | .welcoming | .collecting => joined = []
  | .joining k => joined = (customers.take k).map (·.id)
  | .announcingJoined k c => joined = (customers.take k).map (·.id) ∧ customers[k]? = some c
  | .firing | .gathering | .parting _ | .ended (.returned _) => joined = customers.map (·.id)
  | _ => joined <+: customers.map (·.id)

/-- In any case the driver joins the customers in their order. -/
theorem Driver.HasJoined.in_order {customers : List Customer} {joined : List Nat} {driver : Driver}
    (h : driver.HasJoined customers joined) : joined <+: customers.map (·.id) := by
  have first : ∀ k, (customers.take k).map (·.id) <+: customers.map (·.id) :=
    fun k => (List.take_prefix k customers).map _
  cases driver with
  | hiring | welcoming | collecting =>
      obtain rfl := h
      exact List.nil_prefix
  | joining k =>
      obtain rfl := h
      exact first k
  | announcingJoined k c =>
      obtain ⟨rfl, -⟩ := h
      exact first k
  | firing | gathering | parting k =>
      obtain rfl := h
      exact List.prefix_refl _
  | aborting position f => exact h
  | givingUp f => exact h
  | ended ending =>
      cases ending with
      | returned r =>
          obtain rfl := h
          exact List.prefix_refl _
      | failed f => exact h
      | panicked => exact h

namespace Floor

/-- **The driver joins a customer** who has left with a visit, and whom it has not joined yet: that
is the last event of the visit. -/
theorem Traced.joins {workers : Nat} {f : Floor} {ledgers : Nat → Ledger} (h : f.Traced)
    (hkept : f.Kept workers ledgers) (hids : (f.badges.filterMap Badge.customerId?).Nodup)
    {i : Nat} {c : Customer} {visit : Visit}
    (hi : f.people[i]? = some (.customer c (.ended (.returned visit))))
    (hnew : c.id ∉ Trace.joined f.premises.events) :
    Traced { f with premises := f.premises.record (.customerJoined c.id) } := by
  have hother : ∀ id, id ≠ c.id →
      Trace.customer id (f.premises.record (.customerJoined c.id)).events =
        Trace.customer id f.premises.events := by
    intro id hid
    rw [Premises.events_record, Trace.customer_append]
    have hnone : Trace.customer id [.customerJoined c.id] = [] :=
      List.filter_cons_of_neg (by simpa [Event.customer?] using Ne.symm hid)
    rw [hnone, List.append_nil]
  refine ⟨fun j c' v hj => ?_, fun id hid => ?_⟩
  · obtain ⟨w, n, hreaches, hrecords⟩ := h.visits j c' v hj
    by_cases hid : c'.id = c.id
    · obtain rfl := customer_unique hids hi hj hid
      obtain ⟨rfl, rfl⟩ := Person.customer.inj (Option.some.inj (hi.symm.trans hj))
      obtain ⟨hworker, hn⟩ := hreaches
      have hevents := hrecords.events
      rcases hn with rfl | rfl
      · refine ⟨w, 10, ⟨hworker, .inr rfl⟩, ?_, fun j v k hj hclient => ?_⟩
        · rw [Premises.events_record, Trace.customer_append, hevents]
          have hself : Trace.customer c.id [.customerJoined c.id] = [.customerJoined c.id] :=
            List.filter_cons_of_pos (by simp [Event.customer?])
          rw [hself]
          rfl
        · exact absurd hclient (hkept.unserved hids hi hj fun u hu => by cases hu)
      · -- the tenth event is that the customer was joined
        have hmem : .customerJoined c.id ∈ Trace.customer c.id f.premises.events := by
          rw [hevents]
          simp [Trace.visit]
        exact absurd (Trace.mem_joined.2 (List.mem_of_mem_filter hmem)) hnew
    · exact ⟨w, n, hreaches, hrecords.still (hother _ hid) fun j v k hj hclient =>
        ⟨k, hj, hclient, rfl⟩⟩
  · have hne : id ≠ c.id := by
      rintro rfl
      exact hid (mem_customerIds hi)
    exact (hother id hne).trans (h.strangers id hid)

end Floor

namespace Day

/-! ## §2 — a day whatever happens -/

/-- **`d.Underway workers customers`** — the invariant of a day on which the driver, too, may panic:
it is steady, or the driver has panicked and people go on without it. -/
def Underway (workers : Nat) (customers : List Customer) (d : Day) : Prop :=
  d.Steady workers customers ∨ d.driver = .ended .panicked ∧ d.Staffed workers customers ∧
    ∃ ledgers, d.floor.Kept workers ledgers

section Underway

variable {workers : Nat} {customers : List Customer} {d d' : Day} {m : Move}

/-- The staff and the desks are in order whatever happens. -/
theorem Underway.staffed (h : d.Underway workers customers) :
    d.Staffed workers customers ∧ ∃ ledgers, d.floor.Kept workers ledgers := by
  rcases h with (hsound | ⟨e, hlost⟩) | ⟨-, hstaffed, hkept⟩
  · exact ⟨hsound.toStaffed, hsound.kept⟩
  · exact ⟨hlost.toStaffed, hlost.kept⟩
  · exact ⟨hstaffed, hkept⟩

/-- **The driver panics**, and people go on. -/
theorem Underway.panics (h : d.Underway workers customers) (hunwind : d.unwind? = some d') :
    d'.Underway workers customers := by
  obtain ⟨hstaffed, ledgers, hkept⟩ := h.staffed
  obtain ⟨e, -, rfl⟩ := Option.map_eq_some_iff.1 hunwind
  have hstaffed' : ({ d with floor := d.floor.fire } : Day).Staffed workers customers :=
    hstaffed.moves rfl fun i p hp _ => hp
  exact .inr ⟨rfl, { hstaffed' with }, ledgers, hkept.premises rfl rfl fun _ _ => rfl⟩

/-- **Every move** keeps a day underway. -/
theorem Underway.move (h : d.Underway workers customers) (hword : workers ≤ wordMax)
    (hmove : d.move? m = some d') : d'.Underway workers customers := by
  by_cases hm : m = .unwindDriver
  · subst hm
    exact h.panics hmove
  rcases h with hsteady | ⟨hdriver, hstaffed, ledgers, hkept⟩
  · exact .inl (hsteady.move hword hm hmove)
  · refine .inr ?_
    cases moves_of_move? hmove with
    | @goes _ a floor' hofFloor hgoes =>
        obtain ⟨hnobody, -, hjoin⟩ := plain_of_ofFloor? hofFloor
        have hbadges := Floor.badges_move hgoes
        rw [hnobody, Option.toList_none, List.append_nil] at hbadges
        exact ⟨hdriver, hstaffed.moves hbadges fun i p hi ho => Floor.outcome_stays hgoes hi ho,
          hkept.move hgoes fun p hp => absurd hp (hjoin p)⟩
    | posts hpost =>
        obtain ⟨p, hp, hsome, hnew, rfl⟩ := post?_eq_some hpost
        exact ⟨hdriver, hstaffed.post hp hsome hnew, ledgers, hkept⟩
    | drives hdrive =>
        simp only [drive?, hdriver] at hdrive
        cases hdrive
    | panics hunwind => exact absurd rfl hm

/-- The ids of the customers of the staff. -/
theorem staff_customerIds (workers : Nat) (customers : List Customer) :
    (staff workers customers).filterMap Badge.customerId? = customers.map (·.id) := by
  rw [staff, List.filterMap_append, List.filterMap_map, List.filterMap_map]
  simp [Function.comp_def, Badge.customerId?]

/-- No two customers who have come have the same id. -/
theorem Staffed.ids_nodup (h : d.Staffed workers customers)
    (hids : (customers.map (·.id)).Nodup) :
    (d.floor.badges.filterMap Badge.customerId?).Nodup := by
  rw [← staff_customerIds workers customers] at hids
  rw [h.come]
  exact hids.sublist ((List.take_sublist _ _).filterMap _)

/-- **When all visits are in the books**, every customer has left with one. -/
theorem Going.all_returned (h : d.Going workers customers)
    (hall : d.visits.length = customers.length) {i : Nat} {c : Customer} {v : Visiting}
    (hi : d.floor.people[i]? = some (.customer c v)) : ∃ visit, v = .ended (.returned visit) := by
  rcases h.taken_outcome (h.customer_taken hall hi) with ⟨hworker, -⟩ | ⟨-, c', v', hv⟩
  · exact absurd hworker (Nat.not_lt_of_le (h.le_of_customer hi))
  · obtain ⟨-, rfl⟩ := Person.customer.inj (Option.some.inj (hi.symm.trans hv))
    exact ⟨v', rfl⟩

end Underway

/-! ## §3 — what the log tells -/

/-- **`d.Told customers`** — the log holds of every customer as much of its visit as fits its
position, the driver has joined whom its position tells, and by then all customers are gone, so that
nobody departs after somebody was joined. -/
structure Told (customers : List Customer) (d : Day) : Prop where
  traced : d.floor.Traced
  joined : d.driver.HasJoined customers (Trace.joined d.floor.premises.events)
  gone : Trace.joined d.floor.premises.events ≠ [] →
    ∀ (i : Nat) (c : Customer) (v : Visiting), d.floor.people[i]? = some (.customer c v) →
      ∃ visit, v = .ended (.returned visit)
  ordered : d.floor.premises.events.Pairwise
    fun e e' => e.joined? ≠ none → ∀ c, e' ≠ .customerDeparts c

section Told

variable {workers : Nat} {customers : List Customer} {d d' : Day} {m : Move}

/-- **People move**, and join nobody. -/
theorem Told.goes (h : d.Told customers) (hstaffed : d.Staffed workers customers)
    (hkept : ∃ ledgers, d.floor.Kept workers ledgers) (hids : (customers.map (·.id)).Nodup)
    {a : Floor.Move} {floor' : Floor} (hofFloor : Move.ofFloor? a = some m)
    (hmove : d.floor.move? a = some floor') :
    ({ d with floor := floor' } : Day).Told customers := by
  obtain ⟨hnobody, -, hjoin⟩ := plain_of_ofFloor? hofFloor
  obtain ⟨ledgers, hkept⟩ := hkept
  have hbadges := Floor.badges_move hmove
  rw [hnobody, Option.toList_none, List.append_nil] at hbadges
  have htraced : floor'.Traced := h.traced.move hkept hmove
    (hbadges ▸ hstaffed.ids_nodup hids) fun p hp => absurd hp (hjoin p)
  -- whoever is gone has an outcome, and stays as it is
  have hgone : Trace.joined d.floor.premises.events ≠ [] →
      ∀ (i : Nat) (c : Customer) (v : Visiting), floor'.people[i]? = some (.customer c v) →
        ∃ visit, v = .ended (.returned visit) := by
    intro hsome i c v hi
    have hlt : i < d.floor.people.length := by
      rw [← Floor.length_of_badges hbadges]
      exact (List.getElem?_eq_some_iff.1 hi).1
    have hold := List.getElem?_eq_getElem hlt
    have hbadge : d.floor.people[i].badge = .customer c := by
      have hsame := Floor.badge_of_getElem? hi
      rw [hbadges, Floor.badge_of_getElem? hold] at hsame
      exact Option.some.inj hsame
    cases hperson : d.floor.people[i] with
    | customer c' u =>
        rw [hperson] at hold
        obtain ⟨visit, rfl⟩ := h.gone hsome i c' u hold
        have hstays := Floor.outcome_stays hmove hold rfl
        obtain ⟨-, rfl⟩ := Person.customer.inj (Option.some.inj (hi.symm.trans hstays))
        exact ⟨visit, rfl⟩
    | worker w k =>
        rw [hperson] at hbadge
        cases hbadge
    | closer k =>
        rw [hperson] at hbadge
        cases hbadge
  rcases Floor.events_of_move hmove with hevents | ⟨i, p, e, -, hi, he, hevents⟩
  · exact ⟨htraced, by rw [hevents]; exact h.joined, by rw [hevents]; exact hgone,
      by rw [hevents]; exact h.ordered⟩
  · have hjoined : Trace.joined floor'.premises.events = Trace.joined d.floor.premises.events := by
      rw [hevents, Trace.joined_concat, Person.joined?_of_emits he, Option.toList_none,
        List.append_nil]
    refine ⟨htraced, by rw [hjoined]; exact h.joined, by rw [hjoined]; exact hgone, ?_⟩
    rw [hevents]
    refine List.pairwise_append.2 ⟨h.ordered, List.pairwise_singleton _ _,
      fun e' he' e'' he'' hsome c hdeparts => ?_⟩
    -- whoever departs is still there, so nobody was joined
    obtain rfl := List.mem_singleton.1 he''
    subst hdeparts
    obtain ⟨c', v, rfl, hv⟩ := Person.customer_of_departs he
    have hany : Trace.joined d.floor.premises.events ≠ [] := by
      obtain ⟨id, hid⟩ := Option.ne_none_iff_exists'.1 hsome
      exact List.ne_nil_of_mem (List.mem_filterMap.2 ⟨e', he', hid⟩)
    obtain ⟨visit, rfl⟩ := h.gone hany i c' v hi
    cases hv

/-- **The driver turns to something else**, and the log stays as it is. -/
theorem Told.turns (h : d.Told customers) {floor' : Floor} (htraced : floor'.Traced)
    (hevents : floor'.premises.events = d.floor.premises.events)
    (hjoined : d'.driver.HasJoined customers (Trace.joined d.floor.premises.events))
    (hgone : Trace.joined d.floor.premises.events = [] ∨ floor'.people = d.floor.people)
    (hfloor : d'.floor = floor') : d'.Told customers := by
  subst hfloor
  refine ⟨htraced, by rw [hevents]; exact hjoined, ?_, by rw [hevents]; exact h.ordered⟩
  rw [hevents]
  rcases hgone with hnone | hpeople
  · exact fun hsome => absurd hnone hsome
  · rw [hpeople]
    exact h.gone

/-- The customer whom the driver joins next is the next of the list. -/
theorem joins_next {k l : Nat} {c : Customer} (hdriver : d.driver = .joining k)
    (hdrive : d.drive? = some d') (hnext : d'.driver = .announcingJoined l c) :
    l = k ∧ d.customers[k]? = some c := by
  simp only [drive?, hdriver] at hdrive
  split at hdrive
  · obtain rfl := Option.some.inj hdrive
    cases hnext
  · next c' hc =>
    split at hdrive
    · obtain rfl := Option.some.inj hdrive
      obtain ⟨rfl, rfl⟩ := Driver.announcingJoined.inj hnext
      exact ⟨rfl, hc⟩
    · cases hdrive

/-- **The driver joins a customer**: all of them are gone, and this one is the next of them. -/
theorem Told.announces (h : d.Told customers) (hday : d.Going workers customers)
    (hkept : ∃ ledgers, d.floor.Kept workers ledgers) (hids : (customers.map (·.id)).Nodup)
    {k : Nat} {c : Customer} (hdriver : d.driver = .announcingJoined k c) :
    ({ d with
        floor := { d.floor with premises := d.floor.premises.record (.customerJoined c.id) }
        driver := .joining (k + 1) } : Day).Told customers := by
  obtain ⟨ledgers, hkept⟩ := hkept
  obtain ⟨hpeople, hall, -, hk⟩ := hday.stands_at hdriver
  have hjoined := h.joined
  rw [hdriver] at hjoined
  obtain ⟨hjoined, hc⟩ := hjoined
  obtain ⟨v, hv⟩ := hday.toStaffed.customer hc (by omega)
  obtain ⟨visit, rfl⟩ := hday.all_returned hall hv
  have hnext : (customers.take (k + 1)).map (·.id) =
      Trace.joined d.floor.premises.events ++ [c.id] := by
    rw [hjoined, List.take_add_one, hc, Option.toList_some, List.map_append]
    rfl
  have hnew : c.id ∉ Trace.joined d.floor.premises.events := by
    have hfirst := hids.sublist ((List.take_sublist (k + 1) customers).map (·.id))
    rw [hnext] at hfirst
    exact fun hmem => (List.nodup_append.1 hfirst).2.2 c.id hmem c.id (List.mem_singleton.2 rfl) rfl
  refine ⟨h.traced.joins hkept (hday.ids_nodup hids) hv hnew, ?_,
    fun _ i c' v' hi => hday.all_returned hall hi, ?_⟩
  · show Trace.joined (d.floor.premises.record (.customerJoined c.id)).events = _
    rw [Premises.events_record, Trace.joined_concat, hnext]
    rfl
  · show (d.floor.premises.record (.customerJoined c.id)).events.Pairwise _
    rw [Premises.events_record]
    refine List.pairwise_append.2 ⟨h.ordered, List.pairwise_singleton _ _, ?_⟩
    rintro e - e' he' - c' rfl
    cases List.mem_singleton.1 he'

/-- **A step of the driver** that takes no failure. -/
theorem Told.drive (h : d.Told customers) (hday : d.Going workers customers)
    (hkept : ∃ ledgers, d.floor.Kept workers ledgers) (hids : (customers.map (·.id)).Nodup)
    (hdrives : d.Drives workers customers d') (hdrive : d.drive? = some d') :
    d'.Told customers := by
  have hids' := (hday.drive hdrives).ids_nodup hids
  obtain ⟨ledgers, hkept'⟩ := hkept
  have hjoined := h.joined
  cases hdrives with
  | hires hdriver hlt =>
      rw [hdriver] at hjoined
      have htraced := h.traced.join hkept' hids' (.inr (.inl ⟨_, rfl⟩))
      exact h.turns htraced rfl hjoined (.inl hjoined) rfl
  | @welcomes c hdriver hc =>
      rw [hdriver] at hjoined
      exact h.turns (h.traced.join hkept' hids' (.inl ⟨c, rfl⟩)) rfl hjoined (.inl hjoined) rfl
  | hired hdriver hge =>
      rw [hdriver] at hjoined
      exact h.turns h.traced rfl hjoined (.inr rfl) rfl
  | welcomed hdriver hall =>
      rw [hdriver] at hjoined
      exact h.turns h.traced rfl hjoined (.inr rfl) rfl
  | collected hdriver hall =>
      rw [hdriver] at hjoined
      exact h.turns h.traced rfl hjoined (.inr rfl) rfl
  | takesVisit hdriver hi hguest hvisit => exact h.turns h.traced rfl hjoined (.inr rfl) rfl
  | takesReport hdriver hi hworker hreport => exact h.turns h.traced rfl hjoined (.inr rfl) rfl
  | joins hdriver hk =>
      obtain ⟨-, hc⟩ := joins_next hdriver hdrive rfl
      rw [hdriver] at hjoined
      exact h.turns h.traced rfl ⟨hjoined, hday.list ▸ hc⟩ (.inr rfl) rfl
  | joined hdriver hk =>
      rw [hdriver] at hjoined
      refine h.turns h.traced rfl ?_ (.inr rfl) rfl
      rw [show Trace.joined _ = _ from hjoined, List.take_of_length_le hk]
      rfl
  | announces hdriver => exact h.announces hday ⟨ledgers, hkept'⟩ hids hdriver
  | fires hdriver =>
      rw [hdriver] at hjoined
      exact h.turns h.traced.fire rfl hjoined (.inr rfl) rfl
  | gathered hdriver hall =>
      rw [hdriver] at hjoined
      exact h.turns h.traced rfl hjoined (.inr rfl) rfl
  | parts hdriver hk =>
      rw [hdriver] at hjoined
      exact h.turns h.traced rfl hjoined (.inr rfl) rfl
  | returns hdriver hk =>
      rw [hdriver] at hjoined
      exact h.turns h.traced rfl hjoined (.inr rfl) rfl

/-- **The driver gives up**, and joins nobody any more. -/
theorem Told.givesUp (h : d.Told customers) (hgivesUp : d.GivesUp d') : d'.Told customers := by
  have hjoined := h.joined.in_order
  cases hgivesUp with
  | closes hdriver hcloses =>
      exact h.turns (h.traced.premises hcloses.events_eq) hcloses.events_eq hjoined (.inr rfl) rfl
  | closed hdriver => exact h.turns h.traced rfl hjoined (.inr rfl) rfl
  | fires hdriver => exact h.turns h.traced.fire rfl hjoined (.inr rfl) rfl

/-- **Every move** keeps the log in order, whatever panics. -/
theorem Told.move (h : d.Told customers) (hday : d.Underway workers customers)
    (hids : (customers.map (·.id)).Nodup) (hmove : d.move? m = some d') : d'.Told customers := by
  obtain ⟨hstaffed, hkept⟩ := hday.staffed
  have hjoined := h.joined.in_order
  cases moves_of_move? hmove with
  | goes hofFloor hgoes => exact h.goes hstaffed hkept hids hofFloor hgoes
  | posts hpost =>
      obtain ⟨p, hp, hsome, hnew, rfl⟩ := post?_eq_some hpost
      exact ⟨h.traced, h.joined, h.gone, h.ordered⟩
  | drives hdrive =>
      rcases hday with hsteady | ⟨hdriver, -⟩
      · rcases hsteady.drives hdrive with ⟨hsound, hdrives⟩ | ⟨e, -, hfails⟩ | ⟨e, -, hgivesUp⟩
        · exact h.drive hsound.toGoing hkept hids hdrives hdrive
        · cases hfails
          exact h.turns h.traced rfl hjoined (.inr rfl) rfl
        · exact h.givesUp hgivesUp
      · simp only [drive?, hdriver] at hdrive
        cases hdrive
  | panics hunwind =>
      obtain ⟨e, -, rfl⟩ := Option.map_eq_some_iff.1 hunwind
      exact h.turns h.traced.fire rfl hjoined (.inr rfl) rfl

/-- **Every run** keeps the log in order, whatever panics. -/
theorem Told.run (hword : workers ≤ wordMax) (hids : (customers.map (·.id)).Nodup)
    (h : d.Told customers) (hday : d.Underway workers customers) {ms : List Move}
    (hrun : run? ms d = some d') : d'.Told customers ∧ d'.Underway workers customers :=
  run_induction (motive := fun _ g => g.Told customers ∧ g.Underway workers customers)
    (fun hg hmove => ⟨hg.1.move hg.2 hids hmove, hg.2.move hword hmove⟩) ⟨h, hday⟩ hrun

end Told

/-- A day before its first step has told nothing. -/
theorem told_opening {plan : Plan} {chance clock : Nat} {runId : RunId} {d : Day}
    (h : opening plan chance runId clock = .ok d) : d.Told (plan.customers chance) := by
  obtain rfl := opening_eq h
  exact ⟨Floor.traced_opening _ _, rfl, fun hsome => absurd rfl hsome, .nil⟩

/-! ## §4 — the end -/

section Told

variable {workers : Nat} {customers : List Customer} {d : Day}

/-- **The log holds the beginning of a visit** of every customer of the day. -/
theorem Told.begun (h : d.Told customers) (hstaffed : d.Staffed workers customers)
    (hids : (customers.map (·.id)).Nodup) {c : Customer} (hc : c ∈ customers) :
    ∃ w, Trace.customer c.id d.floor.premises.events <+: Trace.visit w c := by
  by_cases hcome : .customer c ∈ d.floor.badges
  · exact h.traced.begun hcome
  · -- whoever has this id is this customer, so nobody with it has come
    refine ⟨0, ?_⟩
    rw [h.traced.strangers c.id]
    · exact List.nil_prefix
    · intro hmem
      obtain ⟨b, hb, hid⟩ := List.mem_filterMap.1 hmem
      cases b with
      | customer c' =>
          have hstaff : .customer c' ∈ staff workers customers :=
            List.mem_of_mem_take (hstaffed.come ▸ hb)
          have hc' : c' ∈ customers := by
            rw [← staff_customers workers customers]
            exact List.mem_filterMap.2 ⟨_, hstaff, rfl⟩
          obtain rfl := List.inj_on_of_nodup_map hids hc' hc (Option.some.inj hid)
          exact hcome hb
      | worker w => cases hid
      | closer => cases hid

/-- **Nobody departs** after a customer was joined. -/
theorem Told.nobody_departs (h : d.Told customers) {before after : List Event} {c : Nat}
    (hevents : d.floor.premises.events = before ++ .customerJoined c :: after) (c' : Nat) :
    .customerDeparts c' ∉ after := by
  have hordered := h.ordered
  rw [hevents] at hordered
  have hafter := (List.pairwise_cons.1 (List.pairwise_append.1 hordered).2.1).1
  exact fun hmem => hafter _ hmem nofun c' rfl

/-- **The whole visit** of a customer is told, when the driver has joined it. -/
theorem Told.whole (h : d.Told customers) {i : Nat} {c : Customer} {visit : Visit}
    (hi : d.floor.people[i]? = some (.customer c (.ended (.returned visit))))
    (hjoined : c.id ∈ Trace.joined d.floor.premises.events) :
    Trace.customer c.id d.floor.premises.events = Trace.visit visit.worker c := by
  obtain ⟨w, n, ⟨hworker, hn⟩, hrecords⟩ := h.traced.visits i c _ hi
  have hevents := hrecords.events
  rw [hworker]
  rcases hn with rfl | rfl
  · -- the first nine events do not say that it was joined
    have hmem : .customerJoined c.id ∈ Trace.customer c.id d.floor.premises.events :=
      List.mem_filter.2 ⟨Trace.mem_joined.1 hjoined, by simp [Event.customer?]⟩
    rw [hevents] at hmem
    simp [Trace.visit] at hmem
  · exact hevents

end Told

/-- **Every visit is told.** Take any plan, and any interleaving, whoever panics in it, the driver
included. When the day ends with a report, the events that concern a customer are the ten of its
visit, each of them once and in their order, with the worker and the task that the report has for
it; the customers are joined in the order of their ids, and nobody departs after the first of them.
At any other moment, and when the day is cut short, the events of every customer are the first ones
of a visit. So they are in an office to which customers and workers come as they like, and which
may be closed at any moment. -/
theorem every_visit_is_told (plan : Plan) (chance : Nat) (runId : RunId) (clock : Nat)
    (hword : plan.config.workerCount ≤ wordMax) (d₀ : Day)
    (hopening : opening plan chance runId clock = .ok d₀) (ms : List Move) (d : Day)
    (hrun : run? ms d₀ = some d) :
    (∀ r, d.ending? = some (.returned r) →
      r.visits.map (·.customer) = plan.customers chance ∧
        (∀ v ∈ r.visits, Trace.customer v.customer.id d.floor.premises.events =
          Trace.visit v.worker v.customer) ∧
        Trace.joined d.floor.premises.events = List.range (plan.customers chance).length ∧
        ∀ before after c, d.floor.premises.events = before ++ .customerJoined c :: after →
          ∀ c', .customerDeparts c' ∉ after) ∧
      (∀ c ∈ plan.customers chance,
        ∃ w, Trace.customer c.id d.floor.premises.events <+: Trace.visit w c) ∧
      ∀ (capacity workers minute clock : Nat) (ms : List Floor.Move) (f : Floor),
        Floor.Regular workers ms → ((Floor.newcomers ms).filterMap Badge.customerId?).Nodup →
          Floor.run? ms (.opening (.furnish capacity workers minute) clock) = some f →
            ∀ c, .customer c ∈ Floor.newcomers ms →
              ∃ w, Trace.customer c.id f.premises.events <+: Trace.visit w c := by
  have horder := pairwise_ofTasks (plan.tasks chance)
  have hids : ((plan.customers chance).map (·.id)).Nodup :=
    List.pairwise_map.2 (horder.imp Nat.ne_of_lt)
  have horderly := orderly_opening hopening
  obtain ⟨htold, hunderway⟩ := (told_opening hopening).run hword hids (.inl horderly.steady.1) hrun
  refine ⟨fun r hended => ?_, fun c hc => htold.begun hunderway.staffed.1 hids hc,
    fun capacity workers minute clock ms f hms hnodup hfloor =>
      (Floor.visits_in_order hms hnodup hfloor).1⟩
  have hcalm := no_panic_of_returned hword hopening hrun hended
  have hday := (horderly.run hword hcalm hrun).1
  have h := (accounted_opening hopening).run hword hcalm horderly hrun
  have hcustomers := h.customers_eq hday hended horder
  have hjoined : Trace.joined d.floor.premises.events = (plan.customers chance).map (·.id) := by
    have hdriver := htold.joined
    rwa [driver_of_ending? hended] at hdriver
  refine ⟨hcustomers, fun v hv => ?_, hjoined.trans (map_id_ofTasks _),
    fun before after c hevents => htold.nobody_departs hevents⟩
  obtain ⟨_, hi, -⟩ := h.returned_by hday hended hv
  refine htold.whole hi ?_
  rw [hjoined, ← hcustomers, List.map_map]
  exact List.mem_map_of_mem hv

/-- One worker, and two customers who come to it, and depart, in the order opposite to their ids. -/
theorem every_visit_is_told_reversed :
    let plan : Plan := (Plan.ofConfig ⟨1, 1, 5, 0, none⟩).withTasks [.mailPackage, .buyStamps]
    let ms : List Move := List.flatten [.replicate 4 .drive, .replicate 7 (.step 0),
      .replicate 10 (.step 2), [.exchange 2 0, .step 0, .step 0, .step 0, .exchange 0 2, .step 2,
      .step 2, .exchange 2 0], .replicate 5 (.step 0), [.exchange 0 2], .replicate 6 (.step 0),
      .replicate 5 (.step 2), [.post 2], .replicate 10 (.step 1), [.exchange 1 0, .step 0, .step 0,
      .step 0, .exchange 0 1, .step 1, .step 1, .exchange 1 0], .replicate 10 (.step 0),
      [.exchange 0 1], .replicate 6 (.step 0), .replicate 5 (.step 1), [.post 1],
      .replicate 10 .drive, [.step 0, .post 0], .replicate 4 .drive]
    plan.config.workerCount ≤ wordMax ∧
      ∃ (d₀ d : Day) (r : Report), opening plan 0 ⟨0⟩ 0 = .ok d₀ ∧ run? ms d₀ = some d ∧
        d.ending? = some (.returned r) ∧
        d.floor.premises.events.filterMap Event.customer? =
          List.replicate 9 1 ++ List.replicate 9 0 ++ [0, 1] ∧
        r.visits.map (·.customer) = [⟨0, .mailPackage⟩, ⟨1, .buyStamps⟩] ∧
        (∀ v ∈ r.visits, Trace.customer v.customer.id d.floor.premises.events =
          Trace.visit v.worker v.customer) ∧
        Trace.joined d.floor.premises.events = [0, 1] := by
  intro plan ms
  have hends : ((opening plan 0 ⟨0⟩ 0).toOption.bind (run? ms)).map (fun d =>
      (d.floor.premises.events.filterMap Event.customer?, d.ending?.map Ending.isReturned)) =
        some (List.replicate 9 1 ++ List.replicate 9 0 ++ [0, 1], some true) := by
    decide +kernel
  obtain ⟨d₀, hd₀⟩ := exists_opening 0 ⟨0⟩ 0 (show 0 < plan.config.capacity by decide)
    (show 0 < plan.config.workerCount by decide)
  rw [hd₀, Except.toOption, Option.bind_some] at hends
  obtain ⟨d, hrun, hall⟩ := Option.map_eq_some_iff.1 hends
  obtain ⟨hevents, hreturned⟩ := Prod.mk.inj hall
  obtain ⟨ending, hended, hsome⟩ := Option.map_eq_some_iff.1 hreturned
  cases ending with
  | returned r =>
      obtain ⟨hwhole, -⟩ := every_visit_is_told plan 0 ⟨0⟩ 0 (by decide) d₀ hd₀ ms d hrun
      obtain ⟨hcustomers, hvisits, hjoined, -⟩ := hwhole r hended
      exact ⟨by decide, d₀, d, r, hd₀, hrun, hended, hevents, hcustomers, hvisits, hjoined⟩
  | failed f => cases hsome
  | panicked => cases hsome

end Day

end Postal

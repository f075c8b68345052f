import Postal.Proofs.Seated

/-!
# A hand-over in progress wins over the shutdown.

A worker that waits for an assignment may find two arms ready at once: a customer stands in line
with its assignment, and the shutdown has fired. It is left to chance which of them its select
takes, and the wait ends the same way all the same, since the arm of the shutdown tries once more.

Whoever stands in line is parked, so that whoever tries once more finds it (`Floor.Seated`). The
ledgers of the desks say the rest: at most one customer stands in line at a slot
(`Floor.Seated.single_publisher`), the slot is published for it (`Floor.Seated.published`), and the
worker that has received its assignment passes the check of it (`Floor.Seated.accepts`).

## §1 — publications that wait.
## §2 — how a wait for an assignment ends.
-/

namespace Postal

namespace Floor

/-! ## §1 — publications that wait -/

/-- **`f.HandsOver j w c`** — the publication of customer `c`, person `j`, waits at the slot of
worker `w`, which is open. -/
def HandsOver (f : Floor) (j w : Nat) (c : Customer) : Prop :=
  f.premises.isSlotClosed w = false ∧
    ∃ stay, f.people[j]? = some (.customer c (.dealing stay w .handing))

section Ends

variable {workers : Nat} {x y : Selecting Floor} {i j w n : Nat} {c : Customer}

/-- **At most one** publication waits at a slot. -/
theorem Seated.single_publisher (h : Seated workers x) {j' : Nat} {c' : Customer}
    (hj : x.place.HandsOver j w c) (hj' : x.place.HandsOver j' w c') : j' = j := by
  obtain ⟨ledgers, hkept⟩ := h.kept
  obtain ⟨-, stay, hj⟩ := hj
  obtain ⟨-, stay', hj'⟩ := hj'
  obtain ⟨-, hclaimant, -⟩ := hkept.dealing_fits hj rfl
  obtain ⟨-, hclaimant', -⟩ := hkept.dealing_fits hj' rfl
  exact hclaimant'.symm.trans hclaimant

/-- **A slot where a publication waits** is published, for that customer. -/
theorem Seated.published (h : Seated workers x) (hj : x.place.HandsOver j w c) :
    ∃ s, x.place.premises.slots[w]? = some s ∧ s.phase = .published ∧ s.customer = some c.id := by
  obtain ⟨ledgers, hkept⟩ := h.kept
  obtain ⟨-, stay, hj⟩ := hj
  obtain ⟨hw, -, hcurrent, hstage⟩ := hkept.dealing_fits hj rfl
  obtain ⟨s, hs⟩ := hkept.slot hw
  obtain ⟨hphase, hcustomer, -⟩ := Premises.slot_of_view (hkept.views w hw) hs
  rw [Ledger.bound, List.mem_singleton.1 hstage, hcurrent] at hcustomer
  rw [List.mem_singleton.1 hstage] at hphase
  exact ⟨s, hs, hphase, hcustomer⟩

/-- **A worker that has received** an assignment passes the check of it. -/
theorem Seated.accepts (h : Seated workers x) {a : Assignment}
    (hi : x.place.people[i]? = some (.worker w (.checkingReceived n a))) :
    ∃ z, venue.move? x (.aside (.step i)) = some z ∧ z.place = { x.place with
      people := x.place.people.set i (.worker w (.serving n a .announcingIntent)) } := by
  obtain ⟨ledgers, hkept⟩ := h.kept
  obtain ⟨s, c, hs, -, rfl, hphase, hcustomer⟩ := hkept.received hi
  have hcheck : s.checkReceived c.assignment = .ok () := if_pos ⟨hphase, hcustomer⟩
  refine ⟨_, Venue.move?_aside rfl ?_ ?_, rfl⟩
  · rintro j ⟨⟩
    show x.place.people[i]?.bind Person.wait? = none
    rw [hi]
    rfl
  · show x.place.step? i = _
    simp only [step?, hi, Person.step?, Working.step?, hs, hcheck, Option.bind_eq_bind,
      Option.bind_some, Option.map_some]

/-! ## §2 — how a wait for an assignment ends -/

/-- **Whoever meets a worker** that waits for an assignment hands one over. -/
theorem Seated.partner_iff (h : Seated workers x)
    (hi : x.place.people[i]? = some (.worker w (.awaitingPublish n))) :
    j ∈ x.parked ∧ venue.meets x.place i j = true ↔ ∃ c, x.place.HandsOver j w c := by
  have hwait : venue.waitOf? x.place i = some ⟨w, .published, false⟩ :=
    Venue.waitOf?_eq_some.2 ⟨_, hi, rfl⟩
  constructor
  · rintro ⟨hj, hmeets⟩
    obtain ⟨w₁, w', hw₁, hw', hmeets⟩ := Venue.meets_eq_true.1 hmeets
    obtain rfl := Option.some.inj (hwait.symm.trans hw₁)
    have hopen := (h.seated.orderly.open_of_parked hj hw').1
    obtain ⟨p, hp, hpw⟩ := Venue.waitOf?_eq_some.1 hw'
    obtain rfl := (Wait.meets_iff.1 hmeets).1
    -- whoever holds out an assignment and is parked stands in line
    have hoffers := Wait.offers_of_meets hmeets rfl
    have hline := (h.seated.lined j p w' hp hpw hoffers).1 hj
    obtain ⟨c, stay, rfl⟩ := eq_of_offers hpw hoffers hline
    exact ⟨c, hopen, stay, hp⟩
  · rintro ⟨c, hopen, stay, hj⟩
    exact ⟨h.parked_of_handing hj hopen, Venue.meets_eq_true.2 ⟨_, _, hwait,
      Venue.waitOf?_eq_some.2 ⟨_, hj, rfl⟩, Wait.meets_iff.2 ⟨rfl, rfl, rfl⟩⟩⟩

/-- **A worker that meets the customer** of a publication takes its assignment. -/
theorem eq_of_meets {stay : Stay} (hi : x.place.people[i]? = some (.worker w (.awaitingPublish n)))
    (hj : x.place.people[j]? = some (.customer c (.dealing stay w .handing)))
    (h : venue.Meets x i j y) :
    y = ⟨{ x.place with
      people := (x.place.people.set j (.customer c (.dealing stay w .awaitingAcknowledge))).set i
        (.worker w (.checkingReceived n c.assignment)) },
      x.parked.filter (· ≠ j), x.retrying.filter (· ≠ i)⟩ := by
  cases h with
  | hands hends hmem ha hb hw hw' hmeets hsends =>
      rcases hends with ⟨rfl, rfl⟩ | ⟨rfl, rfl⟩
      · obtain rfl := Option.some.inj (hi.symm.trans ha)
        obtain rfl := Option.some.inj hw
        cases hsends
      · obtain rfl := Option.some.inj (hj.symm.trans ha)
        obtain rfl := Option.some.inj (hi.symm.trans hb)
        rfl

/-- **Where a publication waits** the wait for an assignment ends with it, whatever the select
picks. -/
theorem Seated.eq_of_handsOver (h : Seated workers x) {stay : Stay}
    (hi : x.place.people[i]? = some (.worker w (.awaitingPublish n)))
    (hj : x.place.people[j]? = some (.customer c (.dealing stay w .handing)))
    (hopen : x.place.premises.isSlotClosed w = false) (hends : venue.Ends x i y) :
    y = ⟨{ x.place with
      people := (x.place.people.set j (.customer c (.dealing stay w .awaitingAcknowledge))).set i
        (.worker w (.checkingReceived n c.assignment)) },
      x.parked.filter (· ≠ j), x.retrying.filter (· ≠ i)⟩ := by
  rcases hends.cases with ⟨j', hmeets⟩ | ⟨-, ⟨wait, hw, hclosed⟩ | halone⟩
  · obtain ⟨c', hj'⟩ := (h.partner_iff hi).1 hmeets.partner
    obtain rfl := h.single_publisher ⟨hopen, stay, hj⟩ hj'
    exact eq_of_meets hi hj hmeets
  · obtain rfl := Option.some.inj (hw.symm.trans (Venue.waitOf?_eq_some.2 ⟨_, hi, rfl⟩))
    cases hopen.symm.trans hclosed
  · obtain ⟨hparked, hmeets⟩ := (h.partner_iff hi).2 ⟨c, hopen, stay, hj⟩
    cases (halone j hparked).symm.trans hmeets

/-- **Where no publication waits** the wait for an assignment ends with an interruption. -/
theorem Seated.eq_of_nobody (h : Seated workers x)
    (hi : x.place.people[i]? = some (.worker w (.awaitingPublish n)))
    (hnobody : ∀ j c, ¬ x.place.HandsOver j w c) (hends : venue.Ends x i y) :
    y = venue.interrupt x i := by
  rcases hends.cases with ⟨j, hmeets⟩ | ⟨hy, -⟩
  · obtain ⟨c, hj⟩ := (h.partner_iff hi).1 hmeets.partner
    exact absurd hj (hnobody j c)
  · exact hy

/-- However the wait of a person ends, the office is seated. -/
theorem Seated.ends (h : Seated workers x) (hends : venue.Ends x i y) : Seated workers y := by
  cases hends with
  | meets hmove => exact h.select (by rintro _ ⟨⟩) hmove
  | quits hmove => exact h.select (by rintro _ ⟨⟩) hmove
  | heeds hheeds hmove =>
      exact (h.select (by rintro _ ⟨⟩) hheeds).select (by rintro _ ⟨⟩) hmove
  | retries hmove => exact h.select (by rintro _ ⟨⟩) hmove

/-- **A hand-over in progress wins over the shutdown.** Take an office with any number of visits,
shifts (no worker twice) and closes, of the office or of single slots, at any moment, the shutdown
and panics at any moment, and any interleaving of all their moves, with their selects, whose look at
all arms is one move (`Venue.move?`); and take a worker that waits for an assignment.

If a publication waits at its slot then that is the only one, and the slot is published for its
customer. However the worker's wait ends, by its select or on its second try, the worker has
received that very assignment, and passes the check of it; and the wait can end. If no publication
waits, and the shutdown has fired or the slot is closed, then the wait can end, and it does so only
by an interruption, which changes nothing on the premises. Otherwise the worker parks, or is parked,
and its wait does not end by itself. So how the wait ends depends on where it stands, and not on the
arm that is picked. -/
theorem hand_over_wins (capacity workers minute clock : Nat) (ms : List (Selecting.Move Move))
    (hms : Proper workers ms) (x : Selecting Floor)
    (hrun : venue.run? ms (.start (.opening (.furnish capacity workers minute) clock)) = some x)
    (i w n : Nat) (hi : x.place.people[i]? = some (.worker w (.awaitingPublish n))) :
    (∀ j c, x.place.HandsOver j w c →
      (j ∈ x.parked ∧ (∀ j' c', x.place.HandsOver j' w c' → j' = j) ∧
        ∃ s, x.place.premises.slots[w]? = some s ∧ s.phase = .published ∧
          s.customer = some c.id) ∧
      (∃ y, venue.Ends x i y) ∧ ∀ y, venue.Ends x i y →
        y.place.premises = x.place.premises ∧
        y.place.people[i]? = some (.worker w (.checkingReceived n c.assignment)) ∧
        ∃ z, venue.move? y (.aside (.step i)) = some z ∧
          z.place.premises = x.place.premises ∧
          z.place.people[i]? = some (.worker w (.serving n c.assignment .announcingIntent))) ∧
    ((∀ j c, ¬ x.place.HandsOver j w c) →
      x.place.premises.fired = true ∨ x.place.premises.isSlotClosed w = true →
      (∃ y, venue.Ends x i y) ∧ ∀ y, venue.Ends x i y → y.place = { x.place with
        people := x.place.people.set i (.worker w (.report w n)) }) ∧
    ((∀ j c, ¬ x.place.HandsOver j w c) →
      x.place.premises.fired = false → x.place.premises.isSlotClosed w = false →
      (i ∈ x.parked ∨ ∃ y, venue.move? x (.park i) = some y) ∧ ∀ y, ¬ venue.Ends x i y) ∧
    ∀ y y', venue.Ends x i y → venue.Ends x i y' → y = y' := by
  have h : Seated workers x := hms.seated hrun
  have hwait : venue.waitOf? x.place i = some ⟨w, .published, false⟩ :=
    Venue.waitOf?_eq_some.2 ⟨_, hi, rfl⟩
  refine ⟨fun j c hj => ?_, fun hnobody hover => ?_, fun hnobody hfired hopen => ?_,
    fun y y' hy hy' => ?_⟩
  · obtain ⟨hparked, hmeets⟩ := (h.partner_iff hi).2 ⟨c, hj⟩
    refine ⟨⟨hparked, fun j' c' => h.single_publisher hj, h.published hj⟩,
      (Venue.exists_ends h.seated.orderly hwait (.inl ⟨j, hparked, hmeets⟩)).2, fun y hy => ?_⟩
    have hseated := h.ends hy
    obtain ⟨hopen, stay, hstands⟩ := hj
    obtain rfl := h.eq_of_handsOver hi hstands hopen hy
    have hlt := (List.getElem?_eq_some_iff.1 hi).1
    have hreceived := List.getElem?_set_self (l := x.place.people.set j
      (.customer c (.dealing stay w .awaitingAcknowledge)))
      (a := .worker w (.checkingReceived n c.assignment)) (by rwa [List.length_set])
    obtain ⟨z, hz, hplace⟩ := hseated.accepts hreceived
    refine ⟨rfl, hreceived, z, hz, by rw [hplace], ?_⟩
    rw [hplace]
    exact List.getElem?_set_self (List.getElem?_eq_some_iff.1 hreceived).1
  · have hready : venue.isOver x.place ⟨w, .published, false⟩ = true := by
      show (x.place.premises.isSlotClosed w || true && x.place.premises.fired) = true
      rcases hover with hfired | hclosed
      · rw [hfired, Bool.and_self, Bool.or_true]
      · rw [hclosed, Bool.true_or]
    refine ⟨(Venue.exists_ends h.seated.orderly hwait (.inr hready)).2, fun y hy => ?_⟩
    rw [h.eq_of_nobody hi hnobody hy, Venue.interrupt, Venue.change_eq_seat hi]
    rfl
  · refine Venue.not_ends h.seated.orderly hwait (fun j hj => ?_) ?_
    · refine Bool.eq_false_iff.2 fun hmeets => ?_
      obtain ⟨c, hj⟩ := (h.partner_iff hi).1 ⟨hj, hmeets⟩
      exact hnobody j c hj
    · show (x.place.premises.isSlotClosed w || true && x.place.premises.fired) = false
      rw [hopen, hfired, Bool.and_false, Bool.or_self]
  · by_cases hsome : ∃ j c, x.place.HandsOver j w c
    · obtain ⟨j, c, hopen, stay, hj⟩ := hsome
      exact (h.eq_of_handsOver hi hj hopen hy).trans (h.eq_of_handsOver hi hj hopen hy').symm
    · have hnobody : ∀ j c, ¬ x.place.HandsOver j w c := fun j c hj => hsome ⟨j, c, hj⟩
      exact (h.eq_of_nobody hi hnobody hy).trans (h.eq_of_nobody hi hnobody hy').symm

/-- A publication waits when the shutdown fires, and both arms of the worker's select are ready. The
worker may take the assignment by the one, or heed the other and take it on its second try; it comes
to the same. -/
theorem hand_over_wins_fired :
    let c : Customer := ⟨7, .mailPackage⟩
    let ms : List (Selecting.Move Move) :=
      List.map .aside ([.join (.starts 0), .join (.arrives c)] ++ .replicate 7 (.step 0) ++
        .replicate 9 (.step 1)) ++ [.park 1, .aside .fire]
    Proper 1 ms ∧ ∃ x x' y,
      venue.run? ms (.start (.opening (.furnish 1 1 0) 0)) = some x ∧
      x.place.people[0]? = some (.worker 0 (.awaitingPublish 0)) ∧ x.place.HandsOver 1 0 c ∧
      x.place.premises.fired = true ∧ venue.move? x (.meet 0 1) = some y ∧
      venue.move? x (.heed 0) = some x' ∧ venue.move? x' (.retry 0 (some 1)) = some y ∧
      y.place.people[0]? = some (.worker 0 (.checkingReceived 0 c.assignment)) := by
  intro c ms
  have hms : Proper 1 ms := by
    refine ⟨fun p hp => ?_, fun w => ?_⟩
    · have hjoins : p = .starts 0 ∨ p = .arrives c := by
        simpa [ms, List.mem_replicate] using hp
      rcases hjoins with rfl | rfl
      · exact .inr (.inl ⟨0, by decide, rfl⟩)
      · exact .inl ⟨c, rfl⟩
    · by_cases hw : w = 0
      · subst hw
        exact (by decide +kernel : ms.count (.aside (.join (.starts 0))) ≤ 1)
      · rw [List.count_eq_zero.2]
        · exact Nat.zero_le 1
        · simpa [ms, List.mem_replicate, Person.starts, Person.arrives] using hw
  have hfacts : (venue.run? ms (.start (.opening (.furnish 1 1 0) 0))).any (fun x =>
      x.place.people = [.worker 0 (.awaitingPublish 0),
        .customer c (.dealing ⟨0, 0⟩ 0 .handing)] ∧
      x.place.premises.isSlotClosed 0 = false ∧ x.place.premises.fired = true ∧
      (venue.move? x (.meet 0 1)).isSome ∧ (venue.move? x (.heed 0)).any fun x' =>
        (venue.move? x' (.retry 0 (some 1))).isSome) = true := by
    decide +kernel
  obtain ⟨x, hrun, hx⟩ := (Option.any_eq_true _ _).1 hfacts
  obtain ⟨hpeople, hopen, hfired, hmeets, hheeds⟩ := of_decide_eq_true hx
  obtain ⟨y, hmeets⟩ := Option.isSome_iff_exists.1 hmeets
  obtain ⟨x', hheeds, hretries⟩ := (Option.any_eq_true _ _).1 hheeds
  obtain ⟨y', hretries⟩ := Option.isSome_iff_exists.1 hretries
  have hi : x.place.people[0]? = some (.worker 0 (.awaitingPublish 0)) := by rw [hpeople]; rfl
  have hover : x.place.HandsOver 1 0 c := ⟨hopen, ⟨0, 0⟩, by rw [hpeople]; rfl⟩
  obtain ⟨htakes, -, -, hsame⟩ := hand_over_wins 1 1 0 0 ms hms x hrun 0 0 0 hi
  obtain rfl := hsame y y' (.meets hmeets) (.heeds hheeds hretries)
  obtain ⟨-, hreceived, -⟩ := (htakes 1 c hover).2.2 y (.meets hmeets)
  exact ⟨hms, x, x', y, hrun, hi, hover, hfired, hmeets, hheeds, hretries, hreceived⟩

end Ends

end Floor

end Postal

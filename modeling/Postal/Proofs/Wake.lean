import Postal.Proofs.Hall

/-!
# No wake-up is lost.

Sleepers are woken only where there is a reason: when a permit comes back while somebody is queued,
when a grant leaves a permit over, and after a close. These reasons are enough. If a permit is free
and somebody waits, then whoever holds the ticket that is served next is awake, and it stays so,
whatever the others do, until it looks or the semaphore is closed. And a closed semaphore has no
sleeper, unless a close is still about to wake everybody.
-/

namespace Postal.Semaphore.Hall

section Alert

variable {h h' : Hall} {i : Nat}

/-- **Alert**: whoever could be served does not sleep, and after a close nobody sleeps whom nobody
is about to wake. -/
structure Alert (h : Hall) : Prop where
  line : h.InLine
  roused : h.semaphore.closed = false → 0 < h.semaphore.permits →
    ∀ i : Nat, h.callers[i]? ≠ some (.asleep h.semaphore.nowServing)
  told : h.semaphore.closed = true →
    (∃ i : Nat, h.callers[i]? = some .notifying) ∨
      ∀ i ticket : Nat, h.callers[i]? ≠ some (.asleep ticket)

/-- If nobody is queued then nobody waits with the ticket that is served next. -/
theorem InLine.nobody (hline : h.InLine) (hc : h.semaphore.closed = false)
    (hq : h.semaphore.queued = 0) (i : Nat) :
    h.callers[i]? ≠ some (.asleep h.semaphore.nowServing) := by
  intro hi
  have hlt := hline.lt hc hi rfl
  rw [queued] at hq
  omega

/-- Whoever sleeps after a section was not woken, and slept before or is the one who stepped. -/
theorem asleep_of_put {c : Caller} {s : Semaphore} {wakes : Bool} {j ticket : Nat}
    (hj : ((h.put i c s).wakeIf wakes).callers[j]? = some (.asleep ticket)) :
    wakes = false ∧ (c = .asleep ticket ∨ h.callers[j]? = some (.asleep ticket)) := by
  rw [wakeIf_callers, Option.map_eq_some_iff] at hj
  obtain ⟨d, hd, hw⟩ := hj
  cases wakes with
  | true => cases d <;> cases hw
  | false =>
      obtain rfl : d = .asleep ticket := hw
      rcases getElem?_set_cases hd with ⟨-, heq⟩ | ⟨-, hd⟩
      · exact ⟨rfl, .inl heq.symm⟩
      · exact ⟨rfl, .inr hd⟩

/-- **A free permit leaves the next in line awake.** -/
theorem Alert.roused_step {c c' : Caller} {s' : Semaphore} {wakes : Bool} (hall : h.Alert)
    (hi : h.callers[i]? = some c) (hs : c.Steps h.semaphore c' s' wakes) (hc : s'.closed = false)
    (hp : 0 < s'.permits) (j : Nat) :
    ((h.put i c' s').wakeIf wakes).callers[j]? ≠ some (.asleep s'.nowServing) := by
  have hline := hall.line.step hi hs
  -- once the queue is empty, nobody has the ticket that is served next
  have hempty : s'.queued = 0 →
      ((h.put i c' s').wakeIf wakes).callers[j]? ≠ some (.asleep s'.nowServing) := by
    intro hq
    have hnobody := hline.nobody (by simpa using hc) (by simpa using hq) j
    rwa [wakeIf_semaphore, put_semaphore] at hnobody
  intro hj
  obtain ⟨hw, hwho⟩ := asleep_of_put hj
  cases hs with
  | looks hacq =>
      cases acquires_of_acquire? hacq with
      | refused pos hclosed => rw [hclosed] at hc; exact absurd hc (by decide)
      | queues hopen hg =>
          rcases hwho with heq | hj
          · have hn := Caller.asleep.inj heq
            exact absurd hp (by simp [hg hn.symm])
          · exact hall.roused hopen hp j hj
      | servedAtOnce hopen hn hpos => exact hempty (by simp [queued, hn]) hj
      | served ticket hopen hn hpos =>
          refine hempty ?_ hj
          simp only [leavesOver, Bool.and_eq_false_iff, decide_eq_false_iff_not] at hw
          omega
  | dozes hopen hg =>
      rcases hwho with heq | hj
      · exact absurd hp (by simp [hg (Caller.asleep.inj heq).symm])
      · exact hall.roused hopen hp j hj
  | tries htry =>
      cases tries_of_tryAcquire htry with
      | failed hf =>
          rcases hwho with heq | hj
          · cases heq
          · exact hall.roused hc hp j hj
      | took hopen hpos hq => exact hempty (by rw [queued] at hq ⊢; simp only; omega) hj
  | full hfull =>
      rcases hwho with heq | hj
      · cases heq
      · exact hall.roused hc hp j hj
  | gives hroom =>
      simp only [decide_eq_false_iff_not, Nat.not_lt, Nat.le_zero_eq] at hw
      exact hempty hw hj
  | closes => cases hc
  | notifies => cases hw

/-- A section that does not end in sleep, of anybody who is not about to wake the sleepers, leaves
them as they are. -/
theorem Alert.told_put {c c' : Caller} {s' : Semaphore} {wakes : Bool} (hall : h.Alert)
    (hi : h.callers[i]? = some c) (hne : c ≠ .notifying) (hc' : ∀ ticket, c' ≠ .asleep ticket)
    (hclosed : h.semaphore.closed = true) :
    (∃ j : Nat, ((h.put i c' s').wakeIf wakes).callers[j]? = some .notifying) ∨
      ∀ j ticket : Nat, ((h.put i c' s').wakeIf wakes).callers[j]? ≠ some (.asleep ticket) := by
  rcases hall.told hclosed with ⟨j, hj⟩ | hnone
  · refine .inl ⟨j, callers_put_of_ne ?_ hj rfl⟩
    rintro rfl
    exact hne (Option.some.inj (hi.symm.trans hj))
  · refine .inr fun j ticket hj => ?_
    rcases (asleep_of_put hj).2 with heq | hj
    · exact hc' ticket heq
    · exact hnone j ticket hj

/-- **A close is told to everybody**, by the one who closes or before. -/
theorem Alert.told_step {c c' : Caller} {s' : Semaphore} {wakes : Bool} (hall : h.Alert)
    (hi : h.callers[i]? = some c) (hs : c.Steps h.semaphore c' s' wakes) (hc : s'.closed = true) :
    (∃ j : Nat, ((h.put i c' s').wakeIf wakes).callers[j]? = some .notifying) ∨
      ∀ j ticket : Nat, ((h.put i c' s').wakeIf wakes).callers[j]? ≠ some (.asleep ticket) := by
  cases hs with
  | @looks pos progress s' hacq =>
      have hclosed := acquire?_closed_eq hacq ▸ hc
      cases acquires_of_acquire? hacq with
      | refused pos _ =>
          refine hall.told_put hi ?_ (by rintro _ ⟨⟩) hclosed
          cases pos <;> rintro ⟨⟩
      | queues hopen hg => rw [hopen] at hclosed; cases hclosed
      | servedAtOnce hopen hn hp => rw [hopen] at hclosed; cases hclosed
      | served ticket hopen hn hp => rw [hopen] at hclosed; cases hclosed
  | dozes hopen hg => rw [hopen] at hc; cases hc
  | tries htry =>
      exact hall.told_put hi (by rintro ⟨⟩) (by rintro _ ⟨⟩) (tryAcquire_closed_eq htry ▸ hc)
  | full hfull => exact hall.told_put hi (by rintro ⟨⟩) (by rintro _ ⟨⟩) hc
  | gives hroom => exact hall.told_put hi (by rintro ⟨⟩) (by rintro _ ⟨⟩) hc
  | closes =>
      have hlt := (List.getElem?_eq_some_iff.1 hi).1
      exact .inl ⟨i, List.getElem?_set_self hlt⟩
  | notifies =>
      refine .inr fun j ticket hj => ?_
      cases (asleep_of_put hj).1

/-- **Every move** leaves everybody alert. -/
theorem Alert.move (hall : h.Alert) {m : Move} (hm : m.Begins) (hmove : h.move? m = some h') :
    h'.Alert := by
  have hline := hall.line.move hm hmove
  cases m with
  | step i =>
      obtain ⟨c, c', s', wakes, hi, hs, rfl⟩ := steps_of_step? hmove
      refine ⟨hline, ?_, ?_⟩
      · rw [wakeIf_semaphore]
        exact hall.roused_step hi hs
      · rw [wakeIf_semaphore]
        exact hall.told_step hi hs
  | stir i =>
      obtain ⟨ticket, hi, rfl⟩ := stir?_eq_some hmove
      refine ⟨hline, fun hc hp j hj => ?_, hall.told_put hi (by rintro ⟨⟩) (by rintro _ ⟨⟩)⟩
      rcases (asleep_of_put hj).2 with heq | hj
      · cases heq
      · exact hall.roused hc hp j hj
  | join c =>
      obtain rfl := Option.some.inj hmove
      have hbefore : ∀ {j ticket : Nat}, (h.join c).callers[j]? = some (.asleep ticket) →
          h.callers[j]? = some (.asleep ticket) := by
        intro j ticket hj
        rcases getElem?_concat_cases hj with hj | ⟨-, heq⟩
        · exact hj
        · rw [← heq] at hm
          exact absurd hm id
      refine ⟨hline, fun hc hp j hj => hall.roused hc hp j (hbefore hj), fun hc => ?_⟩
      rcases hall.told hc with ⟨j, hj⟩ | hnone
      · exact .inl ⟨j, (List.getElem?_append_left (List.getElem?_eq_some_iff.1 hj).1).trans hj⟩
      · exact .inr fun j ticket hj => hnone j ticket (hbefore hj)

theorem alert_of_made {p max : Nat} {s : Semaphore} (hs : Made p max s) : Alert ⟨s, []⟩ :=
  ⟨inLine_of_made hs, fun _ _ _ => by simp, fun _ => .inr fun _ _ => by simp⟩

theorem Alert.runs {p max : Nat} {s : Semaphore} (hs : Made p max s)
    {xs : List (Happening Hall Move)} (hruns : Runs move? ⟨s, []⟩ xs h)
    (hbegin : ∀ x ∈ xs, x.move.Begins) : h.Alert := by
  induction hruns with
  | start => exact alert_of_made hs
  | more hruns hmove ih =>
      have hall := ih fun x hx => hbegin x (List.mem_append_left _ hx)
      exact hall.move (hbegin _ List.mem_concat_self) hmove

/-! ## Whose turn it is -/

/-- **`h.Due i`** — caller `i` is awake with the ticket that is served next, and a permit is
free. -/
structure Due (h : Hall) (i : Nat) : Prop where
  opened : h.semaphore.closed = false
  awake : h.callers[i]? = some (.awake h.semaphore.nowServing)
  free : 0 < h.semaphore.permits

/-- If a permit is free and somebody waits, then it is somebody's turn. -/
theorem Alert.exists_due (hall : h.Alert) (hc : h.semaphore.closed = false)
    (hp : 0 < h.semaphore.permits) (hq : h.semaphore.nowServing < h.semaphore.nextTicket) :
    ∃ i, h.Due i := by
  obtain ⟨i, c, hi, hticket⟩ := hall.line.exists_holder hc (Nat.le_refl _) hq
  refine ⟨i, hc, ?_, hp⟩
  cases c with
  | awake ticket => exact Option.some.inj hticket ▸ hi
  | asleep ticket => exact absurd (Option.some.inj hticket ▸ hi) (hall.roused hc hp i)
  | _ => cases hticket

/-- **It is served in its next section.** -/
theorem Due.served (hd : h.Due i) :
    ∃ h', h.step? i = some h' ∧
      h'.callers[i]? = some (.acquired (.ok h.semaphore.nowServing)) := by
  have hlt := (List.getElem?_eq_some_iff.1 hd.awake).1
  have hgrants : h.semaphore.grants h.semaphore.nowServing = true := by simp [grants, hd.free]
  refine ⟨(h.put i (.acquired (.ok h.semaphore.nowServing)) h.semaphore.grant).wakeForLeftover,
    ?_, ?_⟩
  · simp only [step?, hd.awake, recheck_of_grants hd.opened hgrants]
  · exact callers_put_self hlt rfl

/-- **Nobody else takes the permit or the turn away.** A section of somebody else that leaves the
semaphore open serves nobody. -/
theorem Due.steps {j : Nat} {c c' : Caller} {s' : Semaphore} {wakes : Bool} (hd : h.Due i)
    (hline : h.InLine) (hj : h.callers[j]? = some c) (hij : i ≠ j)
    (hs : c.Steps h.semaphore c' s' wakes) (hc : s'.closed = false) :
    s'.nowServing = h.semaphore.nowServing ∧ 0 < s'.permits := by
  have hfree := hd.free
  have hlt := (hline.lt hd.opened hd.awake rfl).2
  cases hs with
  | looks hacq =>
      cases acquires_of_acquire? hacq with
      | refused pos hclosed => exact ⟨rfl, hfree⟩
      | queues hopen hg => exact ⟨rfl, hfree⟩
      | servedAtOnce hopen hn hp => exact absurd hn (Nat.ne_of_lt hlt)
      | served ticket hopen hn hp =>
          subst hn
          exact absurd (hline.unique hopen hd.awake hj rfl rfl) hij
  | dozes hopen hg => exact ⟨rfl, hfree⟩
  | tries htry =>
      cases tries_of_tryAcquire htry with
      | failed hf => exact ⟨rfl, hfree⟩
      | took hopen hp hq => rw [queued] at hq; omega
  | full hp => exact ⟨rfl, hfree⟩
  | gives hp => exact ⟨rfl, Nat.succ_pos _⟩
  | closes => cases hc
  | notifies => exact ⟨rfl, hfree⟩

/-- Whose turn it is keeps it, until it looks or the semaphore is closed. -/
theorem Due.move (hd : h.Due i) (hline : h.InLine) {m : Move} (hmove : h.move? m = some h')
    (hne : m ≠ .step i) (hc : h'.semaphore.closed = false) :
    h'.Due i ∧ h'.semaphore.nowServing = h.semaphore.nowServing := by
  cases m with
  | step j =>
      obtain ⟨c, c', s', wakes, hj, hs, rfl⟩ := steps_of_step? hmove
      have hij : i ≠ j := fun heq => hne (congrArg Move.step heq.symm)
      rw [wakeIf_semaphore, put_semaphore] at hc
      obtain ⟨hn, hp⟩ := hd.steps hline hj hij hs hc
      have hstays : ((h.put j c' s').wakeIf wakes).callers[i]? =
          some (.awake h.semaphore.nowServing) := callers_put_of_ne hij.symm hd.awake rfl
      refine ⟨⟨?_, ?_, ?_⟩, ?_⟩ <;> rw [wakeIf_semaphore, put_semaphore]
      · exact hc
      · rw [hn]
        exact hstays
      · exact hp
      · exact hn
  | stir j =>
      obtain ⟨ticket, hj, rfl⟩ := stir?_eq_some hmove
      have hij : j ≠ i := by
        rintro rfl
        cases Option.some.inj (hd.awake.symm.trans hj)
      exact ⟨⟨hd.opened, callers_put_of_ne hij hd.awake rfl, hd.free⟩, rfl⟩
  | join c =>
      obtain rfl := Option.some.inj hmove
      have hlt := (List.getElem?_eq_some_iff.1 hd.awake).1
      exact ⟨⟨hd.opened, (List.getElem?_append_left hlt).trans hd.awake, hd.free⟩, rfl⟩

theorem Due.runs (hd : h.Due i) (hline : h.InLine) {xs : List (Happening Hall Move)}
    (hruns : Runs move? h xs h') (hbegin : ∀ x ∈ xs, x.move.Begins)
    (hne : ∀ x ∈ xs, x.move ≠ .step i) (hc : h'.semaphore.closed = false) :
    h'.InLine ∧ h'.Due i ∧ h'.semaphore.nowServing = h.semaphore.nowServing := by
  induction hruns with
  | start => exact ⟨hline, hd, rfl⟩
  | @more xs h₁ h₂ m hruns hmove ih =>
      have hopen : h₁.semaphore.closed = false := by
        by_contra hclosed
        rw [closed_of_move hmove (by simpa using hclosed)] at hc
        cases hc
      obtain ⟨hline₁, hd₁, hn₁⟩ := ih (fun x hx => hbegin x (List.mem_append_left _ hx))
        (fun x hx => hne x (List.mem_append_left _ hx)) hopen
      obtain ⟨hd₂, hn₂⟩ := hd₁.move hline₁ hmove (hne _ List.mem_concat_self) hc
      exact ⟨hline₁.move (hbegin _ List.mem_concat_self) hmove, hd₂, hn₂.trans hn₁⟩

end Alert

/-! ## The theorem -/

/-- **No wake-up is lost.** Take a new semaphore, any number of acquisitions, attempts, releases and
closes, and any interleaving of their sections in which sleepers may also wake up for no reason.
Whenever the semaphore is open, a permit is free and somebody is queued, the one caller with the
ticket that is served next is awake, its next section serves it, and this stays so, whatever the
others do, until it looks or the semaphore is closed. Whenever the semaphore is closed, either a
close is still about to wake everybody, or nobody sleeps. -/
theorem no_wakeup_is_lost {p max : Nat} {s : Semaphore} (hs : Made p max s) {moves : List Move}
    (hmoves : ∀ m ∈ moves, m.Begins) {h : Hall} (hrun : run? moves ⟨s, []⟩ = some h) :
    (h.semaphore.closed = false → 0 < h.semaphore.permits →
      h.semaphore.nowServing < h.semaphore.nextTicket →
      ∃ i, h.callers[i]? = some (.awake h.semaphore.nowServing) ∧
        (∀ (j : Nat) (c : Caller), h.callers[j]? = some c →
          c.ticket? = some h.semaphore.nowServing → j = i) ∧
        (∃ h', h.step? i = some h' ∧
          h'.callers[i]? = some (.acquired (.ok h.semaphore.nowServing))) ∧
        ∀ (later : List Move) (h' : Hall), (∀ m ∈ later, m.Begins ∧ m ≠ .step i) →
          run? later h = some h' → h'.semaphore.closed = false →
          h'.callers[i]? = some (.awake h'.semaphore.nowServing) ∧ 0 < h'.semaphore.permits ∧
            h'.semaphore.nowServing = h.semaphore.nowServing) ∧
    (h.semaphore.closed = true →
      (∃ i : Nat, h.callers[i]? = some .notifying) ∨
        ∀ i ticket : Nat, h.callers[i]? ≠ some (.asleep ticket)) := by
  have hall : h.Alert :=
    Alert.runs hs (runs_course hrun) fun x hx => hmoves _ (move_mem_of_course hx)
  refine ⟨fun hc hp hq => ?_, hall.told⟩
  obtain ⟨i, hd⟩ := hall.exists_due hc hp hq
  refine ⟨i, hd.awake, fun j c hj hticket => hall.line.unique hc hj hd.awake hticket rfl,
    hd.served, fun later h' hlater hrest hopen => ?_⟩
  obtain ⟨-, hd', hn⟩ := hd.runs hall.line (runs_course hrest)
    (fun x hx => (hlater _ (move_mem_of_course hx)).1)
    (fun x hx => (hlater _ (move_mem_of_course hx)).2) hopen
  exact ⟨hd'.awake, hd'.free, hn⟩

/-- Two callers sleep, a permit is given back, and the second of them looks first: it falls asleep
again, another one queues behind it, and yet the one whose turn it is has stayed awake. -/
theorem no_wakeup_is_lost_behind :
    let moves : List Move := [.join .acquiring, .join .acquiring, .join .releasing, .step 0,
      .step 1, .step 2, .step 1, .join .acquiring, .step 3]
    (∀ m ∈ moves, m.Begins) ∧
      ∃ h, run? moves ⟨.bounded 0 1, []⟩ = some h ∧
        h.callers[1]? = some (.asleep 1) ∧ h.callers[3]? = some (.asleep 2) ∧
        ∃ i : Nat, h.callers[i]? = some (.awake 0) ∧
          ∃ h', h.step? i = some h' ∧ h'.callers[i]? = some (.acquired (.ok 0)) := by
  intro moves
  have hbegin : ∀ m ∈ moves, m.Begins := by
    simp [moves, Move.Begins, Caller.Begins]
  obtain ⟨h, hrun, hsecond, hthird, hc, hp, hnow, hnext⟩ :
      ∃ h, run? moves ⟨.bounded 0 1, []⟩ = some h ∧ h.callers[1]? = some (.asleep 1) ∧
        h.callers[3]? = some (.asleep 2) ∧ h.semaphore.closed = false ∧
        h.semaphore.permits = 1 ∧ h.semaphore.nowServing = 0 ∧ h.semaphore.nextTicket = 3 :=
    ⟨_, rfl, rfl, rfl, rfl, rfl, rfl, rfl⟩
  obtain ⟨hopen, -⟩ := no_wakeup_is_lost (.bounded 1) hbegin hrun
  obtain ⟨i, hawake, -, hserved, -⟩ := hopen hc (by omega) (by omega)
  rw [hnow] at hawake hserved
  exact ⟨hbegin, h, hrun, hsecond, hthird, i, hawake, hserved⟩

end Postal.Semaphore.Hall

import Postal.Proofs.Grants

/-!
# An attempt is an acquisition that does not wait.

The two are written separately: an acquisition draws a ticket and compares it with the one that is
served next, while an attempt looks at the length of the queue. They agree because a ticket drawn
now is at the head of the line exactly if nobody is queued.

## §1 — one section of each, side by side.
## §2 — a run in which one caller attempts what it acquires in another: as long as its acquisition
would be answered at once, both runs go the same way.
-/

namespace Postal.Semaphore

/-! ## §1 — one section of each -/

/-- An acquisition that begins like this has to wait. -/
def Arrival.isWaiting : Arrival → Bool
  | .waits _ => true
  | _ => false

section Section

variable {s : Semaphore}

/-- Nobody is queued exactly if the next ticket is the one that is served next. -/
theorem queued_eq_zero (hle : s.nowServing ≤ s.nextTicket) :
    s.queued = 0 ↔ s.nowServing = s.nextTicket := by
  rw [queued]
  omega

/-- An attempt that succeeds leaves the semaphore as an acquisition that is served at once. -/
theorem tryAcquire_of_grants (hc : s.closed = false) (hn : s.nowServing = s.nextTicket)
    (hp : 0 < s.permits) :
    s.tryAcquire = (true, { s with nextTicket := s.nextTicket + 1 }.grant) := by
  have hq : s.queued = 0 := (queued_eq_zero (Nat.le_of_eq hn)).2 hn
  have hp' : s.permits ≠ 0 := Nat.ne_of_gt hp
  rw [tryAcquire, if_neg (by simp [hc, hq, hp'])]
  rfl

/-- An attempt fails where an acquisition would join the line. -/
theorem tryAcquire_of_not_grants (hle : s.nowServing ≤ s.nextTicket)
    (hg : ¬ (s.nowServing = s.nextTicket ∧ 0 < s.permits)) : s.tryAcquire = (false, s) := by
  refine if_pos ?_
  rw [← queued_eq_zero hle] at hg
  simp only [Bool.or_eq_true, beq_iff_eq, decide_eq_true_eq]
  omega

/-- **Side by side.** An attempt takes a permit exactly if an acquisition in its place would be
served in its first section, and both leave the same semaphore, with nobody queued. Otherwise the
attempt leaves the semaphore alone. -/
theorem tryAcquire_cases (hle : s.closed = false → s.nowServing ≤ s.nextTicket) :
    (s.tryAcquire = (true, s.arrive.2) ∧ s.arrive.1 = .granted s.nextTicket ∧
      s.arrive.2.queued = 0) ∨
    (s.tryAcquire = (false, s) ∧ s.arrive = (.refused, s)) ∨
    (s.tryAcquire = (false, s) ∧ s.arrive.1 = .waits s.nextTicket) := by
  cases hc : s.closed with
  | true => exact .inr (.inl ⟨tryAcquire_of_closed hc, arrive_of_closed hc⟩)
  | false =>
      by_cases hg : s.nowServing = s.nextTicket ∧ 0 < s.permits
      · rw [tryAcquire_of_grants hc hg.1 hg.2, arrive_of_grants hc hg.1 hg.2]
        exact .inl ⟨rfl, rfl, by simp [queued, grant, hg.1]⟩
      · rw [tryAcquire_of_not_grants (hle hc) hg, arrive_of_not_grants hc hg]
        exact .inr (.inr ⟨rfl, rfl⟩)

end Section

/-! ## §2 — one caller attempts what it acquires -/

/-- A caller that attempts what it would acquire. An attempt is told whether it has a permit, but
not the ticket. -/
def Caller.attempting : Caller → Caller
  | .acquiring => .trying
  | .acquired r => .tried r.isOk
  | c => c

theorem attempting_wake (c : Caller) : c.wake.attempting = c.attempting.wake := by
  cases c <;> rfl

namespace Hall

/-- The hall in which caller `i` attempts what it would acquire. -/
def attempting (i : Nat) (h : Hall) : Hall :=
  { h with callers := h.callers.modify i Caller.attempting }

/-- Caller `i` has not begun to acquire, or has ended without having waited. -/
def Direct (i : Nat) (h : Hall) : Prop :=
  h.callers[i]? = some .acquiring ∨ ∃ r, h.callers[i]? = some (.acquired r)

/-- **Unhindered**: whenever caller `i` steps, an acquisition would be answered at once. -/
def Unhindered (i : Nat) (past : List (Happening Hall Move)) : Prop :=
  ∀ x ∈ past, x.move = .step i → x.before.semaphore.arrive.1.isWaiting = false

section Attempting

variable {h h' : Hall} {i : Nat}

@[simp] theorem attempting_semaphore (i : Nat) (h : Hall) :
    (h.attempting i).semaphore = h.semaphore := rfl

theorem attempting_callers (i j : Nat) (h : Hall) :
    (h.attempting i).callers[j]? =
      (h.callers[j]?).map fun c => if i = j then c.attempting else c := by
  rw [attempting, List.getElem?_modify]
  rfl

theorem attempting_callers_of_ne {j : Nat} (hij : i ≠ j) :
    (h.attempting i).callers[j]? = h.callers[j]? := by
  simp [attempting_callers, hij]

/-- Two halls with the same semaphore are equal if each place has the same caller. -/
theorem eq_of_callers (hs : h.semaphore = h'.semaphore)
    (hcallers : ∀ j : Nat, h.callers[j]? = h'.callers[j]?) : h = h' := by
  obtain ⟨s, callers⟩ := h
  obtain ⟨s', callers'⟩ := h'
  obtain rfl : s = s' := hs
  obtain rfl : callers = callers' := List.ext_getElem? hcallers
  rfl

theorem attempting_put (i j : Nat) (h : Hall) (c : Caller) (s : Semaphore) :
    (h.put j c s).attempting i =
      (h.attempting i).put j (if i = j then c.attempting else c) s := by
  refine eq_of_callers rfl fun k => ?_
  rw [attempting_callers, put, put, List.getElem?_set, List.getElem?_set, attempting_callers]
  rcases eq_or_ne j k with rfl | hjk
  · rw [if_pos rfl, if_pos rfl, attempting, List.length_modify]
    split <;> split <;> rfl
  · rw [if_neg hjk, if_neg hjk]

theorem attempting_wakeAll (i : Nat) (h : Hall) :
    h.wakeAll.attempting i = (h.attempting i).wakeAll := by
  refine eq_of_callers rfl fun k => ?_
  rw [attempting_callers, wakeAll, wakeAll, List.getElem?_map, List.getElem?_map,
    attempting_callers, Option.map_map, Option.map_map]
  congr 1
  funext c
  simp only [Function.comp_apply, apply_ite Caller.wake, attempting_wake]

theorem attempting_wakeForLeftover (i : Nat) (h : Hall) :
    h.wakeForLeftover.attempting i = (h.attempting i).wakeForLeftover := by
  rw [wakeForLeftover, wakeForLeftover, attempting_semaphore]
  split
  · exact attempting_wakeAll i h
  · rfl

theorem attempting_join (hi : i < h.callers.length) (c : Caller) :
    (h.join c).attempting i = (h.attempting i).join c := by
  have hlength : (h.attempting i).callers.length = h.callers.length := List.length_modify _ _ _
  refine eq_of_callers rfl fun k => ?_
  rw [attempting_callers, join, join]
  rcases Nat.lt_or_ge k h.callers.length with hk | hk
  · rw [List.getElem?_append_left hk, List.getElem?_append_left (hlength ▸ hk), attempting_callers]
  · have hik : i ≠ k := by omega
    rw [List.getElem?_append_right hk, List.getElem?_append_right (hlength ▸ hk), hlength]
    simp [hik]

/-- **Everybody else** steps as before. -/
theorem attempting_step_of_ne {j : Nat} (hij : i ≠ j) :
    (h.attempting i).step? j = (h.step? j).map (attempting i) := by
  rw [step?, step?, attempting_callers_of_ne hij, attempting_semaphore]
  split
  · split <;> simp [attempting_put, hij, attempting_wakeForLeftover]
  · split <;> simp [attempting_put, hij, attempting_wakeForLeftover]
  · simp [attempting_put, hij]
  · split
    · simp [attempting_put, hij]
    · split <;> simp [attempting_put, hij, attempting_wakeAll]
  · simp [attempting_put, hij]
  · simp [attempting_put, hij, attempting_wakeAll]
  · rfl

theorem attempting_stir (hi : h.Direct i) (j : Nat) :
    (h.attempting i).stir? j = (h.stir? j).map (attempting i) := by
  rcases eq_or_ne i j with rfl | hij
  · rcases hi with hi | ⟨r, hi⟩ <;> simp [stir?, attempting_callers, hi, Caller.attempting]
  · rw [stir?, stir?, attempting_callers_of_ne hij, attempting_semaphore]
    split
    · simp [attempting_put, hij]
    · rfl

theorem wakeForLeftover_of_queued (hq : h.semaphore.queued = 0) : h.wakeForLeftover = h :=
  if_neg (by simp [hq])

/-- **An acquisition that is answered at once** is told whether there was a permit for it, leaves
the semaphore as an attempt, and wakes nobody. -/
theorem step_of_answered (hi : h.callers[i]? = some .acquiring)
    (hle : h.semaphore.closed = false → h.semaphore.nowServing ≤ h.semaphore.nextTicket)
    (hw : h.semaphore.arrive.1.isWaiting = false) :
    h.step? i = some (h.put i (.acquired (if h.semaphore.tryAcquire.1 then
      .ok h.semaphore.nextTicket else .error .interrupted)) h.semaphore.tryAcquire.2) := by
  rw [step?, hi]
  rcases tryAcquire_cases hle with ⟨htry, hgranted, hq⟩ | ⟨htry, hrefused⟩ | ⟨-, hwaits⟩
  · rw [show h.semaphore.arrive = (.granted h.semaphore.nextTicket, h.semaphore.arrive.2) from
      Prod.ext hgranted rfl, htry]
    exact congrArg some (wakeForLeftover_of_queued hq)
  · rw [hrefused, htry]
    rfl
  · rw [hwaits] at hw
    cases hw

/-- An attempt wakes nobody. -/
theorem step_of_trying (hi : h.callers[i]? = some .trying) :
    h.step? i = some (h.put i (.tried h.semaphore.tryAcquire.1) h.semaphore.tryAcquire.2) := by
  rw [step?, hi]

/-- Caller `i` steps as an attempt where it would be answered at once. -/
theorem attempting_step_self (hi : h.Direct i)
    (hle : h.semaphore.closed = false → h.semaphore.nowServing ≤ h.semaphore.nextTicket)
    (hw : h.callers[i]? = some .acquiring → h.semaphore.arrive.1.isWaiting = false) :
    (h.attempting i).step? i = (h.step? i).map (attempting i) := by
  rcases hi with hi | ⟨r, hi⟩
  · have htrying : (h.attempting i).callers[i]? = some .trying := by
      simp [attempting_callers, hi, Caller.attempting]
    rw [step_of_trying htrying, step_of_answered hi hle (hw hi), Option.map_some, attempting_put,
      if_pos rfl, attempting_semaphore]
    cases h.semaphore.tryAcquire.1 <;> rfl
  · simp [step?, attempting_callers, hi, Caller.attempting]

/-- **One move**: it is possible in both halls or in neither, and leads to the same place. -/
theorem attempting_move (hline : h.InLine) (hi : h.Direct i) {m : Move}
    (hw : m = .step i → h.callers[i]? = some .acquiring →
      h.semaphore.arrive.1.isWaiting = false) :
    (h.attempting i).move? m = (h.move? m).map (attempting i) := by
  cases m with
  | step j =>
      rcases eq_or_ne i j with rfl | hij
      · exact attempting_step_self hi (fun hopen => (hline hopen).1) (hw rfl)
      · exact attempting_step_of_ne hij
  | stir j => exact attempting_stir hi j
  | join c =>
      have hlt : i < h.callers.length := by
        rcases hi with hi | ⟨r, hi⟩ <;> exact (List.getElem?_eq_some_iff.1 hi).1
      exact congrArg some (attempting_join hlt c).symm

/-- A caller that is answered at once never waits. -/
theorem Direct.move (hi : h.Direct i) (hline : h.InLine) {m : Move}
    (hw : m = .step i → h.callers[i]? = some .acquiring → h.semaphore.arrive.1.isWaiting = false)
    (hmove : h.move? m = some h') : h'.Direct i := by
  have hstays : ∀ {j : Nat} {c : Caller} {s : Semaphore} {wakes : Bool}, j ≠ i →
      ((h.put j c s).wakeIf wakes).Direct i := by
    intro j c s wakes hj
    rcases hi with hi | ⟨r, hi⟩
    · exact .inl (callers_put_of_ne hj hi rfl)
    · exact .inr ⟨r, callers_put_of_ne hj hi rfl⟩
  cases m with
  | step j =>
      rcases eq_or_ne j i with rfl | hj
      · rcases hi with hi | ⟨r, hi⟩
        · have hstep : h.step? j = some h' := hmove
          rw [step_of_answered hi (fun hopen => (hline hopen).1) (hw rfl hi)] at hstep
          obtain rfl := Option.some.inj hstep
          exact .inr ⟨_, List.getElem?_set_self (List.getElem?_eq_some_iff.1 hi).1⟩
        · simp [move?, step?, hi] at hmove
      · obtain ⟨c, c', s', wakes, -, -, rfl⟩ := steps_of_step? hmove
        exact hstays hj
  | stir j =>
      obtain ⟨ticket, hj, rfl⟩ := stir?_eq_some hmove
      refine hstays ?_
      rintro rfl
      rcases hi with hi | ⟨r, hi⟩ <;> rw [hi] at hj <;> cases hj
  | join c =>
      obtain rfl := Option.some.inj hmove
      rcases hi with hi | ⟨r, hi⟩
      · exact .inl ((List.getElem?_append_left (List.getElem?_eq_some_iff.1 hi).1).trans hi)
      · exact .inr ⟨r, (List.getElem?_append_left (List.getElem?_eq_some_iff.1 hi).1).trans hi⟩

/-- **The same grant**: who is granted a permit in a move, and for which ticket, is the same. -/
theorem seen_attempting (hline : h.InLine) (hi : h.Direct i) {m : Move}
    (hw : m = .step i → h.callers[i]? = some .acquiring → h.semaphore.arrive.1.isWaiting = false)
    (hmove : h.move? m = some h') :
    seen Caller.isGranted? ⟨h.attempting i, m, h'.attempting i⟩ =
      seen Caller.isGranted? ⟨h, m, h'⟩ := by
  cases m with
  | step j =>
      rcases eq_or_ne i j with rfl | hij
      · rcases hi with hi | ⟨r, hi⟩
        · have hstep : h.step? i = some h' := hmove
          rw [step_of_answered hi (fun hopen => (hline hopen).1) (hw rfl hi)] at hstep
          obtain rfl := Option.some.inj hstep
          have hlt := (List.getElem?_eq_some_iff.1 hi).1
          simp only [seen, attempting_callers, hi, put, List.getElem?_set_self hlt]
          cases h.semaphore.tryAcquire.1 <;> rfl
        · simp [move?, step?, hi] at hmove
      · simp only [seen, attempting_callers_of_ne hij, attempting_semaphore]
  | stir j => rfl
  | join c => rfl

theorem Unhindered.head {m : Move} {ms : List Move} (hun : Unhindered i (course move? (m :: ms) h))
    (hmove : h.move? m = some h') (hm : m = .step i) :
    h.semaphore.arrive.1.isWaiting = false := by
  simp only [course, hmove] at hun
  exact hun _ List.mem_cons_self hm

/-- An unhindered caller that wants a permit is answered at once, in either of the two runs. -/
theorem answered_of_unhindered {m : Move} {ms : List Move}
    (hun : Unhindered i (course move? (m :: ms) h) ∨
      Unhindered i (course move? (m :: ms) (h.attempting i)))
    (hm : m = .step i) (hi : h.callers[i]? = some .acquiring) :
    h.semaphore.arrive.1.isWaiting = false := by
  subst hm
  rcases hun with hun | hun
  · obtain ⟨h₁, hstep⟩ : ∃ h₁, h.step? i = some h₁ := by
      rw [step?, hi]
      simp only
      split <;> exact ⟨_, rfl⟩
    exact hun.head (show h.move? (.step i) = some h₁ from hstep) rfl
  · have htrying : (h.attempting i).callers[i]? = some .trying := by
      simp [attempting_callers, hi, Caller.attempting]
    exact hun.head (step_of_trying htrying) rfl

/-- **A run** in which caller `i` attempts what it acquires in another goes the same way as that
one, as long as the acquisition would be answered at once in either of them. -/
theorem attempting_run {ms : List Move} (hline : h.InLine) (hi : h.Direct i)
    (hbegin : ∀ m ∈ ms, m.Begins)
    (hun : Unhindered i (course move? ms h) ∨ Unhindered i (course move? ms (h.attempting i))) :
    run? ms (h.attempting i) = (run? ms h).map (attempting i) ∧
      (course move? ms (h.attempting i)).filterMap (seen Caller.isGranted?) =
        (course move? ms h).filterMap (seen Caller.isGranted?) := by
  induction ms generalizing h with
  | nil => exact ⟨rfl, rfl⟩
  | cons m ms ih =>
      have hw := answered_of_unhindered hun
      have hboth := attempting_move hline hi hw
      cases hmove : h.move? m with
      | none =>
          rw [hmove, Option.map_none] at hboth
          simp [run?, course, hmove, hboth]
      | some h₁ =>
          rw [hmove, Option.map_some] at hboth
          simp only [course, hmove, hboth] at hun ⊢
          obtain ⟨hends, hgranted⟩ := ih (hline.move (hbegin m List.mem_cons_self) hmove)
            (hi.move hline hw hmove) (fun m' hm' => hbegin m' (List.mem_cons_of_mem _ hm'))
            (hun.imp (fun hun x hx => hun x (List.mem_cons_of_mem _ hx))
              (fun hun x hx => hun x (List.mem_cons_of_mem _ hx)))
          refine ⟨?_, ?_⟩
          · simp only [run?, hmove, hboth, Option.bind_some]
            exact hends
          · rw [List.filterMap_cons, List.filterMap_cons, seen_attempting hline hi hw hmove,
              hgranted]

end Attempting

/-- The line is kept by every run. -/
theorem InLine.run {h h' : Hall} {moves : List Move} (hline : h.InLine)
    (hmoves : ∀ m ∈ moves, m.Begins) (hrun : run? moves h = some h') : h'.InLine := by
  induction moves generalizing h with
  | nil => exact Option.some.inj hrun ▸ hline
  | cons m ms ih =>
      obtain ⟨h₁, hmove, hrest⟩ := Option.bind_eq_some_iff.1 hrun
      exact ih (hline.move (hmoves m List.mem_cons_self) hmove)
        (fun m' hm' => hmoves m' (List.mem_cons_of_mem _ hm')) hrest

/-- **An attempt is an acquisition that does not wait.** Take any hall that is reached from a new
semaphore, with any number of callers, open or closed. An attempt takes a permit exactly if an
acquisition in its place would be granted one in its first section; then both leave the semaphore
the same, with nobody queued, and otherwise the attempt leaves it as it is. Neither wakes anybody:
of the callers only the one that steps is changed, and an acquisition that is answered at once is
told whether there was a permit. So let caller `i` attempt what it acquires: as long as its
acquisition would be answered at once, in the one run or in the other, every move is possible in
both or in neither, both end in the same place, and the same callers are granted permits for the
same tickets. -/
theorem attempt_is_acquisition_without_wait {p max : Nat} {s : Semaphore} (hs : Made p max s)
    {moves : List Move} (hmoves : ∀ m ∈ moves, m.Begins) {h : Hall}
    (hrun : run? moves ⟨s, []⟩ = some h) :
    let now := h.semaphore
    (now.tryAcquire.1 = true ↔ ∃ ticket, now.arrive.1 = .granted ticket) ∧
    (now.tryAcquire.1 = true → now.tryAcquire.2 = now.arrive.2 ∧ now.arrive.2.queued = 0) ∧
    (now.tryAcquire.1 = false → now.tryAcquire.2 = now) ∧
    (∀ i, h.callers[i]? = some .trying →
      h.step? i = some (h.put i (.tried now.tryAcquire.1) now.tryAcquire.2)) ∧
    (∀ i, h.callers[i]? = some .acquiring → now.arrive.1.isWaiting = false →
      h.step? i = some (h.put i (.acquired (if now.tryAcquire.1 then .ok now.nextTicket
        else .error .interrupted)) now.tryAcquire.2)) ∧
    ∀ i, h.callers[i]? = some .acquiring → ∀ later : List Move, (∀ m ∈ later, m.Begins) →
      Unhindered i (course move? later h) ∨ Unhindered i (course move? later (h.attempting i)) →
      run? later (h.attempting i) = (run? later h).map (attempting i) ∧
      (course move? later (h.attempting i)).filterMap (seen Caller.isGranted?) =
        (course move? later h).filterMap (seen Caller.isGranted?) := by
  have hline : h.InLine := (inLine_of_made hs).run hmoves hrun
  have hle : h.semaphore.closed = false → h.semaphore.nowServing ≤ h.semaphore.nextTicket :=
    fun hopen => (hline hopen).1
  have hsections : (h.semaphore.tryAcquire.1 = true ↔
        ∃ ticket, h.semaphore.arrive.1 = .granted ticket) ∧
      (h.semaphore.tryAcquire.1 = true →
        h.semaphore.tryAcquire.2 = h.semaphore.arrive.2 ∧ h.semaphore.arrive.2.queued = 0) ∧
      (h.semaphore.tryAcquire.1 = false → h.semaphore.tryAcquire.2 = h.semaphore) := by
    rcases tryAcquire_cases hle with ⟨htry, hgranted, hq⟩ | ⟨htry, hrefused⟩ | ⟨htry, hwaits⟩
    · simp [htry, hgranted, hq]
    · simp [htry, hrefused]
    · simp [htry, hwaits]
  obtain ⟨htaken, hsame, hkept⟩ := hsections
  exact ⟨htaken, hsame, hkept, fun i => step_of_trying, fun i hi => step_of_answered hi hle,
    fun i hi later hlater => attempting_run hline (.inl hi) hlater⟩

/-- A permit has come back for somebody who waits and has not looked yet, so an attempt fails and an
acquisition would wait. Once the one who waits is served and a second permit is back, caller 3 may
attempt what it acquires. -/
theorem attempt_is_acquisition_without_wait_leftover :
    let moves : List Move := [.join .acquiring, .step 0, .join .releasing, .join .releasing,
      .join .acquiring, .step 1]
    let later : List Move := [.step 0, .step 2, .step 3]
    (∀ m ∈ moves, m.Begins) ∧ (∀ m ∈ later, m.Begins) ∧
      ∃ h g, run? moves ⟨.bounded 0 2, []⟩ = some h ∧ h.semaphore.permits = 1 ∧
        h.semaphore.tryAcquire.1 = false ∧ (¬ ∃ ticket, h.semaphore.arrive.1 = .granted ticket) ∧
        run? later h = some g ∧ run? later (h.attempting 3) = some (g.attempting 3) ∧
        (course move? later h).filterMap (seen Caller.isGranted?) = [(0, 0), (3, 1)] ∧
        (course move? later (h.attempting 3)).filterMap (seen Caller.isGranted?) =
          [(0, 0), (3, 1)] := by
  intro moves later
  have hbegin : ∀ m ∈ moves, m.Begins := by simp [moves, Move.Begins, Caller.Begins]
  have hlater : ∀ m ∈ later, m.Begins := by simp [later, Move.Begins]
  obtain ⟨h, g, hrun, hi, hpermits, hfails, hgoes, hgranted, hsteps⟩ :
      ∃ h g, run? moves ⟨.bounded 0 2, []⟩ = some h ∧ h.callers[3]? = some .acquiring ∧
        h.semaphore.permits = 1 ∧ h.semaphore.tryAcquire.1 = false ∧ run? later h = some g ∧
        (course move? later h).filterMap (seen Caller.isGranted?) = [(0, 0), (3, 1)] ∧
        (course move? later h).map (fun x => (x.move, x.before.semaphore.arrive.1.isWaiting)) =
          [(.step 0, true), (.step 2, true), (.step 3, false)] :=
    ⟨_, _, rfl, rfl, rfl, rfl, rfl, rfl, rfl⟩
  have hun : Unhindered 3 (course move? later h) := by
    intro x hx hmove
    have hmem := List.mem_map_of_mem (f := fun x : Happening Hall Move =>
      (x.move, x.before.semaphore.arrive.1.isWaiting)) hx
    rw [hsteps, hmove] at hmem
    simpa using hmem
  obtain ⟨htaken, -, -, -, -, hruns⟩ :=
    attempt_is_acquisition_without_wait (.bounded 2) hbegin hrun
  obtain ⟨hends, hsame⟩ := hruns 3 hi later hlater (.inl hun)
  rw [hgoes, Option.map_some] at hends
  rw [hfails] at htaken
  exact ⟨hbegin, hlater, h, g, hrun, hpermits, hfails, fun hg => Bool.noConfusion (htaken.2 hg),
    hgoes, hends, hgranted, hsame.trans hgranted⟩

end Hall

end Postal.Semaphore

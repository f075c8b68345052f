import Postal.Proofs.Admission

/-!
# What the length of the queue tells.

The length of the queue is the difference of two counters: tickets drawn and tickets served. A
caller that is served moves both ends, but one that a close turns away moves neither. So the
difference is the number of callers that wait and of those that were turned away as they waited
(`Queues`). While the semaphore is open nobody has been turned away, and it tells exactly who waits;
after a close it stays what it was, though nobody may be left.

## §1 — one section of a semaphore.
## §2 — callers of a semaphore.
## §3 — visitors of a gate, and the theorem for both.
-/

namespace Postal

namespace Semaphore

/-! ## §1 — one section -/

/-- Whether an acquisition waits with a ticket, as a weight. -/
def Acquiring.waits : Acquiring → Nat
  | .arriving => 0
  | .queued _ => 1

/-- Whether a section turns away somebody who has waited with a ticket, as a weight. -/
def Acquiring.turnedAway : Acquiring → Progress Acquiring (Except Fault Nat) → Nat
  | .queued _, .ended (.error _) => 1
  | _, _ => 0

/-- **`s.Queues waiting turned`** — of the tickets that are drawn and not served `waiting` are in
the hands of callers, and `turned` were in the hands of callers that a close has turned away. -/
structure Queues (s : Semaphore) (waiting turned : Nat) : Prop where
  tickets : s.nextTicket = s.nowServing + (waiting + turned)
  open_ : s.closed = false → turned = 0

section Queues

variable {s s' : Semaphore} {waiting turned : Nat}

theorem Queues.queued (h : s.Queues waiting turned) : s.queued = waiting + turned := by
  rw [Semaphore.queued, h.tickets, Nat.add_sub_cancel_left]

/-- A section that serves nobody and draws no ticket leaves the queue alone. -/
theorem Queues.congr (h : s.Queues waiting turned) (hc : s'.closed = false → s.closed = false)
    (hnext : s'.nextTicket = s.nextTicket) (hnow : s'.nowServing = s.nowServing) :
    s'.Queues waiting turned where
  tickets := by rw [hnext, hnow]; exact h.tickets
  open_ hopen := h.open_ (hc hopen)

/-- **A section of an acquisition**; `waiting` counts everybody else. -/
theorem Queues.acquires {pos : Acquiring} {progress : Progress Acquiring (Except Fault Nat)}
    (h : s.Queues (waiting + pos.waits) turned) (hacq : s.acquire? pos = some (progress, s')) :
    s'.Queues (waiting + progress.weigh Acquiring.waits) (turned + pos.turnedAway progress) := by
  have htickets := h.tickets
  cases acquires_of_acquire? hacq with
  | refused _ hc =>
      refine ⟨?_, fun hopen => ?_⟩
      · -- whoever had a ticket passes from those that wait to those that were turned away
        cases pos with
        | arriving => exact htickets
        | queued ticket =>
            simp only [Acquiring.waits, Acquiring.turnedAway, Progress.weigh] at htickets ⊢
            omega
      · rw [hc] at hopen
        cases hopen
  | queues hc hg =>
      refine ⟨?_, h.open_⟩
      simp only [Acquiring.waits, Acquiring.turnedAway, Progress.weigh] at htickets ⊢
      omega
  | servedAtOnce hc hn hp =>
      refine ⟨?_, h.open_⟩
      simp only [Acquiring.waits, Acquiring.turnedAway, Progress.weigh] at htickets ⊢
      omega
  | served ticket hc hn hp =>
      refine ⟨?_, h.open_⟩
      simp only [Acquiring.waits, Acquiring.turnedAway, Progress.weigh, grant] at htickets ⊢
      omega

/-- **An attempt** draws its ticket and is served in one. -/
theorem Queues.tries {taken : Bool} (h : s.Queues waiting turned)
    (htry : s.tryAcquire = (taken, s')) : s'.Queues waiting turned := by
  cases tries_of_tryAcquire htry with
  | failed hf => exact h
  | took hc hp hq =>
      have htickets := h.tickets
      refine ⟨?_, h.open_⟩
      simp only
      omega

/-- A close that finds somebody waiting is what the queue keeps. -/
theorem Queues.close (h : s.Queues waiting turned) : s.close.Queues waiting turned :=
  h.congr (fun hopen => by cases hopen) rfl rfl

/-- Nothing that an acquisition does to a closed semaphore changes it. -/
theorem acquire?_eq_of_closed {pos : Acquiring} {progress : Progress Acquiring (Except Fault Nat)}
    (hc : s.closed = true) (hacq : s.acquire? pos = some (progress, s')) : s' = s := by
  rw [acquire?_closed hc] at hacq
  exact (Prod.mk.inj (Option.some.inj hacq)).2.symm

end Queues

/-! ## §2 — callers of a semaphore -/

/-- Whether a caller waits with a ticket, as a weight. -/
def Caller.waits (c : Caller) : Nat := c.ticket?.isSome.toNat

/-- Whether a caller that has waited with a ticket is turned away. -/
def Caller.isTurnedAway? (_ : Semaphore) : Caller → Caller → Option Unit
  | .awake _, .acquired (.error _) => some ()
  | _, _ => none

namespace Hall

section Callers

variable {h h' : Hall} {i : Nat} {c c' : Caller} {s' : Semaphore} {wakes : Bool} {turned : Nat}

theorem tally_waits_wakeIf (h : Hall) (wakes : Bool) :
    tally Caller.waits (h.wakeIf wakes).callers = tally Caller.waits h.callers := by
  cases wakes with
  | false => rfl
  | true =>
      show tally Caller.waits (h.callers.map Caller.wake) = _
      rw [tally_map]
      exact tally_congr fun c _ => by rw [Caller.waits, Caller.waits, ticket?_wake]

/-- A caller that waits after a section as it did before leaves the queue alone. -/
theorem queues_put {s : Semaphore} (hi : h.callers[i]? = some c) (hc : c'.waits = c.waits)
    (hs : s.Queues (tally Caller.waits h.callers) turned) :
    s.Queues (tally Caller.waits ((h.put i c' s).wakeIf wakes).callers) turned := by
  rw [tally_waits_wakeIf, put, tally_set_of_eq hi hc]
  exact hs

/-- **A section of a caller.** -/
theorem queues_step (hq : h.semaphore.Queues (tally Caller.waits h.callers) turned)
    (hi : h.callers[i]? = some c) (hs : c.Steps h.semaphore c' s' wakes) :
    s'.Queues (tally Caller.waits ((h.put i c' s').wakeIf wakes).callers)
      (turned + (c.isTurnedAway? h.semaphore c').toList.length) := by
  cases hs with
  | @looks pos progress s' hacq =>
      have hbefore : pos.awake.waits = pos.waits := by cases pos <;> rfl
      have hafter : (progress.within Acquiring.asleep .acquired).waits =
          progress.weigh Acquiring.waits := by
        rcases progress with pos' | r
        · cases pos' <;> rfl
        · rfl
      have hturned : (pos.awake.isTurnedAway? h.semaphore
          (progress.within Acquiring.asleep .acquired)).toList.length =
            pos.turnedAway progress := by
        cases pos <;> rcases progress with pos' | ⟨f | ticket⟩ <;>
          first | rfl | (cases pos' <;> rfl)
      rw [tally_waits_wakeIf, put, tally_set_eq_add hi, hafter, hturned]
      rw [tally_eq_add hi, hbefore] at hq
      exact hq.acquires hacq
  | dozes hc hg => exact queues_put hi rfl hq
  | tries htry => exact queues_put hi rfl (hq.tries htry)
  | full hp => exact queues_put hi rfl hq
  | gives hp => exact queues_put hi rfl (hq.congr id rfl rfl)
  | closes => exact queues_put hi rfl hq.close
  | notifies => exact queues_put hi rfl hq

theorem queues_of_runs {p max : Nat} {s : Semaphore} {past : List (Happening Hall Move)}
    (hs : Made p max s) (hruns : Runs move? ⟨s, []⟩ past h)
    (hbegin : ∀ x ∈ past, x.move.Begins) :
    h.semaphore.Queues (tally Caller.waits h.callers)
      (past.filterMap (seen Caller.isTurnedAway?)).length := by
  induction hruns with
  | start => cases hs <;> exact ⟨rfl, fun _ => rfl⟩
  | @more past h₁ h₂ m hruns hmove ih =>
      have hq := ih fun x hx => hbegin x (List.mem_append_left _ hx)
      rw [filterMap_concat, List.length_append]
      cases m with
      | step i =>
          obtain ⟨c, c', s', wakes, hi, hstep, rfl⟩ := steps_of_step? hmove
          rw [seen_step hi hstep, wakeIf_semaphore, put_semaphore, Option.toList_map,
            List.length_map]
          exact queues_step hq hi hstep
      | stir i =>
          obtain ⟨ticket, hi, rfl⟩ := stir?_eq_some hmove
          exact queues_put hi rfl hq
      | join c =>
          obtain rfl := Option.some.inj hmove
          have hc : c.waits = 0 := by
            rw [Caller.waits, ticket?_of_begins (hbegin _ List.mem_concat_self)]
            rfl
          show h₁.semaphore.Queues (tally Caller.waits (h₁.callers ++ [c])) _
          rw [tally_concat, hc]
          exact hq

/-- A section on a closed semaphore leaves its queue as it is. -/
theorem queued_of_steps (hs : c.Steps h.semaphore c' s' wakes) (hc : h.semaphore.closed = true) :
    s'.queued = h.semaphore.queued := by
  cases hs with
  | looks hacq => rw [acquire?_eq_of_closed hc hacq]
  | tries htry =>
      rw [Semaphore.tryAcquire_of_closed hc] at htry
      rw [(Prod.mk.inj htry).2]
  | _ => rfl

/-- **After a close** the queue is for ever as long as it was. -/
theorem queued_of_closed {moves : List Move} (hrun : run? moves h = some h')
    (hc : h.semaphore.closed = true) : h'.semaphore.queued = h.semaphore.queued := by
  induction moves generalizing h with
  | nil => exact Option.some.inj hrun ▸ rfl
  | cons m ms ih =>
      obtain ⟨h₁, hmove, hrest⟩ := Option.bind_eq_some_iff.1 hrun
      rw [ih hrest (closed_of_move hmove hc)]
      cases m with
      | step i =>
          obtain ⟨c, c', s', wakes, hi, hs, rfl⟩ := steps_of_step? hmove
          rw [wakeIf_semaphore, put_semaphore, queued_of_steps hs hc]
      | stir i =>
          obtain ⟨ticket, hi, rfl⟩ := stir?_eq_some hmove
          rfl
      | join c => exact Option.some.inj hmove ▸ rfl

end Callers

end Hall

end Semaphore

/-! ## §3 — visitors of a gate -/

namespace Gate

/-- Whether a visitor waits outside with a ticket, as a weight. -/
def Visitor.waits : Visitor → Nat
  | .entering (.acquiring pos) => pos.waits
  | _ => 0

/-- Whether a visitor that has waited with a ticket is turned away. -/
def Visitor.isTurnedAway? : Visitor → Visitor → Option Unit
  | .entering (.acquiring (.queued _)), .refused _ => some ()
  | _, _ => none

section Visitors

variable {c c' : Crowd Gate Visitor} {g' : Gate} {i : Nat} {v v' : Visitor} {turned : Nat}

/-- A visitor that waits after a step as it did before leaves the queue alone. -/
theorem queues_set {s : Semaphore} (hi : c.callers[i]? = some v) (hv : v'.waits = v.waits)
    (hs : s.Queues (tally Visitor.waits c.callers) turned) :
    s.Queues (tally Visitor.waits (c.callers.set i v')) turned := by
  rw [tally_set_of_eq hi hv]
  exact hs

/-- **A section of the semaphore** of the gate. -/
theorem queues_section {pos : Semaphore.Acquiring}
    {progress : Progress Semaphore.Acquiring (Except Fault Nat)} {permits : Semaphore}
    (hq : c.shared.permits.Queues (tally Visitor.waits c.callers) turned)
    (hi : c.callers[i]? = some (.entering (.acquiring pos)))
    (hacq : c.shared.permits.acquire? pos = some (progress, permits)) :
    permits.Queues (tally Visitor.waits (c.callers.set i (.afterSection progress)))
      (turned + (Visitor.isTurnedAway? (.entering (.acquiring pos))
        (.afterSection progress)).toList.length) := by
  have hafter : (Visitor.afterSection progress).waits =
      progress.weigh Semaphore.Acquiring.waits := by
    rcases progress with pos' | ⟨f | ticket⟩ <;> rfl
  have hturned : (Visitor.isTurnedAway? (.entering (.acquiring pos))
      (.afterSection progress)).toList.length = pos.turnedAway progress := by
    cases pos <;> rcases progress with pos' | ⟨f | ticket⟩ <;> rfl
  rw [tally_set_eq_add hi, hafter, hturned]
  rw [tally_eq_add hi] at hq
  exact hq.acquires hacq

/-- **A step of a visitor.** -/
theorem queues_step (hq : c.shared.permits.Queues (tally Visitor.waits c.callers) turned)
    (hi : c.callers[i]? = some v) (hs : v.Steps c.shared v' g') :
    g'.permits.Queues (tally Visitor.waits (c.callers.set i v'))
      (turned + (v.isTurnedAway? v').toList.length) := by
  cases hs with
  | enters henter =>
      cases henter with
      | waits hacq | admitted hacq | refused hacq => exact queues_section hq hi hacq
      | counts => exact queues_set hi rfl hq
  | uncounts => exact queues_set hi rfl hq
  | releases =>
      exact queues_set hi rfl <|
        hq.congr (fun hopen => (Semaphore.releaseOrKeep_closed _).symm.trans hopen)
          (Semaphore.releaseOrKeep_nextTicket _) (Semaphore.releaseOrKeep_nowServing _)

theorem queues_of_runs {capacity : Nat}
    {past : List (Happening (Crowd Gate Visitor) (Custom.Move Visitor))}
    (hruns : Runs custom.move? (.ofShared (.ofCapacity capacity)) past c)
    (hbegin : ∀ x ∈ past, ∀ v, x.move = .join v → v = .entering .start) :
    c.shared.permits.Queues (tally Visitor.waits c.callers)
      (past.filterMap (Custom.seen Visitor.isTurnedAway?)).length := by
  induction hruns with
  | start => exact ⟨rfl, fun _ => rfl⟩
  | more hruns hmove ih =>
      have hq := ih fun x hx => hbegin x (List.mem_append_left _ hx)
      rw [filterMap_concat, List.length_append]
      cases Custom.moves_of_move? hmove with
      | steps hi hstep =>
          rw [Custom.seen_step hi, Option.toList_map, List.length_map]
          exact queues_step hq hi (Visitor.steps_of_step? hstep)
      | @turns i v hi =>
          exact queues_set hi (by cases v <;> rfl) hq
      | closes => exact hq.close
      | @comes v =>
          obtain rfl := hbegin _ List.mem_concat_self v rfl
          rw [tally_concat]
          exact hq

/-- A step of a visitor of a closed gate leaves the queue as it is, and the gate closed. -/
theorem queued_of_steps {g : Gate} (hs : v.Steps g v' g') (hc : g.permits.closed = true) :
    g'.permits.closed = true ∧ g'.waiting = g.waiting := by
  cases hs with
  | enters henter =>
      cases henter with
      | waits hacq | admitted hacq | refused hacq =>
          obtain rfl := Semaphore.acquire?_eq_of_closed hc hacq
          exact ⟨hc, rfl⟩
      | counts => exact ⟨hc, rfl⟩
  | uncounts => exact ⟨hc, rfl⟩
  | releases =>
      refine ⟨(Semaphore.releaseOrKeep_closed _).trans hc, ?_⟩
      simp only [waiting, Semaphore.queued, Semaphore.releaseOrKeep_nextTicket,
        Semaphore.releaseOrKeep_nowServing]

/-- **After a close** the queue of the gate is for ever as long as it was. -/
theorem waiting_of_closed {moves : List (Custom.Move Visitor)}
    (hrun : custom.run? moves c = some c') (hc : c.shared.permits.closed = true) :
    c'.shared.waiting = c.shared.waiting := by
  induction moves generalizing c with
  | nil => exact Option.some.inj hrun ▸ rfl
  | cons m ms ih =>
      obtain ⟨c₁, hmove, hrest⟩ := Option.bind_eq_some_iff.1 hrun
      obtain ⟨hclosed, hsame⟩ : c₁.shared.permits.closed = true ∧
          c₁.shared.waiting = c.shared.waiting := by
        cases Custom.moves_of_move? hmove with
        | steps hi hstep => exact queued_of_steps (Visitor.steps_of_step? hstep) hc
        | turns hi => exact ⟨hc, rfl⟩
        | closes => exact ⟨rfl, rfl⟩
        | comes => exact ⟨hc, rfl⟩
      exact (ih hrest hclosed).trans hsame

end Visitors

end Gate

/-! ## The theorem -/

/-- **The length of the queue counts who waits, and who was turned away as it waited.** Take any
semaphore that is new and any interleaving of acquisitions, attempts, releases and closes, and any
gate and any interleaving of its visitors. The length of each queue is the number of callers that
have drawn a ticket and not returned, and of those that a close has turned away with their ticket in
hand. So as long as nothing is closed it is the number of those that wait; and once it is closed the
queue stays as long as it was, whoever is still there. -/
theorem queue_counts_waiting_and_turned_away {p max : Nat} {s : Semaphore}
    (hs : Semaphore.Made p max s) {moves : List Semaphore.Hall.Move}
    (hmoves : ∀ m ∈ moves, m.Begins) {h : Semaphore.Hall}
    (hrun : Semaphore.Hall.run? moves ⟨s, []⟩ = some h) (capacity : Nat)
    {visits : List (Custom.Move Gate.Visitor)}
    (hvisits : ∀ v, .join v ∈ visits → v = .entering .start) {c : Crowd Gate Gate.Visitor}
    (hvisit : Gate.custom.run? visits (.ofShared (.ofCapacity capacity)) = some c) :
    (h.semaphore.queued = tally Semaphore.Caller.waits h.callers +
        ((course Semaphore.Hall.move? moves ⟨s, []⟩).filterMap
          (Semaphore.Hall.seen Semaphore.Caller.isTurnedAway?)).length ∧
      (h.semaphore.closed = false →
        h.semaphore.queued = tally Semaphore.Caller.waits h.callers) ∧
      (h.semaphore.closed = true → ∀ (later : List Semaphore.Hall.Move) (h' : Semaphore.Hall),
        Semaphore.Hall.run? later h = some h' → h'.semaphore.queued = h.semaphore.queued)) ∧
    (c.shared.waiting = tally Gate.Visitor.waits c.callers +
        ((course Gate.custom.move? visits (.ofShared (.ofCapacity capacity))).filterMap
          (Custom.seen Gate.Visitor.isTurnedAway?)).length ∧
      (c.shared.permits.closed = false →
        c.shared.waiting = tally Gate.Visitor.waits c.callers) ∧
      (c.shared.permits.closed = true → ∀ (later : List (Custom.Move Gate.Visitor))
        (c' : Crowd Gate Gate.Visitor), Gate.custom.run? later c = some c' →
          c'.shared.waiting = c.shared.waiting)) := by
  have hhall := Semaphore.Hall.queues_of_runs hs (Semaphore.Hall.runs_course hrun) fun x hx =>
    hmoves _ (move_mem_of_course hx)
  have hgate := Gate.queues_of_runs (Custom.runs_course hvisit) fun x hx v hv => hvisits v <| by
    rw [← hv]
    exact move_mem_of_course hx
  refine ⟨⟨hhall.queued, fun hopen => ?_, fun hc later h' hlater =>
    Semaphore.Hall.queued_of_closed hlater hc⟩, hgate.queued, fun hopen => ?_,
    fun hc later c' hlater => Gate.waiting_of_closed hlater hc⟩
  · rw [hhall.queued, hhall.open_ hopen, Nat.add_zero]
  · rw [Gate.waiting, hgate.queued, hgate.open_ hopen, Nat.add_zero]

/-- Somebody waits at a semaphore without permits, and a close sends it away. Then nobody waits, and
the queue is as long as before. So it is at a gate for one, with somebody inside. -/
theorem queue_counts_waiting_and_turned_away_closed :
    let moves : List Semaphore.Hall.Move :=
      [.join .acquiring, .step 0, .join .closing, .step 1, .step 1, .step 0]
    let visits : List (Custom.Move Gate.Visitor) := [.join (.entering .start),
      .join (.entering .start), .step 0, .step 0, .step 1, .close, .step 1]
    (Semaphore.Made 0 1 (.bounded 0 1) ∧ (∀ m ∈ moves, m.Begins) ∧
      ∃ h, Semaphore.Hall.run? moves ⟨.bounded 0 1, []⟩ = some h ∧
        h.callers = [.acquired (.error .interrupted), .closedDown] ∧
        h.semaphore.queued = 0 + 1 ∧ ∀ later h', Semaphore.Hall.run? later h = some h' →
          h'.semaphore.queued = h.semaphore.queued) ∧
    ((∀ v, .join v ∈ visits → v = .entering .start) ∧
      ∃ c, Gate.custom.run? visits (.ofShared (.ofCapacity 1)) = some c ∧
        c.callers = [.inside 0, .refused .interrupted] ∧ c.shared.waiting = 0 + 1) := by
  intro moves visits
  have hmoves : ∀ m ∈ moves, m.Begins := by
    simp [moves, Semaphore.Hall.Move.Begins, Semaphore.Caller.Begins]
  have hvisits : ∀ v, .join v ∈ visits → v = .entering .start := by
    simp [visits]
  obtain ⟨h, hrun, hcallers, hclosed, hturned⟩ :
      ∃ h, Semaphore.Hall.run? moves ⟨.bounded 0 1, []⟩ = some h ∧
        h.callers = [.acquired (.error .interrupted), .closedDown] ∧
        h.semaphore.closed = true ∧
        ((course Semaphore.Hall.move? moves ⟨.bounded 0 1, []⟩).filterMap
          (Semaphore.Hall.seen Semaphore.Caller.isTurnedAway?)).length = 1 :=
    ⟨_, rfl, rfl, rfl, rfl⟩
  obtain ⟨c, hvisit, hcrowd, haway⟩ :
      ∃ c, Gate.custom.run? visits (.ofShared (.ofCapacity 1)) = some c ∧
        c.callers = [.inside 0, .refused .interrupted] ∧
        ((course Gate.custom.move? visits (.ofShared (.ofCapacity 1))).filterMap
          (Custom.seen Gate.Visitor.isTurnedAway?)).length = 1 := ⟨_, rfl, rfl, rfl⟩
  obtain ⟨⟨hqueued, -, hstays⟩, hwaiting, -, -⟩ :=
    queue_counts_waiting_and_turned_away (.bounded 1) hmoves hrun 1 hvisits hvisit
  refine ⟨⟨.bounded 1, hmoves, h, hrun, hcallers, ?_, hstays hclosed⟩, hvisits, c, hvisit, hcrowd,
    ?_⟩
  · rw [hqueued, hturned, hcallers]
    rfl
  · rw [hwaiting, haway, hcrowd]
    rfl

/-- **The queue does not count who waits.** After the close nobody waits, and yet one is queued. -/
theorem queue_not_waiting_callers :
    ¬ ∀ (p max : Nat) (s : Semaphore), Semaphore.Made p max s →
      ∀ moves : List Semaphore.Hall.Move, (∀ m ∈ moves, m.Begins) → ∀ h : Semaphore.Hall,
      Semaphore.Hall.run? moves ⟨s, []⟩ = some h →
      h.semaphore.queued = tally Semaphore.Caller.waits h.callers := by
  intro hclaim
  have hqueued := hclaim 0 1 _ (.bounded 1)
    [.join .acquiring, .step 0, .join .closing, .step 1, .step 1, .step 0]
    (by simp [Semaphore.Hall.Move.Begins, Semaphore.Caller.Begins]) _ rfl
  exact absurd hqueued (by decide)

end Postal

import Postal.Proofs.Call
import Postal.Semaphore

/-!
# The line in front of a semaphore.

What one section of a semaphore can do is said once, in `Acquires`: it refuses the caller, sends it
into the line, or serves it. Three facts are derived from that and used by every facility.

* **Permits** (`acquire?_permits`): a served caller takes exactly one permit, everybody else none.
* **The line** (`Lined`): in an open semaphore every ticket that is drawn and not served yet is in
  the hand of exactly one caller. So whoever waits has somebody at the head of the line
  (`Lined.head`), and that caller is served as soon as a permit is free (`acquire?_head`).
* **Conservation** (`Conserved`): while there is room for all of them under the ceiling, permits
  only pass between the semaphore and its callers (`Passes`), so whoever holds one can give it
  back.
-/

namespace Postal

namespace Semaphore

/-- Whether the ticket in the hand of an acquisition is `n`, as a weight. -/
def Acquiring.holds (n : Nat) : Acquiring → Nat
  | .arriving => 0
  | .queued ticket => if ticket = n then 1 else 0

/-- The only ticket in the hand of a caller in the line is its own. -/
theorem Acquiring.eq_of_holds {ticket n : Nat} (h : 0 < (queued ticket).holds n) : ticket = n := by
  by_contra hne
  rw [holds, if_neg hne] at h
  exact Nat.lt_irrefl 0 h

theorem Acquiring.left_pos (pos : Acquiring) : 0 < pos.left := by
  cases pos <;> exact Nat.succ_pos _

theorem Acquiring.holds_self (ticket : Nat) : (queued ticket).holds ticket = 1 := if_pos rfl

/-! ## One section of an acquisition -/

/-- **`Acquires s pos progress s'`** — everything that the next section of an acquisition at `pos`
can do to a semaphore. -/
inductive Acquires (s : Semaphore) :
    Acquiring → Progress Acquiring (Except Fault Nat) → Semaphore → Prop
  | refused (pos : Acquiring) (hc : s.closed = true) :
      Acquires s pos (.ended (.error .interrupted)) s
  | queues (hc : s.closed = false) (hg : s.nowServing = s.nextTicket → s.permits = 0) :
      Acquires s .arriving (.onward (.queued s.nextTicket))
        { s with nextTicket := s.nextTicket + 1 }
  | servedAtOnce (hc : s.closed = false) (hn : s.nowServing = s.nextTicket) (hp : 0 < s.permits) :
      Acquires s .arriving (.ended (.ok s.nextTicket))
        { s with
          permits := s.permits - 1
          nextTicket := s.nextTicket + 1
          nowServing := s.nowServing + 1 }
  | served (ticket : Nat) (hc : s.closed = false) (hn : s.nowServing = ticket)
      (hp : 0 < s.permits) :
      Acquires s (.queued ticket) (.ended (.ok ticket)) s.grant

theorem arrive_of_closed {s : Semaphore} (hc : s.closed = true) : s.arrive = (.refused, s) :=
  if_pos hc

theorem arrive_of_grants {s : Semaphore} (hc : s.closed = false) (hn : s.nowServing = s.nextTicket)
    (hp : 0 < s.permits) :
    s.arrive = (.granted s.nextTicket, { s with nextTicket := s.nextTicket + 1 }.grant) := by
  have hg : ({ s with nextTicket := s.nextTicket + 1 } : Semaphore).grants s.nextTicket = true := by
    simp [grants, hn, hp]
  rw [arrive, if_neg (by simp [hc])]
  exact if_pos hg

theorem arrive_of_not_grants {s : Semaphore} (hc : s.closed = false)
    (hg : ¬ (s.nowServing = s.nextTicket ∧ 0 < s.permits)) :
    s.arrive = (.waits s.nextTicket, { s with nextTicket := s.nextTicket + 1 }) := by
  have hg' : ¬ ({ s with nextTicket := s.nextTicket + 1 } : Semaphore).grants s.nextTicket =
      true := by
    simpa [grants] using hg
  rw [arrive, if_neg (by simp [hc])]
  exact if_neg hg'

theorem recheck_of_closed {s : Semaphore} (hc : s.closed = true) (ticket : Nat) :
    s.recheck ticket = some (.error .interrupted, s) :=
  if_pos hc

theorem recheck_of_grants {s : Semaphore} {ticket : Nat} (hc : s.closed = false)
    (hg : s.grants ticket = true) : s.recheck ticket = some (.ok ticket, s.grant) := by
  rw [recheck, if_neg (by simp [hc]), if_pos hg]

theorem recheck_of_not_grants {s : Semaphore} {ticket : Nat} (hc : s.closed = false)
    (hg : ¬ s.grants ticket = true) : s.recheck ticket = none := by
  rw [recheck, if_neg (by simp [hc]), if_neg hg]

theorem acquires_of_acquire? {s s' : Semaphore} {pos : Acquiring}
    {progress : Progress Acquiring (Except Fault Nat)}
    (h : s.acquire? pos = some (progress, s')) : Acquires s pos progress s' := by
  cases pos with
  | arriving =>
      cases hc : s.closed with
      | true =>
          simp only [acquire?, arrive_of_closed hc, Option.some.injEq, Prod.mk.injEq] at h
          obtain ⟨rfl, rfl⟩ := h
          exact .refused _ hc
      | false =>
          by_cases hg : s.nowServing = s.nextTicket ∧ 0 < s.permits
          · simp only [acquire?, arrive_of_grants hc hg.1 hg.2, Option.some.injEq,
              Prod.mk.injEq] at h
            obtain ⟨rfl, rfl⟩ := h
            exact .servedAtOnce hc hg.1 hg.2
          · simp only [acquire?, arrive_of_not_grants hc hg, Option.some.injEq, Prod.mk.injEq] at h
            obtain ⟨rfl, rfl⟩ := h
            refine .queues hc fun hn => ?_
            by_contra hp
            exact hg ⟨hn, Nat.pos_of_ne_zero hp⟩
  | queued ticket =>
      cases hc : s.closed with
      | true =>
          simp only [acquire?, recheck_of_closed hc, Option.map_some, Option.some.injEq,
            Prod.mk.injEq] at h
          obtain ⟨rfl, rfl⟩ := h
          exact .refused _ hc
      | false =>
          by_cases hg : s.grants ticket = true
          · simp only [acquire?, recheck_of_grants hc hg, Option.map_some, Option.some.injEq,
              Prod.mk.injEq] at h
            obtain ⟨rfl, rfl⟩ := h
            simp only [grants, Bool.and_eq_true, beq_iff_eq, decide_eq_true_eq] at hg
            exact .served ticket hc hg.1 hg.2
          · simp [acquire?, recheck_of_not_grants hc hg] at h

/-- Who arrives is never kept waiting for an answer. -/
theorem acquire?_arriving (s : Semaphore) : (s.acquire? .arriving).isSome = true := by
  simp only [acquire?]
  split <;> rfl

/-- Who is at the head of the line is served as soon as a permit is free. -/
theorem acquire?_head {s : Semaphore} (hp : 0 < s.permits) :
    (s.acquire? (.queued s.nowServing)).isSome = true := by
  simp only [acquire?, recheck, grants, beq_self_eq_true, hp, decide_true, Bool.and_self, if_true]
  split <;> rfl

/-- Every wait ends once the semaphore is closed. -/
theorem acquire?_closed {s : Semaphore} (hc : s.closed = true) (pos : Acquiring) :
    s.acquire? pos = some (.ended (.error .interrupted), s) := by
  cases pos <;> simp [acquire?, arrive, recheck, hc]

section Acquired

variable {s s' : Semaphore} {pos : Acquiring} {progress : Progress Acquiring (Except Fault Nat)}

theorem acquire?_closed_eq (h : s.acquire? pos = some (progress, s')) : s'.closed = s.closed := by
  cases acquires_of_acquire? h <;> rfl

theorem acquire?_ceiling_eq (h : s.acquire? pos = some (progress, s')) :
    s'.ceiling = s.ceiling := by
  cases acquires_of_acquire? h <;> rfl

/-- Whether an acquisition has just been served, as a weight. -/
def served : Progress Acquiring (Except Fault Nat) → Nat
  | .ended (.ok _) => 1
  | _ => 0

/-- **Permits.** A section takes one permit if it serves the caller, and none otherwise. -/
theorem acquire?_permits (h : s.acquire? pos = some (progress, s')) :
    s'.permits + served progress = s.permits := by
  cases acquires_of_acquire? h with
  | refused _ hc => rfl
  | queues hc hg => rfl
  | servedAtOnce hc hn hp => exact Nat.sub_add_cancel hp
  | served ticket hc hn hp => exact Nat.sub_add_cancel hp

/-- The only fault of an acquisition is the interruption by a close. -/
theorem acquire?_fault {f : Fault} (h : s.acquire? pos = some (.ended (.error f), s')) :
    f = .interrupted ∧ s.closed = true := by
  cases acquires_of_acquire? h with
  | refused _ hc => exact ⟨rfl, hc⟩

/-- An acquisition comes closer to its end with each of its sections. -/
theorem acquire?_left {pos' : Acquiring} (h : s.acquire? pos = some (.onward pos', s')) :
    pos'.left < pos.left := by
  cases acquires_of_acquire? h with
  | queues hc hg => exact Nat.lt_succ_self _

end Acquired

/-! ## The line -/

/-- **`s.Lined line`** — unless the semaphore is closed, `line n` callers have ticket `n` in hand,
and that is one caller for every ticket that is drawn and not served, and nobody otherwise. -/
def Lined (s : Semaphore) (line : Nat → Nat) : Prop :=
  s.closed = false → s.nowServing ≤ s.nextTicket ∧
    ∀ n, line n = if s.nowServing ≤ n ∧ n < s.nextTicket then 1 else 0

theorem lined_ofPermits (permits : Nat) : (ofPermits permits).Lined fun _ => 0 :=
  fun _ => ⟨Nat.le_refl _, fun _ => by simp [ofPermits]⟩

theorem lined_bounded (permits ceiling : Nat) : (bounded permits ceiling).Lined fun _ => 0 :=
  fun _ => ⟨Nat.le_refl _, fun _ => by simp [bounded]⟩

/-- A line only depends on the two ends of the queue. -/
theorem Lined.congr {s s' : Semaphore} {line line' : Nat → Nat} (h : s.Lined line)
    (hline : ∀ n, line' n = line n) (hc : s'.closed = s.closed)
    (hn : s'.nowServing = s.nowServing) (ht : s'.nextTicket = s.nextTicket) : s'.Lined line' := by
  intro hopen
  obtain ⟨hle, hwas⟩ := h (hc ▸ hopen)
  refine ⟨by rw [hn, ht]; exact hle, fun n => ?_⟩
  rw [hline n, hwas n, hn, ht]

/-- **The line is kept** by every section of an acquisition: `others` are the tickets of everybody
else. -/
theorem Lined.acquire? {s s' : Semaphore} {pos : Acquiring}
    {progress : Progress Acquiring (Except Fault Nat)} {line line' others : Nat → Nat}
    (h : s.Lined line) (hstep : s.acquire? pos = some (progress, s'))
    (hline : ∀ n, line n = others n + pos.holds n)
    (hline' : ∀ n, line' n = others n + progress.weigh (Acquiring.holds n)) : s'.Lined line' := by
  intro hopen
  obtain ⟨hle, hwas⟩ := h (acquire?_closed_eq hstep ▸ hopen)
  cases acquires_of_acquire? hstep with
  | refused _ hc => rw [hc] at hopen; exact absurd hopen (by decide)
  | queues hc hg =>
      -- the ticket that is drawn is the one behind the line
      refine ⟨Nat.le_succ_of_le hle, fun n => ?_⟩
      have hn := hwas n
      rw [hline n] at hn
      rw [hline' n]
      simp only [Progress.weigh, Acquiring.holds] at hn ⊢
      split_ifs at hn ⊢ <;> omega
  | servedAtOnce hc hs hp =>
      refine ⟨Nat.succ_le_succ hle, fun n => ?_⟩
      have hn := hwas n
      rw [hline n] at hn
      rw [hline' n]
      simp only [Progress.weigh, Acquiring.holds] at hn ⊢
      split_ifs at hn ⊢ <;> omega
  | served ticket hc hs hp =>
      subst hs
      -- the caller has the ticket at the head in hand, so the queue is not empty
      have hhead := hwas s.nowServing
      rw [hline s.nowServing] at hhead
      simp only [Acquiring.holds, if_true] at hhead
      have hlt : s.nowServing < s.nextTicket := by
        by_contra hge
        rw [if_neg (by omega)] at hhead
        omega
      refine ⟨hlt, fun n => ?_⟩
      have hn := hwas n
      rw [hline n] at hn
      rw [hline' n]
      show others n + 0 = if s.nowServing + 1 ≤ n ∧ n < s.nextTicket then 1 else 0
      simp only [Acquiring.holds] at hn
      split_ifs at hn ⊢ <;> omega

/-- **Somebody is at the head.** If anybody waits, then the ticket that is served next is in
somebody's hand. -/
theorem Lined.head {s : Semaphore} {line : Nat → Nat} (h : s.Lined line) (hc : s.closed = false)
    {n : Nat} (hn : 0 < line n) : line s.nowServing = 1 := by
  obtain ⟨-, hwas⟩ := h hc
  have hticket := hwas n
  rw [hwas s.nowServing]
  split_ifs at hticket ⊢ <;> omega

/-! ## The other sections -/

/-- **`s.Tries taken s'`** — everything that an attempt without waiting can do. -/
inductive Tries (s : Semaphore) : Bool → Semaphore → Prop
  | failed (h : s.closed = true ∨ s.permits = 0 ∨ 0 < s.queued) : Tries s false s
  | took (hc : s.closed = false) (hp : 0 < s.permits) (hq : s.queued = 0) :
      Tries s true
        { s with
          permits := s.permits - 1
          nextTicket := s.nextTicket + 1
          nowServing := s.nowServing + 1 }

theorem tries_of_tryAcquire {s s' : Semaphore} {taken : Bool}
    (h : s.tryAcquire = (taken, s')) : s.Tries taken s' := by
  rw [tryAcquire] at h
  split at h
  · next hf =>
    obtain ⟨rfl, rfl⟩ := Prod.mk.inj h
    exact .failed (by simpa [or_assoc] using hf)
  · next hf =>
    obtain ⟨rfl, rfl⟩ := Prod.mk.inj h
    simp only [Bool.or_eq_true, beq_iff_eq, decide_eq_true_eq, not_or, Bool.not_eq_true] at hf
    obtain ⟨⟨hc, hp⟩, hq⟩ := hf
    exact .took hc (Nat.pos_of_ne_zero hp) (Nat.eq_zero_of_not_pos hq)

theorem tryAcquire_of_closed {s : Semaphore} (hc : s.closed = true) : s.tryAcquire = (false, s) :=
  if_pos (by simp [hc])

/-- The line is kept by an attempt, which never joins it. -/
theorem Lined.tryAcquire {s s' : Semaphore} {taken : Bool} {line : Nat → Nat} (h : s.Lined line)
    (htry : s.tryAcquire = (taken, s')) : s'.Lined line := by
  cases tries_of_tryAcquire htry with
  | failed hf => exact h
  | took hc hp hq =>
      intro hopen
      obtain ⟨hle, hwas⟩ := h hc
      rw [queued] at hq
      refine ⟨Nat.succ_le_succ hle, fun n => ?_⟩
      have hn := hwas n
      simp only at hn ⊢
      rw [hn, if_neg (by omega), if_neg (by omega)]

theorem tryAcquire_closed_eq {s s' : Semaphore} {taken : Bool}
    (htry : s.tryAcquire = (taken, s')) : s'.closed = s.closed := by
  cases tries_of_tryAcquire htry <;> rfl

theorem tryAcquire_ceiling_eq {s s' : Semaphore} {taken : Bool}
    (htry : s.tryAcquire = (taken, s')) : s'.ceiling = s.ceiling := by
  cases tries_of_tryAcquire htry <;> rfl

/-- **Permits.** An attempt that succeeds takes one permit. -/
theorem tryAcquire_permits {s s' : Semaphore} {taken : Bool}
    (htry : s.tryAcquire = (taken, s')) : s'.permits + taken.toNat = s.permits := by
  cases tries_of_tryAcquire htry with
  | failed hf => rfl
  | took hc hp hq => exact Nat.sub_add_cancel hp

/-- A permit that is given back is there, unless the ceiling is reached. -/
theorem release_of_lt {s : Semaphore} (h : s.permits < s.ceiling) :
    s.release = .ok { s with permits := s.permits + 1 } :=
  if_neg (by omega)

theorem release_of_le {s : Semaphore} (h : s.ceiling ≤ s.permits) :
    s.release = .error (.overflow s.ceiling) :=
  if_pos h

theorem releaseOrKeep_of_lt {s : Semaphore} (h : s.permits < s.ceiling) :
    s.releaseOrKeep = { s with permits := s.permits + 1 } := by
  rw [releaseOrKeep, release_of_lt h]

theorem releaseOrKeep_of_le {s : Semaphore} (h : s.ceiling ≤ s.permits) : s.releaseOrKeep = s := by
  rw [releaseOrKeep, release_of_le h]

@[simp] theorem releaseOrKeep_closed (s : Semaphore) : s.releaseOrKeep.closed = s.closed := by
  rcases Nat.lt_or_ge s.permits s.ceiling with h | h
  · rw [releaseOrKeep_of_lt h]
  · rw [releaseOrKeep_of_le h]

@[simp] theorem releaseOrKeep_ceiling (s : Semaphore) : s.releaseOrKeep.ceiling = s.ceiling := by
  rcases Nat.lt_or_ge s.permits s.ceiling with h | h
  · rw [releaseOrKeep_of_lt h]
  · rw [releaseOrKeep_of_le h]

@[simp] theorem releaseOrKeep_nextTicket (s : Semaphore) :
    s.releaseOrKeep.nextTicket = s.nextTicket := by
  rcases Nat.lt_or_ge s.permits s.ceiling with h | h
  · rw [releaseOrKeep_of_lt h]
  · rw [releaseOrKeep_of_le h]

@[simp] theorem releaseOrKeep_nowServing (s : Semaphore) :
    s.releaseOrKeep.nowServing = s.nowServing := by
  rcases Nat.lt_or_ge s.permits s.ceiling with h | h
  · rw [releaseOrKeep_of_lt h]
  · rw [releaseOrKeep_of_le h]

/-- Giving a permit back leaves the line alone. -/
theorem Lined.releaseOrKeep {s : Semaphore} {line : Nat → Nat} (h : s.Lined line) :
    s.releaseOrKeep.Lined line :=
  h.congr (fun _ => rfl) (releaseOrKeep_closed s) (releaseOrKeep_nowServing s)
    (releaseOrKeep_nextTicket s)

/-! ## Callers of a semaphore -/

/-- **What a caller has in hand**: a ticket, as a weight for every number, and permits. -/
structure Hand where
  ticket : Nat → Nat
  permits : Nat

/-- Nothing in hand. -/
def Hand.empty : Hand := ⟨fun _ => 0, 0⟩

/-- What an acquisition has in hand. -/
def Acquiring.hand (pos : Acquiring) : Hand := ⟨fun n => pos.holds n, 0⟩

/-- What a caller has in hand after a section of its acquisition. -/
def handAfter (progress : Progress Acquiring (Except Fault Nat)) : Hand :=
  ⟨fun n => progress.weigh (Acquiring.holds n), served progress⟩

/-- **`Uses s s' hand hand'`** — everything that a caller can do to a semaphore, with what it has
in hand before and after. -/
inductive Uses (s : Semaphore) : Semaphore → Hand → Hand → Prop
  | aside {hand : Hand} : Uses s s hand hand
  | acquires {s' : Semaphore} {pos : Acquiring} {progress : Progress Acquiring (Except Fault Nat)}
      (h : s.acquire? pos = some (progress, s')) : Uses s s' pos.hand (handAfter progress)
  | tries {s' : Semaphore} {taken : Bool} (h : s.tryAcquire = (taken, s')) :
      Uses s s' .empty ⟨fun _ => 0, taken.toNat⟩
  | releases : Uses s s.releaseOrKeep ⟨fun _ => 0, 1⟩ .empty

/-- No caller opens or closes a semaphore. -/
theorem Uses.closed_eq {s s' : Semaphore} {hand hand' : Hand} (h : Uses s s' hand hand') :
    s'.closed = s.closed := by
  cases h with
  | aside => rfl
  | acquires hacq => exact acquire?_closed_eq hacq
  | tries htry => exact tryAcquire_closed_eq htry
  | releases => exact releaseOrKeep_closed s

/-- **`s.Passes s' held held'`** — permits pass between the semaphore and the hand of one caller,
who holds `held` of them before and `held'` after, and no permit is lost or made if there is room
for all that the caller holds. -/
structure Passes (s s' : Semaphore) (held held' : Nat) : Prop where
  ceiling : s'.ceiling = s.ceiling
  permits : s.permits + held ≤ s.ceiling → s'.permits + held' = s.permits + held

theorem passes_aside (s : Semaphore) (held : Nat) : s.Passes s held held := ⟨rfl, fun _ => rfl⟩

/-- A close passes nothing. -/
theorem passes_close (s : Semaphore) (held : Nat) : s.Passes s.close held held :=
  ⟨rfl, fun _ => rfl⟩

/-- **Permits change hands** whatever a caller does. -/
theorem Uses.passes {s s' : Semaphore} {hand hand' : Hand} (h : Uses s s' hand hand') :
    s.Passes s' hand.permits hand'.permits := by
  cases h with
  | aside => exact s.passes_aside _
  | acquires hacq => exact ⟨acquire?_ceiling_eq hacq, fun _ => acquire?_permits hacq⟩
  | tries htry => exact ⟨tryAcquire_ceiling_eq htry, fun _ => tryAcquire_permits htry⟩
  | releases =>
      refine ⟨releaseOrKeep_ceiling s, fun hroom => ?_⟩
      rw [releaseOrKeep_of_lt hroom]
      rfl

/-- **No permit is made** by a caller, be there room for those that are given back or not. -/
theorem Uses.permits_le {s s' : Semaphore} {hand hand' : Hand} (h : Uses s s' hand hand') :
    s'.permits + hand'.permits ≤ s.permits + hand.permits := by
  cases h with
  | aside => exact Nat.le_refl _
  | acquires hacq => exact Nat.le_of_eq (acquire?_permits hacq)
  | tries htry => exact Nat.le_of_eq (tryAcquire_permits htry)
  | releases =>
      rcases Nat.lt_or_ge s.permits s.ceiling with hroom | hfull
      · rw [releaseOrKeep_of_lt hroom]
        exact Nat.le_refl _
      · rw [releaseOrKeep_of_le hfull]
        exact Nat.le_add_right _ _

/-- **`s.Conserved held total`** — each of `total` permits is free or in the hands of callers, who
hold `held`, and there is room for all of them under the ceiling. -/
structure Conserved (s : Semaphore) (held total : Nat) : Prop where
  room : total ≤ s.ceiling
  balance : s.permits + held = total

section Conserved

variable {s s' : Semaphore} {held mine mine' total : Nat}

theorem conserved_ofPermits {permits : Nat} (h : permits ≤ wordMax) :
    (ofPermits permits).Conserved 0 permits :=
  ⟨h, rfl⟩

theorem conserved_bounded {permits ceiling : Nat} (h : permits ≤ ceiling) :
    (bounded permits ceiling).Conserved 0 permits :=
  ⟨h, Nat.min_eq_left h⟩

/-- **No permit is lost and none is made** when some pass; `held` counts everybody else. -/
theorem Conserved.passes (h : s.Conserved (held + mine) total) (hpasses : s.Passes s' mine mine') :
    s'.Conserved (held + mine') total := by
  have hbalance := h.balance
  have hroom := h.room
  have hpermits := hpasses.permits (by omega)
  exact ⟨by rw [hpasses.ceiling]; exact hroom, by omega⟩

/-- **Whoever holds a permit can give it back.** -/
theorem Conserved.release (h : s.Conserved held total) (hheld : 0 < held) :
    s.release = .ok { s with permits := s.permits + 1 } := by
  have hbalance := h.balance
  have hroom := h.room
  exact release_of_lt (by omega)

/-- When nobody holds a permit, all of them are free. -/
theorem Conserved.all_free (h : s.Conserved held total) (hnobody : held = 0) :
    s.permits = total := by
  have hbalance := h.balance
  rwa [hnobody, Nat.add_zero] at hbalance

end Conserved

/-- **The line is kept** by every caller; `line` counts everybody else. -/
theorem Lined.uses {s s' : Semaphore} {line : Nat → Nat} {hand hand' : Hand}
    (h : s.Lined fun n => line n + hand.ticket n) (huses : Uses s s' hand hand') :
    s'.Lined fun n => line n + hand'.ticket n := by
  cases huses with
  | aside => exact h
  | acquires hacq => exact h.acquire? hacq (fun _ => rfl) fun _ => rfl
  | tries htry => exact h.tryAcquire htry
  | releases => exact h.releaseOrKeep

/-- **`s.Balanced line held total`** — the line is in order, and of `total` permits those that are
not free are in the hands of callers, who hold `held`. -/
structure Balanced (s : Semaphore) (line : Nat → Nat) (held total : Nat) : Prop where
  lined : s.Lined line
  room : total ≤ s.ceiling
  balance : total ≤ s.permits + held

/-- **The balance is kept** by every caller; `line` and `held` count everybody else. -/
theorem Balanced.uses {s s' : Semaphore} {line : Nat → Nat} {held total : Nat} {hand hand' : Hand}
    (h : s.Balanced (fun n => line n + hand.ticket n) (held + hand.permits) total)
    (huses : Uses s s' hand hand') :
    s'.Balanced (fun n => line n + hand'.ticket n) (held + hand'.permits) total := by
  have hbalance := h.balance
  have hroom := h.room
  have hlined := h.lined.uses huses
  cases huses with
  | aside => exact h
  | acquires hacq =>
      have hpermits := acquire?_permits hacq
      refine ⟨hlined, by rw [acquire?_ceiling_eq hacq]; exact hroom, ?_⟩
      simp only [Acquiring.hand, handAfter] at hbalance ⊢
      omega
  | tries htry =>
      have hpermits := tryAcquire_permits htry
      refine ⟨hlined, by rw [tryAcquire_ceiling_eq htry]; exact hroom, ?_⟩
      simp only [Hand.empty] at hbalance ⊢
      omega
  | releases =>
      refine ⟨hlined, by rw [releaseOrKeep_ceiling]; exact hroom, ?_⟩
      simp only [Hand.empty] at hbalance ⊢
      rcases Nat.lt_or_ge s.permits s.ceiling with hp | hp
      · rw [releaseOrKeep_of_lt hp]
        show total ≤ s.permits + 1 + (held + 0)
        omega
      · rw [releaseOrKeep_of_le hp]
        omega

/-- A semaphore that nobody has called is balanced. -/
theorem balanced_ofPermits (permits : Nat) :
    (ofPermits permits).Balanced (fun _ => 0) 0 (min permits wordMax) :=
  ⟨lined_ofPermits permits, Nat.min_le_right _ _, Nat.min_le_left _ _⟩

theorem balanced_bounded (permits ceiling : Nat) :
    (bounded permits ceiling).Balanced (fun _ => 0) 0 (min permits ceiling) :=
  ⟨lined_bounded permits ceiling, Nat.min_le_right _ _, Nat.le_refl _⟩

/-- Permits that nobody has in hand are free. -/
theorem Balanced.free {s : Semaphore} {line : Nat → Nat} {total : Nat} (h : s.Balanced line 0 total)
    (htotal : 0 < total) : 0 < s.permits :=
  Nat.lt_of_lt_of_le htotal h.balance

end Semaphore

end Postal

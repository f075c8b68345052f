import Postal.Proofs.Course
import Postal.Proofs.Semaphore
import Postal.Proofs.Tally
import Postal.Semaphore.Sleepers

/-!
# Sleepers in front of a semaphore.

Whoever has to wait falls asleep with a ticket in hand, and is woken together with all other
sleepers. What is shown here holds of every interleaving of any number of calls, in which sleepers
may also wake up for no reason.

## §1 — what one section of a caller can do, said once (`Caller.Steps`).
## §2 — the line: as long as the semaphore is open, every ticket that is drawn and not served is in
the hand of one caller.
-/

namespace Postal.Semaphore

/-! ## §1 — one section -/

/-- A call that has not done anything yet. -/
def Caller.Begins : Caller → Prop
  | .acquiring | .trying | .releasing | .closing => True
  | _ => False

/-- Whoever joins has not done anything yet. -/
def Hall.Move.Begins : Hall.Move → Prop
  | .join c => c.Begins
  | _ => True

/-- The ticket that a caller waits with. -/
def Caller.ticket? : Caller → Option Nat
  | .asleep ticket | .awake ticket => some ticket
  | _ => none

/-- Whether a caller waits with ticket `n`, as a weight. -/
def Caller.holds (n : Nat) (c : Caller) : Nat := if c.ticket? = some n then 1 else 0

/-- An acquisition that is about to look. -/
def Acquiring.awake : Acquiring → Caller
  | .arriving => .acquiring
  | .queued ticket => .awake ticket

/-- An acquisition that has to wait. -/
def Acquiring.asleep : Acquiring → Caller
  | .arriving => .acquiring
  | .queued ticket => .asleep ticket

/-- Whether a section of an acquisition has left a permit over for those who are queued. -/
def leavesOver (s : Semaphore) : Progress Acquiring (Except Fault Nat) → Bool
  | .ended (.ok _) => 0 < s.permits && 0 < s.queued
  | _ => false

/-- **`Caller.Steps s c c' s' wakes`** — everything that the next section of a caller can do: the
caller goes on from `c` to `c'`, the semaphore from `s` to `s'`, and the sleepers are woken or not.
-/
inductive Caller.Steps (s : Semaphore) : Caller → Caller → Semaphore → Bool → Prop
  | looks {pos : Acquiring} {progress : Progress Acquiring (Except Fault Nat)} {s' : Semaphore}
      (hacq : s.acquire? pos = some (progress, s')) :
      Steps s pos.awake (progress.within Acquiring.asleep .acquired) s' (s'.leavesOver progress)
  | dozes {ticket : Nat} (hc : s.closed = false) (hg : s.nowServing = ticket → s.permits = 0) :
      Steps s (.awake ticket) (.asleep ticket) s false
  | tries {taken : Bool} {s' : Semaphore} (htry : s.tryAcquire = (taken, s')) :
      Steps s .trying (.tried taken) s' false
  | full (hp : s.ceiling ≤ s.permits) :
      Steps s .releasing (.released (.error (.overflow s.ceiling))) s false
  | gives (hp : s.permits < s.ceiling) :
      Steps s .releasing (.released (.ok ())) { s with permits := s.permits + 1 } (0 < s.queued)
  | closes : Steps s .closing .notifying s.close false
  | notifies : Steps s .notifying .closedDown s true

namespace Hall

/-- All sleepers wake up, if `wakes` says so. -/
def wakeIf (h : Hall) (wakes : Bool) : Hall := if wakes then h.wakeAll else h

theorem steps_of_step? {h h' : Hall} {i : Nat} (hstep : h.step? i = some h') :
    ∃ c c' s' wakes, h.callers[i]? = some c ∧ c.Steps h.semaphore c' s' wakes ∧
      h' = (h.put i c' s').wakeIf wakes := by
  unfold step? at hstep
  split at hstep
  · next hi =>
    have hlook : ∀ progress s', h.semaphore.acquire? .arriving = some (progress, s') →
        Caller.Steps h.semaphore .acquiring (progress.within Acquiring.asleep .acquired) s'
          (s'.leavesOver progress) := fun _ _ hacq => .looks hacq
    split at hstep <;> obtain rfl := Option.some.inj hstep
    · next s heq => exact ⟨_, _, _, _, hi, hlook _ s (by rw [acquire?, heq]), rfl⟩
    · next t s heq => exact ⟨_, _, _, _, hi, hlook (.ended (.ok t)) s (by rw [acquire?, heq]), rfl⟩
    · next t s heq =>
      exact ⟨_, _, _, _, hi, hlook (.onward (.queued t)) s (by rw [acquire?, heq]), rfl⟩
  · next ticket hi =>
    have hlook : ∀ progress s', h.semaphore.acquire? (.queued ticket) = some (progress, s') →
        Caller.Steps h.semaphore (.awake ticket) (progress.within Acquiring.asleep .acquired) s'
          (s'.leavesOver progress) := fun _ _ hacq => .looks hacq
    split at hstep <;> obtain rfl := Option.some.inj hstep
    · next heq =>
      rw [recheck] at heq
      split_ifs at heq with hc hg
      refine ⟨_, _, _, false, hi, .dozes (by simpa using hc) fun hn => ?_, rfl⟩
      simpa [grants, hn] using hg
    · next f s heq =>
      exact ⟨_, _, _, _, hi, hlook (.ended (.error f)) s (by rw [acquire?, heq]; rfl), rfl⟩
    · next t s heq =>
      exact ⟨_, _, _, _, hi, hlook (.ended (.ok t)) s (by rw [acquire?, heq]; rfl), rfl⟩
  · next hi =>
    obtain rfl := Option.some.inj hstep
    exact ⟨_, _, _, false, hi, .tries rfl, rfl⟩
  · next hi =>
    rcases Nat.lt_or_ge h.semaphore.permits h.semaphore.ceiling with hp | hp
    · rw [release_of_lt hp] at hstep
      obtain rfl := Option.some.inj hstep
      refine ⟨_, _, _, _, hi, .gives hp, ?_⟩
      simp only [wakeIf, decide_eq_true_eq]
      rfl
    · rw [release_of_le hp] at hstep
      obtain rfl := Option.some.inj hstep
      exact ⟨_, _, _, false, hi, .full hp, rfl⟩
  · next hi =>
    obtain rfl := Option.some.inj hstep
    exact ⟨_, _, _, false, hi, .closes, rfl⟩
  · next hi =>
    obtain rfl := Option.some.inj hstep
    exact ⟨_, _, _, true, hi, .notifies, rfl⟩
  · cases hstep

theorem stir?_eq_some {h h' : Hall} {i : Nat} (hstir : h.stir? i = some h') :
    ∃ ticket, h.callers[i]? = some (.asleep ticket) ∧
      h' = (h.put i (.awake ticket) h.semaphore).wakeIf false := by
  rw [stir?] at hstir
  split at hstir
  · next ticket hi => exact ⟨ticket, hi, (Option.some.inj hstir).symm⟩
  · cases hstir

@[simp] theorem wakeIf_semaphore (h : Hall) (wakes : Bool) :
    (h.wakeIf wakes).semaphore = h.semaphore := by
  cases wakes <;> rfl

@[simp] theorem put_semaphore (h : Hall) (i : Nat) (c : Caller) (s : Semaphore) :
    (h.put i c s).semaphore = s := rfl

theorem wakeIf_callers (h : Hall) (wakes : Bool) (i : Nat) :
    (h.wakeIf wakes).callers[i]? = h.callers[i]?.map fun c => if wakes then c.wake else c := by
  cases wakes with
  | false => simp [wakeIf]
  | true => simp [wakeIf, wakeAll]

/-- Whoever does not step and does not sleep stays as it is. -/
theorem callers_put_of_ne {h : Hall} {i j : Nat} {c d : Caller} {s : Semaphore} {wakes : Bool}
    (hij : i ≠ j) (hj : h.callers[j]? = some d) (hd : d.wake = d) :
    ((h.put i c s).wakeIf wakes).callers[j]? = some d := by
  have hput : (h.put i c s).callers[j]? = some d := (List.getElem?_set_ne hij).trans hj
  rw [wakeIf_callers, hput, Option.map_some, hd, ite_self]

/-- Whoever steps and does not fall asleep is where the step brought it. -/
theorem callers_put_self {h : Hall} {i : Nat} {c : Caller} {s : Semaphore} {wakes : Bool}
    (hi : i < h.callers.length) (hc : c.wake = c) :
    ((h.put i c s).wakeIf wakes).callers[i]? = some c := by
  have hput : (h.put i c s).callers[i]? = some c := List.getElem?_set_self hi
  rw [wakeIf_callers, hput, Option.map_some, hc, ite_self]

/-- No section opens a semaphore again. -/
theorem closed_of_steps {s s' : Semaphore} {c c' : Caller} {wakes : Bool}
    (hs : c.Steps s c' s' wakes) (hc : s.closed = true) : s'.closed = true := by
  cases hs with
  | looks hacq => rw [acquire?_closed_eq hacq]; exact hc
  | dozes hopen hg => exact hc
  | tries htry => rw [tryAcquire_closed_eq htry]; exact hc
  | full hp => exact hc
  | gives hp => exact hc
  | closes => rfl
  | notifies => exact hc

/-- **Closing is for ever.** -/
theorem closed_of_move {h h' : Hall} {m : Move} (hmove : h.move? m = some h')
    (hc : h.semaphore.closed = true) : h'.semaphore.closed = true := by
  cases m with
  | step i =>
      obtain ⟨c, c', s', wakes, -, hs, rfl⟩ := steps_of_step? hmove
      rw [wakeIf_semaphore]
      exact closed_of_steps hs hc
  | stir i =>
      obtain ⟨ticket, -, rfl⟩ := stir?_eq_some hmove
      rw [wakeIf_semaphore]
      exact hc
  | join c => exact Option.some.inj hmove ▸ hc

/-- **The course of a run** of a hall. -/
theorem runs_course {h h' : Hall} {moves : List Move} (hrun : run? moves h = some h') :
    Runs move? h (course move? moves h) h' :=
  runs_of_run? (fun _ => rfl) (fun _ _ _ => rfl) hrun

/-! ## §2 — the line -/

/-- **In line**: as long as the semaphore is open, every ticket that is drawn and not served is in
the hand of one caller. -/
def InLine (h : Hall) : Prop := h.semaphore.Lined fun n => tally (Caller.holds n) h.callers

end Hall

/-- **`Made p max s`** — `s` is new, with `p` permits of which it keeps no more than `max`. -/
inductive Made (p : Nat) : Nat → Semaphore → Prop
  | ofPermits (hp : p ≤ wordMax) : Made p wordMax (.ofPermits p)
  | bounded (max : Nat) : Made p max (.bounded p max)

/-- Whoever has not done anything yet waits with no ticket. -/
theorem ticket?_of_begins {c : Caller} (hc : c.Begins) : c.ticket? = none := by
  cases c with
  | asleep ticket => exact absurd hc id
  | awake ticket => exact absurd hc id
  | _ => rfl

theorem ticket?_wake (c : Caller) : c.wake.ticket? = c.ticket? := by
  cases c <;> rfl

theorem holds_wake (n : Nat) (c : Caller) : c.wake.holds n = c.holds n := by
  rw [Caller.holds, Caller.holds, ticket?_wake]

theorem holds_awake (n : Nat) (pos : Acquiring) : pos.awake.holds n = pos.holds n := by
  cases pos <;> simp [Acquiring.awake, Acquiring.holds, Caller.holds, Caller.ticket?]

/-- After a section a caller holds the ticket of its new position, or none once it has ended. -/
theorem holds_within (n : Nat) (progress : Progress Acquiring (Except Fault Nat)) :
    (progress.within Acquiring.asleep .acquired).holds n =
      progress.weigh (Acquiring.holds n) := by
  cases progress with
  | ended r => rfl
  | onward pos =>
      cases pos <;>
        simp [Progress.within, Progress.weigh, Acquiring.asleep, Acquiring.holds, Caller.holds,
          Caller.ticket?]

namespace Hall

section InLine

variable {h h' : Hall} {i : Nat}

/-- Waking changes nobody's ticket. -/
theorem tally_wakeIf (h : Hall) (wakes : Bool) (n : Nat) :
    tally (Caller.holds n) (h.wakeIf wakes).callers = tally (Caller.holds n) h.callers := by
  cases wakes with
  | false => rfl
  | true =>
      show tally (Caller.holds n) (h.callers.map Caller.wake) = _
      rw [tally, List.map_map]
      exact tally_congr fun c _ => holds_wake n c

theorem inLine_of_made {p max : Nat} {s : Semaphore} (hs : Made p max s) : InLine ⟨s, []⟩ := by
  cases hs with
  | ofPermits hp => exact lined_ofPermits p
  | bounded => exact lined_bounded p max

/-- A caller that goes on with the same ticket in hand, or again with none, leaves the line
alone. -/
theorem inLine_put {c c' : Caller} {s : Semaphore} {wakes : Bool} (hi : h.callers[i]? = some c)
    (hc : c'.ticket? = c.ticket?) (hs : s.Lined fun n => tally (Caller.holds n) h.callers) :
    InLine ((h.put i c' s).wakeIf wakes) := by
  rw [InLine, wakeIf_semaphore]
  refine hs.congr (fun n => ?_) rfl rfl rfl
  rw [tally_wakeIf]
  exact tally_set_of_eq hi (by rw [Caller.holds, Caller.holds, hc])

theorem InLine.step {c c' : Caller} {s' : Semaphore} {wakes : Bool} (hline : h.InLine)
    (hi : h.callers[i]? = some c) (hs : c.Steps h.semaphore c' s' wakes) :
    InLine ((h.put i c' s').wakeIf wakes) := by
  cases hs with
  | @looks pos progress s' hacq =>
      have hbefore : ∀ n, tally (Caller.holds n) h.callers =
          tally (Caller.holds n) (h.callers.eraseIdx i) + pos.holds n := by
        intro n
        rw [tally_eq_add hi, holds_awake]
      rw [InLine, wakeIf_semaphore]
      refine Lined.acquire? hline hacq hbefore fun n => ?_
      rw [tally_wakeIf, ← holds_within]
      exact tally_set_eq_add hi _
  | dozes hc hg => exact inLine_put hi rfl hline
  | tries htry => exact inLine_put hi rfl (Lined.tryAcquire hline htry)
  | full hp => exact inLine_put hi rfl hline
  | gives hp => exact inLine_put hi rfl (Lined.congr hline (fun _ => rfl) rfl rfl rfl)
  | closes => exact inLine_put hi rfl fun hopen => absurd hopen (by simp [close])
  | notifies => exact inLine_put hi rfl hline

/-- **Every move** keeps the line. -/
theorem InLine.move (hline : h.InLine) {m : Move} (hm : m.Begins) (hmove : h.move? m = some h') :
    h'.InLine := by
  cases m with
  | step i =>
      obtain ⟨c, c', s', wakes, hi, hs, rfl⟩ := steps_of_step? hmove
      exact hline.step hi hs
  | stir i =>
      obtain ⟨ticket, hi, rfl⟩ := stir?_eq_some hmove
      exact inLine_put hi rfl hline
  | join c =>
      obtain rfl := Option.some.inj hmove
      refine Lined.congr hline (fun n => ?_) rfl rfl rfl
      show tally _ (h.callers ++ [c]) = _
      rw [tally_concat, Caller.holds, ticket?_of_begins hm, if_neg (by simp), Nat.add_zero]

/-- Whoever waits has a ticket that is drawn and not served. -/
theorem InLine.lt (hline : h.InLine) (hc : h.semaphore.closed = false) {c : Caller} {n : Nat}
    (hi : h.callers[i]? = some c) (hn : c.ticket? = some n) :
    h.semaphore.nowServing ≤ n ∧ n < h.semaphore.nextTicket := by
  have hle : c.holds n ≤ tally (Caller.holds n) h.callers := le_tally hi
  have hsum := (hline hc).2 n
  simp only at hsum
  rw [hsum, Caller.holds, if_pos hn] at hle
  by_contra hout
  rw [if_neg hout] at hle
  exact absurd hle (by decide)

/-- No two callers have the same ticket. -/
theorem InLine.unique (hline : h.InLine) (hc : h.semaphore.closed = false) {j n : Nat}
    {c d : Caller} (hi : h.callers[i]? = some c) (hj : h.callers[j]? = some d)
    (hn : c.ticket? = some n) (hn' : d.ticket? = some n) : i = j := by
  by_contra hij
  have hle := add_le_tally (f := Caller.holds n) hi hj hij
  have hsum := (hline hc).2 n
  simp only at hsum
  rw [hsum, Caller.holds, Caller.holds, if_pos hn, if_pos hn'] at hle
  split_ifs at hle <;> omega

/-- Every ticket that is drawn and not served is in somebody's hand. -/
theorem InLine.exists_holder (hline : h.InLine) (hc : h.semaphore.closed = false) {n : Nat}
    (hle : h.semaphore.nowServing ≤ n) (hlt : n < h.semaphore.nextTicket) :
    ∃ (i : Nat) (c : Caller), h.callers[i]? = some c ∧ c.ticket? = some n := by
  have hsum := (hline hc).2 n
  simp only at hsum
  rw [if_pos ⟨hle, hlt⟩] at hsum
  obtain ⟨i, c, hi, hpos⟩ := exists_of_tally_pos (f := Caller.holds n) (l := h.callers) (by omega)
  refine ⟨i, c, hi, ?_⟩
  by_contra hne
  rw [Caller.holds, if_neg hne] at hpos
  exact absurd hpos (by decide)

end InLine

end Hall

end Postal.Semaphore

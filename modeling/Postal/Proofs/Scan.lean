import Postal.Proofs.Pool

/-!
# Searches and offers in every interleaving.

A pool on its own, with any number of offers and searches under way, and nobody who closes it. The
suffix invariant of the pool becomes an invariant of the crowd, where the scans are counted over
the callers (`Scanning`). One step keeps it (`Scanning.step`), and so does every interleaving. What
it is good for: a search that got past the aggregate always has a next step, each of its own steps
either ends with a worker or brings it to the next slot, and it runs out of neither tokens nor
slots (`scan_never_stranded`).
-/

namespace Postal.Pool

/-- Whether the caller is past the aggregate and has only slots from `q` on ahead, as a weight. -/
def Caller.scansFrom (size q : Nat) : Caller → Nat
  | .claiming pos => pos.scansFrom size q
  | _ => 0

/-- Whether the caller is between the two releases of an offer, as a weight. -/
def Caller.between : Caller → Nat
  | .advertising _ pos => pos.between
  | _ => 0

/-- A call that has not done anything yet: an offer or a search. -/
def Caller.Begins : Caller → Prop
  | .advertising _ .token => True
  | .claiming (.aggregate .arriving) => True
  | _ => False

/-- What `Claiming.scansFrom_succ_le` says of every caller. -/
theorem Caller.scansFrom_succ_le (size q : Nat) (caller : Caller) :
    caller.scansFrom size (q + 1) ≤ caller.scansFrom size q := by
  cases caller with
  | claiming pos => exact pos.scansFrom_succ_le size q
  | _ => exact Nat.le_refl _

/-- The weight of a search after a step is that of its new position. -/
theorem Caller.scansFrom_within (size q : Nat) (progress : Progress Claiming (Except Fault Nat)) :
    (progress.within Caller.claiming .claimed).scansFrom size q =
      progress.weigh (Claiming.scansFrom size q) := by
  cases progress <;> rfl

/-- The weight of an offer after a step is that of its new position. -/
theorem Caller.between_within (worker : Nat)
    (outcome : Progress Advertising (Except Fault Unit)) :
    (outcome.within (Caller.advertising worker) (.advertised worker)).between =
      outcome.weigh Advertising.between := by
  cases outcome <;> rfl

/-- The scans of a crowd are those of one search and those of everybody else. -/
theorem scans_eq_add {n i : Nat} {callers : List Caller} {pos : Claiming}
    (hi : callers[i]? = some (.claiming pos)) (q : Nat) :
    tally (Caller.scansFrom n q) callers =
      tally (Caller.scansFrom n q) (callers.eraseIdx i) + pos.scansFrom n q :=
  tally_eq_add hi

/-- **The invariant of a crowd at a pool** of `n` workers that nobody closes. -/
structure Scanning (n : Nat) (c : Crowd Pool Caller) : Prop where
  size : c.shared.size = n
  covered : c.shared.Covered (fun q => tally (Caller.scansFrom n q) c.callers)
    (tally Caller.between c.callers)
  unqueued : ∀ (i : Nat) (pos : Claiming), c.callers[i]? = some (.claiming pos) → pos.Unqueued
  unclosed : ∀ (i : Nat) (pos : Closing), c.callers[i]? ≠ some (.closing pos)

section Scanning

variable {n i : Nat} {c c' : Crowd Pool Caller}

/-- Before anybody has moved the invariant holds. -/
theorem scanning_of_begins {callers : List Caller} (hbegin : ∀ caller ∈ callers, caller.Begins) :
    Scanning n ⟨.ofWorkers n, callers⟩ := by
  have hmem : ∀ (i : Nat) (caller : Caller), callers[i]? = some caller → caller.Begins :=
    fun i caller hi => hbegin caller (List.mem_of_getElem? hi)
  have hscans : ∀ q, tally (Caller.scansFrom n q) callers = 0 := by
    intro q
    refine tally_eq_zero fun i caller hi => ?_
    have hb := hmem i caller hi
    unfold Caller.Begins at hb
    split at hb <;> first | rfl | exact absurd hb id
  have hbetween : tally Caller.between callers = 0 := by
    refine tally_eq_zero fun i caller hi => ?_
    have hb := hmem i caller hi
    unfold Caller.Begins at hb
    split at hb <;> first | rfl | exact absurd hb id
  refine ⟨by simp [size, ofWorkers], ?_, fun i pos hi => ?_, fun i pos hi => ?_⟩
  · simp only [hscans, hbetween]
    exact covered_ofWorkers n
  · have hb := hmem i _ hi
    cases pos with
    | last position => exact absurd hb id
    | _ => trivial
  · exact absurd (hmem i _ hi) id

/-- A step of a caller, as a section of its offer or of its search. -/
theorem Scanning.step_cases (h : Scanning n c) (hstep : c.step? conduct i = some c') :
    (∃ worker pos outcome p', c.callers[i]? = some (.advertising worker pos) ∧
      Offers c.shared worker pos outcome p' ∧
      c' = ⟨p', c.callers.set i (outcome.within (.advertising worker) (.advertised worker))⟩) ∨
    (∃ pos progress p', c.callers[i]? = some (.claiming pos) ∧
      Claims c.shared pos progress p' ∧
      c' = ⟨p', c.callers.set i (progress.within .claiming .claimed)⟩) := by
  obtain ⟨caller, caller', p', hi, hrule, rfl⟩ := Crowd.step?_eq_some hstep
  cases caller with
  | advertising worker pos =>
      obtain ⟨rfl, rfl⟩ := Prod.mk.inj (Option.some.inj hrule)
      exact .inl ⟨worker, pos, _, _, hi, offers_advertise _ _ _, rfl⟩
  | claiming pos =>
      obtain ⟨⟨progress, p''⟩, hclaim, hend⟩ := Option.map_eq_some_iff.1 hrule
      obtain ⟨rfl, rfl⟩ := Prod.mk.inj hend
      exact .inr ⟨pos, progress, p'', hi, claims_of_claim? hclaim, rfl⟩
  | closing pos => exact absurd hi (h.unclosed i pos)
  | advertised worker result => cases hrule
  | claimed result => cases hrule
  | closedDown => cases hrule

/-- **One step** keeps the invariant. -/
theorem Scanning.step (h : Scanning n c) (hstep : c.step? conduct i = some c') :
    Scanning n c' := by
  rcases h.step_cases hstep with ⟨worker, pos, outcome, p', hi, hoffer, rfl⟩ |
    ⟨pos, progress, p', hi, hclaim, rfl⟩
  · have hstill : ∀ q, tally (Caller.scansFrom n q)
        (c.callers.set i (outcome.within (.advertising worker) (.advertised worker))) =
          tally (Caller.scansFrom n q) c.callers :=
      fun q => tally_set_of_eq hi (by cases outcome <;> rfl)
    refine ⟨hoffer.size_eq.trans h.size, ?_, fun j pos' hj => ?_, fun j pos' hj => ?_⟩
    · simp only [hstill]
      refine h.covered.advertise hoffer (tally_eq_add hi) ?_
      rw [tally_set_eq_add hi, Caller.between_within]
    · rw [List.getElem?_set] at hj
      split_ifs at hj with hij
      · cases outcome <;> simp [Progress.within] at hj
      · exact h.unqueued j pos' hj
    · rw [List.getElem?_set] at hj
      split_ifs at hj with hij
      · cases outcome <;> simp [Progress.within] at hj
      · exact h.unclosed j pos' hj
  · have hsize := h.size
    subst hsize
    have hscans := scans_eq_add (n := c.shared.size) hi
    have hscans' := fun q => tally_set_eq_add (f := Caller.scansFrom c.shared.size q) hi
      (progress.within .claiming .claimed)
    have hanti := fun q => tally_le_tally (Caller.scansFrom_succ_le c.shared.size q)
      (c.callers.eraseIdx i)
    have hbetween : tally Caller.between (c.callers.set i (progress.within .claiming .claimed)) =
        tally Caller.between c.callers :=
      tally_set_of_eq hi (by cases progress <;> rfl)
    simp only [Caller.scansFrom_within] at hscans'
    refine ⟨hclaim.size_eq, ?_, fun j pos' hj => ?_, fun j pos' hj => ?_⟩
    · rw [hbetween]
      exact h.covered.claim hclaim (h.unqueued i pos hi) hanti hscans hscans'
    · rw [List.getElem?_set] at hj
      split_ifs at hj with hij
      · cases progress with
        | onward pos'' =>
            obtain rfl := Caller.claiming.inj (Option.some.inj hj)
            exact h.covered.claim_unqueued hclaim hscans rfl
        | ended result => simp [Progress.within] at hj
      · exact h.unqueued j pos' hj
    · rw [List.getElem?_set] at hj
      split_ifs at hj with hij
      · cases progress <;> simp [Progress.within] at hj
      · exact h.unclosed j pos' hj

/-- **Every interleaving** keeps the invariant. -/
theorem Scanning.run (h : Scanning n c) {schedule : List Nat}
    (hrun : c.run? conduct schedule = some c') : Scanning n c' :=
  Crowd.run_induction (motive := Scanning n) (fun hc hs => hc.step hs) h hrun

/-! ## A search past the aggregate -/

/-- The slot ahead of a search that is past the aggregate exists, and a token lies there or behind
it. -/
theorem Scanning.token_ahead (h : Scanning n c) {pos : Claiming} {w : Nat}
    (hi : c.callers[i]? = some (.claiming pos)) (hw : pos.next? n = some w) :
    ∃ v, w ≤ v ∧ v < n ∧ c.shared.isClaimable v = true := by
  have hsize := h.size
  subst hsize
  exact exists_token (h.covered.token_ahead (scans_eq_add hi) hw)

/-- **At the last slot** a search takes the token in its next step. -/
theorem Scanning.take_last (h : Scanning n c) {position : Semaphore.Acquiring}
    (hi : c.callers[i]? = some (.claiming (.last position))) :
    (∃ s, c.shared.slots[n - 1]? = some s ∧ 0 < s.permits ∧ s.queued = 0) ∧
      ∃ c', c.step? conduct i = some c' ∧ c'.callers[i]? = some (.claimed (.ok (n - 1))) := by
  have hsize := h.size
  subst hsize
  obtain ⟨v, -, hv, -⟩ := h.token_ahead hi rfl
  obtain ⟨s, hs, hc, hn, hp⟩ := h.covered.last (scans_eq_add hi) (by omega) rfl
  have hlt := (List.getElem?_eq_some_iff.1 hi).1
  cases position with
  | queued ticket => exact absurd (h.unqueued i _ hi) id
  | arriving =>
      refine ⟨⟨s, hs, hp, by rw [Semaphore.queued, hn, Nat.sub_self]⟩, ?_⟩
      have hstep : c.shared.claim? (.last .arriving) = some (.ended (.ok (c.shared.size - 1)),
          c.shared.setSlot (c.shared.size - 1)
            ({ s with nextTicket := s.nextTicket + 1 } : Semaphore).grant) := by
        simp only [claim?, hs, Semaphore.acquire?, Semaphore.arrive_of_grants hc hn hp,
          Option.bind_eq_bind, Option.bind_some]
      have hrule : Conduct.step? conduct c.shared (.claiming (.last .arriving)) =
          some (.claimed (.ok (c.shared.size - 1)), c.shared.setSlot (c.shared.size - 1)
            ({ s with nextTicket := s.nextTicket + 1 } : Semaphore).grant) := by
        show Option.map _ _ = _
        rw [hstep]
        rfl
      exact ⟨_, Crowd.step?_of_rule hi hrule, List.getElem?_set_self hlt⟩

/-- **A probe** of a slot takes the token or goes on to the next slot, which is there. -/
theorem Scanning.probe (h : Scanning n c) {w : Nat}
    (hi : c.callers[i]? = some (.claiming (.probing w))) :
    ∃ c', c.step? conduct i = some c' ∧ (c'.callers[i]? = some (.claimed (.ok w)) ∨
      ∃ pos, c'.callers[i]? = some (.claiming pos) ∧ pos.next? n = some (w + 1)) := by
  have hsize := h.size
  subst hsize
  have hlt := (List.getElem?_eq_some_iff.1 hi).1
  have htoken := h.covered.token_ahead (scans_eq_add hi) (w := w) rfl
  obtain ⟨v, hwv, hv, -⟩ := h.token_ahead hi rfl
  have hw : w < c.shared.slots.length := Nat.lt_of_le_of_lt hwv hv
  have hs : c.shared.slots[w]? = some c.shared.slots[w] := List.getElem?_eq_getElem hw
  obtain ⟨progress, p', hclaim⟩ : ∃ progress p', c.shared.claim? (.probing w) =
      some (progress, p') := by
    simp only [claim?, hs, Option.bind_eq_bind, Option.bind_some]
    split <;> exact ⟨_, _, rfl⟩
  have hrule : Conduct.step? conduct c.shared (.claiming (.probing w)) =
      some (progress.within .claiming .claimed, p') := by
    show Option.map _ _ = _
    rw [hclaim]
    rfl
  refine ⟨_, Crowd.step?_of_rule hi hrule, ?_⟩
  rw [List.getElem?_set_self hlt]
  cases claims_of_claim? hclaim with
  | took hs htry => exact .inl rfl
  | @missed w s hs htry =>
      have hempty : s.permits = 0 := h.covered.empty_of_missed hs htry
      -- the token that is ahead does not lie here, so there is a next slot
      have hnext : w + 1 < c.shared.size := by
        by_contra hend
        rw [tokensFrom_eq_add hs, hempty, tokensFrom_of_size_le (Nat.le_of_not_lt hend)] at htoken
        exact absurd htoken (by decide)
      obtain ⟨pos, hpos⟩ := exists_scan_onward hnext
      rw [hpos]
      exact .inr ⟨pos, rfl, (scan_onward hpos).1⟩

/-- **One own step** of a search past the aggregate ends it with a worker or brings it to the next
slot. -/
theorem Scanning.advance (h : Scanning n c) {pos : Claiming} {w : Nat}
    (hi : c.callers[i]? = some (.claiming pos)) (hw : pos.next? n = some w) :
    ∃ c', c.step? conduct i = some c' ∧ (c'.callers[i]? = some (.claimed (.ok w)) ∨
      ∃ pos', c'.callers[i]? = some (.claiming pos') ∧ pos'.next? n = some (w + 1)) := by
  cases pos with
  | aggregate position => cases hw
  | probing v =>
      obtain rfl := Option.some.inj hw
      exact h.probe hi
  | last position =>
      obtain rfl := Option.some.inj hw
      obtain ⟨c', hstep, hclaimed⟩ := (h.take_last hi).2
      exact ⟨c', hstep, .inl hclaimed⟩

/-- A search that has ended stays as it is. -/
theorem claimed_run {result : Except Fault Nat} {later : List Nat}
    (hi : c.callers[i]? = some (.claimed result)) (hrun : c.run? conduct later = some c') :
    c'.callers[i]? = some (.claimed result) := by
  refine Crowd.run_induction (motive := fun c => c.callers[i]? = some (.claimed result))
    (fun {c₁ c₂ j} hc hstep => ?_) hi hrun
  by_cases hij : j = i
  · subst hij
    obtain ⟨p, p', s', hp, hrule, -⟩ := Crowd.step?_eq_some hstep
    obtain rfl := Option.some.inj (hc.symm.trans hp)
    cases hrule
  · rw [Crowd.step?_other hstep hij]
    exact hc

/-- **The rest of a search.** After any continuation the search has its worker, or it has gone on by
exactly one slot with each of its own steps and is still before the end of the slots. -/
theorem Scanning.search (h : Scanning n c) {pos : Claiming} {w : Nat} {later : List Nat}
    (hi : c.callers[i]? = some (.claiming pos)) (hw : pos.next? n = some w)
    (hrun : c.run? conduct later = some c') :
    (∃ v, w ≤ v ∧ v < n ∧ c'.callers[i]? = some (.claimed (.ok v))) ∨
      ∃ pos', c'.callers[i]? = some (.claiming pos') ∧
        pos'.next? n = some (w + later.count i) ∧ w + later.count i < n := by
  induction later generalizing c pos w with
  | nil =>
      obtain rfl := Option.some.inj hrun
      obtain ⟨v, hwv, hv, -⟩ := h.token_ahead hi hw
      exact .inr ⟨pos, hi, hw, Nat.lt_of_le_of_lt hwv hv⟩
  | cons j later ih =>
      obtain ⟨c₁, hstep, hrest⟩ := Option.bind_eq_some_iff.1 hrun
      obtain ⟨v, hwv, hv, -⟩ := h.token_ahead hi hw
      by_cases hij : j = i
      · subst hij
        obtain ⟨c₂, hstep', hnext⟩ := h.advance hi hw
        obtain rfl := Option.some.inj (hstep.symm.trans hstep')
        rcases hnext with hclaimed | ⟨pos', hi', hw'⟩
        · exact .inl ⟨w, Nat.le_refl _, by omega, claimed_run hclaimed hrest⟩
        · rw [List.count_cons_self, ← Nat.add_assoc, Nat.add_right_comm]
          rcases ih (h.step hstep) hi' hw' hrest with ⟨u, hu, hun, hclaimed⟩ | hon
          · exact .inl ⟨u, by omega, hun, hclaimed⟩
          · exact .inr hon
      · rw [List.count_cons_of_ne hij]
        exact ih (h.step hstep) (by rw [Crowd.step?_other hstep hij]; exact hi) hw hrest

/-- **At most one search is at the last slot**, for which there is a single token. -/
theorem Scanning.last_unique (h : Scanning n c) {j : Nat} {pos pos' : Semaphore.Acquiring}
    (hi : c.callers[i]? = some (.claiming (.last pos)))
    (hj : c.callers[j]? = some (.claiming (.last pos'))) : i = j := by
  by_contra hij
  have hsize := h.size
  subst hsize
  have htwo := add_le_tally (f := Caller.scansFrom c.shared.size (c.shared.size - 1)) hi hj hij
  have hahead := h.covered.ahead (c.shared.size - 1)
  obtain ⟨v, -, hv, -⟩ := h.token_ahead hi rfl
  obtain ⟨s, hs, -⟩ := h.covered.last (scans_eq_add hi) (by omega) rfl
  have hsingle := (h.covered.quiet _ s hs).single
  rw [tokensFrom_eq_add hs, tokensFrom_of_size_le (by omega)] at hahead
  simp only [Caller.scansFrom, scansFrom_last, Nat.le_refl, if_true] at htwo
  omega

end Scanning

/-! ## The theorem -/

/-- **No search is stranded.** In a pool of `n` workers that nobody closes, take any number of
offers and searches and any interleaving of their sections. Then, for every slot `q`, the searches
past the aggregate that have only slots from `q` on ahead are at most as many as the tokens there.
At the last slot, where a search would wait, its token is there and nobody is queued, so that the
next step takes it; and never two searches are there at once. A search that is past the aggregate
has a token at its slot or behind, it can always step, and however the others go on, each of its own
steps that does not end it with a worker brings it to the next slot. -/
theorem scan_never_stranded (n : Nat) (callers : List Caller)
    (hbegin : ∀ caller ∈ callers, caller.Begins) (schedule : List Nat) (c : Crowd Pool Caller)
    (hrun : Crowd.run? conduct schedule ⟨.ofWorkers n, callers⟩ = some c) :
    (∀ q, tally (Caller.scansFrom n q) c.callers ≤ c.shared.tokensFrom q) ∧
    (∀ (i : Nat) (position : Semaphore.Acquiring),
      c.callers[i]? = some (.claiming (.last position)) →
      (∃ s, c.shared.slots[n - 1]? = some s ∧ 0 < s.permits ∧ s.queued = 0) ∧
      ∃ c', c.step? conduct i = some c' ∧ c'.callers[i]? = some (.claimed (.ok (n - 1)))) ∧
    (∀ (i j : Nat) (position position' : Semaphore.Acquiring),
      c.callers[i]? = some (.claiming (.last position)) →
      c.callers[j]? = some (.claiming (.last position')) → i = j) ∧
    (∀ (i : Nat) (pos : Claiming) (w : Nat),
      c.callers[i]? = some (.claiming pos) → pos.next? n = some w →
      (∃ v, w ≤ v ∧ v < n ∧ c.shared.isClaimable v = true) ∧
      (c.step? conduct i).isSome = true ∧
      ∀ (later : List Nat) (c' : Crowd Pool Caller), c.run? conduct later = some c' →
        (∃ v, w ≤ v ∧ v < n ∧ c'.callers[i]? = some (.claimed (.ok v))) ∨
        ∃ pos', c'.callers[i]? = some (.claiming pos') ∧
          pos'.next? n = some (w + later.count i) ∧ w + later.count i < n) := by
  have h : Scanning n c := (scanning_of_begins hbegin).run hrun
  refine ⟨h.covered.ahead, fun i position hi => h.take_last hi,
    fun i j position position' hi hj => h.last_unique hi hj, fun i pos w hi hw => ?_⟩
  obtain ⟨c', hstep, -⟩ := h.advance hi hw
  exact ⟨h.token_ahead hi hw, by rw [hstep]; rfl, fun later c' hlater => h.search hi hw hlater⟩

/-- Two workers and two customers. The first customer finds slot 0 empty, and the token that is put
down there afterwards, behind it, is not the one that it needs: its own lies in the last slot. -/
theorem scan_never_stranded_behind :
    let callers : List Caller := [.advertising 1 .token, .claiming .start, .advertising 0 .token,
      .claiming .start]
    (∀ caller ∈ callers, caller.Begins) ∧
      ∃ c, Crowd.run? conduct [0, 0, 1, 1, 2, 2, 3] ⟨.ofWorkers 2, callers⟩ = some c ∧
        c.callers[1]? = some (.claiming (.last .arriving)) ∧
        (∀ q, tally (Caller.scansFrom 2 q) c.callers ≤ c.shared.tokensFrom q) ∧
        ∃ c', c.step? conduct 1 = some c' ∧ c'.callers[1]? = some (.claimed (.ok 1)) := by
  intro callers
  have hbegin : ∀ caller ∈ callers, caller.Begins := by
    simp [callers, Caller.Begins, Claiming.start]
  obtain ⟨c, hrun, hwhere⟩ : ∃ c,
      Crowd.run? conduct [0, 0, 1, 1, 2, 2, 3] ⟨.ofWorkers 2, callers⟩ = some c ∧
        c.callers[1]? = some (.claiming (.last .arriving)) := ⟨_, rfl, rfl⟩
  obtain ⟨hahead, hlast, -⟩ := scan_never_stranded 2 callers hbegin _ c hrun
  exact ⟨hbegin, c, hrun, hwhere, hahead, (hlast 1 .arriving hwhere).2⟩

end Postal.Pool

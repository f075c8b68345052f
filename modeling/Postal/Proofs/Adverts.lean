import Postal.Proofs.Course
import Postal.Proofs.Scan

/-!
# What becomes of an offer.

A worker that offers itself puts down its token and raises the aggregate, and a customer who takes
it up lowers the aggregate and takes a token, maybe another one. In between the two counters
disagree, and by as much as there are calls half done (`Accounted.total`). From that count alone it
follows that the errors which the second half of a call could meet are never met: the aggregate has
room for every token, and a search that was let in finds a slot.

## §1 — the token of one worker: it is put down and taken in turn.
## §2 — the two counters, and the calls that are between them.
## §3 — offers that fail.
-/

namespace Postal.Pool

/-- Whether the caller is past the aggregate and has no worker yet, as a weight. -/
def Caller.looking : Caller → Nat
  | .claiming (.probing _) | .claiming (.last _) => 1
  | _ => 0

/-! ## §1 — the token of one worker -/

/-- What is done with a token. -/
inductive Touch where
  | putDown
  | taken
  deriving DecidableEq

/-- What a caller does with the token of worker `w` as it goes on from one position to another. -/
def Caller.touches? (w : Nat) : Caller → Caller → Option Touch
  | .advertising v .token, .advertising _ .aggregate => if v = w then some .putDown else none
  | .claiming _, .claimed (.ok v) => if v = w then some .taken else none
  | _, _ => none

/-- What a step does with the token of worker `w`. -/
def touched? (w : Nat) (x : Happening (Crowd Pool Caller) Nat) : Option Touch := do
  let caller ← x.before.callers[x.move]?
  let caller' ← x.after.callers[x.move]?
  caller.touches? w caller'

/-- What is done with a token that is put down and taken in turn, `k` times in all. -/
def inTurn (k : Nat) : List Touch :=
  (List.range k).map fun j => if j % 2 = 0 then .putDown else .taken

theorem inTurn_succ (k : Nat) :
    inTurn (k + 1) = inTurn k ++ [if k % 2 = 0 then .putDown else .taken] := by
  rw [inTurn, List.range_succ, List.map_append]
  rfl

theorem count_inTurn (k : Nat) :
    (inTurn k).count .putDown = (inTurn k).count .taken + k % 2 := by
  induction k with
  | zero => rfl
  | succ k ih =>
      rw [inTurn_succ, List.count_append, List.count_append, ih]
      rcases Nat.mod_two_eq_zero_or_one k with h | h
      · rw [if_pos h, h, show (k + 1) % 2 = 1 by omega]
        rfl
      · rw [if_neg (by omega), h, show (k + 1) % 2 = 0 by omega]
        rfl

/-- **`Changes t touch t'`** — how a token is changed by what is done with it. -/
inductive Changes : Nat → Option Touch → Nat → Prop
  | stays (t : Nat) : Changes t none t
  | putDown : Changes 0 (some .putDown) 1
  | taken : Changes 1 (some .taken) 0

/-- **`Tended t history`** — `history` is what was done with a token that lies there `t` times. -/
structure Tended (t : Nat) (history : List Touch) : Prop where
  turns : history = inTurn history.length
  lies : t = history.length % 2

theorem Tended.change {t t' : Nat} {history : List Touch} {touch : Option Touch}
    (h : Tended t history) (hchange : Changes t touch t') :
    Tended t' (history ++ touch.toList) := by
  have hlies := h.lies
  cases hchange with
  | stays => exact (List.append_nil history).symm ▸ h
  | putDown =>
      refine ⟨?_, ?_⟩ <;> rw [Option.toList_some, List.length_append, List.length_singleton]
      · rw [inTurn_succ, ← h.turns, ← hlies]
        rfl
      · omega
  | taken =>
      refine ⟨?_, ?_⟩ <;> rw [Option.toList_some, List.length_append, List.length_singleton]
      · rw [inTurn_succ, ← h.turns, ← hlies]
        rfl
      · omega

theorem Tended.count {t : Nat} {history : List Touch} (h : Tended t history) :
    history.count .putDown = history.count .taken + t := by
  have hcount := count_inTurn history.length
  rwa [← h.turns, ← h.lies] at hcount

/-- A section at one slot changes its token, and leaves the tokens of the others alone. -/
theorem changes_setSlot {p : Pool} {v : Nat} {s s' : Semaphore} {touch : Option Touch}
    (hs : p.slots[v]? = some s) (hchange : Changes s.permits touch s'.permits) (w : Nat) :
    Changes (p.token w) (if v = w then touch else none) ((p.setSlot v s').token w) := by
  rw [token_setSlot hs]
  split_ifs with h
  · subst h
    rw [token_of_slot hs]
    exact hchange
  · exact .stays _

theorem changes_of_taken {t t' : Nat} (h : t' + 1 = t) (ht : t ≤ 1) :
    Changes t (some .taken) t' := by
  obtain rfl : t' = 0 := by omega
  exact h ▸ .taken

/-- A search that goes on to a slot has not taken a token. -/
theorem touches?_scan (p : Pool) (pos : Claiming) (v w : Nat) :
    (Caller.claiming pos).touches? w ((p.scan v).within .claiming .claimed) = none := by
  rw [scan]
  split_ifs <;> rfl

section Covered

variable {p p' : Pool} {scans : Nat → Nat} {offers : Nat}

/-- **An offer** puts down its own token, which was not there. -/
theorem Covered.changes_of_offer {worker : Nat} {pos : Advertising}
    {outcome : Progress Advertising (Except Fault Unit)} (h : p.Covered scans offers)
    (hoffer : Offers p worker pos outcome p') (w : Nat) :
    Changes (p.token w) ((Caller.advertising worker pos).touches? w
      (outcome.within (.advertising worker) (.advertised worker))) (p'.token w) := by
  cases hoffer with
  | unknown hs => exact .stays _
  | claimable hs hfull => exact .stays _
  | @putDown s hs hroom =>
      have hempty : s.permits = 0 := by
        rw [(h.quiet worker s hs).binary] at hroom
        omega
      have hput : Changes s.permits (some .putDown)
          ({ s with permits := s.permits + 1 } : Semaphore).permits := by
        simp only [hempty]
        exact .putDown
      exact changes_setSlot hs hput w
  | full hfull => exact .stays _
  | raised hroom => exact .stays _

/-- **A search** takes the token of the worker that it ends with, which was there. -/
theorem Covered.changes_of_claim {pos : Claiming}
    {progress : Progress Claiming (Except Fault Nat)} (h : p.Covered scans offers)
    (hclaim : Claims p pos progress p') (w : Nat) :
    Changes (p.token w) ((Caller.claiming pos).touches? w (progress.within .claiming .claimed))
      (p'.token w) := by
  -- whoever stays at the last slot leaves its token alone
  have hkept : ∀ {s s' : Semaphore}, p.slots[p.size - 1]? = some s → s'.permits = s.permits →
      Changes (p.token w) none ((p.setSlot (p.size - 1) s').token w) := by
    intro s s' hs hpermits
    have hstays : Changes s.permits none s'.permits := hpermits ▸ .stays _
    have hslot := changes_setSlot hs hstays w
    rwa [ite_self] at hslot
  cases hclaim with
  | waits hacq => exact .stays _
  | admitted hacq =>
      rw [touches?_scan]
      exact .stays _
  | refused hacq => exact .stays _
  | missed hs htry =>
      rw [touches?_scan]
      exact .stays _
  | @took v s s' hs htry =>
      exact changes_setSlot hs
        (changes_of_taken (Semaphore.tryAcquire_permits htry) (h.quiet _ s hs).single) w
  | lastWaits hs hacq => exact hkept hs (Semaphore.acquire?_permits hacq)
  | @lastTook position s s' ticket hs hacq =>
      exact changes_setSlot hs
        (changes_of_taken (Semaphore.acquire?_permits hacq) (h.quiet _ s hs).single) w
  | lastRefused hs hacq => exact hkept hs (Semaphore.acquire?_permits hacq)

/-- No more tokens lie there than there are workers. -/
theorem Covered.tokensFrom_le (h : p.Covered scans offers) : p.tokensFrom 0 ≤ p.size := by
  rw [tokensFrom, List.drop_zero]
  exact tally_le_length fun w s hs => (h.quiet w s hs).single

end Covered

section Crowd

variable {n i : Nat} {c c' : Crowd Pool Caller}

theorem touched?_step {caller caller' : Caller} {p' : Pool} (hi : c.callers[i]? = some caller)
    (w : Nat) :
    touched? w ⟨c, i, ⟨p', c.callers.set i caller'⟩⟩ = caller.touches? w caller' := by
  have hlt := (List.getElem?_eq_some_iff.1 hi).1
  simp only [touched?, hi, List.getElem?_set_self hlt, Option.bind_eq_bind, Option.bind_some]

/-- **A step** changes a token as it is seen to. -/
theorem Scanning.changes (h : Scanning n c) (hstep : c.step? conduct i = some c') (w : Nat) :
    Changes (c.shared.token w) (touched? w ⟨c, i, c'⟩) (c'.shared.token w) := by
  rcases h.step_cases hstep with ⟨worker, pos, outcome, p', hi, hoffer, rfl⟩ |
    ⟨pos, progress, p', hi, hclaim, rfl⟩
  · rw [touched?_step hi]
    exact h.covered.changes_of_offer hoffer w
  · rw [touched?_step hi]
    exact h.covered.changes_of_claim hclaim w

/-! ## §2 — the two counters -/

/-- **`Accounted n c`** — in a pool of `n` workers that nobody closes, every token that lies there
is promised by the aggregate, or to a search that is past the aggregate, or belongs to an offer that
is about to raise it. -/
structure Accounted (n : Nat) (c : Crowd Pool Caller) : Prop where
  scanning : Scanning n c
  opened : c.shared.available.closed = false
  ceiling : c.shared.available.ceiling = wordMax
  total : c.shared.tokensFrom 0 = c.shared.idleAdvertisements +
    tally (Caller.scansFrom n 0) c.callers + tally Caller.between c.callers

/-- Whoever looks for a worker scans the slots from the first one on. -/
theorem Caller.looking_eq (n : Nat) (caller : Caller) : caller.looking = caller.scansFrom n 0 := by
  cases caller with
  | claiming pos => cases pos <;> simp [Caller.looking, Caller.scansFrom]
  | _ => rfl

theorem accounted_of_begins {callers : List Caller} (hbegin : ∀ caller ∈ callers, caller.Begins) :
    Accounted n ⟨.ofWorkers n, callers⟩ := by
  have hscanning : Scanning n ⟨.ofWorkers n, callers⟩ := scanning_of_begins hbegin
  have htokens : (ofWorkers n).tokensFrom 0 = 0 :=
    tally_eq_zero fun w s hs => by
      rw [ofWorkers, List.drop_zero, List.getElem?_replicate] at hs
      split_ifs at hs
      exact Option.some.inj hs ▸ rfl
  have hwhole := hscanning.covered.whole
  refine ⟨hscanning, rfl, rfl, ?_⟩
  simp only [htokens, idleAdvertisements] at hwhole ⊢
  omega

theorem Accounted.tokens_le (h : Accounted n c) : c.shared.tokensFrom 0 ≤ n :=
  h.scanning.size ▸ h.scanning.covered.tokensFrom_le

/-- **Room for every offer.** Whoever has put down its token can raise the aggregate. -/
theorem Accounted.room (h : Accounted n c) (hn : n ≤ wordMax) {worker : Nat}
    (hi : c.callers[i]? = some (.advertising worker .aggregate)) :
    c.shared.available.permits < c.shared.available.ceiling := by
  have htokens := h.tokens_le
  have hbetween : 1 ≤ tally Caller.between c.callers := le_tally (f := Caller.between) hi
  rw [h.total, idleAdvertisements] at htokens
  rw [h.ceiling]
  omega

/-- **An offer fails at its own token or not at all.** -/
theorem Accounted.offer_fails (h : Accounted n c) (hn : n ≤ wordMax) {worker : Nat}
    {pos : Advertising} {f : Fault} {p' : Pool}
    (hi : c.callers[i]? = some (.advertising worker pos))
    (hoffer : Offers c.shared worker pos (.ended (.error f)) p') :
    pos = .token ∧ p' = c.shared ∧ (f = .violation worker .noSuchWorker ∧ n ≤ worker ∨
      f = .violation worker .stillClaimable ∧ worker < n ∧ c.shared.token worker = 1) := by
  have hsize := h.scanning.size
  cases hoffer with
  | unknown hs =>
      exact ⟨rfl, rfl, .inl ⟨rfl, hsize ▸ List.getElem?_eq_none_iff.1 hs⟩⟩
  | @claimable s hs hfull =>
      have hquiet := h.scanning.covered.quiet worker s hs
      have hsingle := hquiet.single
      rw [hquiet.binary] at hfull
      refine ⟨rfl, rfl, .inr ⟨rfl, hsize ▸ (List.getElem?_eq_some_iff.1 hs).1, ?_⟩⟩
      rw [token_of_slot hs]
      omega
  | full hfull => exact absurd (h.room hn hi) (Nat.not_lt.2 hfull)

/-- **A search never fails.** -/
theorem Accounted.search_goes_on (h : Accounted n c) {pos : Claiming}
    {progress : Progress Claiming (Except Fault Nat)} {p' : Pool}
    (hi : c.callers[i]? = some (.claiming pos)) (hclaim : Claims c.shared pos progress p')
    (hstep : c.step? conduct i =
      some ⟨p', c.callers.set i (progress.within .claiming .claimed)⟩) (f : Fault) :
    progress ≠ .ended (.error f) := by
  rintro rfl
  cases hnext : pos.next? n with
  | some w =>
      -- past the aggregate there is a token ahead
      have hlt := (List.getElem?_eq_some_iff.1 hi).1
      obtain ⟨c', hstep', hgoes⟩ := h.scanning.advance hi hnext
      obtain rfl := Option.some.inj (hstep.symm.trans hstep')
      rw [List.getElem?_set_self hlt] at hgoes
      rcases hgoes with hgoes | ⟨pos', hgoes, -⟩ <;> cases hgoes
  | none =>
      cases pos with
      | probing w => cases hnext
      | last position => cases hnext
      | aggregate position =>
          generalize hend : (.ended (.error f) : Progress Claiming (Except Fault Nat)) = progress
            at hclaim
          cases hclaim with
          | waits hacq => cases hend
          | admitted hacq =>
              -- the permit stood for a token, so there is a slot
              have hpermits := Semaphore.acquire?_permits hacq
              have htokens := h.tokens_le
              rw [h.total, idleAdvertisements, ← hpermits, Semaphore.served] at htokens
              obtain ⟨pos', hscan⟩ := exists_scan_onward (p := c.shared) (w := 0)
                (by rw [h.scanning.size]; omega)
              rw [hscan] at hend
              cases hend
          | refused hacq =>
              have hclosed := (Semaphore.acquire?_fault hacq).2
              rw [h.opened] at hclosed
              cases hclosed

/-- **One step** keeps the account. -/
theorem Accounted.step (h : Accounted n c) (hn : n ≤ wordMax)
    (hstep : c.step? conduct i = some c') : Accounted n c' := by
  have hscanning := h.scanning.step hstep
  have htotal := h.total
  have hsize := h.scanning.size
  rcases h.scanning.step_cases hstep with ⟨worker, pos, outcome, p', hi, hoffer, rfl⟩ |
    ⟨pos, progress, p', hi, hclaim, rfl⟩
  · have hscans : tally (Caller.scansFrom n 0)
        (c.callers.set i (outcome.within (.advertising worker) (.advertised worker))) =
          tally (Caller.scansFrom n 0) c.callers := tally_set_of_eq hi (by cases outcome <;> rfl)
    have hbefore := tally_eq_add (f := Caller.between) hi
    have hafter := tally_set_eq_add (f := Caller.between) hi
      (outcome.within (.advertising worker) (.advertised worker))
    rw [Caller.between_within] at hafter
    refine ⟨hscanning, ?_, hoffer.ceiling_eq.trans h.ceiling, ?_⟩
    · cases hoffer <;> exact h.opened
    · simp only [hscans, hafter, idleAdvertisements]
      rw [hbefore, Caller.between, idleAdvertisements] at htotal
      by_cases hfails : ∃ f, outcome = .ended (.error f)
      · obtain ⟨f, rfl⟩ := hfails
        obtain ⟨rfl, rfl, -⟩ := h.offer_fails hn hi hoffer
        exact htotal
      · have hbalance := hoffer.balance fun f hf => hfails ⟨f, hf⟩
        omega
  · have hbetween : tally Caller.between (c.callers.set i (progress.within .claiming .claimed)) =
        tally Caller.between c.callers := tally_set_of_eq hi (by cases progress <;> rfl)
    have hbefore := scans_eq_add (n := n) hi 0
    have hafter := tally_set_eq_add (f := Caller.scansFrom n 0) hi
      (progress.within .claiming .claimed)
    rw [Caller.scansFrom_within] at hafter
    refine ⟨hscanning, ?_, hclaim.ceiling_eq.trans h.ceiling, ?_⟩
    · cases hclaim with
      | waits hacq => exact (Semaphore.acquire?_closed_eq hacq).trans h.opened
      | admitted hacq => exact (Semaphore.acquire?_closed_eq hacq).trans h.opened
      | refused hacq => exact (Semaphore.acquire?_closed_eq hacq).trans h.opened
      | _ => exact h.opened
    · have hbalance := hclaim.balance (h.search_goes_on hi hclaim hstep)
      simp only [hbetween, hafter, idleAdvertisements]
      rw [hbefore, idleAdvertisements] at htotal
      rw [hsize] at hbalance
      omega

/-! ## §3 — offers that fail -/

/-- **What a call that has failed can say for itself**, and one that has not begun: `past` is what
has happened, `i` the caller. -/
def Caller.Harmless (n : Nat) (past : List (Happening (Crowd Pool Caller) Nat)) (i : Nat) :
    Caller → Prop
  | .advertising _ .token => ∀ x ∈ past, x.move ≠ i
  | .advertised w (.error f) =>
    (f = .violation w .noSuchWorker ∧ n ≤ w ∨ f = .violation w .stillClaimable ∧ w < n ∧
      ∃ x ∈ past, x.move = i ∧ x.before.shared.token w = 1) ∧
    ∀ x ∈ past, x.move = i → x.after.shared = x.before.shared
  | .claimed (.error _) => False
  | _ => True

/-- What is said of a call stays true when somebody else makes a step. -/
theorem Caller.Harmless.append {past : List (Happening (Crowd Pool Caller) Nat)}
    {x : Happening (Crowd Pool Caller) Nat} {caller : Caller} (h : caller.Harmless n past i)
    (hx : x.move ≠ i) : caller.Harmless n (past ++ [x]) i := by
  have hcases : ∀ {y}, y ∈ past ++ [x] → y.move = i → y ∈ past := by
    intro y hy hmove
    rcases List.mem_append.1 hy with hy | hy
    · exact hy
    · obtain rfl := List.mem_singleton.1 hy
      exact absurd hmove hx
  unfold Caller.Harmless at h ⊢
  split at h
  · exact fun y hy hmove => h y (hcases hy hmove) hmove
  · obtain ⟨hwhy, hkept⟩ := h
    refine ⟨hwhy.imp_right fun ⟨hf, hw, y, hy, hlies⟩ => ?_,
      fun y hy hmove => hkept y (hcases hy hmove) hmove⟩
    exact ⟨hf, hw, y, List.mem_append_left _ hy, hlies⟩
  · exact h
  · trivial

/-- **A step** leaves its caller harmless. -/
theorem Accounted.harmless_step (h : Accounted n c) (hn : n ≤ wordMax)
    {past : List (Happening (Crowd Pool Caller) Nat)} (hstep : c.step? conduct i = some c')
    (hbefore : ∀ caller, c.callers[i]? = some caller → caller.Harmless n past i) {caller : Caller}
    (hi' : c'.callers[i]? = some caller) : caller.Harmless n (past ++ [⟨c, i, c'⟩]) i := by
  rcases h.scanning.step_cases hstep with ⟨worker, pos, outcome, p', hi, hoffer, rfl⟩ |
    ⟨pos, progress, p', hi, hclaim, rfl⟩ <;>
    rw [List.getElem?_set_self (List.getElem?_eq_some_iff.1 hi).1] at hi' <;>
    obtain rfl := Option.some.inj hi'
  · match outcome, hoffer with
    | .onward .token, hoffer => cases hoffer
    | .onward .aggregate, _ => trivial
    | .ended (.ok _), _ => trivial
    | .ended (.error f), hoffer =>
        obtain ⟨rfl, rfl, hwhy⟩ := h.offer_fails hn hi hoffer
        -- the call had not begun, so this is its only step
        have hfirst : ∀ x ∈ past, x.move ≠ i := hbefore _ hi
        refine ⟨hwhy.imp_right fun ⟨hf, hw, hlies⟩ =>
          ⟨hf, hw, _, List.mem_concat_self, rfl, hlies⟩, fun x hx hmove => ?_⟩
        rcases List.mem_append.1 hx with hx | hx
        · exact absurd hmove (hfirst x hx)
        · obtain rfl := List.mem_singleton.1 hx
          rfl
  · match progress with
    | .onward pos' => trivial
    | .ended (.ok w) => trivial
    | .ended (.error f) => exact absurd rfl (h.search_goes_on hi hclaim hstep f)

/-! ## The theorem -/

theorem accounted_of_runs (hn : n ≤ wordMax) {callers : List Caller}
    (hbegin : ∀ caller ∈ callers, caller.Begins)
    {past : List (Happening (Crowd Pool Caller) Nat)}
    (hruns : Runs (Crowd.step? conduct) ⟨.ofWorkers n, callers⟩ past c) :
    Accounted n c ∧ (∀ w, Tended (c.shared.token w) (past.filterMap (touched? w))) ∧
      ∀ (i : Nat) (caller : Caller), c.callers[i]? = some caller →
        caller.Harmless n past i := by
  induction hruns with
  | start =>
      refine ⟨accounted_of_begins hbegin, fun w => ⟨rfl, ?_⟩, fun i caller hi => ?_⟩
      · rw [token]
        simp only [ofWorkers, List.getElem?_replicate]
        split_ifs <;> rfl
      · have hb := hbegin caller (List.mem_of_getElem? hi)
        unfold Caller.Begins at hb
        split at hb
        · exact fun x hx => absurd hx List.not_mem_nil
        · trivial
        · exact absurd hb id
  | @more past c₁ c₂ i hruns hstep ih =>
      obtain ⟨haccounted, htended, hharmless⟩ := ih
      refine ⟨haccounted.step hn hstep, fun w => ?_, fun j caller hj => ?_⟩
      · rw [filterMap_concat]
        exact (htended w).change (haccounted.scanning.changes hstep w)
      · by_cases hij : i = j
        · subst hij
          exact haccounted.harmless_step hn hstep (hharmless i) hj
        · rw [Crowd.step?_other hstep hij] at hj
          exact (hharmless j caller hj).append hij

/-- **No offer is lost, and none is taken up twice.** Take a pool of `n` workers that nobody closes,
any number of offers and searches, and any interleaving of their sections. The tokens that lie in
the slots are as many as the aggregate counts, the searches that are past the aggregate and have no
worker yet, and the offers between their two releases, so that the aggregate never counts more than
`n`. The token of each worker is put down and taken in turn, and lies there once or not at all. An
offer that has failed, because there is no such worker or because its token still lay there, has
changed nothing, and no search ever fails. -/
theorem offers_taken_once {n : Nat} (hn : n ≤ wordMax) {callers : List Caller}
    (hbegin : ∀ caller ∈ callers, caller.Begins) {schedule : List Nat} {c : Crowd Pool Caller}
    (hrun : Crowd.run? conduct schedule ⟨.ofWorkers n, callers⟩ = some c) :
    let past := course (Crowd.step? conduct) schedule ⟨.ofWorkers n, callers⟩
    tally (·.permits) c.shared.slots = c.shared.idleAdvertisements +
      tally Caller.looking c.callers + tally Caller.between c.callers ∧
    c.shared.idleAdvertisements ≤ n ∧
    (∀ w, let history := past.filterMap (touched? w)
      history = inTurn history.length ∧
      history.count .putDown = history.count .taken + c.shared.token w ∧
      c.shared.token w ≤ 1) ∧
    (∀ (i w : Nat) (f : Fault), c.callers[i]? = some (.advertised w (.error f)) →
      (f = .violation w .noSuchWorker ∧ n ≤ w ∨ f = .violation w .stillClaimable ∧ w < n ∧
        ∃ x ∈ past, x.move = i ∧ x.before.shared.token w = 1) ∧
      ∀ x ∈ past, x.move = i → x.after.shared = x.before.shared) ∧
    ∀ (i : Nat) (f : Fault), c.callers[i]? ≠ some (.claimed (.error f)) := by
  intro past
  obtain ⟨haccounted, htended, hharmless⟩ :=
    accounted_of_runs hn hbegin (runs_of_run? (fun _ => rfl) (fun _ _ _ => rfl) hrun)
  have htotal := haccounted.total
  have htokens := haccounted.tokens_le
  refine ⟨?_, by omega, fun w => ?_, fun i w f hi => hharmless i _ hi,
    fun i f hi => hharmless i _ hi⟩
  · rw [tokensFrom, List.drop_zero] at htotal
    rw [htotal, tally_congr (f := Caller.looking) fun caller _ => caller.looking_eq n]
  · have hlies := (htended w).lies
    exact ⟨(htended w).turns, (htended w).count, by omega⟩

/-- Worker 1 offers itself, and once more while its token still lies there; a worker 5 does not
exist. The first customer is past the aggregate when worker 0 has put its token down, and the second
one comes before worker 0 has raised the aggregate. -/
theorem offers_taken_once_between :
    let callers : List Caller := [.advertising 1 .token, .advertising 1 .token,
      .advertising 5 .token, .claiming .start, .advertising 0 .token, .claiming .start]
    (∀ caller ∈ callers, caller.Begins) ∧
      ∃ c, Crowd.run? conduct [0, 0, 1, 2, 3, 4, 5] ⟨.ofWorkers 2, callers⟩ = some c ∧
        c.callers[1]? = some (.advertised 1 (.error (.violation 1 .stillClaimable))) ∧
        c.callers[2]? = some (.advertised 5 (.error (.violation 5 .noSuchWorker))) ∧
        tally Caller.looking c.callers = 1 ∧ tally Caller.between c.callers = 1 ∧
        tally (·.permits) c.shared.slots = c.shared.idleAdvertisements + 1 + 1 := by
  intro callers
  have hbegin : ∀ caller ∈ callers, caller.Begins := by
    simp [callers, Caller.Begins, Claiming.start]
  obtain ⟨c, hrun, hclaimable, hunknown, hlooking, hbetween⟩ : ∃ c,
      Crowd.run? conduct [0, 0, 1, 2, 3, 4, 5] ⟨.ofWorkers 2, callers⟩ = some c ∧
        c.callers[1]? = some (.advertised 1 (.error (.violation 1 .stillClaimable))) ∧
        c.callers[2]? = some (.advertised 5 (.error (.violation 5 .noSuchWorker))) ∧
        tally Caller.looking c.callers = 1 ∧ tally Caller.between c.callers = 1 :=
    ⟨_, rfl, rfl, rfl, rfl, rfl⟩
  obtain ⟨htotal, -⟩ := offers_taken_once (n := 2) (by decide) hbegin hrun
  rw [hlooking, hbetween] at htotal
  exact ⟨hbegin, c, hrun, hclaimable, hunknown, hlooking, hbetween, htotal⟩

end Crowd

end Postal.Pool

import Postal.Pool
import Postal.Proofs.Semaphore
import Postal.Proofs.Tally

/-!
# Tokens and scans of the pool.

Whoever got past the aggregate scans the slots in their order. The obvious count, as many tokens as
there are scans, does not keep a scan from running past its token: a worker may put its token down
behind it, and another scan may take the token that it was heading for. What is kept is the count
over **every suffix** of the slots: the scans that have only the slots from `q` on ahead of them are
never more than the tokens there (`Covered.ahead`). A scan enters the suffix from `q + 1` on only by
finding slot `q` empty, and then the suffix from `q` on has all its tokens beyond `q`.

## §1 — what one section of a search or an offer can do.
## §2 — tokens of a suffix, and the scans that are confined to it.
## §3 — the suffix invariant, step by step.
-/

namespace Postal.Pool

/-! ## §1 — one section -/

/-- **`Claims p pos progress p'`** — everything that the next section of a search can do. -/
inductive Claims (p : Pool) : Claiming → Progress Claiming (Except Fault Nat) → Pool → Prop
  | waits {pos pos' : Semaphore.Acquiring} {available : Semaphore}
      (h : p.available.acquire? pos = some (.onward pos', available)) :
      Claims p (.aggregate pos) (.onward (.aggregate pos')) { p with available }
  | admitted {pos : Semaphore.Acquiring} {ticket : Nat} {available : Semaphore}
      (h : p.available.acquire? pos = some (.ended (.ok ticket), available)) :
      Claims p (.aggregate pos) (p.scan 0) { p with available }
  | refused {pos : Semaphore.Acquiring} {f : Fault} {available : Semaphore}
      (h : p.available.acquire? pos = some (.ended (.error f), available)) :
      Claims p (.aggregate pos) (.ended (.error f)) { p with available }
  | missed {w : Nat} {s : Semaphore} (hs : p.slots[w]? = some s)
      (h : s.tryAcquire = (false, s)) : Claims p (.probing w) (p.scan (w + 1)) p
  | took {w : Nat} {s s' : Semaphore} (hs : p.slots[w]? = some s)
      (h : s.tryAcquire = (true, s')) : Claims p (.probing w) (.ended (.ok w)) (p.setSlot w s')
  | lastWaits {pos pos' : Semaphore.Acquiring} {s s' : Semaphore}
      (hs : p.slots[p.size - 1]? = some s) (h : s.acquire? pos = some (.onward pos', s')) :
      Claims p (.last pos) (.onward (.last pos')) (p.setSlot (p.size - 1) s')
  | lastTook {pos : Semaphore.Acquiring} {s s' : Semaphore} {ticket : Nat}
      (hs : p.slots[p.size - 1]? = some s)
      (h : s.acquire? pos = some (.ended (.ok ticket), s')) :
      Claims p (.last pos) (.ended (.ok (p.size - 1))) (p.setSlot (p.size - 1) s')
  | lastRefused {pos : Semaphore.Acquiring} {s s' : Semaphore} {f : Fault}
      (hs : p.slots[p.size - 1]? = some s)
      (h : s.acquire? pos = some (.ended (.error f), s')) :
      Claims p (.last pos) (.ended (.error f)) (p.setSlot (p.size - 1) s')

/-- A slot that is put back as it was changes nothing. -/
theorem setSlot_self {p : Pool} {w : Nat} {s : Semaphore} (hs : p.slots[w]? = some s) :
    p.setSlot w s = p := by
  obtain ⟨hw, rfl⟩ := List.getElem?_eq_some_iff.1 hs
  rw [setSlot, List.set_getElem_self]

theorem claims_of_claim? {p p' : Pool} {pos : Claiming}
    {progress : Progress Claiming (Except Fault Nat)} (h : p.claim? pos = some (progress, p')) :
    Claims p pos progress p' := by
  cases pos with
  | aggregate pos =>
      simp only [claim?, Option.bind_eq_bind, Option.bind_eq_some_iff, Prod.exists] at h
      obtain ⟨progress₀, available, hacq, h⟩ := h
      split at h <;> obtain ⟨rfl, rfl⟩ := Prod.mk.inj (Option.some.inj h)
      · exact .waits hacq
      · exact .admitted hacq
      · exact .refused hacq
  | probing w =>
      simp only [claim?, Option.bind_eq_bind, Option.bind_eq_some_iff] at h
      obtain ⟨s, hs, h⟩ := h
      split at h <;> obtain ⟨rfl, rfl⟩ := Prod.mk.inj (Option.some.inj h)
      · next htry => exact .took hs htry
      · next s' htry =>
        cases Semaphore.tries_of_tryAcquire htry with
        | failed hf =>
            rw [setSlot_self hs]
            exact .missed hs htry
  | last pos =>
      simp only [claim?, Option.bind_eq_bind, Option.bind_eq_some_iff, Prod.exists] at h
      obtain ⟨s, hs, progress₀, s', hacq, h⟩ := h
      split at h <;> obtain ⟨rfl, rfl⟩ := Prod.mk.inj (Option.some.inj h)
      · exact .lastWaits hs hacq
      · exact .lastTook hs hacq
      · exact .lastRefused hs hacq

/-- **`Offers p worker pos progress p'`** — everything that the next section of an offer can do. -/
inductive Offers (p : Pool) (worker : Nat) :
    Advertising → Progress Advertising (Except Fault Unit) → Pool → Prop
  | unknown (h : p.slots[worker]? = none) :
      Offers p worker .token (.ended (.error (.violation worker .noSuchWorker))) p
  | claimable {s : Semaphore} (hs : p.slots[worker]? = some s) (h : s.ceiling ≤ s.permits) :
      Offers p worker .token (.ended (.error (.violation worker .stillClaimable))) p
  | putDown {s : Semaphore} (hs : p.slots[worker]? = some s) (h : s.permits < s.ceiling) :
      Offers p worker .token (.onward .aggregate)
        (p.setSlot worker { s with permits := s.permits + 1 })
  | full (h : p.available.ceiling ≤ p.available.permits) :
      Offers p worker .aggregate (.ended (.error (.overflow p.available.ceiling))) p
  | raised (h : p.available.permits < p.available.ceiling) :
      Offers p worker .aggregate (.ended (.ok ()))
        { p with available := { p.available with permits := p.available.permits + 1 } }

theorem offers_advertise (p : Pool) (worker : Nat) (pos : Advertising) :
    Offers p worker pos (p.advertise worker pos).1 (p.advertise worker pos).2 := by
  cases pos with
  | token =>
      cases hs : p.slots[worker]? with
      | none =>
          simp only [advertise, hs]
          exact .unknown hs
      | some s =>
          rcases Nat.lt_or_ge s.permits s.ceiling with h | h
          · simp only [advertise, hs, Semaphore.release_of_lt h]
            exact .putDown hs h
          · simp only [advertise, hs, Semaphore.release_of_le h]
            exact .claimable hs h
  | aggregate =>
      rcases Nat.lt_or_ge p.available.permits p.available.ceiling with h | h
      · simp only [advertise, Semaphore.release_of_lt h]
        exact .raised h
      · simp only [advertise, Semaphore.release_of_le h]
        exact .full h

/-! ## §2 — tokens and scans of a suffix -/

/-- **`p.tokensFrom q`** — the tokens that lie in the slots from `q` on. -/
def tokensFrom (p : Pool) (q : Nat) : Nat := tally (·.permits) (p.slots.drop q)

/-- The next slot that a search looks at, once it is past the aggregate. -/
def Claiming.next? (size : Nat) : Claiming → Option Nat
  | .aggregate _ => none
  | .probing worker => some worker
  | .last _ => some (size - 1)

/-- **`pos.scansFrom size q`** — whether the search is past the aggregate and has only slots from
`q` on ahead of it, as a weight. -/
def Claiming.scansFrom (size q : Nat) (pos : Claiming) : Nat :=
  match pos.next? size with
  | none => 0
  | some worker => if q ≤ worker then 1 else 0

/-- Whether a search waits for the aggregate with ticket `n`, as a weight. -/
def Claiming.holds (n : Nat) : Claiming → Nat
  | .aggregate pos => pos.holds n
  | _ => 0

/-- Whether an offer is between its two releases, as a weight. -/
def Advertising.between : Advertising → Nat
  | .token => 0
  | .aggregate => 1

/-- Whether the search is not queued at the last slot. -/
def Claiming.Unqueued : Claiming → Prop
  | .last (.queued _) => False
  | _ => True

@[simp] theorem scansFrom_aggregate (size q : Nat) (pos : Semaphore.Acquiring) :
    (Claiming.aggregate pos).scansFrom size q = 0 := rfl

@[simp] theorem scansFrom_probing (size q w : Nat) :
    (Claiming.probing w).scansFrom size q = if q ≤ w then 1 else 0 := rfl

@[simp] theorem scansFrom_last (size q : Nat) (pos : Semaphore.Acquiring) :
    (Claiming.last pos).scansFrom size q = if q ≤ size - 1 then 1 else 0 := rfl

/-- Whoever has only slots from `q + 1` on ahead has only slots from `q` on ahead. -/
theorem Claiming.scansFrom_succ_le (size q : Nat) (pos : Claiming) :
    pos.scansFrom size (q + 1) ≤ pos.scansFrom size q := by
  unfold Claiming.scansFrom
  split
  · exact Nat.le_refl _
  · split_ifs <;> omega

/-- A scan that goes on at slot `w` has the slots from `w` on ahead of it. -/
theorem scan_weigh {p : Pool} {w : Nat} (hw : w < p.size) (q : Nat) :
    (p.scan w).weigh (Claiming.scansFrom p.size q) = if q ≤ w then 1 else 0 := by
  by_cases hlast : w + 1 < p.size
  · rw [scan, if_pos hlast]
    rfl
  · have heq : w + 1 = p.size := by omega
    rw [scan, if_neg hlast, if_pos heq]
    show (if q ≤ p.size - 1 then 1 else 0) = _
    rw [show p.size - 1 = w by omega]

/-- Wherever a scan goes on, it is confined to no suffix that begins behind that slot. -/
theorem scan_weigh_le (p : Pool) (w q : Nat) :
    (p.scan w).weigh (Claiming.scansFrom p.size q) ≤ if q ≤ w then 1 else 0 := by
  by_cases hw : w < p.size
  · exact Nat.le_of_eq (scan_weigh hw q)
  · rw [scan, if_neg (by omega), if_neg (by omega)]
    exact Nat.zero_le _

/-- Where a scan goes on, it looks at that slot next and is not queued yet. -/
theorem scan_onward {p : Pool} {w : Nat} {pos : Claiming} (h : p.scan w = .onward pos) :
    pos.next? p.size = some w ∧ pos.Unqueued := by
  rw [scan] at h
  split_ifs at h with hw hlast
  · obtain rfl := Progress.onward.inj h
    exact ⟨rfl, trivial⟩
  · obtain rfl := Progress.onward.inj h
    exact ⟨by rw [Claiming.next?, ← hlast, Nat.add_sub_cancel], trivial⟩

/-- A scan goes on at every slot there is. -/
theorem exists_scan_onward {p : Pool} {w : Nat} (hw : w < p.size) :
    ∃ pos, p.scan w = .onward pos := by
  by_cases hlast : w + 1 < p.size
  · exact ⟨_, if_pos hlast⟩
  · exact ⟨.last .arriving, by rw [scan, if_neg hlast, if_pos (by omega)]⟩

/-- Where a scan goes on, it does not wait for the aggregate. -/
theorem scan_holds (p : Pool) (w n : Nat) : (p.scan w).weigh (Claiming.holds n) = 0 := by
  rw [scan]
  split_ifs <;> rfl

/-- A change of one slot changes the tokens of the suffixes that it lies in. -/
theorem tokensFrom_setSlot {p : Pool} {w : Nat} {s : Semaphore} (hs : p.slots[w]? = some s)
    (s' : Semaphore) (q : Nat) :
    (p.setSlot w s').tokensFrom q + (if q ≤ w then s.permits else 0) =
      p.tokensFrom q + (if q ≤ w then s'.permits else 0) := by
  unfold tokensFrom setSlot
  by_cases hq : q ≤ w
  · have hdrop : (p.slots.drop q)[w - q]? = some s := by
      rw [List.getElem?_drop, Nat.add_sub_cancel' hq, hs]
    rw [List.drop_set, if_neg (by omega), if_pos hq, if_pos hq]
    exact tally_set hdrop s'
  · rw [List.drop_set, if_pos (by omega), if_neg hq, if_neg hq]

/-- An acquisition at a slot takes its token if it serves the caller, and none otherwise. -/
theorem tokensFrom_acquire? {p : Pool} {w : Nat} {pos : Semaphore.Acquiring} {s s' : Semaphore}
    {progress : Progress Semaphore.Acquiring (Except Fault Nat)} (hs : p.slots[w]? = some s)
    (h : s.acquire? pos = some (progress, s')) :
    (p.setSlot w s').tokensFrom 0 + Semaphore.served progress = p.tokensFrom 0 := by
  have hpermits := Semaphore.acquire?_permits h
  have htokens := tokensFrom_setSlot hs s' 0
  simp only [Nat.zero_le, if_true] at htokens
  omega

/-- The tokens of a suffix are those of its first slot and those behind it. -/
theorem tokensFrom_eq_add {p : Pool} {q : Nat} {s : Semaphore} (hs : p.slots[q]? = some s) :
    p.tokensFrom q = s.permits + p.tokensFrom (q + 1) := by
  obtain ⟨hq, rfl⟩ := List.getElem?_eq_some_iff.1 hs
  unfold tokensFrom
  rw [List.drop_eq_getElem_cons hq, tally_cons]

theorem tokensFrom_of_size_le {p : Pool} {q : Nat} (h : p.size ≤ q) : p.tokensFrom q = 0 := by
  unfold tokensFrom
  rw [List.drop_of_length_le h, tally_nil]

/-- If a suffix has tokens then one of its slots does. -/
theorem exists_token {p : Pool} {q : Nat} (h : 0 < p.tokensFrom q) :
    ∃ w, q ≤ w ∧ w < p.size ∧ p.isClaimable w = true := by
  obtain ⟨i, s, hs, hpos⟩ := exists_of_tally_pos h
  rw [List.getElem?_drop] at hs
  refine ⟨q + i, by omega, ?_, ?_⟩
  · exact (List.getElem?_eq_some_iff.1 hs).1
  · rw [isClaimable, hs]
    exact decide_eq_true hpos

theorem size_pos {w : Nat} {s : Semaphore} (p : Pool) (hs : p.slots[w]? = some s) : 0 < p.size :=
  Nat.zero_lt_of_lt (List.getElem?_eq_some_iff.1 hs).1

@[simp] theorem size_setSlot (p : Pool) (w : Nat) (s : Semaphore) :
    (p.setSlot w s).size = p.size := by
  rw [size, setSlot, List.length_set, size]

/-- **`p.token w`** — how often the token of worker `w` lies there. -/
def token (p : Pool) (w : Nat) : Nat :=
  match p.slots[w]? with
  | some s => s.permits
  | none => 0

theorem token_of_slot {p : Pool} {w : Nat} {s : Semaphore} (hs : p.slots[w]? = some s) :
    p.token w = s.permits := by
  rw [token, hs]

theorem token_setSlot {p : Pool} {v : Nat} {s : Semaphore} (hs : p.slots[v]? = some s)
    (s' : Semaphore) (w : Nat) :
    (p.setSlot v s').token w = if v = w then s'.permits else p.token w := by
  have hv := (List.getElem?_eq_some_iff.1 hs).1
  split_ifs with h
  · subst h
    exact token_of_slot (List.getElem?_set_self hv)
  · rw [token, token, setSlot, List.getElem?_set_ne h]

/-! ## §3 — the suffix invariant -/

/-- **The balance of a search.** A section that does not end in a fault moves a unit between the
aggregate, the scans and the tokens, and loses none. -/
theorem Claims.balance {p p' : Pool} {pos : Claiming}
    {progress : Progress Claiming (Except Fault Nat)} (h : Claims p pos progress p')
    (hok : ∀ f, progress ≠ .ended (.error f)) :
    p'.available.permits + progress.weigh (Claiming.scansFrom p.size 0) + p.tokensFrom 0 =
      p.available.permits + pos.scansFrom p.size 0 + p'.tokensFrom 0 := by
  cases h with
  | waits h =>
      have hpermits := Semaphore.acquire?_permits h
      rw [← hpermits]
      rfl
  | admitted h =>
      have hpermits := Semaphore.acquire?_permits h
      have hsize : 0 < p.size := by
        by_contra hzero
        refine hok (.violation 0 .noWorkers) ?_
        rw [scan, if_neg (by omega), if_neg (by omega)]
      rw [scan_weigh hsize, ← hpermits]
      rfl
  | refused h => exact absurd rfl (hok _)
  | @missed w s hs h =>
      have hscan : w + 1 < p.size := by
        by_contra hend
        have hw := (List.getElem?_eq_some_iff.1 hs).1
        rw [size] at hend
        refine hok (.violation 0 .noWorkers) ?_
        rw [scan, if_neg (by rw [size]; omega), if_neg (by rw [size]; omega)]
      rw [scan_weigh hscan]
      simp
  | @took w s s' hs h =>
      have hpermits := Semaphore.tryAcquire_permits h
      have htokens := tokensFrom_setSlot hs s' 0
      simp only [Nat.zero_le, if_true, Bool.toNat_true] at htokens hpermits
      simp only [Progress.weigh, scansFrom_probing, Nat.zero_le, if_true, setSlot]
      rw [setSlot] at htokens
      omega
  | @lastWaits pos pos' s s' hs h =>
      have htokens := tokensFrom_acquire? hs h
      simp only [Semaphore.served] at htokens
      simp only [Progress.weigh, scansFrom_last, Nat.zero_le, if_true, setSlot]
      rw [setSlot] at htokens
      omega
  | @lastTook pos s s' ticket hs h =>
      have htokens := tokensFrom_acquire? hs h
      simp only [Semaphore.served] at htokens
      simp only [Progress.weigh, scansFrom_last, Nat.zero_le, if_true, setSlot]
      rw [setSlot] at htokens
      omega
  | lastRefused hs h => exact absurd rfl (hok _)

/-- A search that ends in a fault leaves the tokens alone and gives nothing to the aggregate. -/
theorem Claims.fault {p p' : Pool} {pos : Claiming}
    {progress : Progress Claiming (Except Fault Nat)} {f : Fault} (h : Claims p pos progress p')
    (hf : progress = .ended (.error f)) :
    p'.available.permits ≤ p.available.permits ∧ p'.tokensFrom 0 = p.tokensFrom 0 := by
  cases h with
  | waits h => cases hf
  | admitted h =>
      have hpermits := Semaphore.acquire?_permits h
      exact ⟨by rw [← hpermits]; exact Nat.le_add_right _ _, rfl⟩
  | refused h =>
      have hpermits := Semaphore.acquire?_permits h
      exact ⟨by rw [← hpermits]; exact Nat.le_add_right _ _, rfl⟩
  | missed hs h => exact ⟨Nat.le_refl _, rfl⟩
  | took hs h => cases hf
  | lastWaits hs h => cases hf
  | lastTook hs h => cases hf
  | @lastRefused pos s s' f' hs h =>
      exact ⟨Nat.le_refl _, tokensFrom_acquire? hs h⟩

/-- **The aggregate never promises more than there is**, whether or not the pool is closed. -/
theorem Claims.whole {p p' : Pool} {pos : Claiming}
    {progress : Progress Claiming (Except Fault Nat)} (h : Claims p pos progress p') :
    p'.available.permits + progress.weigh (Claiming.scansFrom p.size 0) + p.tokensFrom 0 ≤
      p.available.permits + pos.scansFrom p.size 0 + p'.tokensFrom 0 := by
  by_cases hok : ∃ f, progress = .ended (.error f)
  · obtain ⟨f, hf⟩ := hok
    obtain ⟨hpermits, htokens⟩ := h.fault hf
    rw [hf, htokens]
    simp only [Progress.weigh]
    omega
  · exact Nat.le_of_eq (h.balance fun f hf => hok ⟨f, hf⟩)

/-- **The balance of an offer.** A section that does not end in a fault puts a token down, or moves
the offer into the aggregate. -/
theorem Offers.balance {p p' : Pool} {worker : Nat} {pos : Advertising}
    {outcome : Progress Advertising (Except Fault Unit)} (h : Offers p worker pos outcome p')
    (hok : ∀ f, outcome ≠ .ended (.error f)) :
    p'.available.permits + outcome.weigh Advertising.between + p.tokensFrom 0 =
      p.available.permits + pos.between + p'.tokensFrom 0 := by
  cases h with
  | unknown hs => exact absurd rfl (hok _)
  | claimable hs hfull => exact absurd rfl (hok _)
  | @putDown s hs hroom =>
      have htokens := tokensFrom_setSlot hs { s with permits := s.permits + 1 } 0
      simp only [Nat.zero_le, if_true] at htokens
      show p.available.permits + 1 + _ = p.available.permits + 0 + _
      omega
  | full hfull => exact absurd rfl (hok _)
  | raised hroom => rfl

/-- An offer that ends in a fault leaves the pool alone. -/
theorem Offers.fault {p p' : Pool} {worker : Nat} {pos : Advertising} {f : Fault}
    (h : Offers p worker pos (.ended (.error f)) p') : p' = p := by
  cases h <;> rfl

/-- An offer puts its token down before it raises the aggregate. -/
theorem Offers.whole {p p' : Pool} {worker : Nat} {pos : Advertising}
    {outcome : Progress Advertising (Except Fault Unit)} (h : Offers p worker pos outcome p') :
    p'.available.permits + outcome.weigh Advertising.between + p.tokensFrom 0 ≤
      p.available.permits + pos.between + p'.tokensFrom 0 := by
  by_cases hok : ∃ f, outcome = .ended (.error f)
  · obtain ⟨f, rfl⟩ := hok
    rw [h.fault]
    simp only [Progress.weigh]
    omega
  · exact Nat.le_of_eq (h.balance fun f hf => hok ⟨f, hf⟩)

theorem Claims.ceiling_eq {p p' : Pool} {pos : Claiming}
    {progress : Progress Claiming (Except Fault Nat)} (h : Claims p pos progress p') :
    p'.available.ceiling = p.available.ceiling := by
  cases h with
  | waits h => exact Semaphore.acquire?_ceiling_eq h
  | admitted h => exact Semaphore.acquire?_ceiling_eq h
  | refused h => exact Semaphore.acquire?_ceiling_eq h
  | _ => rfl

theorem Offers.ceiling_eq {p p' : Pool} {worker : Nat} {pos : Advertising}
    {outcome : Progress Advertising (Except Fault Unit)} (h : Offers p worker pos outcome p') :
    p'.available.ceiling = p.available.ceiling := by
  cases h <;> rfl

theorem Claims.size_eq {p p' : Pool} {pos : Claiming}
    {progress : Progress Claiming (Except Fault Nat)} (h : Claims p pos progress p') :
    p'.size = p.size := by
  cases h <;> simp [size, setSlot]

/-- **The line in front of the aggregate** is kept by a search; `others` are the tickets of
everybody else. -/
theorem Claims.lined {p p' : Pool} {pos : Claiming}
    {progress : Progress Claiming (Except Fault Nat)} {line line' others : Nat → Nat}
    (h : Claims p pos progress p') (hlined : p.available.Lined line)
    (hline : ∀ n, line n = others n + pos.holds n)
    (hline' : ∀ n, line' n = others n + progress.weigh (Claiming.holds n)) :
    p'.available.Lined line' := by
  cases h with
  | waits hacq => exact hlined.acquire? hacq hline hline'
  | admitted hacq =>
      refine hlined.acquire? hacq hline fun n => ?_
      rw [hline' n, scan_holds]
      rfl
  | refused hacq => exact hlined.acquire? hacq hline hline'
  | missed hs htry =>
      refine hlined.congr (fun n => ?_) rfl rfl rfl
      rw [hline' n, hline n, scan_holds]
      rfl
  | took hs htry => exact hlined.congr (fun n => (hline' n).trans (hline n).symm) rfl rfl rfl
  | lastWaits hs hacq => exact hlined.congr (fun n => (hline' n).trans (hline n).symm) rfl rfl rfl
  | lastTook hs hacq => exact hlined.congr (fun n => (hline' n).trans (hline n).symm) rfl rfl rfl
  | lastRefused hs hacq =>
      exact hlined.congr (fun n => (hline' n).trans (hline n).symm) rfl rfl rfl

/-- An offer leaves the line in front of the aggregate alone. -/
theorem Offers.lined {p p' : Pool} {worker : Nat} {pos : Advertising}
    {outcome : Progress Advertising (Except Fault Unit)} {line : Nat → Nat}
    (h : Offers p worker pos outcome p') (hlined : p.available.Lined line) :
    p'.available.Lined line := by
  cases h with
  | raised hroom => exact hlined.congr (fun _ => rfl) rfl rfl rfl
  | _ => exact hlined

theorem Offers.size_eq {p p' : Pool} {worker : Nat} {pos : Advertising}
    {outcome : Progress Advertising (Except Fault Unit)} (h : Offers p worker pos outcome p') :
    p'.size = p.size := by
  cases h <;> simp [size, setSlot]

/-- **A quiet token**: open, nobody queued for it, and at most once there. -/
structure Quiet (s : Semaphore) : Prop where
  opened : s.closed = false
  unqueued : s.nowServing = s.nextTicket
  binary : s.ceiling = 1
  single : s.permits ≤ 1

theorem Quiet.tryAcquire {s s' : Semaphore} {taken : Bool} (h : Quiet s)
    (htry : s.tryAcquire = (taken, s')) : Quiet s' := by
  have hpermits := Semaphore.tryAcquire_permits htry
  have hsingle := h.single
  cases Semaphore.tries_of_tryAcquire htry with
  | failed hf => exact h
  | took hc hp hq => exact ⟨hc, congrArg (· + 1) h.unqueued, h.binary, by omega⟩

theorem Quiet.release {s : Semaphore} (h : Quiet s) (hroom : s.permits < s.ceiling) :
    Quiet { s with permits := s.permits + 1 } :=
  ⟨h.opened, h.unqueued, h.binary, by rw [h.binary] at hroom; exact hroom⟩

/-- **`p.Covered scans offers`** — in a pool that is open, with `scans q` scans that have only slots
from `q` on ahead of them and `offers` offers between their two releases: every token is
quiet, the aggregate stands for tokens that are there, and **no suffix has fewer tokens than scans
that are confined to it**. -/
structure Covered (p : Pool) (scans : Nat → Nat) (offers : Nat) : Prop where
  quiet : ∀ (w : Nat) (s : Semaphore), p.slots[w]? = some s → Quiet s
  whole : p.available.permits + scans 0 + offers ≤ p.tokensFrom 0
  ahead : ∀ q, scans q ≤ p.tokensFrom q

/-- A pool of which nothing has been asked is covered. -/
theorem covered_ofWorkers (n : Nat) : (ofWorkers n).Covered (fun _ => 0) 0 where
  quiet w s hs := by
    simp only [ofWorkers, List.getElem?_replicate] at hs
    split at hs
    · exact Option.some.inj hs ▸ ⟨rfl, rfl, rfl, Nat.zero_le _⟩
    · exact absurd hs (by simp)
  whole := Nat.zero_le _
  ahead _ := Nat.zero_le _

section Covered

variable {p p' : Pool} {scans scans' others : Nat → Nat} {offers : Nat} {pos : Claiming}
  {progress : Progress Claiming (Except Fault Nat)}

/-- **A token ahead.** Whoever is past the aggregate has a token in the slots ahead of it. -/
theorem Covered.token_ahead (h : p.Covered scans offers)
    (hscans : ∀ q, scans q = others q + pos.scansFrom p.size q) {w : Nat}
    (hw : pos.next? p.size = some w) : 0 < p.tokensFrom w := by
  have hahead := h.ahead w
  have hself : pos.scansFrom p.size w = 1 := by
    rw [Claiming.scansFrom, hw]
    exact if_pos (Nat.le_refl _)
  rw [hscans w, hself] at hahead
  omega

/-- **The last slot never keeps anybody waiting**: its token is there, and nobody is queued for it.
-/
theorem Covered.last (h : p.Covered scans offers)
    (hscans : ∀ q, scans q = others q + pos.scansFrom p.size q) (hsize : 0 < p.size)
    {position : Semaphore.Acquiring} (hpos : pos = .last position) :
    ∃ s, p.slots[p.size - 1]? = some s ∧ s.closed = false ∧ s.nowServing = s.nextTicket ∧
      0 < s.permits := by
  have htoken := h.token_ahead hscans (w := p.size - 1) (by rw [hpos]; rfl)
  obtain ⟨s, hs⟩ : ∃ s, p.slots[p.size - 1]? = some s := by
    rw [size] at hsize ⊢
    exact ⟨_, List.getElem?_eq_getElem (by omega)⟩
  rw [tokensFrom_eq_add hs, tokensFrom_of_size_le (by omega)] at htoken
  exact ⟨s, hs, (h.quiet _ s hs).opened, (h.quiet _ s hs).unqueued, htoken⟩

theorem Covered.last_not_waiting (h : p.Covered scans offers)
    {position position' : Semaphore.Acquiring} {s s' : Semaphore}
    (hscans : ∀ q, scans q = others q + (Claiming.last position).scansFrom p.size q)
    (hs : p.slots[p.size - 1]? = some s) :
    s.acquire? position ≠ some (.onward position', s') := by
  intro hacq
  obtain ⟨t, ht, hc, hn, hp⟩ := h.last hscans (p.size_pos hs) rfl
  obtain rfl := Option.some.inj (hs.symm.trans ht)
  cases Semaphore.acquires_of_acquire? hacq with
  | queues hc hg =>
      have hzero := hg hn
      omega

/-- The slots stay quiet when one of them is replaced by a quiet one. -/
theorem Covered.quiet_setSlot (h : p.Covered scans offers) (w : Nat) {s' : Semaphore}
    (hs' : Quiet s') (v : Nat) (s : Semaphore) (hs : (p.setSlot w s').slots[v]? = some s) :
    Quiet s := by
  rw [setSlot, List.getElem?_set] at hs
  split_ifs at hs with hv hlt
  · exact Option.some.inj hs ▸ hs'
  · exact h.quiet v s hs

/-- A slot at which an attempt fails has no token. -/
theorem Covered.empty_of_missed (h : p.Covered scans offers) {w : Nat} {s : Semaphore}
    (hs : p.slots[w]? = some s) (htry : s.tryAcquire = (false, s)) : s.permits = 0 := by
  have hquiet := h.quiet w s hs
  cases Semaphore.tries_of_tryAcquire htry with
  | failed hf =>
      rw [hquiet.opened, Semaphore.queued, hquiet.unqueued, Nat.sub_self] at hf
      simpa using hf

/-- **A miss** confines the search to a suffix that has as many tokens as the one before. -/
theorem Covered.ahead_of_missed (h : p.Covered scans offers) {w : Nat} {s : Semaphore}
    (hs : p.slots[w]? = some s) (htry : s.tryAcquire = (false, s))
    (hanti : ∀ q, others (q + 1) ≤ others q)
    (hscans : ∀ q, scans q = others q + (Claiming.probing w).scansFrom p.size q) (q : Nat) :
    others q + (p.scan (w + 1)).weigh (Claiming.scansFrom p.size q) ≤ p.tokensFrom q := by
  have hempty := h.empty_of_missed hs htry
  have hscan := scan_weigh_le p (w + 1) q
  rcases Nat.lt_trichotomy q (w + 1) with hq | rfl | hq
  · -- the scan was confined to this suffix before
    have hahead := h.ahead q
    rw [hscans q, scansFrom_probing, if_pos (by omega)] at hahead
    rw [if_pos (by omega)] at hscan
    omega
  · -- the scan is new in this suffix, and the suffix before it has no token at its first slot
    have hahead := h.ahead w
    have hless := hanti w
    rw [hscans w, scansFrom_probing, if_pos (Nat.le_refl _), tokensFrom_eq_add hs, hempty]
      at hahead
    rw [if_pos (Nat.le_refl _)] at hscan
    omega
  · have hahead := h.ahead q
    rw [hscans q, scansFrom_probing, if_neg (by omega)] at hahead
    rw [if_neg (by omega)] at hscan
    omega

/-- **A token that is taken** goes away together with the scan that was confined to it. -/
theorem Covered.ahead_of_took (h : p.Covered scans offers) {w : Nat} {s s' : Semaphore}
    (hs : p.slots[w]? = some s) (hpermits : s'.permits + 1 = s.permits)
    (hscans : ∀ q, scans q = others q + if q ≤ w then 1 else 0) (q : Nat) :
    others q ≤ (p.setSlot w s').tokensFrom q := by
  have hahead := h.ahead q
  have htokens := tokensFrom_setSlot hs s' q
  rw [hscans q] at hahead
  split_ifs at hahead htokens <;> omega

/-- **A search keeps the suffix invariant.** `others` are the scans of everybody else. -/
theorem Covered.claim (h : p.Covered scans offers) (hstep : Claims p pos progress p')
    (hunqueued : pos.Unqueued) (hanti : ∀ q, others (q + 1) ≤ others q)
    (hscans : ∀ q, scans q = others q + pos.scansFrom p.size q)
    (hscans' : ∀ q, scans' q = others q + progress.weigh (Claiming.scansFrom p.size q)) :
    p'.Covered scans' offers := by
  have hwhole' : p'.available.permits + scans' 0 + offers ≤ p'.tokensFrom 0 := by
    have hwhole := h.whole
    have hclaim := hstep.whole
    rw [hscans 0] at hwhole
    rw [hscans' 0]
    omega
  -- the first bound holds after every section; the suffixes are looked at one section at a time
  cases hstep with
  | waits hacq =>
      refine ⟨h.quiet, hwhole', fun q => ?_⟩
      have hahead := h.ahead q
      rw [hscans q] at hahead
      rw [hscans' q]
      exact hahead
  | admitted hacq =>
      refine ⟨h.quiet, hwhole', fun q => ?_⟩
      cases q with
      | zero =>
          -- the permit of the aggregate stood for a token
          exact Nat.le_trans (by omega) hwhole'
      | succ q =>
          have hahead := h.ahead (q + 1)
          have hscan := scan_weigh_le p 0 (q + 1)
          rw [if_neg (by omega)] at hscan
          rw [hscans (q + 1)] at hahead
          rw [hscans' (q + 1)]
          exact Nat.le_trans (by omega) hahead
  | refused hacq =>
      refine ⟨h.quiet, hwhole', fun q => ?_⟩
      have hahead := h.ahead q
      rw [hscans q] at hahead
      rw [hscans' q]
      exact hahead
  | @missed w s hs htry =>
      refine ⟨h.quiet, hwhole', fun q => ?_⟩
      rw [hscans' q]
      exact h.ahead_of_missed hs htry hanti hscans q
  | @took w s s' hs htry =>
      refine ⟨h.quiet_setSlot w ((h.quiet w s hs).tryAcquire htry), hwhole', fun q => ?_⟩
      rw [hscans' q]
      exact h.ahead_of_took hs (Semaphore.tryAcquire_permits htry) hscans q
  | lastWaits hs hacq => exact absurd hacq (h.last_not_waiting hscans hs)
  | @lastTook position s s' ticket hs hacq =>
      have hquiet := h.quiet _ s hs
      refine ⟨h.quiet_setSlot _ ?_, hwhole', fun q => ?_⟩
      · cases Semaphore.acquires_of_acquire? hacq with
        | servedAtOnce hc hn hp =>
            exact ⟨hc, congrArg (· + 1) hn, hquiet.binary,
              Nat.le_trans (Nat.sub_le _ _) hquiet.single⟩
        | served ticket hc hn hp => exact absurd hunqueued id
      · rw [hscans' q]
        exact h.ahead_of_took hs (Semaphore.acquire?_permits hacq) hscans q
  | @lastRefused position s s' f hs hacq =>
      have hclosed := (Semaphore.acquire?_fault hacq).2
      rw [(h.quiet _ s hs).opened] at hclosed
      exact absurd hclosed (by decide)

/-- **Nobody is ever queued at the last slot.** -/
theorem Covered.claim_unqueued (h : p.Covered scans offers) (hstep : Claims p pos progress p')
    (hscans : ∀ q, scans q = others q + pos.scansFrom p.size q) {pos' : Claiming}
    (hpos' : progress = .onward pos') : pos'.Unqueued := by
  cases hstep with
  | waits hacq =>
      obtain rfl := Progress.onward.inj hpos'
      trivial
  | admitted hacq => exact (scan_onward hpos').2
  | refused hacq => cases hpos'
  | missed hs htry => exact (scan_onward hpos').2
  | took hs htry => cases hpos'
  | lastWaits hs hacq => exact absurd hacq (h.last_not_waiting hscans hs)
  | lastTook hs hacq => cases hpos'
  | lastRefused hs hacq => cases hpos'

/-- **An offer keeps the suffix invariant**: it adds a token before it raises the aggregate. -/
theorem Covered.advertise {worker : Nat} {offer : Advertising}
    {outcome : Progress Advertising (Except Fault Unit)} {offers' rest : Nat}
    (h : p.Covered scans offers) (hstep : Offers p worker offer outcome p')
    (hoffers : offers = rest + offer.between)
    (hoffers' : offers' = rest + outcome.weigh Advertising.between) : p'.Covered scans offers' := by
  have hwhole' : p'.available.permits + scans 0 + offers' ≤ p'.tokensFrom 0 := by
    have hwhole := h.whole
    have hoffer := hstep.whole
    omega
  cases hstep with
  | unknown hs => exact ⟨h.quiet, hwhole', h.ahead⟩
  | claimable hs hfull => exact ⟨h.quiet, hwhole', h.ahead⟩
  | @putDown s hs hroom =>
      refine ⟨h.quiet_setSlot worker ((h.quiet worker s hs).release hroom), hwhole', fun q => ?_⟩
      have htokens := tokensFrom_setSlot hs { s with permits := s.permits + 1 } q
      have hahead := h.ahead q
      dsimp only at htokens
      split_ifs at htokens <;> omega
  | full hfull => exact ⟨h.quiet, hwhole', h.ahead⟩
  | raised hroom => exact ⟨h.quiet, hwhole', h.ahead⟩

end Covered

end Postal.Pool

import Mathlib.Data.Finset.Max
import Postal.Proofs.Measure

/-!
# The pool as a set of idle workers.

As long as its callers come one after the other, the pool is a set: the workers that have offered
themselves and were not taken since. An offer puts its worker in, a search takes the least one out,
and it can go on if there is one. All the counters are in step with that set (`Stands`): the
aggregate counts it, each token lies there for its member, and no queue has anybody in it.

A search takes its worker in the scan, except the last one, for whom it waits. At that slot it does
not try but acquires, and it is served at once since nobody is queued there.

## §1 — a call that runs alone.
## §2 — what the counters have to do with the set.
## §3 — an offer.
## §4 — a search.
-/

namespace Postal.Pool

/-! ## §1 — a call that runs alone -/

/-- **`p.Goes caller q caller'`** — some sections, and nobody else's between them, lead `caller` at
the pool `p` to `caller'`, and the pool is `q` then. -/
inductive Goes : Pool → Caller → Pool → Caller → Prop
  | stay (p : Pool) (caller : Caller) : Goes p caller p caller
  | step {p p₁ q : Pool} {caller caller₁ caller' : Caller}
      (h : caller.step? p = some (caller₁, p₁)) (hrest : Goes p₁ caller₁ q caller') :
      Goes p caller q caller'

/-- **`p.alone caller`** — what a call comes to if nobody else calls the pool. -/
def alone (p : Pool) (caller : Caller) : Crowd Pool Caller :=
  ((Crowd.ofShared p).join caller).settle conduct

section Alone

variable {p p' q r : Pool} {caller caller' caller'' : Caller}

theorem Goes.trans (h : p.Goes caller q caller') (h' : q.Goes caller' r caller'') :
    p.Goes caller r caller'' := by
  induction h with
  | stay => exact h'
  | step hstep hrest ih => exact .step hstep (ih h')

/-- What is left of a search depends on the size of the pool only. -/
theorem Claiming.left_congr (h : p'.size = p.size) (pos : Claiming) : pos.left p' = pos.left p := by
  cases pos <;> simp only [Claiming.left, h]

theorem Offers.left_lt {worker : Nat} {pos : Advertising}
    {outcome : Progress Advertising (Except Fault Unit)} (h : Offers p worker pos outcome p') :
    (outcome.within (Caller.advertising worker) (.advertised worker)).left p' <
      (Caller.advertising worker pos).left p := by
  cases h <;> simp [Progress.within, Caller.left]

/-- **Every section** of a call leaves less of it. -/
theorem Caller.left_lt (h : caller.step? p = some (caller', p')) :
    caller'.left p' < caller.left p := by
  cases caller with
  | advertising worker pos =>
      obtain ⟨rfl, rfl⟩ := Prod.mk.inj (Option.some.inj h)
      exact (offers_advertise p worker pos).left_lt
  | claiming pos =>
      obtain ⟨⟨progress, q⟩, hclaim, hend⟩ := Option.map_eq_some_iff.1 h
      obtain ⟨rfl, rfl⟩ := Prod.mk.inj hend
      have hclaims := claims_of_claim? hclaim
      have hless := hclaims.left_lt hclaims.size_eq
      rw [Claiming.left_congr hclaims.size_eq pos] at hless
      show (progress.within Caller.claiming .claimed).left q < pos.left p
      cases progress <;> exact hless
  | closing pos =>
      obtain ⟨rfl, rfl⟩ := Prod.mk.inj (Option.some.inj h)
      cases pos with
      | aggregate => exact Nat.lt_succ_self _
      | slot w =>
          cases hs : p.slots[w]? with
          | none => simp [hs, Progress.within, left]
          | some s =>
              have hw : w < p.size := (List.getElem?_eq_some_iff.1 hs).1
              simp only [hs, Progress.within, left, size_setSlot]
              omega
  | _ => cases h

/-- A crowd of one goes on as its only caller does. -/
theorem advance?_one (p : Pool) (caller : Caller) :
    Crowd.advance? conduct ⟨p, [caller]⟩ =
      (caller.step? p).map fun (caller', p') => ⟨p', [caller']⟩ := by
  show List.findSome? _ [0] = _
  cases h : caller.step? p <;> simp [Crowd.step?, conduct, h]

theorem runWhile_of_rest (k : Nat) (h : caller.step? p = none) :
    runWhile (Crowd.advance? conduct) k ⟨p, [caller]⟩ = ⟨p, [caller]⟩ := by
  cases k with
  | zero => rfl
  | succ k => rw [runWhile, advance?_one, h]; rfl

theorem runWhile_of_step (k : Nat) (h : caller.step? p = some (caller', p')) :
    runWhile (Crowd.advance? conduct) (k + 1) ⟨p, [caller]⟩ =
      runWhile (Crowd.advance? conduct) k ⟨p', [caller']⟩ := by
  rw [runWhile, advance?_one, h]
  rfl

/-- **Where sections lead that nobody interrupts**, the call comes if it cannot go on there. -/
theorem Goes.runWhile (h : p.Goes caller q caller') (hrest : caller'.step? q = none) {k : Nat}
    (hk : caller.left p ≤ k) :
    runWhile (Crowd.advance? conduct) k ⟨p, [caller]⟩ = ⟨q, [caller']⟩ := by
  induction h generalizing k with
  | stay => exact runWhile_of_rest k hrest
  | step hstep _ ih =>
      have hless := Caller.left_lt hstep
      obtain ⟨k, rfl⟩ : ∃ j, k = j + 1 := ⟨k - 1, by omega⟩
      rw [runWhile_of_step k hstep]
      exact ih hrest (by omega)

theorem Goes.alone (h : p.Goes caller q caller') (hrest : caller'.step? q = none) :
    p.alone caller = ⟨q, [caller']⟩ :=
  h.runWhile hrest (Nat.le_add_right _ 0)

end Alone

/-! ## §2 — the counters and the set -/

/-- **`Unqueued s`** — the semaphore is open, and everybody who drew a ticket was served. -/
structure Unqueued (s : Semaphore) : Prop where
  opened : s.closed = false
  served : s.nowServing = s.nextTicket

/-- The semaphore after one permit was taken from it at once. -/
def taken (s : Semaphore) : Semaphore :=
  { s with
    permits := s.permits - 1
    nextTicket := s.nextTicket + 1
    nowServing := s.nowServing + 1 }

section Unqueued

variable {s : Semaphore}

theorem Quiet.toUnqueued (h : Quiet s) : Unqueued s := ⟨h.opened, h.unqueued⟩

theorem Unqueued.taken (h : Unqueued s) : Unqueued (taken s) :=
  ⟨h.opened, congrArg (· + 1) h.served⟩

/-- Where nobody is queued, who acquires a permit that is there takes it in its first section, -/
theorem Unqueued.acquire? (h : Unqueued s) (hp : 0 < s.permits) :
    s.acquire? .arriving = some (.ended (.ok s.nextTicket), Pool.taken s) := by
  simp only [Semaphore.acquire?, Semaphore.arrive_of_grants h.opened h.served hp]
  rfl

/-- and who only tries takes it just so. -/
theorem Unqueued.tryAcquire (h : Unqueued s) (hp : 0 < s.permits) :
    s.tryAcquire = (true, Pool.taken s) := by
  have hqueued : s.queued = 0 := by rw [Semaphore.queued, h.served, Nat.sub_self]
  rw [Semaphore.tryAcquire, if_neg]
  · rfl
  · rw [h.opened, hqueued]
    simp
    omega

theorem tryAcquire_of_empty (hp : s.permits = 0) : s.tryAcquire = (false, s) := by
  rw [Semaphore.tryAcquire, hp, if_pos (by simp)]

end Unqueued

/-- **`p.Stands n idle`** — the pool of `n` workers, with nobody in the middle of a call, stands for
the set `idle`. -/
structure Stands (n : Nat) (p : Pool) (idle : Finset Nat) : Prop where
  size : p.size = n
  unqueued : Unqueued p.available
  ceiling : p.available.ceiling = wordMax
  quiet : ∀ (w : Nat) (s : Semaphore), p.slots[w]? = some s → Quiet s
  token : ∀ w, p.token w = if w ∈ idle then 1 else 0
  count : p.available.permits = idle.card

section Stands

variable {n w m : Nat} {p : Pool} {idle : Finset Nat} {s : Semaphore}

theorem stands_ofWorkers (n : Nat) : (ofWorkers n).Stands n ∅ where
  size := by simp [Pool.size, ofWorkers]
  unqueued := ⟨rfl, rfl⟩
  ceiling := rfl
  quiet := (covered_ofWorkers n).quiet
  token w := by
    rw [Pool.token, if_neg (Finset.notMem_empty w)]
    simp only [ofWorkers, List.getElem?_replicate]
    split_ifs <;> rfl
  count := rfl

/-- Every member is one of the workers. -/
theorem Stands.lt (h : p.Stands n idle) (hw : w ∈ idle) : w < n := by
  have htoken := h.token w
  rw [if_pos hw, Pool.token] at htoken
  split at htoken
  · next s hs => exact h.size ▸ (List.getElem?_eq_some_iff.1 hs).1
  · exact absurd htoken (by decide)

theorem Stands.slot (h : p.Stands n idle) (hw : w < n) :
    ∃ s, p.slots[w]? = some s ∧ s.permits = if w ∈ idle then 1 else 0 := by
  have hlt : w < p.slots.length := by
    rw [← h.size] at hw
    exact hw
  have hs := List.getElem?_eq_getElem hlt
  exact ⟨p.slots[w], hs, token_of_slot hs ▸ h.token w⟩

theorem Stands.slot_none (h : p.Stands n idle) (hw : n ≤ w) : p.slots[w]? = none := by
  rw [← h.size] at hw
  exact List.getElem?_eq_none hw

/-- The token of a worker lies there if the worker is a member. -/
theorem Stands.isClaimable_iff (h : p.Stands n idle) (w : Nat) :
    p.isClaimable w = true ↔ w ∈ idle := by
  have htoken := h.token w
  rw [Pool.token] at htoken
  rw [isClaimable]
  cases hs : p.slots[w]? with
  | none =>
      rw [hs] at htoken
      split_ifs at htoken with hw
      simp [hw]
  | some s =>
      rw [hs] at htoken
      show decide (0 < s.permits) = true ↔ w ∈ idle
      rw [show s.permits = if w ∈ idle then 1 else 0 from htoken]
      split_ifs with hw <;> simp [hw]

/-- There are at most as many members as workers. -/
theorem Stands.card_le (h : p.Stands n idle) : idle.card ≤ n := by
  have hsub : idle ⊆ Finset.range n := fun w hw => Finset.mem_range.2 (h.lt hw)
  simpa using Finset.card_le_card hsub

/-- **A call that is over** has changed the aggregate and one slot, and both in step with the
set. -/
theorem Stands.change (h : p.Stands n idle) (hs : p.slots[w]? = some s) {s' available : Semaphore}
    {idle' : Finset Nat} (hothers : ∀ v, v ≠ w → (v ∈ idle' ↔ v ∈ idle)) (hquiet : Quiet s')
    (hpermits : s'.permits = if w ∈ idle' then 1 else 0) (hunqueued : Unqueued available)
    (hceiling : available.ceiling = wordMax) (hcount : available.permits = idle'.card) :
    Stands n ⟨available, (p.setSlot w s').slots⟩ idle' where
  size := (size_setSlot p w s').trans h.size
  unqueued := hunqueued
  ceiling := hceiling
  quiet v t ht := by
    rw [setSlot, List.getElem?_set] at ht
    split_ifs at ht with hv hlt
    · exact Option.some.inj ht ▸ hquiet
    · exact h.quiet v t ht
  token v := by
    show (p.setSlot w s').token v = _
    rw [token_setSlot hs]
    by_cases hv : w = v
    · subst hv
      rw [if_pos rfl]
      exact hpermits
    · rw [if_neg hv, h.token v, if_congr (hothers v (Ne.symm hv)).symm rfl rfl]
  count := hcount

end Stands

/-! ## §3 — an offer -/

section Offer

variable {n w : Nat} {p : Pool} {idle : Finset Nat}

theorem Stands.offer_unknown (h : p.Stands n idle) (hw : n ≤ w) :
    p.alone (.advertising w .token) =
      ⟨p, [.advertised w (.error (.violation w .noSuchWorker))]⟩ := by
  refine Goes.alone (.step ?_ (.stay _ _)) rfl
  simp only [Caller.step?, advertise, h.slot_none hw]
  rfl

theorem Stands.offer_member (h : p.Stands n idle) (hw : w ∈ idle) :
    p.alone (.advertising w .token) =
      ⟨p, [.advertised w (.error (.violation w .stillClaimable))]⟩ := by
  obtain ⟨s, hs, hpermits⟩ := h.slot (h.lt hw)
  have hfull : s.ceiling ≤ s.permits := by
    rw [(h.quiet w s hs).binary, hpermits, if_pos hw]
  refine Goes.alone (.step ?_ (.stay _ _)) rfl
  simp only [Caller.step?, advertise, hs, Semaphore.release_of_le hfull]
  rfl

/-- **An offer** of a worker that is no member makes it one. -/
theorem Stands.offer (h : p.Stands n idle) (hn : n ≤ wordMax) (hw : w < n) (hnew : w ∉ idle) :
    ∃ q, p.alone (.advertising w .token) = ⟨q, [.advertised w (.ok ())]⟩ ∧
      q.Stands n (insert w idle) := by
  obtain ⟨s, hs, hpermits⟩ := h.slot hw
  rw [if_neg hnew] at hpermits
  have hquiet := h.quiet w s hs
  have hroom : s.permits < s.ceiling := by
    rw [hquiet.binary, hpermits]
    decide
  let s' : Semaphore := { s with permits := s.permits + 1 }
  let available : Semaphore := { p.available with permits := p.available.permits + 1 }
  have hmore : (insert w idle).card = idle.card + 1 := Finset.card_insert_of_notMem hnew
  have hstands : Stands n ⟨available, (p.setSlot w s').slots⟩ (insert w idle) := by
    refine h.change hs (fun v hv => ?_) (hquiet.release hroom) ?_
      ⟨h.unqueued.opened, h.unqueued.served⟩ h.ceiling ?_
    · rw [Finset.mem_insert, or_iff_right hv]
    · rw [if_pos (Finset.mem_insert_self w idle)]
      exact congrArg (· + 1) hpermits
    · rw [hmore, ← h.count]
  -- the set would have more members than there are workers
  have hbelow : p.available.permits < p.available.ceiling := by
    have hcard := hstands.card_le
    rw [h.ceiling, h.count]
    omega
  have hdown : (Caller.advertising w .token).step? p =
      some (.advertising w .aggregate, p.setSlot w s') := by
    simp only [Caller.step?, advertise, hs, Semaphore.release_of_lt hroom]
    rfl
  have hraise : (Caller.advertising w .aggregate).step? (p.setSlot w s') =
      some (.advertised w (.ok ()), ⟨available, (p.setSlot w s').slots⟩) := by
    have hrelease : (p.setSlot w s').available.release = .ok available :=
      Semaphore.release_of_lt hbelow
    simp only [Caller.step?, advertise, hrelease]
    rfl
  exact ⟨_, Goes.alone (.step hdown (.step hraise (.stay _ _))) rfl, hstands⟩

end Offer

/-! ## §4 — a search -/

section Search

variable {n w m : Nat} {p : Pool} {idle : Finset Nat} {s : Semaphore}

/-- **`p.lookAt w`** — where a search looks for worker `w`: in the scan, or at the last slot. -/
def lookAt (p : Pool) (w : Nat) : Claiming :=
  if w + 1 < p.size then .probing w else .last .arriving

theorem scan_of_lt (hw : w < p.size) : p.scan w = .onward (p.lookAt w) := by
  rw [scan, lookAt]
  split_ifs with hnext hlast
  · rfl
  · rfl
  · omega

/-- The scan passes by a slot that is empty. -/
theorem goes_by (hw : w + 1 < p.size) (hempty : p.token w = 0) :
    p.Goes (.claiming (p.lookAt w)) p (.claiming (p.lookAt (w + 1))) := by
  have hs := List.getElem?_eq_getElem (show w < p.slots.length from Nat.lt_of_succ_lt hw)
  have htry := tryAcquire_of_empty ((token_of_slot hs).symm.trans hempty)
  refine .step ?_ (.stay _ _)
  rw [lookAt, if_pos hw]
  simp only [Caller.step?, claim?, hs, Option.bind_eq_bind, Option.bind_some, htry,
    setSlot_self hs, scan_of_lt hw]
  rfl

/-- **The scan** comes to the first slot that is not empty. -/
theorem goes_to (hm : m < p.size) (hempty : ∀ w < m, p.token w = 0) :
    p.Goes (.claiming (p.lookAt 0)) p (.claiming (p.lookAt m)) := by
  induction m with
  | zero => exact .stay _ _
  | succ m ih =>
      have hbefore := ih (Nat.lt_of_succ_lt hm) fun w hw => hempty w (Nat.lt_succ_of_lt hw)
      exact hbefore.trans (goes_by hm (hempty m (Nat.lt_succ_self m)))

/-- **A token that lies there** is taken at once, by the scan and by whoever waits at the last slot
alike. -/
theorem claim?_lookAt (hs : p.slots[w]? = some s) (hquiet : Quiet s) (hp : 0 < s.permits) :
    p.claim? (p.lookAt w) = some (.ended (.ok w), p.setSlot w (taken s)) := by
  rw [lookAt]
  split_ifs with hnext
  · simp only [claim?, hs, Option.bind_eq_bind, Option.bind_some,
      hquiet.toUnqueued.tryAcquire hp]
  · have hw : w < p.size := (List.getElem?_eq_some_iff.1 hs).1
    have hlast : p.size - 1 = w := by omega
    simp only [claim?, hlast, hs, Option.bind_eq_bind, Option.bind_some,
      hquiet.toUnqueued.acquire? hp]

/-- **A search blocks** while the set is empty. -/
theorem Stands.search_blocks (h : p.Stands n ∅) :
    ∃ ticket q, p.alone (.claiming .start) = ⟨q, [.claiming (.aggregate (.queued ticket))]⟩ := by
  have hempty : p.available.permits = 0 := h.count
  let available : Semaphore := { p.available with nextTicket := p.available.nextTicket + 1 }
  have harrive : p.available.arrive = (.waits p.available.nextTicket, available) :=
    Semaphore.arrive_of_not_grants h.unqueued.opened fun hg => by omega
  have hwait : available.recheck p.available.nextTicket = none :=
    Semaphore.recheck_of_not_grants h.unqueued.opened
      (by simp [Semaphore.grants, available, hempty])
  refine ⟨p.available.nextTicket, ⟨available, p.slots⟩, Goes.alone (.step ?_ (.stay _ _)) ?_⟩
  · simp only [Caller.step?, Claiming.start, claim?, Semaphore.acquire?, harrive]
    rfl
  · simp only [Caller.step?, claim?, Semaphore.acquire?, hwait]
    rfl

/-- **A search** takes the least member. -/
theorem Stands.search (h : p.Stands n idle) (hm : m ∈ idle) (hleast : ∀ w ∈ idle, m ≤ w) :
    ∃ q r, q.size = n ∧ p.Goes (.claiming .start) q (.claiming (q.lookAt m)) ∧
      q.claim? (q.lookAt m) = some (.ended (.ok m), r) ∧
      p.alone (.claiming .start) = ⟨r, [.claimed (.ok m)]⟩ ∧ r.Stands n (idle.erase m) := by
  have hlt := h.lt hm
  obtain ⟨s, hs, hpermits⟩ := h.slot hlt
  rw [if_pos hm] at hpermits
  have hcount : 0 < p.available.permits := h.count ▸ Finset.card_pos.2 ⟨m, hm⟩
  -- the aggregate is behind the search now, and the slots are as they were
  let q : Pool := ⟨taken p.available, p.slots⟩
  have hsize : q.size = n := h.size
  have hadmit : (Caller.claiming .start).step? p = some (.claiming (q.lookAt 0), q) := by
    have hscan : q.scan 0 = .onward (q.lookAt 0) := scan_of_lt (by omega)
    simp only [Caller.step?, Claiming.start, claim?, h.unqueued.acquire? hcount,
      Option.bind_eq_bind, Option.bind_some]
    show some ((q.scan 0).within Caller.claiming .claimed, q) = _
    rw [hscan]
    rfl
  have hscan : q.Goes (.claiming (q.lookAt 0)) q (.claiming (q.lookAt m)) := by
    refine goes_to (by omega) fun w hw => ?_
    have hout : w ∉ idle := fun hin => absurd (hleast w hin) (Nat.not_le.2 hw)
    exact (h.token w).trans (if_neg hout)
  have hquiet := h.quiet m s hs
  have htake : q.claim? (q.lookAt m) = some (.ended (.ok m), q.setSlot m (taken s)) :=
    claim?_lookAt hs hquiet (by omega)
  have hlast : (Caller.claiming (q.lookAt m)).step? q =
      some (.claimed (.ok m), q.setSlot m (taken s)) := by
    simp only [Caller.step?, htake]
    rfl
  have hgoes := Goes.step hadmit hscan
  refine ⟨q, _, hsize, hgoes, htake, (hgoes.trans (.step hlast (.stay _ _))).alone rfl, ?_⟩
  refine h.change hs (fun w hw => ?_)
    (hquiet.tryAcquire (hquiet.toUnqueued.tryAcquire (by omega))) ?_ h.unqueued.taken h.ceiling ?_
  · rw [Finset.mem_erase, and_iff_right hw]
  · rw [if_neg (Finset.notMem_erase m idle)]
    show s.permits - 1 = 0
    omega
  · rw [Finset.card_erase_of_mem hm, ← h.count]
    rfl

end Search

/-! ## The theorem -/

/-- A call of the pool. -/
inductive Request where
  | offer (worker : Nat)
  | search
  deriving DecidableEq, Repr

/-- **`Sequel n history p`** — the calls of `history` were made of a new pool of `n` workers, each
when the one before it had returned, all of them have returned, and the pool is `p` now. -/
inductive Sequel (n : Nat) : List Request → Pool → Prop
  | fresh : Sequel n [] (ofWorkers n)
  | offered {history : List Request} {p q : Pool} {worker : Nat} {result : Except Fault Unit}
      (h : Sequel n history p)
      (hcall : p.alone (.advertising worker .token) = ⟨q, [.advertised worker result]⟩) :
      Sequel n (history ++ [.offer worker]) q
  | searched {history : List Request} {p q : Pool} {result : Except Fault Nat}
      (h : Sequel n history p) (hcall : p.alone (.claiming .start) = ⟨q, [.claimed result]⟩) :
      Sequel n (history ++ [.search]) q

/-- What becomes of a set of workers, of `n` that there are, by a call. -/
def Request.act (n : Nat) (idle : Finset Nat) : Request → Finset Nat
  | .offer worker => if worker < n then insert worker idle else idle
  | .search => if h : idle.Nonempty then idle.erase (idle.min' h) else idle

/-- **`idleAfter n history`** — the workers that are idle after those calls. -/
def idleAfter (n : Nat) (history : List Request) : Finset Nat := history.foldl (Request.act n) ∅

/-- **`p.Shows idle`** — whoever looks at the pool sees that set of idle workers. -/
structure Shows (p : Pool) (idle : Finset Nat) : Prop where
  claimable : ∀ w, p.isClaimable w = true ↔ w ∈ idle
  advertisements : p.idleAdvertisements = idle.card

section Sequel

variable {n : Nat} {history : List Request} {p : Pool} {idle : Finset Nat}

theorem Stands.shows (h : p.Stands n idle) : p.Shows idle := ⟨h.isClaimable_iff, h.count⟩

theorem idleAfter_concat (history : List Request) (request : Request) :
    idleAfter n (history ++ [request]) = request.act n (idleAfter n history) := by
  rw [idleAfter, List.foldl_append]
  rfl

/-- **A call** that has returned leaves the pool in step with what it makes of the set. -/
theorem stands_of_sequel (hn : n ≤ wordMax) (h : Sequel n history p) :
    p.Stands n (idleAfter n history) := by
  induction h with
  | fresh => exact stands_ofWorkers n
  | @offered history p q worker result h hcall ih =>
      rw [idleAfter_concat]
      show q.Stands n (if worker < n then _ else _)
      split_ifs with hw
      · by_cases hmem : worker ∈ idleAfter n history
        · rw [Finset.insert_eq_of_mem hmem]
          obtain ⟨rfl, -⟩ := Crowd.mk.inj ((ih.offer_member hmem).symm.trans hcall)
          exact ih
        · obtain ⟨q', hcall', hstands⟩ := ih.offer hn hw hmem
          obtain ⟨rfl, -⟩ := Crowd.mk.inj (hcall'.symm.trans hcall)
          exact hstands
      · obtain ⟨rfl, -⟩ := Crowd.mk.inj ((ih.offer_unknown (Nat.not_lt.1 hw)).symm.trans hcall)
        exact ih
  | @searched history p q result h hcall ih =>
      rw [idleAfter_concat]
      show q.Stands n (if _ : _ then _ else _)
      split_ifs with hsome
      · obtain ⟨-, r, -, -, -, hcall', hstands⟩ := ih.search (Finset.min'_mem _ hsome)
          fun w hw => Finset.min'_le _ w hw
        obtain ⟨rfl, -⟩ := Crowd.mk.inj (hcall'.symm.trans hcall)
        exact hstands
      · -- the search would still wait
        rw [Finset.not_nonempty_iff_eq_empty.1 hsome] at ih
        obtain ⟨ticket, q', hblocks⟩ := ih.search_blocks
        obtain ⟨-, hcallers⟩ := Crowd.mk.inj (hblocks.symm.trans hcall)
        cases hcallers

/-- **Called by one after the other, the pool is a finite set of idle workers.** Take a pool of `n`
workers and any calls made of it one after the other, each of which has returned. Then the token of
a worker lies there if the worker is in the set, and the aggregate counts the set. An offer of a
worker that there is and that is not in the set puts it in; every other offer fails and leaves the
pool as it is. A search blocks if the set is empty. Otherwise it takes out the least member: it
comes to that slot, which it tries, or at which it waits if it is the last one, and its next section
ends it there. -/
theorem is_set_of_idle_workers {n : Nat} (hn : n ≤ wordMax) {history : List Request} {p : Pool}
    (h : Sequel n history p) :
    let idle := idleAfter n history
    p.Shows idle ∧
    (∀ w, w < n → w ∉ idle → ∃ q, p.alone (.advertising w .token) = ⟨q, [.advertised w (.ok ())]⟩ ∧
      q.Shows (insert w idle)) ∧
    (∀ w ∈ idle, p.alone (.advertising w .token) =
      ⟨p, [.advertised w (.error (.violation w .stillClaimable))]⟩) ∧
    (∀ w, n ≤ w → p.alone (.advertising w .token) =
      ⟨p, [.advertised w (.error (.violation w .noSuchWorker))]⟩) ∧
    (idle = ∅ → ∃ ticket q,
      p.alone (.claiming .start) = ⟨q, [.claiming (.aggregate (.queued ticket))]⟩) ∧
    ∀ m ∈ idle, (∀ w ∈ idle, m ≤ w) →
      let slot : Claiming := if m + 1 < n then .probing m else .last .arriving
      ∃ q r, p.Goes (.claiming .start) q (.claiming slot) ∧
        q.claim? slot = some (.ended (.ok m), r) ∧
        p.alone (.claiming .start) = ⟨r, [.claimed (.ok m)]⟩ ∧ r.Shows (idle.erase m) := by
  intro idle
  have hstands := stands_of_sequel hn h
  refine ⟨hstands.shows, fun w hw hnew => ?_, fun w hw => hstands.offer_member hw,
    fun w hw => hstands.offer_unknown hw, fun hempty => ?_, fun m hm hleast => ?_⟩
  · obtain ⟨q, hcall, hq⟩ := hstands.offer hn hw hnew
    exact ⟨q, hcall, hq.shows⟩
  · rw [show idleAfter n history = ∅ from hempty] at hstands
    exact hstands.search_blocks
  · intro slot
    obtain ⟨q, r, hsize, hgoes, htake, hcall, hr⟩ := hstands.search hm hleast
    have hslot : q.lookAt m = slot := by rw [lookAt, hsize]
    rw [hslot] at hgoes htake
    exact ⟨q, r, hgoes, htake, hcall, hr.shows⟩

/-- Both of two workers offer themselves, the second one first, and a search takes worker 0. The
next one has to take the last slot. -/
theorem is_set_of_idle_workers_last :
    let history : List Request := [.offer 1, .offer 0, .search]
    2 ≤ wordMax ∧ idleAfter 2 history = {1} ∧ ∃ p, Sequel 2 history p ∧ p.Shows {1} ∧
      ∃ q r, p.Goes (.claiming .start) q (.claiming (.last .arriving)) ∧
        q.claim? (.last .arriving) = some (.ended (.ok 1), r) ∧
        p.alone (.claiming .start) = ⟨r, [.claimed (.ok 1)]⟩ ∧ r.Shows ∅ := by
  intro history
  have hidle : idleAfter 2 history = {1} := by decide
  obtain ⟨p, hsequel⟩ : ∃ p, Sequel 2 history p :=
    ⟨_, .searched (.offered (.offered .fresh rfl) rfl) rfl⟩
  have hset := is_set_of_idle_workers (n := 2) (by decide) hsequel
  simp only [hidle] at hset
  obtain ⟨hshows, -, -, -, -, hsearch⟩ := hset
  exact ⟨by decide, hidle, p, hsequel, hshows, hsearch 1 (by decide) (by decide)⟩

end Sequel

end Postal.Pool

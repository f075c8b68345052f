import Mathlib.Data.List.Nodup
import Postal.Proofs.Handshake
import Postal.Proofs.Locks

/-!
# No breach of the protocol is reachable.

The ledgers say where everybody may stand; what is left is to read off that no call ever fails for a
reason of its own. Three facts go into that. The aggregate never promises more than the tokens that
lie in the pool, so that it is never full when a worker raises it (`Floor.Promised`). Nothing is
closed before somebody has begun to close it (`Floor.Guarded`). And whoever takes a section of a
slot finds the phase that it needs (`Floor.Kept.phase_of_worker`, `Floor.Kept.phase_of_customer`).
So shifts never fail, and visits fail only by the interruption of a close (`no_breach`). Without a
panic nobody is hurt, and a panic hurts nobody but the one who is unwound (`Floor.hurt_move`).

## §1 — the aggregate promises no more than there is.
## §2 — everybody finds the phase that they need.
## §3 — no call fails for a reason of its own.
## §4 — nobody is hurt without a panic.
## §5 — the theorem.
-/

namespace Postal

/-! ## §1 — the aggregate promises no more than there is -/

/-- A close takes no permit and no token away. -/
theorem Closing.Steps.pool_counts {p p' : Premises} {k k' : Closing}
    (h : k.Steps p k' p') :
    p'.pool.size = p.pool.size ∧ p'.pool.available.ceiling = p.pool.available.ceiling ∧
      p'.pool.available.permits = p.pool.available.permits ∧
      p'.pool.tokensFrom 0 = p.pool.tokensFrom 0 := by
  cases h with
  | @token w s hs =>
      -- a token that is closed keeps its permits
      have htokens := Pool.tokensFrom_setSlot hs s.close 0
      rw [show s.close.permits = s.permits from rfl] at htokens
      exact ⟨Pool.size_setSlot _ _ _, rfl, rfl, Nat.add_right_cancel htokens⟩
  | _ => exact ⟨rfl, rfl, rfl, rfl⟩

namespace Floor

/-- The scans of everybody, and the offers that are put down and not counted. -/
def pending (f : Floor) : Nat :=
  tally (Person.scansFrom f.premises.pool.size 0) f.people + tally Person.offering f.people

/-- **`f.Promised`** — free permits of the aggregate, scans and uncounted offers are no more than
the tokens in the pool. -/
structure Promised (f : Floor) : Prop where
  ceiling : f.premises.pool.available.ceiling = wordMax
  whole : f.premises.pool.available.permits + f.pending ≤ f.premises.pool.tokensFrom 0

/-! What is pending after a move. -/

section Pending

variable {f f' : Floor} {i : Nat}

/-- Whoever keeps a share of the pool keeps what is pending. -/
theorem pending_aside {p p' : Person} (hi : f.people[i]? = some p)
    (hpeople : f'.people = f.people.set i p') (hshare : p'.poolShare = p.poolShare)
    (hsize : f'.premises.pool.size = f.premises.pool.size) : f'.pending = f.pending := by
  rw [pending, pending, hpeople, hsize,
    tally_set_of_eq hi (by rw [Person.scansFrom, Person.scansFrom, hshare]),
    tally_set_of_eq hi (by rw [Person.offering, Person.offering, hshare])]

/-- Whoever searches takes its scan along. -/
theorem pending_search {c : Customer} {stay : Stay} {pos : Pool.Claiming}
    {progress : Progress Pool.Claiming (Except Fault Nat)}
    (hi : f.people[i]? = some (.customer c (.claiming stay pos)))
    (hpeople : f'.people = f.people.set i (.customer c
      (progress.within (.claiming stay) (Visiting.afterSearch f.premises.workerCount stay))))
    (hsize : f'.premises.pool.size = f.premises.pool.size) :
    f'.pending + pos.scansFrom f.premises.pool.size 0 =
      f.pending + progress.weigh (Pool.Claiming.scansFrom f.premises.pool.size 0) := by
  have hscans := tally_set (f := Person.scansFrom f.premises.pool.size 0) hi (.customer c
    (progress.within (.claiming stay) (Visiting.afterSearch f.premises.workerCount stay)))
  have hoffers := tally_set (f := Person.offering) hi (.customer c
    (progress.within (.claiming stay) (Visiting.afterSearch f.premises.workerCount stay)))
  simp only [scansFrom_claiming, scansFrom_search, offering_claiming, offering_search]
    at hscans hoffers
  rw [pending, pending, hpeople, hsize]
  omega

/-- Whoever offers a token takes its offer along. -/
theorem pending_offer {w n : Nat} {pos : Pool.Advertising}
    {progress : Progress Pool.Advertising (Except Fault Unit)}
    (hi : f.people[i]? = some (.worker w (.advertising n pos)))
    (hpeople : f'.people = f.people.set i
      (.worker w (progress.within (.advertising n) (Working.afterOffer n))))
    (hsize : f'.premises.pool.size = f.premises.pool.size) :
    f'.pending + pos.between = f.pending + progress.weigh Pool.Advertising.between := by
  have hscans := tally_set (f := Person.scansFrom f.premises.pool.size 0) hi
    (.worker w (progress.within (.advertising n) (Working.afterOffer n)))
  have hoffers := tally_set (f := Person.offering) hi
    (.worker w (progress.within (.advertising n) (Working.afterOffer n)))
  simp only [scansFrom_advertising, scansFrom_offer, offering_advertising, offering_offer]
    at hscans hoffers
  rw [pending, pending, hpeople, hsize]
  omega

/-- An exchange leaves alone what is pending. -/
theorem pending_exchange {j w : Nat} {people' : List Person}
    (hex : Exchanges f.people i j w people') :
    pending { f with people := people' } = f.pending := by
  rw [pending, pending,
    hex.tally_eq fun hs => by rw [Person.scansFrom, Person.scansFrom, hs.poolShare],
    hex.tally_eq fun hs => by rw [Person.offering, Person.offering, hs.poolShare]]

/-- A newcomer brings nothing that is pending. -/
theorem pending_join {p : Person} (hshare : p.poolShare = .empty) :
    (f.join p).pending = f.pending := by
  rw [pending, pending, Floor.join, tally_concat, tally_concat, Person.scansFrom, Person.offering,
    hshare]
  rfl

end Pending

theorem Promised.step {f f' : Floor} {i : Nat} (h : f.Promised) (hstep : f.Steps i f') :
    f'.Promised := by
  have hwhole := h.whole
  cases hstep.atPool with
  | aside hi hpeople hpool hshare hunqueued =>
      refine ⟨hpool ▸ h.ceiling, ?_⟩
      rw [pending_aside hi hpeople hshare (by rw [hpool]), hpool]
      exact hwhole
  | claims hi hpeople hclaim =>
      refine ⟨hclaim.ceiling_eq.trans h.ceiling, ?_⟩
      have hpending := pending_search hi hpeople hclaim.size_eq
      have hsearch := hclaim.whole
      omega
  | offers hi hpeople hoffer =>
      refine ⟨hoffer.ceiling_eq.trans h.ceiling, ?_⟩
      have hpending := pending_offer hi hpeople hoffer.size_eq
      have hput := hoffer.whole
      omega
  | closes hi hpeople hclose =>
      obtain ⟨hsize, hceiling, hpermits, htokens⟩ := hclose.pool_counts
      refine ⟨hceiling.trans h.ceiling, ?_⟩
      rw [pending_aside hi hpeople rfl hsize, hpermits, htokens]
      exact hwhole

/-- **A step of a close** from outside keeps the promise. -/
theorem Promised.closing {f : Floor} {k k' : Closing} {premises' : Premises} (h : f.Promised)
    (hclose : k.Steps f.premises k' premises') : Promised { f with premises := premises' } := by
  obtain ⟨hsize, hceiling, hpermits, htokens⟩ := hclose.pool_counts
  refine ⟨hceiling.trans h.ceiling, ?_⟩
  show premises'.pool.available.permits + (tally (Person.scansFrom premises'.pool.size 0) f.people +
    tally Person.offering f.people) ≤ premises'.pool.tokensFrom 0
  rw [hsize, hpermits, htokens]
  exact h.whole

/-- **Every move** keeps the promise. -/
theorem Promised.move {f f' : Floor} {m : Move} (h : f.Promised) (hmove : f.move? m = some f')
    (hjoin : ∀ p, m = .join p → p.poolShare = .empty) : f'.Promised := by
  cases m with
  | step i => exact h.step (steps_of_step? hmove)
  | exchange i j =>
      obtain ⟨w, people', -, hex, rfl⟩ := exchanges_of_exchange? hmove
      refine ⟨h.ceiling, ?_⟩
      rw [pending_exchange hex]
      exact h.whole
  | unwind i =>
      obtain ⟨p, p', hi, hunwind, rfl⟩ := unwind?_eq_some hmove
      have hpending : pending ⟨f.premises, f.people.set i p'⟩ = f.pending :=
        pending_aside hi rfl (Person.unwind?_poolShare hunwind) rfl
      refine ⟨h.ceiling, ?_⟩
      rw [hpending]
      exact h.whole
  | fire =>
      obtain rfl := Option.some.inj hmove
      exact ⟨h.ceiling, h.whole⟩
  | join p =>
      obtain rfl := Option.some.inj hmove
      refine ⟨h.ceiling, ?_⟩
      rw [pending_join (hjoin p rfl)]
      exact h.whole

/-- No desk has more than one token, so the pool has no more tokens than workers. -/
theorem Kept.tokens_le {workers : Nat} {f : Floor} {ledgers : Nat → Ledger}
    (h : f.Kept workers ledgers) : f.premises.pool.tokensFrom 0 ≤ workers := by
  rw [← h.pool]
  refine tally_le_length fun w s hs => ?_
  rw [List.drop_zero] at hs
  have hw : w < workers := Nat.lt_of_lt_of_eq (List.getElem?_eq_some_iff.1 hs).1 h.pool
  rw [(Premises.token_of_view (h.views w hw) hs).1]
  cases (ledgers w).stage <;> decide

end Floor

/-! ## §2 — everybody finds the phase that they need -/

namespace Floor

section Kept

variable {workers : Nat} {f : Floor} {ledgers : Nat → Ledger}

/-- Every worker has a slot. -/
theorem Kept.slot (h : f.Kept workers ledgers) {w : Nat} (hw : w < workers) :
    ∃ s, f.premises.slots[w]? = some s := by
  rw [← h.slots] at hw
  exact ⟨_, List.getElem?_eq_getElem hw⟩

/-- **A worker finds the phase** that it needs for its next section. -/
theorem Kept.phase_of_worker (h : f.Kept workers ledgers) {i w : Nat} {k : Working}
    {needed : Phase} {s : Slot} (hi : f.people[i]? = some (.worker w k))
    (hneeds : k.needs? = some needed) (hs : f.premises.slots[w]? = some s) : s.phase = needed := by
  obtain ⟨hw, hk⟩ := h.worker_fits hi
  rw [(Premises.slot_of_view (h.views w hw) hs).1]
  have hallows := hk.stage
  cases k with
  | opening n =>
      obtain rfl := Option.some.inj hneeds
      rw [show (ledgers w).stage = .resting from hallows]
      rfl
  | checkingReceived n a =>
      obtain rfl := Option.some.inj hneeds
      rw [show (ledgers w).stage = .received from hallows]
      rfl
  | serving n a position =>
      cases position with
      | acknowledging =>
          obtain rfl := Option.some.inj hneeds
          rw [List.mem_singleton.1 hallows]
          rfl
      | checkingProceed =>
          obtain rfl := Option.some.inj hneeds
          rw [List.mem_singleton.1 hallows]
          rfl
      | completing =>
          obtain rfl := Option.some.inj hneeds
          rw [List.mem_singleton.1 hallows]
          rfl
      | _ => cases hneeds
  | _ => cases hneeds

/-- **A customer finds the phase** that it needs for its next section. -/
theorem Kept.phase_of_customer (h : f.Kept workers ledgers) {i w : Nat} {c : Customer}
    {stay : Stay} {d : Dealing} {needed : Phase} {s : Slot}
    (hi : f.people[i]? = some (.customer c (.dealing stay w d))) (hneeds : d.needs? = some needed)
    (hs : f.premises.slots[w]? = some s) : s.phase = needed := by
  cases d with
  | publishing =>
      obtain ⟨hw, -, -, hstage⟩ := h.dealing_fits hi rfl
      obtain rfl := Option.some.inj hneeds
      rw [(Premises.slot_of_view (h.views w hw) hs).1, List.mem_singleton.1 hstage]
      rfl
  | proceeding =>
      obtain ⟨hw, -, -, hstage⟩ := h.dealing_fits hi rfl
      obtain rfl := Option.some.inj hneeds
      rw [(Premises.slot_of_view (h.views w hw) hs).1, List.mem_singleton.1 hstage]
      rfl
  | _ => cases hneeds

/-- **A worker receives its customer's assignment**, and the slot is published for that customer. -/
theorem Kept.received (h : f.Kept workers ledgers) {i w n : Nat} {a : Assignment}
    (hi : f.people[i]? = some (.worker w (.checkingReceived n a))) :
    ∃ s c, f.premises.slots[w]? = some s ∧ .customer c ∈ f.badges ∧ a = c.assignment ∧
      s.phase = .published ∧ s.customer = some c.id := by
  obtain ⟨hw, hk⟩ := h.worker_fits hi
  obtain ⟨s, hs⟩ := h.slot hw
  have hstage : (ledgers w).stage = .received := hk.stage
  obtain ⟨hphase, hcustomer, -⟩ := Premises.slot_of_view (h.views w hw) hs
  refine ⟨s, (ledgers w).current, hs, h.known w hw _ ?_, hk.assignment a rfl, ?_, ?_⟩
  · rw [Ledger.present, hstage]
    exact List.mem_append_right _ (List.mem_singleton_self _)
  · rw [hphase, hstage]
    rfl
  · rw [hcustomer, Ledger.bound, hstage]
    rfl

/-- **A worker that offers itself** finds its own token taken. -/
theorem Kept.token_taken (h : f.Kept workers ledgers) {i w n : Nat}
    (hi : f.people[i]? = some (.worker w (.advertising n .token))) :
    ∃ s, f.premises.pool.slots[w]? = some s ∧ s.permits = 0 ∧ s.ceiling = 1 := by
  obtain ⟨hw, hk⟩ := h.worker_fits hi
  have hstage : (ledgers w).stage = .idle := hk.stage
  obtain ⟨s, hs⟩ : ∃ s, f.premises.pool.slots[w]? = some s :=
    ⟨_, List.getElem?_eq_getElem (Nat.lt_of_lt_of_eq hw h.pool.symm)⟩
  obtain ⟨hpermits, hceiling⟩ := Premises.token_of_view (h.views w hw) hs
  exact ⟨s, hs, by rw [hpermits, hstage]; rfl, hceiling⟩

end Kept

end Floor

/-! ## §3 — no call fails for a reason of its own -/

/-- The fault with which a visit is over, or about to be over. -/
def Visiting.failure? : Visiting → Option Fault
  | .leaving _ (.failed e) | .ended (.failed e) => some e
  | _ => none

/-- **A person is sound**: a shift has not failed, and a visit has failed only by an interruption
once a close had begun. -/
def Person.Sound (begun : Prop) : Person → Prop
  | .customer _ v => ∀ e, v.failure? = some e → e = .interrupted ∧ begun
  | .worker _ k => ∀ e, k ≠ .ended (.failed e)
  | .closer _ => True

/-- **`v.Guided p`** — what a customer relies on where it stands: behind a probe there is another
slot, and a desk is in the phase that the customer needs there. -/
def Visiting.Guided (p : Premises) : Visiting → Prop
  | .claiming _ (.probing w) => w + 1 < p.pool.size
  | .dealing _ w d => ∀ needed s, d.needs? = some needed → p.slots[w]? = some s → s.phase = needed
  | _ => True

/-- A search that goes on after the aggregate or after a miss does not fail. -/
theorem Visiting.failure?_scan {w : Nat} {stay : Stay} {p : Pool} (hw : w < p.size) (count : Nat) :
    ((p.scan w).within (.claiming stay) (afterSearch count stay)).failure? = none := by
  obtain ⟨pos, hpos⟩ := Pool.exists_scan_onward hw
  rw [hpos]
  rfl

/-- **A visit fails** in a step only by the interruption of a close, when the customer finds what it
relies on, and where the aggregate has a permit there is a worker. -/
theorem Visiting.Steps.fails {c : Customer} {p p' : Premises} {v v' : Visiting}
    (h : v.Steps c p v' p') (hv : v.Guided p) (hsize : p.pool.size = p.workerCount)
    (hfound : 0 < p.pool.available.permits → 0 < p.pool.size) {e : Fault}
    (he : v'.failure? = some e) : v.failure? = some e ∨ e = .interrupted ∧ ¬ p.IsOpen := by
  -- every token belongs to a worker of the office
  have taken : ∀ {w : Nat}, w < p.pool.size → ∀ stay : Stay,
      (afterSearch p.workerCount stay (.ok w)).failure? = none := by
    intro w hw stay
    rw [afterSearch, if_pos (Nat.lt_of_lt_of_eq hw hsize)]
    rfl
  cases h with
  | @enters pos progress gate henter =>
      rcases progress with pos' | ⟨e' | ticket⟩
      · cases he
      · obtain rfl := Option.some.inj he
        obtain ⟨rfl, hclosed⟩ := Gate.enter?_fault henter
        exact .inr ⟨rfl, fun hopen => by simp [hopen.gate] at hclosed⟩
      · cases he
  | claims hclaim =>
      cases hclaim with
      | waits hacq => cases he
      | admitted hacq =>
          have hpool := hfound
            (Nat.lt_of_lt_of_eq (Nat.succ_pos _) (Semaphore.acquire?_permits hacq))
          rw [failure?_scan hpool] at he
          cases he
      | refused hacq =>
          obtain rfl := Option.some.inj he
          obtain ⟨rfl, hclosed⟩ := Semaphore.acquire?_fault hacq
          exact .inr ⟨rfl, fun hopen => by simp [hopen.available] at hclosed⟩
      | @missed w s hs htry =>
          -- a probe is never at the last slot, so there is a next one
          rw [failure?_scan hv] at he
          cases he
      | took hs htry =>
          rw [Progress.within, taken (List.getElem?_eq_some_iff.1 hs).1] at he
          cases he
      | lastWaits hs hacq => cases he
      | lastTook hs hacq =>
          rw [Progress.within, taken (List.getElem?_eq_some_iff.1 hs).1] at he
          cases he
      | lastRefused hs hacq =>
          obtain rfl := Option.some.inj he
          obtain ⟨rfl, hclosed⟩ := Semaphore.acquire?_fault hacq
          exact .inr ⟨rfl, fun hopen => by simp [hopen.token hs] at hclosed⟩
  | interrupted hwaits hclosed =>
      obtain rfl := Option.some.inj he
      exact .inr ⟨rfl, fun hopen => by simp [hopen.slot] at hclosed⟩
  | @stepsOut ending => exact .inl (by cases ending <;> exact he)
  | @leaves ending => exact .inl (by cases ending <;> exact he)
  | breaks hs hneeds hphase f => exact absurd (hv _ _ hneeds hs) hphase
  | _ => cases he

namespace Floor

section Sound

variable {workers : Nat} {f : Floor} {ledgers : Nat → Ledger}

/-- Where the aggregate has a permit there is a worker. -/
theorem Promised.size_pos (h : f.Promised) (hpermits : 0 < f.premises.pool.available.permits) :
    0 < f.premises.pool.size := by
  have hwhole := h.whole
  by_contra hsize
  rw [Pool.tokensFrom_of_size_le (Nat.le_of_not_lt hsize)] at hwhole
  omega

/-- A customer finds what it relies on. -/
theorem Kept.guided (h : f.Kept workers ledgers) {i : Nat} {c : Customer} {v : Visiting}
    (hi : f.people[i]? = some (.customer c v)) : v.Guided f.premises := by
  cases v with
  | claiming stay pos =>
      cases pos with
      | probing w =>
          have hnext : w + 1 < workers := h.fits i _ hi
          exact Nat.lt_of_lt_of_eq hnext h.pool.symm
      | _ => trivial
  | dealing stay w d => exact fun needed s hneeds hs => h.phase_of_customer hi hneeds hs
  | _ => trivial

/-- **A visit fails** in a step only if something is closed. -/
theorem Kept.customer_sound (h : f.Kept workers ledgers) (hpromised : f.Promised) {i : Nat}
    {c : Customer} {v v' : Visiting} {premises' : Premises}
    (hi : f.people[i]? = some (.customer c v)) (hstep : v.Steps c f.premises v' premises')
    (hv : ∀ e, v.failure? = some e → e = .interrupted ∧ f.Begun)
    (hguard : ¬ f.premises.IsOpen → f.Begun) :
    ∀ e, v'.failure? = some e → e = .interrupted ∧ f.Begun := by
  intro e he
  rcases hstep.fails (h.guided hi) (h.pool.trans h.slots.symm) hpromised.size_pos he with
    hbefore | ⟨rfl, hclosed⟩
  · exact hv e hbefore
  · exact ⟨rfl, hguard hclosed⟩

/-- **A shift does not fail** in a step. -/
theorem Kept.worker_sound (h : f.Kept workers ledgers) (hpromised : f.Promised)
    (hword : workers ≤ wordMax) {i w : Nat} {k k' : Working} {offered : Bool}
    {premises' : Premises} (hi : f.people[i]? = some (.worker w k))
    (hstep : k.Steps w f.premises offered k' premises') : ∀ e, k' ≠ .ended (.failed e) := by
  obtain ⟨hw, hk⟩ := h.worker_fits hi
  intro e he
  cases hstep with
  | unknown hge =>
      have hin : w < f.premises.workerCount := Nat.lt_of_lt_of_eq hw h.slots.symm
      omega
  | advertises hoffer =>
      cases hoffer with
      | unknown hs =>
          have hlt : w < f.premises.pool.slots.length := Nat.lt_of_lt_of_eq hw h.pool.symm
          rw [List.getElem?_eq_getElem hlt] at hs
          cases hs
      | claimable hs hfull =>
          obtain ⟨s, hs', hpermits, hceiling⟩ := h.token_taken hi
          obtain rfl := Option.some.inj (hs.symm.trans hs')
          omega
      | putDown hs hroom => cases he
      | full hfull =>
          -- the offer that is about to be counted is a token that nobody else counts
          have hwhole := hpromised.whole
          have htokens := h.tokens_le
          have hone := le_tally (f := Person.offering) hi
          rw [pending] at hwhole
          rw [hpromised.ceiling] at hfull
          simp only [offering_advertising, Pool.Advertising.between] at hone
          omega
      | raised hroom => cases he
  | @rejects n a s hs hno e' =>
      obtain ⟨s', c, hs', -, rfl, hphase, hcustomer⟩ := h.received hi
      obtain rfl := Option.some.inj (hs.symm.trans hs')
      exact hno ⟨hphase, hcustomer⟩
  | @starts n a s hs hphase => cases he
  | @weighs n a pos progress scale hacq =>
      rcases progress with pos' | ⟨e' | ⟨⟩⟩
      · cases he
      · rw [(Scale.acquire?_fault hacq).1] at he
        cases he
      · cases he
  | @drops n a pos => cases pos <;> cases he
  | @unwinds pos => cases pos <;> cases he
  | breaks hs hneeds hphase e' => exact hphase (h.phase_of_worker hi hneeds hs)
  | _ => cases he

/-- Whoever has nothing to report but what could be reported before stays sound. -/
theorem sound_mono {p : Person} {begun begun' : Prop} (h : p.Sound begun)
    (hbegun : begun → begun') : p.Sound begun' := by
  cases p with
  | customer c v => exact fun e he => ⟨(h e he).1, hbegun (h e he).2⟩
  | worker w k => exact h
  | closer k => trivial

/-- Nobody fails by an exchange. -/
theorem Swaps.sound {p p' : Person} (h : Swaps p p') (begun : Prop) : p'.Sound begun := by
  cases h <;> exact fun e he => by cases he

/-- A panic is not a failure of its own. -/
theorem unwind?_sound {p p' : Person} (h : p.unwind? = some p') (begun : Prop) :
    p'.Sound begun := by
  cases Person.unwinds_of_unwind? h <;> exact fun e he => by cases he

/-- **Every move** keeps everybody sound. -/
theorem Kept.sound (h : f.Kept workers ledgers) (hword : workers ≤ wordMax)
    (hpromised : f.Promised) (hguarded : f.Guarded) {f' : Floor} {m : Move}
    (hsound : ∀ (i : Nat) (p : Person), f.people[i]? = some p → p.Sound f.Begun)
    (hmove : f.move? m = some f') (hjoin : ∀ p, m = .join p → p.Sound f.Begun) :
    ∀ (i : Nat) (p : Person), f'.people[i]? = some p → p.Sound f'.Begun := by
  have hbegun : f.Begun → f'.Begun := fun hb => hb.move hmove
  have hold : ∀ {i : Nat} {p : Person}, f.people[i]? = some p → p.Sound f'.Begun :=
    fun hi => sound_mono (hsound _ _ hi) hbegun
  intro i p hi
  cases becomes_of_move hmove hi with
  | stays hi' => exact hold hi'
  | visits hi' hv =>
      exact sound_mono (h.customer_sound hpromised hi' hv (hsound _ _ hi')
        fun hopen => hguarded.resolve_right hopen) hbegun
  | works hi' hk => exact h.worker_sound hpromised hword hi' hk
  | closes hi' hk => trivial
  | swaps hi' hswap => exact hswap.sound _
  | unwinds hm hi' hunwind => exact unwind?_sound hunwind _
  | comes hm hlast => exact sound_mono (hjoin _ hm) hbegun

end Sound

/-- **`f.Sound`** — the aggregate keeps its promise, nothing is closed before a close has begun, and
nobody has failed but by the interruption of a close. -/
structure Sound (f : Floor) : Prop where
  promised : f.Promised
  guarded : f.Guarded
  people : ∀ (i : Nat) (p : Person), f.people[i]? = some p → p.Sound f.Begun

/-- **Every move** keeps an office sound whose desks are kept. -/
theorem Sound.move {workers : Nat} {f f' : Floor} {ledgers : Nat → Ledger} {m : Move}
    (h : f.Sound) (hkept : f.Kept workers ledgers) (hword : workers ≤ wordMax)
    (hmove : f.move? m = some f')
    (hjoin : ∀ p, m = .join p → (∃ c, p = .arrives c) ∨ (∃ w, p = .starts w) ∨ p = .closes) :
    f'.Sound := by
  refine ⟨h.promised.move hmove fun p hp => ?_, h.guarded.move hmove,
    hkept.sound hword h.promised h.guarded h.people hmove fun p hp => ?_⟩
  · rcases hjoin p hp with ⟨c, rfl⟩ | ⟨w, rfl⟩ | rfl <;> rfl
  · rcases hjoin p hp with ⟨c, rfl⟩ | ⟨w, rfl⟩ | rfl
    · exact fun e he => by cases he
    · exact fun e he => by cases he
    · trivial

/-- An office that has just opened is sound. -/
theorem sound_opening (capacity workers minute clock : Nat) :
    (opening (.furnish capacity workers minute) clock).Sound where
  promised := ⟨rfl, Nat.zero_le _⟩
  guarded := guarded_opening capacity workers minute clock
  people i p hi := by simp [opening] at hi

/-- **Every regular run** of an office keeps its desks, and keeps it sound. -/
theorem sound_run {capacity workers minute clock : Nat} (hword : workers ≤ wordMax)
    {ms : List Move} (hms : Regular workers ms) {f : Floor}
    (hrun : run? ms (.opening (.furnish capacity workers minute) clock) = some f) :
    (∃ ledgers, f.Kept workers ledgers) ∧ f.Sound := by
  refine regular_induction hms (sound_opening capacity workers minute clock) ?_ hrun
  intro m f f' ledgers hm hkept hsound hmove
  apply hsound.move hkept hword hmove
  rintro p rfl
  exact hms.move_begins hm

end Floor

/-! ## §4 — nobody is hurt without a panic -/

/-- No panic has unwound the visit. -/
def Visiting.Unhurt : Visiting → Prop
  | .leaving _ .panicked | .ended .panicked => False
  | _ => True

/-- No panic has unwound the shift. -/
def Working.Unhurt : Working → Prop
  | .unwinding _ | .ended .panicked => False
  | _ => True

/-- No panic has unwound the person. -/
def Person.Unhurt : Person → Prop
  | .customer _ v => v.Unhurt
  | .worker _ k => k.Unhurt
  | .closer _ => True

/-- **A sound visit that is over** has returned or was interrupted, unless a panic has unwound
it. -/
theorem Person.Sound.visit_ending {c : Customer} {v : Visiting} {begun : Prop} {e : Ending Visit}
    (h : (Person.customer c v).Sound begun) (he : v.ending? = some e) :
    (∃ visit, e = .returned visit) ∨ e = .failed .interrupted ∨ e = .panicked ∧ ¬ v.Unhurt := by
  obtain rfl := Visiting.eq_ended he
  cases e with
  | returned visit => exact .inl ⟨visit, rfl⟩
  | failed fault =>
      obtain ⟨rfl, -⟩ := h fault rfl
      exact .inr (.inl rfl)
  | panicked => exact .inr (.inr ⟨rfl, id⟩)

/-- **A sound shift that is over** has returned its report, unless a panic has unwound it. -/
theorem Person.Sound.shift_ending {w : Nat} {k : Working} {begun : Prop} {e : Ending WorkerReport}
    (h : (Person.worker w k).Sound begun) (he : k.ending? = some e) :
    (∃ r, e = .returned r) ∨ e = .panicked ∧ ¬ k.Unhurt := by
  obtain rfl := Working.eq_ended he
  cases e with
  | returned r => exact .inl ⟨r, rfl⟩
  | failed fault => exact absurd rfl (h fault)
  | panicked => exact .inr ⟨rfl, id⟩

theorem Visiting.Steps.unhurt {c : Customer} {p p' : Premises} {v v' : Visiting}
    (h : v.Steps c p v' p') (hv : v.Unhurt) : v'.Unhurt := by
  cases h with
  | @enters pos progress gate henter => rcases progress with pos' | ⟨e | ticket⟩ <;> trivial
  | @claims stay pos progress pool hclaim =>
      rcases progress with pos' | ⟨e | worker⟩
      · trivial
      · trivial
      · simp only [Progress.within, afterSearch]
        split <;> trivial
  | @stepsOut ending => cases ending <;> exact hv
  | @leaves ending => cases ending <;> exact hv
  | _ => trivial

theorem Working.Steps.unhurt {id : Nat} {p p' : Premises} {offered : Bool} {k k' : Working}
    (h : k.Steps id p offered k' p') (hk : k.Unhurt) : k'.Unhurt := by
  cases h with
  | @advertises n pos progress pool hoffer => rcases progress with pos' | ⟨e | ⟨⟩⟩ <;> trivial
  | @weighs n a pos progress scale hacq =>
      rcases progress with pos' | ⟨e | ⟨⟩⟩
      · trivial
      · cases e <;> trivial
      · trivial
  | @drops n a pos => cases pos <;> trivial
  | @unwinds pos => exact hk.elim
  | _ => trivial

/-- A visit that a panic has unwound goes on to its end. -/
theorem Visiting.Steps.hurt {c : Customer} {p p' : Premises} {v v' : Visiting}
    (h : v.Steps c p v' p') (hv : ¬ v.Unhurt) : ¬ v'.Unhurt := by
  cases h with
  | @stepsOut ending => cases ending <;> exact hv
  | @leaves ending => cases ending <;> exact hv
  | _ => exact absurd trivial hv

/-- A shift that a panic has unwound goes on to its end. -/
theorem Working.Steps.hurt {id : Nat} {p p' : Premises} {offered : Bool} {k k' : Working}
    (h : k.Steps id p offered k' p') (hk : ¬ k.Unhurt) : ¬ k'.Unhurt := by
  cases h with
  | @unwinds pos => cases pos <;> exact False.elim
  | @breaks k s needed hs hneeds hphase f =>
      cases k with
      | unwinding pos => cases hneeds
      | ended ending => cases hneeds
      | _ => exact absurd trivial hk
  | _ => exact absurd trivial hk

namespace Floor

/-- **Whoever is not unwound** in a move stays unhurt. -/
theorem unhurt_of_move {f f' : Floor} {m : Move} {i : Nat} (hmove : f.move? m = some f')
    (hm : m ≠ .unwind i) (hjoin : ∀ p, m = .join p → p.Unhurt)
    (h : ∀ p, f.people[i]? = some p → p.Unhurt) : ∀ p, f'.people[i]? = some p → p.Unhurt := by
  intro p hi
  cases becomes_of_move hmove hi with
  | stays hi' => exact h _ hi'
  | visits hi' hv => exact hv.unhurt (h _ hi')
  | works hi' hk => exact hk.unhurt (h _ hi')
  | closes hi' hk => trivial
  | swaps hi' hswap => cases hswap <;> trivial
  | unwinds hunwound hi' hunwind => exact absurd hunwound hm
  | comes hcome hlast => exact hjoin _ hcome

/-- A panic hurts. -/
theorem hurt_of_unwind? {p p' : Person} (h : p.unwind? = some p') : ¬ p'.Unhurt := by
  cases Person.unwinds_of_unwind? h <;> exact id

/-- **Person `i` is hurt**: a panic has unwound it. -/
def Hurt (f : Floor) (i : Nat) : Prop := ∃ p, f.people[i]? = some p ∧ ¬ p.Unhurt

/-- **Whoever is hurt** in a move was hurt before, or is unwound in it; and whoever is hurt stays
so. -/
theorem hurt_move {f f' : Floor} {m : Move} {i : Nat} (hmove : f.move? m = some f')
    (hjoin : ∀ p, m = .join p → p.Unhurt) : f'.Hurt i ↔ f.Hurt i ∨ m = .unwind i := by
  constructor
  · rintro ⟨p, hi, hp⟩
    by_contra hno
    obtain ⟨hunhurt, hm⟩ := not_or.1 hno
    refine hp (unhurt_of_move hmove hm hjoin (fun q hq => ?_) p hi)
    by_contra hhurt
    exact hunhurt ⟨q, hq, hhurt⟩
  · intro h
    rcases h with ⟨p, hi, hp⟩ | rfl
    · have hlt := (List.getElem?_eq_some_iff.1 hi).1
      obtain ⟨p', hi'⟩ : ∃ p', f'.people[i]? = some p' :=
        ⟨_, List.getElem?_eq_getElem (Nat.lt_of_lt_of_le hlt (length_le_of_move hmove))⟩
      refine ⟨p', hi', ?_⟩
      -- whoever has become something was what it was
      have was : ∀ {q : Person}, f.people[i]? = some q → ¬ q.Unhurt := fun hq hunhurt =>
        hp (Option.some.inj (hi.symm.trans hq) ▸ hunhurt)
      cases becomes_of_move hmove hi' with
      | stays hq => exact was hq
      | visits hq hv => exact hv.hurt (was hq)
      | works hq hk => exact hk.hurt (was hq)
      | closes hq hk => exact absurd trivial (was hq)
      | swaps hq hswap =>
          refine absurd ?_ (was hq)
          cases hswap <;> trivial
      | unwinds hm hq hunwind => exact hurt_of_unwind? hunwind
      | comes hm hlast => omega
    · obtain ⟨p, p', hi, hunwind, rfl⟩ := unwind?_eq_some hmove
      exact ⟨p', List.getElem?_set_self (List.getElem?_eq_some_iff.1 hi).1,
        hurt_of_unwind? hunwind⟩

/-- **Whoever was never unwound** is unhurt. -/
theorem unhurt_run {capacity workers minute clock i : Nat} {ms : List Move} {f : Floor}
    (hms : Regular workers ms) (hi : .unwind i ∉ ms)
    (hrun : run? ms (.opening (.furnish capacity workers minute) clock) = some f) :
    ∀ p, f.people[i]? = some p → p.Unhurt := by
  refine (regular_induction (motive := fun f => ∀ p, f.people[i]? = some p → p.Unhurt) hms ?_ ?_
    hrun).2
  · intro p hp
    simp [opening] at hp
  · intro m g g' ledgers hm _ hg hmove
    refine unhurt_of_move hmove (fun h => hi (h ▸ hm)) (fun p hp => ?_) hg
    rcases hms.begins p (hp ▸ hm) with ⟨c, rfl⟩ | ⟨w, -, rfl⟩ | rfl <;> trivial

/-! ## §5 — the theorem -/

/-- **No breach of the protocol is reachable.** Take an office with any number of workers, any
number of visits, shifts (no worker twice) and closes that begin at any moment, the shutdown and
panics at any moment, and any interleaving of all their steps. Then no shift has failed, and a visit
fails only after a close has begun and only because of its interruption. Whoever takes a section of
a slot finds it in the phase that the section needs. A worker that has received an assignment has
that of the customer who is bound to its slot, and the slot is published. A worker that offers
itself finds its own token taken. -/
theorem no_breach (capacity workers minute clock : Nat) (hword : workers ≤ wordMax)
    (ms : List Move) (hms : Regular workers ms) (f : Floor)
    (hrun : run? ms (.opening (.furnish capacity workers minute) clock) = some f) :
    (∀ (i w : Nat) (k : Working), f.people[i]? = some (.worker w k) →
      (∀ e, k.ending? ≠ some (.failed e)) ∧
      (∀ needed, k.needs? = some needed →
        ∃ s, f.premises.slots[w]? = some s ∧ s.phase = needed) ∧
      (∀ n a, k = .checkingReceived n a → ∃ s c, f.premises.slots[w]? = some s ∧
        .customer c ∈ f.badges ∧ a = c.assignment ∧ s.phase = .published ∧
        s.customer = some c.id) ∧
      (∀ n, k = .advertising n .token →
        ∃ s, f.premises.pool.slots[w]? = some s ∧ s.permits = 0)) ∧
    (∀ (i : Nat) (c : Customer) (v : Visiting), f.people[i]? = some (.customer c v) →
      (∀ e, v.failure? = some e → e = .interrupted ∧ f.Begun) ∧
      (∀ stay w d needed, v = .dealing stay w d → d.needs? = some needed →
        ∃ s, f.premises.slots[w]? = some s ∧ s.phase = needed)) := by
  obtain ⟨⟨ledgers, h⟩, -, -, hsound⟩ := sound_run hword hms hrun
  refine ⟨fun i w k hi => ⟨fun e he => ?_, fun needed hneeds => ?_, ?_, ?_⟩,
    fun i c v hi => ⟨hsound i _ hi, ?_⟩⟩
  · exact hsound i _ hi e (Working.eq_ended he)
  · obtain ⟨s, hs⟩ := h.slot (h.worker_fits hi).1
    exact ⟨s, hs, h.phase_of_worker hi hneeds hs⟩
  · rintro n a rfl
    exact h.received hi
  · rintro n rfl
    obtain ⟨s, hs, hpermits, -⟩ := h.token_taken hi
    exact ⟨s, hs, hpermits⟩
  · rintro stay w d needed rfl hneeds
    obtain ⟨s, hs⟩ := h.slot (h.fits i _ hi).1
    exact ⟨s, hs, h.phase_of_customer hi hneeds hs⟩

/-- A customer waits for a worker while the office is closed: its visit fails, and the close has
begun. -/
theorem no_breach_interrupted :
    let c : Customer := ⟨7, .mailPackage⟩
    let ms : List Move := [.join (.starts 0), .join (.arrives c), .join .closes, .step 1, .step 1,
      .step 1, .step 1, .step 1, .step 1, .step 2, .step 2, .step 1]
    1 ≤ wordMax ∧ Regular 1 ms ∧
      ∃ f, run? ms (.opening (.furnish 1 1 0) 0) = some f ∧
        f.people[1]? = some (.customer c (.leaving .counted (.failed .interrupted))) ∧
        f.Begun := by
  intro c ms
  have hms : Regular 1 ms := by decide
  obtain ⟨f, hrun, hleaves⟩ : ∃ f,
      run? ms (.opening (.furnish 1 1 0) 0) = some f ∧
        f.people[1]? = some (.customer c (.leaving .counted (.failed .interrupted))) :=
    ⟨_, rfl, rfl⟩
  have hfault := ((no_breach 1 1 0 0 (by decide) ms hms f hrun).2 1 c _ hleaves).1
  exact ⟨by decide, hms, f, hrun, hleaves, (hfault _ rfl).2⟩

end Floor

end Postal

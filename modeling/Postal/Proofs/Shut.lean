import Postal.Proofs.Standstill

/-!
# What a close has shut.

A close goes from door to door: the gate, the aggregate, the tokens, the scale and the slots. No
door is opened again, so whoever closes the office can rely on every door that it has passed
(`Closing.Shuts`), however many others come and go in between (`Floor.Bolted.move`). Once it has
passed them all nobody waits any more. Every wait in the office is a wait behind one of the doors,
and ends when that door is shut (`Floor.Kept.step_of_shut`).

## §1 — doors.
## §2 — doors that a close has passed.
## §3 — nobody waits behind a shut door.
-/

namespace Postal

/-! ## §1 — doors -/

/-- Everything in the office that can be shut. -/
inductive Door where
  | gate
  | aggregate
  | token (w : Nat)
  | scale
  | slot (w : Nat)

/-- Whether a door is shut. A door that is not there counts as shut. -/
def Premises.isShut (p : Premises) : Door → Bool
  | .gate => p.gate.permits.closed
  | .aggregate => p.pool.available.closed
  | .token w => (p.pool.slots[w]?).all (·.closed)
  | .scale => p.scale.permit.closed
  | .slot w => (p.slots[w]?).all (·.closed)

/-- Every door is shut. -/
def Premises.IsShut (p : Premises) : Prop := ∀ d, p.isShut d = true

namespace Premises

variable {p p' : Premises}

theorem IsShut.token (h : p.IsShut) {w : Nat} {s : Semaphore} (hs : p.pool.slots[w]? = some s) :
    s.closed = true := by
  have hdoor := h (.token w)
  simp only [isShut, hs, Option.all_some] at hdoor
  exact hdoor

theorem IsShut.slot (h : p.IsShut) {w : Nat} {s : Slot} (hs : p.slots[w]? = some s) :
    p.isSlotClosed w = true := by
  have hdoor := h (.slot w)
  simp only [isShut, hs, Option.all_some] at hdoor
  simp only [isSlotClosed, hs, Option.any_some]
  exact hdoor

/-- The token of a worker is closed. -/
theorem isShut_closeToken {w : Nat} {s : Semaphore} (hs : p.pool.slots[w]? = some s) :
    isShut { p with pool := p.pool.setSlot w s.close } (.token w) = true := by
  simp only [isShut, Pool.setSlot, List.getElem?_set_self (List.getElem?_eq_some_iff.1 hs).1,
    Option.all_some, Semaphore.close]

/-- The slot of a worker is closed. -/
theorem isShut_closeSlot {w : Nat} {s : Slot} (hs : p.slots[w]? = some s) :
    (p.setSlot w s.close).isShut (.slot w) = true := by
  simp only [isShut, setSlot, List.getElem?_set_self (List.getElem?_eq_some_iff.1 hs).1,
    Option.all_some, Slot.close]

/-- Behind the last token there is nothing that could be open. -/
theorem isShut_token_of_le {v w : Nat} (hs : p.pool.slots[w]? = none) (hw : w ≤ v) :
    p.isShut (.token v) = true := by
  have hnone := List.getElem?_eq_none (Nat.le_trans (List.getElem?_eq_none_iff.1 hs) hw)
  simp only [isShut, hnone, Option.all_none]

/-- Behind the last slot there is nothing that could be open. -/
theorem isShut_slot_of_le {v w : Nat} (hs : p.slots[w]? = none) (hw : w ≤ v) :
    p.isShut (.slot v) = true := by
  have hnone := List.getElem?_eq_none (Nat.le_trans (List.getElem?_eq_none_iff.1 hs) hw)
  simp only [isShut, hnone, Option.all_none]

/-- The doors are shut as the locks say. -/
theorem isShut_of_locks (h : p'.locks = p.locks) (hsize : p'.pool.size = p.pool.size) (d : Door) :
    p'.isShut d = p.isShut d := by
  have byMap : ∀ {A : Type} (f : A → Bool) (o : Option A), o.all f = (o.map f).all id := by
    intro A f o
    cases o <;> rfl
  obtain ⟨hgate, hrest⟩ := List.cons.inj h
  obtain ⟨haggregate, hrest⟩ := List.cons.inj hrest
  obtain ⟨hscale, hrest⟩ := List.cons.inj hrest
  obtain ⟨htokens, hslots⟩ := List.append_inj hrest (by simpa [Pool.size] using hsize)
  cases d with
  | gate => exact hgate
  | aggregate => exact haggregate
  | scale => exact hscale
  | token w =>
      simp only [isShut, byMap (fun s : Semaphore => s.closed), ← List.getElem?_map, htokens]
  | slot w =>
      simp only [isShut, byMap (fun s : Slot => s.closed), ← List.getElem?_map, hslots]

end Premises

/-- A step of a customer leaves the pool at its size. -/
theorem Visiting.Steps.pool_size {c : Customer} {p p' : Premises} {v v' : Visiting}
    (h : v.Steps c p v' p') : p'.pool.size = p.pool.size := by
  cases h with
  | claims hclaim => exact hclaim.size_eq
  | _ => rfl

/-- A step of a worker leaves the pool at its size. -/
theorem Working.Steps.pool_size {id : Nat} {p p' : Premises} {offered : Bool} {k k' : Working}
    (h : k.Steps id p offered k' p') : p'.pool.size = p.pool.size := by
  cases h with
  | advertises hoffer => exact hoffer.size_eq
  | _ => rfl

/-! ## §2 — doors that a close has passed -/

namespace Closing

/-- The doors that are behind somebody who closes the office. -/
def HasPassed : Closing → Door → Prop
  | .gate, _ => False
  | .pool .aggregate, .gate => True
  | .pool .aggregate, _ => False
  | .pool (.slot _), .gate | .pool (.slot _), .aggregate => True
  | .pool (.slot w), .token v => v < w
  | .pool (.slot _), _ => False
  | .scale, .gate | .scale, .aggregate | .scale, .token _ => True
  | .scale, _ => False
  | .slot w, .slot v => v < w
  | .slot _, _ => True
  | .ended, _ => True

/-- **`k.Shuts p`** — every door that the close has passed is shut. -/
def Shuts (p : Premises) (k : Closing) : Prop := ∀ d, k.HasPassed d → p.isShut d = true

variable {p p' : Premises} {k k' : Closing} {d : Door}

/-- A close goes on until it has ended. -/
theorem ended_of_step? (h : k.step? p = none) : k = .ended := by
  cases k with
  | ended => rfl
  | slot w =>
      simp only [step?] at h
      split at h <;> cases h
  | _ => cases h

/-- A step of a close opens nothing. -/
theorem Steps.isShut (h : k.Steps p k' p') (hd : p.isShut d = true) : p'.isShut d = true := by
  cases h with
  | gate => cases d <;> first | rfl | exact hd
  | aggregate => cases d <;> first | rfl | exact hd
  | scale => cases d <;> first | rfl | exact hd
  | tokens hs => exact hd
  | slots hs => exact hd
  | @token w s hs =>
      cases d with
      | token v =>
          by_cases hv : w = v
          · exact hv ▸ Premises.isShut_closeToken hs
          · simp only [Premises.isShut, Pool.setSlot, List.getElem?_set_ne hv]
            exact hd
      | _ => exact hd
  | @slot w s hs =>
      cases d with
      | slot v =>
          by_cases hv : w = v
          · exact hv ▸ Premises.isShut_closeSlot hs
          · simp only [Premises.isShut, Premises.setSlot, List.getElem?_set_ne hv]
            exact hd
      | _ => exact hd

/-- Whatever door a close passes in a step, it has shut that door. -/
theorem Steps.passes (h : k.Steps p k' p') (hd : k'.HasPassed d) :
    k.HasPassed d ∨ p'.isShut d = true := by
  cases h with
  | gate =>
      cases d with
      | gate => exact .inr rfl
      | _ => exact hd.elim
  | aggregate =>
      cases d with
      | gate => exact .inl trivial
      | aggregate => exact .inr rfl
      | token v => exact absurd hd (Nat.not_lt_zero v)
      | _ => exact hd.elim
  | @token w s hs =>
      cases d with
      | token v =>
          rcases Nat.lt_succ_iff_lt_or_eq.1 hd with hlt | rfl
          · exact .inl hlt
          · exact .inr (Premises.isShut_closeToken hs)
      | scale => exact hd.elim
      | slot v => exact hd.elim
      | _ => exact .inl trivial
  | @tokens w hs =>
      cases d with
      | token v =>
          exact (Nat.lt_or_ge v w).imp id (Premises.isShut_token_of_le hs)
      | scale => exact hd.elim
      | slot v => exact hd.elim
      | _ => exact .inl trivial
  | scale =>
      cases d with
      | scale => exact .inr rfl
      | slot v => exact absurd hd (Nat.not_lt_zero v)
      | _ => exact .inl trivial
  | @slot w s hs =>
      cases d with
      | slot v =>
          rcases Nat.lt_succ_iff_lt_or_eq.1 hd with hlt | rfl
          · exact .inl hlt
          · exact .inr (Premises.isShut_closeSlot hs)
      | _ => exact .inl trivial
  | @slots w hs =>
      cases d with
      | slot v =>
          exact (Nat.lt_or_ge v w).imp id (Premises.isShut_slot_of_le hs)
      | _ => exact .inl trivial

/-- **A step of a close** leaves every door shut that it has passed. -/
theorem Steps.shuts (h : k.Steps p k' p') (hk : k.Shuts p) : k'.Shuts p' := by
  intro d hd
  rcases h.passes hd with hpassed | hshut
  · exact h.isShut (hk d hpassed)
  · exact hshut

end Closing

namespace Floor

/-- **No move opens a door.** -/
theorem isShut_move {f f' : Floor} {m : Move} (hmove : f.move? m = some f') {d : Door}
    (hd : f.premises.isShut d = true) : f'.premises.isShut d = true := by
  cases m with
  | step i =>
      cases steps_of_step? hmove with
      | customer hi hv => exact (Premises.isShut_of_locks hv.locks_eq hv.pool_size d).trans hd
      | worker hi hk => exact (Premises.isShut_of_locks hk.locks_eq hk.pool_size d).trans hd
      | closer hi hk => exact hk.isShut hd
  | exchange i j =>
      obtain ⟨w, people', -, hex, rfl⟩ := exchanges_of_exchange? hmove
      exact hd
  | unwind i =>
      obtain ⟨p, p', hi, hunwind, rfl⟩ := unwind?_eq_some hmove
      exact hd
  | fire =>
      obtain rfl := Option.some.inj hmove
      cases d <;> exact hd
  | join p =>
      obtain rfl := Option.some.inj hmove
      exact hd

/-- **`f.Bolted`** — whoever closes the office has shut every door that it has passed. -/
def Bolted (f : Floor) : Prop :=
  ∀ (i : Nat) (k : Closing), f.people[i]? = some (.closer k) → k.Shuts f.premises

/-- Whoever closes the office was there before, unless it takes its next step or has just come. -/
theorem closer_of_move {f f' : Floor} {m : Move} (hmove : f.move? m = some f') {i : Nat}
    {k : Closing} (hi : f'.people[i]? = some (.closer k)) :
    f.people[i]? = some (.closer k) ∨ m = .join (.closer k) ∨
      ∃ k₀, f.people[i]? = some (.closer k₀) ∧ k₀.Steps f.premises k f'.premises := by
  -- nobody else turns into somebody who closes the office
  generalize hp : Person.closer k = p at hi
  cases becomes_of_move hmove hi with
  | stays hi' => exact .inl (hp ▸ hi')
  | visits hi' hv => cases hp
  | works hi' hk => cases hp
  | closes hi' hk =>
      obtain rfl := Person.closer.inj hp
      exact .inr (.inr ⟨_, hi', hk⟩)
  | swaps hi' hswap => cases hswap <;> cases hp
  | unwinds hm hi' hunwind => cases Person.unwinds_of_unwind? hunwind <;> cases hp
  | comes hm hlast => exact .inr (.inl (hp ▸ hm))

/-- **Every move** keeps the doors shut that a close has passed. -/
theorem Bolted.move {f f' : Floor} {m : Move} (h : f.Bolted) (hmove : f.move? m = some f')
    (hjoin : ∀ k, m = .join (.closer k) → k = .gate) : f'.Bolted := by
  intro i k hi
  rcases closer_of_move hmove hi with hi' | hm | ⟨k₀, hk₀, hstep⟩
  · exact fun d hd => isShut_move hmove (h i k hi' d hd)
  · obtain rfl := hjoin k hm
    exact fun d hd => hd.elim
  · exact hstep.shuts (h i k₀ hk₀)

/-- **Once a close has ended** every door is shut. -/
theorem Bolted.isShut {f : Floor} (h : f.Bolted) (hclosed : .closer .ended ∈ f.people) :
    f.premises.IsShut := by
  intro d
  obtain ⟨i, hi⟩ := List.mem_iff_getElem?.1 hclosed
  exact h i .ended hi d trivial

/-- **Whoever closes the office has shut every door that it has passed**, in every regular run. -/
theorem bolted_run {capacity workers minute clock : Nat} {ms : List Move} {f : Floor}
    (hms : Regular workers ms)
    (hrun : run? ms (.opening (.furnish capacity workers minute) clock) = some f) : f.Bolted := by
  refine (regular_induction (motive := Bolted) hms ?_ ?_ hrun).2
  · intro i k hi
    simp [opening] at hi
  · intro m g g' ledgers hm _ hg hmove
    apply hg.move hmove
    rintro k rfl
    rcases hms.begins _ hm with ⟨c, hc⟩ | ⟨w, -, hw⟩ | hk
    · cases hc
    · cases hw
    · exact Person.closer.inj hk

/-! ## §3 — nobody waits behind a shut door -/

section Shut

variable {workers : Nat} {f : Floor} {ledgers : Nat → Ledger}

/-- A worker goes on where all doors are shut, unless its shift is over. -/
theorem Kept.worker_goes_on (h : f.Kept workers ledgers) (hshut : f.premises.IsShut) {i w : Nat}
    {k : Working} (hi : f.people[i]? = some (.worker w k)) :
    k.ending?.isSome = true ∨ (k.step? w f.premises (f.offered w)).isSome = true := by
  have hw := (h.worker_fits hi).1
  obtain ⟨s, hs⟩ := h.slot hw
  have hslot := hshut.slot hs
  by_contra hstuck
  obtain ⟨hgoing, hnone⟩ := not_or.1 hstuck
  -- a worker that cannot step is parked, and no place to park at keeps it here
  have hdesk := Nat.lt_of_lt_of_eq hw h.slots.symm
  cases Working.parked_of_step? hdesk (Bool.eq_false_iff.2 hnone) with
  | awaitingPublish n =>
      apply hnone
      simp only [Working.step?, hslot, Bool.true_or, if_true, Option.isSome_some]
  | sendingAcknowledge n a =>
      apply hnone
      simp only [Working.step?, Service.step?, Service.orClosed, hslot, if_true, Option.isSome_map,
        Option.isSome_some]
  | awaitingProceed n a =>
      apply hnone
      simp only [Working.step?, Service.step?, Service.orClosed, hslot, if_true, Option.isSome_map,
        Option.isSome_some]
  | sendingCompletion n a =>
      apply hnone
      simp only [Working.step?, Service.step?, Service.orClosed, hslot, if_true, Option.isSome_map,
        Option.isSome_some]
  | queued n a ticket =>
      apply hnone
      have hscale : (f.premises.scale.acquire? (.acquiring (.queued ticket))).isSome = true := by
        apply Scale.acquire?_isSome
        intro position hpos
        rw [Semaphore.acquire?_closed (hshut .scale), Option.isSome_some]
      simp only [Working.step?, Service.step?, Option.isSome_map, hscale]
  | ended ending => exact hgoing rfl

/-- **The last slot keeps nobody** whose scan has come to it when all doors are shut: a scan stands
for a token, so the slot is there, and it is closed. -/
theorem Kept.last_of_shut (h : f.Kept workers ledgers) (hpromised : f.Promised)
    (hshut : f.premises.IsShut) {i : Nat} {c : Customer} {stay : Stay}
    {position : Semaphore.Acquiring}
    (hi : f.people[i]? = some (.customer c (.claiming stay (.last position)))) :
    ∃ s, f.premises.pool.slots[f.premises.pool.size - 1]? = some s ∧
      (s.acquire? position).isSome = true := by
  have hscan := le_tally (f := Person.scansFrom f.premises.pool.size 0) hi
  have hwhole := hpromised.whole
  have htokens := h.tokens_le
  simp only [scansFrom_claiming, Pool.scansFrom_last, Nat.zero_le, if_true] at hscan
  rw [pending] at hwhole
  have hlast : f.premises.pool.size - 1 < f.premises.pool.slots.length := by
    show f.premises.pool.size - 1 < f.premises.pool.size
    rw [h.pool]
    omega
  have hs := List.getElem?_eq_getElem hlast
  refine ⟨_, hs, ?_⟩
  rw [Semaphore.acquire?_closed (hshut.token hs), Option.isSome_some]

/-- A customer goes on where all doors are shut, unless its visit is over. -/
theorem Kept.customer_goes_on (h : f.Kept workers ledgers) (hpromised : f.Promised)
    (hshut : f.premises.IsShut) {i : Nat} {c : Customer} {v : Visiting}
    (hi : f.people[i]? = some (.customer c v)) :
    v.ending?.isSome = true ∨ (v.step? c f.premises).isSome = true := by
  by_contra hstuck
  obtain ⟨hgoing, hnone⟩ := not_or.1 hstuck
  have hparked : v.Parked := by
    refine h.customer_parked hi (fun stay position hv => ?_) (Bool.eq_false_iff.2 hnone)
    subst hv
    exact h.last_of_shut hpromised hshut hi
  -- no place to park at keeps a customer here
  cases hparked with
  | outside ticket =>
      apply hnone
      have hgate : (f.premises.gate.enter? (.acquiring (.queued ticket))).isSome = true := by
        apply Gate.enter?_isSome
        intro position hpos
        rw [Semaphore.acquire?_closed (hshut .gate), Option.isSome_some]
      simp only [Visiting.step?, Option.isSome_map, hgate]
  | waiting stay ticket =>
      apply hnone
      have hpool : (f.premises.pool.claim? (.aggregate (.queued ticket))).isSome = true := by
        apply Pool.claim?_isSome
        · intro position hpos
          rw [Semaphore.acquire?_closed (hshut .aggregate), Option.isSome_some]
        · intro slot hpos
          cases hpos
        · intro position hpos
          cases hpos
      simp only [Visiting.step?, Option.isSome_map, hpool]
  | dealing stay w hwaits =>
      obtain ⟨s, hs⟩ := h.slot (h.fits i _ hi).1
      have hslot := hshut.slot hs
      apply hnone
      cases ‹Dealing› <;> first
        | exact hwaits.elim
        | simp only [Visiting.step?, Visiting.deal?, Visiting.orClosed, hslot, if_true,
            Option.isSome_some]
  | ended ending => exact hgoing rfl

/-- **Nobody waits behind a shut door**: where all doors are shut everybody has ended or can go
on. -/
theorem Kept.step_of_shut (h : f.Kept workers ledgers) (hpromised : f.Promised)
    (hshut : f.premises.IsShut) {i : Nat} {p : Person} (hi : f.people[i]? = some p) :
    p.hasEnded = true ∨ (f.step? i).isSome = true := by
  cases p with
  | customer c v =>
      apply (h.customer_goes_on hpromised hshut hi).imp_right
      intro hstep
      exact step?_isSome hi (by rwa [Person.step?, Option.isSome_map])
  | worker w k =>
      apply (h.worker_goes_on hshut hi).imp_right
      intro hstep
      exact step?_isSome hi (by rwa [Person.step?, Option.isSome_map])
  | closer k =>
      cases hstep : k.step? f.premises with
      | none =>
          obtain rfl := Closing.ended_of_step? hstep
          exact .inl rfl
      | some next =>
          right
          apply step?_isSome hi
          rw [Person.step?, Option.isSome_map, hstep]
          rfl

/-- **Nothing is exchanged** where all doors are shut. -/
theorem Kept.no_exchange (h : f.Kept workers ledgers) (hshut : f.premises.IsShut) (i j : Nat) :
    f.exchange? i j = none := by
  cases hmove : f.exchange? i j with
  | none => rfl
  | some f' =>
      obtain ⟨w, people', hopen, hex, rfl⟩ := exchanges_of_exchange? hmove
      have hw : w < workers := by
        cases hex with
        | published hi hj => exact (h.worker_fits hj).1
        | acknowledged hi hj => exact (h.worker_fits hi).1
        | proceeded hi hj => exact (h.worker_fits hj).1
        | completed hi hj => exact (h.worker_fits hi).1
      obtain ⟨s, hs⟩ := h.slot hw
      rw [hshut.slot hs] at hopen
      cases hopen

end Shut

end Floor

end Postal

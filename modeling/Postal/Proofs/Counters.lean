import Postal.Proofs.Calm

/-!
# The counters of the gate and of the scale.

The gate counts who is inside, and the scale counts who holds it. Both counters are kept by the
people themselves, in steps apart from those that take or give back the permit. So a counter is the
tally of those who have raised it and not lowered it yet (`Floor.Counted`), and that holds in every
run: after a panic as well as during a close, since whoever is unwound or interrupted goes out
through the same steps.
-/

namespace Postal

/-! ## §1 — who is counted -/

/-- Whether a customer is counted inside, as a weight. -/
def Visiting.inside : Visiting → Nat
  | .announcingCreation | .entering _ | .leaving .releasing _ | .ended _ => 0
  | _ => 1

/-- Whether a worker is counted as a holder of the scale, as a weight. -/
def Working.holding : Working → Nat
  | .serving _ _ (.weighing (.noting _)) => 1
  | .serving _ a .announcingStart | .serving _ a (.busy _) => if a.task.needsScale then 1 else 0
  | .serving _ _ (.releasing .counted) | .unwinding .counted => 1
  | _ => 0

namespace Person

/-- Whether a person is counted inside, as a weight. -/
def inside : Person → Nat
  | .customer _ v => v.inside
  | _ => 0

/-- Whether a person is counted as a holder of the scale, as a weight. -/
def holding : Person → Nat
  | .worker _ k => k.holding
  | _ => 0

/-- Whoever has ended is not counted anywhere. -/
theorem counts_of_hasEnded {p : Person} (h : p.hasEnded = true) :
    p.inside = 0 ∧ p.holding = 0 := by
  cases p with
  | closer k => exact ⟨rfl, rfl⟩
  | customer c v =>
      cases v with
      | ended e => exact ⟨rfl, rfl⟩
      | _ => cases h
  | worker w k =>
      cases k with
      | ended e => exact ⟨rfl, rfl⟩
      | _ => cases h

/-- A panic takes nobody out of a counter. -/
theorem unwind?_counts {p p' : Person} (h : p.unwind? = some p') :
    p'.inside = p.inside ∧ p'.holding = p.holding := by
  cases unwinds_of_unwind? h with
  | weighing hneeds => exact ⟨rfl, (if_pos hneeds).symm⟩
  | @working w k e he hscale =>
      refine ⟨rfl, ?_⟩
      cases k with
      | serving n a position =>
          cases position with
          | announcingStart => exact (if_neg (Bool.eq_false_iff.1 hscale)).symm
          | _ => first | rfl | cases he
      | _ => first | rfl | cases he
  | _ => exact ⟨rfl, rfl⟩

/-- A panic sends nobody to the scale. -/
theorem unwind?_apt {p p' : Person} (h : p.unwind? = some p') : p'.Apt := by
  cases unwinds_of_unwind? h <;> trivial

end Person

/-- Nobody is counted or uncounted by an exchange. -/
theorem Floor.Swaps.inside {p p' : Person} (h : Swaps p p') : p'.inside = p.inside := by
  cases h <;> rfl

theorem Floor.Swaps.holding {p p' : Person} (h : Swaps p p') : p'.holding = p.holding := by
  cases h <;> rfl

/-! ## §2 — single steps -/

/-- **A step of a customer** keeps the count of the gate. -/
theorem Visiting.Steps.counts {c : Customer} {p p' : Premises} {v v' : Visiting}
    (h : v.Steps c p v' p') (hcounted : v.inside ≤ p.gate.occupancy) :
    p'.gate.occupancy + v.inside = p.gate.occupancy + v'.inside := by
  cases h with
  | @enters pos progress gate henter => cases Gate.enters_of_enter? henter <;> rfl
  | @claims stay pos progress pool hclaim =>
      have hinside :
          (progress.within (.claiming stay) (afterSearch p.workerCount stay)).inside = 1 := by
        rcases progress with pos' | ⟨e | worker⟩
        · rfl
        · rfl
        · simp only [Progress.within, afterSearch]
          split <;> rfl
      rw [hinside]
      rfl
  | stepsOut => exact Nat.sub_add_cancel hcounted
  | _ => rfl

/-- **A step of a worker** keeps the count of the scale. -/
theorem Working.Steps.counts {id : Nat} {p p' : Premises} {offered : Bool} {k k' : Working}
    (h : k.Steps id p offered k' p') (hapt : k.Apt) (hcounted : k.holding ≤ p.scale.holders) :
    p'.scale.holders + k.holding = p.scale.holders + k'.holding := by
  cases h with
  | @advertises n pos progress pool hoffer => rcases progress with pos' | ⟨e | ⟨⟩⟩ <;> rfl
  | @interrupted n a position hwaits hclosed =>
      cases position <;> first | rfl | exact hwaits.elim
  | @starts n a s hs hphase =>
      show p.scale.holders + 0 = _
      cases hneeds : a.task.needsScale with
      | true => rfl
      | false =>
          show _ = p.scale.holders + if a.task.needsScale then 1 else 0
          rw [hneeds]
          rfl
  | @weighs n a pos progress scale hacq =>
      have hneeds : a.task.needsScale = true := hapt
      cases Scale.acquires_of_acquire? hacq with
      | @refused pos f permit hpermit =>
          have hstop : (stop id n f).holding = 0 := by cases f <;> rfl
          show _ = _ + (stop id n f).holding
          rw [hstop]
          rfl
      | notes =>
          show _ = _ + if a.task.needsScale then 1 else 0
          rw [hneeds]
          rfl
      | _ => rfl
  | @works n deadline a =>
      show p.scale.holders + (if a.task.needsScale then 1 else 0) = _
      cases a.task.needsScale <;> rfl
  | @drops n a pos =>
      cases pos with
      | counted => exact Nat.sub_add_cancel hcounted
      | releasing => rfl
  | @unwinds pos =>
      cases pos with
      | counted => exact Nat.sub_add_cancel hcounted
      | releasing => rfl
  | @breaks k s needed hs hneeds hphase f =>
      cases k with
      | serving n a position => cases position <;> first | rfl | cases hneeds
      | opening n => rfl
      | checkingReceived n a => rfl
      | _ => cases hneeds
  | _ => rfl

/-! ## §3 — the floor -/

namespace Floor

/-- **`f.Counted`** — the gate counts those who are inside and the scale counts those who hold it.
-/
structure Counted (f : Floor) : Prop where
  apt : ∀ (i : Nat) (p : Person), f.people[i]? = some p → p.Apt
  inside : f.premises.gate.occupancy = tally Person.inside f.people
  holding : f.premises.scale.holders = tally Person.holding f.people

theorem counted_opening (capacity workers minute clock : Nat) :
    (opening (.furnish capacity workers minute) clock).Counted where
  apt i p hi := by simp [opening] at hi
  inside := rfl
  holding := rfl

/-- One person steps, and both counters follow. -/
theorem Counted.set {f : Floor} (h : f.Counted) {i : Nat} {p p' : Person} {premises' : Premises}
    (hi : f.people[i]? = some p) (hapt : p'.Apt)
    (hinside : premises'.gate.occupancy + p.inside = f.premises.gate.occupancy + p'.inside)
    (hholding : premises'.scale.holders + p.holding = f.premises.scale.holders + p'.holding) :
    Counted ⟨premises', f.people.set i p'⟩ := by
  refine ⟨?_, ?_, ?_⟩
  · intro j q hj
    rcases getElem?_set_cases hj with ⟨-, rfl⟩ | ⟨-, hj'⟩
    · exact hapt
    · exact h.apt j q hj'
  · have hset := tally_set (f := Person.inside) hi p'
    have hcount := h.inside
    show premises'.gate.occupancy = tally Person.inside (f.people.set i p')
    omega
  · have hset := tally_set (f := Person.holding) hi p'
    have hcount := h.holding
    show premises'.scale.holders = tally Person.holding (f.people.set i p')
    omega

/-- **A step** keeps both counters. -/
theorem Counted.step {f f' : Floor} (h : f.Counted) {i : Nat} (hstep : f.Steps i f') :
    f'.Counted := by
  cases hstep with
  | customer hi hv =>
      refine h.set hi trivial ?_ ?_
      · apply hv.counts
        rw [h.inside]
        exact le_tally (f := Person.inside) hi
      · rw [hv.scale_eq]
        rfl
  | worker hi hk =>
      have hapt := h.apt _ _ hi
      refine h.set hi (hk.apt hapt) ?_ ?_
      · rw [hk.gate_eq]
        rfl
      · apply hk.counts hapt
        rw [h.holding]
        exact le_tally (f := Person.holding) hi
  | closer hi hk =>
      refine h.set hi trivial ?_ ?_
      · cases hk <;> rfl
      · cases hk <;> rfl

/-- **Every move** keeps both counters. -/
theorem Counted.move {f f' : Floor} {m : Move} (h : f.Counted) (hmove : f.move? m = some f')
    (hjoin : ∀ p, m = .join p → p.Apt ∧ p.inside = 0 ∧ p.holding = 0) : f'.Counted := by
  cases m with
  | step i => exact h.step (steps_of_step? hmove)
  | exchange i j =>
      obtain ⟨w, people', -, hex, rfl⟩ := exchanges_of_exchange? hmove
      refine ⟨?_, ?_, ?_⟩
      · obtain ⟨a, a', b, b', ha, hb, -, haa', hbb', rfl⟩ := hex.swaps
        intro k p hk
        rcases getElem?_set_cases hk with ⟨-, rfl⟩ | ⟨-, hk'⟩
        · exact hbb'.well.apt
        · rcases getElem?_set_cases hk' with ⟨-, rfl⟩ | ⟨-, hk''⟩
          · exact haa'.well.apt
          · exact h.apt k p hk''
      · rw [hex.tally_eq Swaps.inside]
        exact h.inside
      · rw [hex.tally_eq Swaps.holding]
        exact h.holding
  | unwind i =>
      obtain ⟨p, p', hi, hunwind, rfl⟩ := unwind?_eq_some hmove
      obtain ⟨hinside, hholding⟩ := Person.unwind?_counts hunwind
      exact h.set hi (Person.unwind?_apt hunwind) (by rw [hinside]) (by rw [hholding])
  | fire =>
      obtain rfl := Option.some.inj hmove
      exact ⟨h.apt, h.inside, h.holding⟩
  | join p =>
      obtain rfl := Option.some.inj hmove
      obtain ⟨hapt, hinside, hholding⟩ := hjoin p rfl
      refine ⟨?_, ?_, ?_⟩
      · intro i q hi
        rcases getElem?_concat_cases hi with hi' | ⟨-, rfl⟩
        · exact h.apt i q hi'
        · exact hapt
      · rw [Floor.join, tally_concat, hinside]
        exact h.inside
      · rw [Floor.join, tally_concat, hholding]
        exact h.holding

/-- **The counters are right** in every regular run. -/
theorem counted_run {capacity workers minute clock : Nat} {ms : List Move} {f : Floor}
    (hms : Regular workers ms)
    (hrun : run? ms (.opening (.furnish capacity workers minute) clock) = some f) : f.Counted := by
  refine (regular_induction (motive := Counted) hms (counted_opening _ _ _ _) ?_ hrun).2
  intro m g g' ledgers hm _ hg hmove
  apply hg.move hmove
  rintro p rfl
  rcases hms.begins p hm with ⟨c, rfl⟩ | ⟨w, -, rfl⟩ | rfl
  · exact ⟨trivial, rfl, rfl⟩
  · exact ⟨trivial, rfl, rfl⟩
  · exact ⟨trivial, rfl, rfl⟩

/-- **When everybody has ended** nobody is inside and nobody holds the scale. -/
theorem Counted.nobody {f : Floor} (h : f.Counted) (hended : ∀ p ∈ f.people, p.hasEnded = true) :
    f.premises.gate.occupancy = 0 ∧ f.premises.scale.holders = 0 := by
  have hcounts : ∀ p ∈ f.people, p.inside = 0 ∧ p.holding = 0 := fun p hp =>
    Person.counts_of_hasEnded (hended p hp)
  rw [h.inside, h.holding]
  exact ⟨tally_eq_zero_of_mem fun p hp => (hcounts p hp).1,
    tally_eq_zero_of_mem fun p hp => (hcounts p hp).2⟩

end Floor

end Postal

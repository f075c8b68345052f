import Postal.Proofs.Counters
import Postal.Proofs.Measure
import Postal.Proofs.Shut

/-!
# A close frees everybody.

Once a close has passed every door nobody depends on anybody else any more. Nobody waits, nothing is
exchanged, and so each call is left to its own steps. A step takes something away from what the
caller has left, and a worker that passes the head of its loop does not come back there, since its
next service would need an exchange. So every call ends after a bounded number of its own steps
(`Floor.close_frees_everybody`).

## §1 — what everybody has left to do alone.
## §2 — a run behind shut doors.
## §3 — the theorem.
-/

namespace Postal

/-! ## §1 — what everybody has left to do alone -/

/-- Steps that a person has left when nobody exchanges anything with it. -/
def Person.leftAlone (workers : Nat) : Person → Nat
  | .customer _ v => v.left (.ofWorkers workers)
  | .worker _ k => k.left
  | .closer k => k.left workers

theorem Semaphore.Acquiring.left_le (pos : Semaphore.Acquiring) : pos.left ≤ 2 := by
  cases pos with
  | arriving => exact Nat.le_refl 2
  | queued ticket => exact Nat.le_succ 1

theorem Visiting.left_le (pool : Pool) (v : Visiting) : v.left pool ≤ pool.size + 49 := by
  cases v with
  | entering pos =>
      cases pos with
      | acquiring pos =>
          have hpos := pos.left_le
          simp only [left, Gate.Entering.left]
          omega
      | counting ticket =>
          simp only [left, Gate.Entering.left]
          omega
  | claiming stay pos =>
      cases pos with
      | aggregate pos =>
          have hpos := pos.left_le
          simp only [left, Pool.Claiming.left]
          omega
      | probing w =>
          simp only [left, Pool.Claiming.left]
          omega
      | last pos =>
          have hpos := pos.left_le
          simp only [left, Pool.Claiming.left]
          omega
  | dealing stay w d =>
      have hdeal : d.left ≤ 39 := by cases d <;> decide
      simp only [left]
      omega
  | leaving pos ending =>
      cases pos <;> simp only [left] <;> omega
  | _ =>
      simp only [left]
      omega

theorem Working.left_le (k : Working) : k.left ≤ 26 := by
  cases k with
  | advertising n pos =>
      cases pos <;> simp only [left] <;> omega
  | serving n a position =>
      cases position with
      | weighing pos =>
          cases pos with
          | acquiring pos =>
              have hpos := pos.left_le
              simp only [left, Service.left, Scale.Acquiring.left]
              omega
          | _ =>
              simp only [left, Service.left, Scale.Acquiring.left]
              omega
      | releasing pos =>
          cases pos <;> simp only [left, Service.left, Scale.Dropping.left] <;> omega
      | _ =>
          simp only [left, Service.left]
          omega
  | unwinding pos =>
      cases pos <;> simp only [left, Scale.Dropping.left] <;> omega
  | _ =>
      simp only [left]
      omega

/-- Nobody ever has more left than this. -/
theorem Person.leftAlone_le (workers : Nat) (p : Person) :
    p.leftAlone workers ≤ 2 * workers + 49 := by
  cases p with
  | customer c v =>
      have hvisit := v.left_le (.ofWorkers workers)
      have hsize : (Pool.ofWorkers workers).size = workers := by simp [Pool.ofWorkers, Pool.size]
      simp only [leftAlone]
      omega
  | worker w k =>
      have hshift := k.left_le
      simp only [leftAlone]
      omega
  | closer k =>
      cases k with
      | pool pos =>
          cases pos <;> simp only [leftAlone, Closing.left] <;> omega
      | _ => simp only [leftAlone, Closing.left]; omega

/-- A panic leaves less to do. -/
theorem Person.unwind?_leftAlone_lt {workers : Nat} {p p' : Person} (h : p.unwind? = some p') :
    p'.leftAlone workers < p.leftAlone workers := by
  have hless := unwind?_left_lt (.ofWorkers workers) h
  cases unwinds_of_unwind? h <;> exact hless

/-- Whether a worker is at the head of its loop, as a weight. -/
def Working.heading : Working → Nat
  | .deciding _ => 1
  | _ => 0

/-- How often a worker can still pass the head of its loop when nobody exchanges anything with
it. -/
def Working.headsLeft : Working → Nat
  | .arriving | .announcingCreation | .deciding _ | .serving _ _ .settling => 1
  | _ => 0

/-- **A step of a worker** passes the head of its loop, or leaves it ahead at most as often. -/
theorem Working.Steps.heads_le {id : Nat} {p p' : Premises} {offered : Bool} {k k' : Working}
    (h : k.Steps id p offered k' p') : k.heading + k'.headsLeft ≤ k.headsLeft := by
  cases h with
  | @advertises n pos progress pool hoffer =>
      rcases progress with pos' | ⟨e | ⟨⟩⟩ <;> exact Nat.le_refl 0
  | interrupted hwaits hclosed => exact Nat.zero_le _
  | @starts n a s hs hphase => cases a.task.needsScale <;> exact Nat.le_refl 0
  | @weighs n a pos progress scale hacq =>
      rcases progress with pos' | ⟨e | ⟨⟩⟩
      · exact Nat.le_refl 0
      · cases e <;> exact Nat.le_refl 0
      · exact Nat.le_refl 0
  | @works n deadline a => cases a.task.needsScale <;> exact Nat.le_refl 0
  | @drops n a pos => cases pos <;> exact Nat.le_refl 0
  | @unwinds pos => cases pos <;> exact Nat.le_refl 0
  | @breaks k s needed hs hneeds hphase f =>
      cases k with
      | deciding n => cases hneeds
      | _ => exact Nat.zero_le _
  | unknown hge => exact Nat.zero_le 1
  | _ => exact Nat.le_refl _

namespace Person

/-- Whether a person is a worker at the head of its loop, as a weight. -/
def heading : Person → Nat
  | .worker _ k => k.heading
  | _ => 0

/-- How often a person can still pass the head of a loop when nobody exchanges anything with it. -/
def headsLeft : Person → Nat
  | .worker _ k => k.headsLeft
  | _ => 0

theorem headsLeft_le (p : Person) : p.headsLeft ≤ 1 := by
  cases p with
  | worker w k =>
      cases k with
      | serving n a position => cases position <;> simp [headsLeft, Working.headsLeft]
      | _ => simp [headsLeft, Working.headsLeft]
  | _ => exact Nat.zero_le 1

/-- Nobody who is unwound by a panic is at the head of a loop, or comes to one. -/
theorem unwind?_heads_le {p p' : Person} (h : p.unwind? = some p') :
    p.heading + p'.headsLeft ≤ p.headsLeft := by
  cases unwinds_of_unwind? h with
  | @working w k e he hscale =>
      cases k with
      | deciding n => cases he
      | _ => exact Nat.zero_le _
  | _ => exact Nat.zero_le _

end Person

namespace Floor

/-! ## §2 — a run behind shut doors -/

/-- **`f.Goes p p'`** — what a move of its own makes of a person: a step, or a panic. -/
inductive Goes (f : Floor) : Person → Person → Prop
  | visits {c : Customer} {v v' : Visiting} {p' : Premises} (h : v.Steps c f.premises v' p') :
      Goes f (.customer c v) (.customer c v')
  | works {w : Nat} {k k' : Working} {offered : Bool} {p' : Premises}
      (h : k.Steps w f.premises offered k' p') : Goes f (.worker w k) (.worker w k')
  | closes {k k' : Closing} {p' : Premises} (h : k.Steps f.premises k' p') :
      Goes f (.closer k) (.closer k')
  | unwinds {p p' : Person} (h : p.unwind? = some p') : Goes f p p'

/-- Whether a move is one of person `i` alone: its step, or its panic. -/
def Move.isOf (i : Nat) : Move → Bool
  | .step j | .unwind j => i == j
  | _ => false

/-- A move of person `i` takes that person further. -/
theorem goes_of_move {f f' : Floor} {m : Move} {i : Nat} (hmove : f.move? m = some f')
    (hm : m.isOf i = true) :
    ∃ p p', f.people[i]? = some p ∧ f'.people[i]? = some p' ∧ f.Goes p p' := by
  cases m with
  | step j =>
      obtain rfl : i = j := by simpa [Move.isOf] using hm
      cases steps_of_step? hmove with
      | customer hi hv =>
          exact ⟨_, _, hi, List.getElem?_set_self (List.getElem?_eq_some_iff.1 hi).1, .visits hv⟩
      | worker hi hk =>
          exact ⟨_, _, hi, List.getElem?_set_self (List.getElem?_eq_some_iff.1 hi).1, .works hk⟩
      | closer hi hk =>
          exact ⟨_, _, hi, List.getElem?_set_self (List.getElem?_eq_some_iff.1 hi).1, .closes hk⟩
  | unwind j =>
      obtain rfl : i = j := by simpa [Move.isOf] using hm
      obtain ⟨p, p', hi, hunwind, rfl⟩ := unwind?_eq_some hmove
      exact ⟨p, p', hi, List.getElem?_set_self (List.getElem?_eq_some_iff.1 hi).1,
        .unwinds hunwind⟩
  | exchange j k => cases hm
  | fire => cases hm
  | join p => cases hm

/-- A move of somebody else that exchanges nothing leaves person `i` where it is. -/
theorem stays_of_move {f f' : Floor} {m : Move} {i : Nat} {p : Person}
    (hmove : f.move? m = some f') (hm : m.isOf i = false) (hno : ∀ j k, m ≠ .exchange j k)
    (hi : f.people[i]? = some p) : f'.people[i]? = some p := by
  cases m with
  | step j =>
      have hij : j ≠ i := by
        rintro rfl
        simp [Move.isOf] at hm
      obtain ⟨q, q', premises', hj, hstep, rfl⟩ := step?_eq_some hmove
      exact (List.getElem?_set_ne hij).trans hi
  | unwind j =>
      have hij : j ≠ i := by
        rintro rfl
        simp [Move.isOf] at hm
      obtain ⟨q, q', hj, hunwind, rfl⟩ := unwind?_eq_some hmove
      exact (List.getElem?_set_ne hij).trans hi
  | exchange j k => exact absurd rfl (hno j k)
  | fire =>
      obtain rfl := Option.some.inj hmove
      exact hi
  | join q =>
      obtain rfl := Option.some.inj hmove
      exact (List.getElem?_append_left (List.getElem?_eq_some_iff.1 hi).1).trans hi

/-- What person `i` spends in a run when each of its own moves costs what `cost` says. -/
def spent (cost : Person → Nat) (i : Nat) : List Move → Floor → Nat
  | [], _ => 0
  | m :: ms, f =>
    (if m.isOf i then ((f.people[i]?).map cost).getD 0 else 0) +
      ((f.move? m).map (spent cost i ms)).getD 0

/-- **How often person `i` passes the head of its loop** in a run. -/
def rounds (i : Nat) (ms : List Move) (f : Floor) : Nat := spent Person.heading i ms f

theorem spent_cons {cost : Person → Nat} {i : Nat} {m : Move} {ms : List Move} {f f' : Floor}
    (hmove : f.move? m = some f') :
    spent cost i (m :: ms) f =
      (if m.isOf i then ((f.people[i]?).map cost).getD 0 else 0) + spent cost i ms f' := by
  simp only [spent, hmove, Option.map_some, Option.getD_some]

/-- Moves that cost one each are counted. -/
theorem spent_one {i : Nat} {ms : List Move} {f f' : Floor} (hrun : run? ms f = some f') :
    spent (fun _ => 1) i ms f = ms.countP (·.isOf i) := by
  induction ms generalizing f with
  | nil => rfl
  | cons m ms ih =>
      obtain ⟨f₁, hmove, hrest⟩ := Option.bind_eq_some_iff.1 hrun
      rw [spent_cons hmove, ih hrest, List.countP_cons, Nat.add_comm]
      congr 1
      by_cases hm : m.isOf i = true
      · obtain ⟨p, p', hi, -⟩ := goes_of_move hmove hm
        simp [hm, hi]
      · simp [hm]

section Shut

variable {workers : Nat} {f f' : Floor} {ms : List Move}

/-- **What is spent behind shut doors is bounded**: when whatever somebody spends is taken away from
what it has left, it spends no more than anybody can have left. -/
theorem spent_le (hkept : ∃ ledgers, f.Kept workers ledgers) (hshut : f.premises.IsShut)
    (hbegins : ∀ p, .join p ∈ ms → (∃ c, p = .arrives c) ∨ (∃ w, w < workers ∧ p = .starts w) ∨
      p = .closes)
    (honce : ∀ w, (f.badges ++ newcomers ms).count (.worker w) ≤ 1)
    (hrun : run? ms f = some f') {cost : Person → Nat} (left : Person → Nat) {bound : Nat}
    (hgoes : ∀ {g : Floor} {p p' : Person}, g.premises.pool.size = workers →
      g.premises.slots.length = workers → g.Goes p p' → cost p + left p' ≤ left p)
    (hbound : ∀ p, left p ≤ bound) (i : Nat) : spent cost i ms f ≤ bound := by
  -- the motive: what was spent so far, and what person `i` has left, or will have when it comes
  have hend := (kept_induction (motive := fun rest g => g.premises.IsShut ∧
    ∃ sofar, spent cost i ms f = sofar + spent cost i rest g ∧
      sofar + ((g.people[i]?).map left).getD bound ≤ bound) hkept hbegins honce ?_ ?_ hrun).2
  · obtain ⟨-, sofar, hspent, hle⟩ := hend
    rw [show spent cost i [] f' = 0 from rfl, Nat.add_zero] at hspent
    omega
  · refine ⟨hshut, 0, (Nat.zero_add _).symm, ?_⟩
    rw [Nat.zero_add]
    cases f.people[i]? with
    | none => exact Nat.le_refl bound
    | some p => exact hbound p
  · rintro m rest g g' ledgers - hkept ⟨hshut, sofar, hspent, hle⟩ hmove
    refine ⟨fun d => isShut_move hmove (hshut d), ?_⟩
    rw [spent_cons hmove] at hspent
    by_cases hm : m.isOf i = true
    · obtain ⟨p, p', hi, hi', hown⟩ := goes_of_move hmove hm
      have htaken := hgoes hkept.pool hkept.slots hown
      refine ⟨sofar + cost p, ?_, ?_⟩
      · rw [hspent, if_pos hm, hi, Option.map_some, Option.getD_some, Nat.add_assoc]
      · rw [hi, Option.map_some, Option.getD_some] at hle
        rw [hi', Option.map_some, Option.getD_some]
        omega
    · refine ⟨sofar, ?_, ?_⟩
      · rw [hspent, if_neg hm, Nat.zero_add]
      · cases hi : g.people[i]? with
        | some p =>
            have hno : ∀ j k, m ≠ .exchange j k := by
              rintro j k rfl
              have hnone := hkept.no_exchange hshut j k
              cases hnone.symm.trans hmove
            rw [stays_of_move hmove (eq_false_of_ne_true hm) hno hi]
            rw [hi] at hle
            exact hle
        | none =>
            -- whoever comes in as person `i` has no more left than anybody
            rw [hi, Option.map_none, Option.getD_none] at hle
            cases g'.people[i]? with
            | none => exact hle
            | some p =>
                have hp := hbound p
                rw [Option.map_some, Option.getD_some]
                omega

end Shut

/-! ## §3 — the theorem -/

theorem Goes.left_lt {f : Floor} {p p' : Person} {workers : Nat} (h : f.Goes p p')
    (hpool : f.premises.pool.size = workers) (hslots : f.premises.slots.length = workers) :
    p'.leftAlone workers < p.leftAlone workers := by
  cases h with
  | visits hv =>
      apply hv.left_lt
      rw [hpool]
      simp [Pool.ofWorkers, Pool.size]
  | works hk => exact hk.left_lt
  | closes hk => exact hk.left_lt hpool hslots
  | unwinds hunwind => exact Person.unwind?_leftAlone_lt hunwind

theorem Goes.heads_le {f : Floor} {p p' : Person} (h : f.Goes p p') :
    p.heading + p'.headsLeft ≤ p.headsLeft := by
  cases h with
  | visits hv => exact Nat.le_refl 0
  | works hk => exact hk.heads_le
  | closes hk => exact Nat.le_refl 0
  | unwinds hunwind => exact Person.unwind?_heads_le hunwind

/-- **A close frees everybody.** Take an office, any number of visits and closes, a shift for each
worker at most, the shutdown and panics at any moment, and any interleaving of all their steps; and
let one of the closes have ended. From then on, whatever happens and whoever still comes: everybody
has ended or can take a step, and nobody needs anybody else for it. Nobody takes more than
`2 * workers + 49` further steps, and no worker passes the head of its loop more than once. A visit
that ends has returned or was interrupted, and a shift that ends has returned its report, unless a
panic has unwound just that person. When everybody has ended, nobody is counted inside or at the
scale. -/
theorem close_frees_everybody (capacity workers minute clock : Nat) (hword : workers ≤ wordMax)
    (ms ms' : List Move) (hms : Regular workers (ms ++ ms')) (f f' : Floor)
    (hrun : run? ms (.opening (.furnish capacity workers minute) clock) = some f)
    (hclosed : .closer .ended ∈ f.people) (hrest : run? ms' f = some f') :
    (∀ (i : Nat) (p : Person), f'.people[i]? = some p →
      p.hasEnded = true ∨ (f'.step? i).isSome = true) ∧
    (∀ i j, f'.exchange? i j = none) ∧
    (∀ i, ms'.countP (·.isOf i) ≤ 2 * workers + 49 ∧ rounds i ms' f ≤ 1) ∧
    (∀ (i : Nat) (c : Customer) (v : Visiting) (e : Ending Visit),
      f'.people[i]? = some (.customer c v) → v.ending? = some e →
        (∃ visit, e = .returned visit) ∨ e = .failed .interrupted ∨
          e = .panicked ∧ .unwind i ∈ ms ++ ms') ∧
    (∀ (i w : Nat) (k : Working) (e : Ending WorkerReport),
      f'.people[i]? = some (.worker w k) → k.ending? = some e →
        (∃ r, e = .returned r) ∨ e = .panicked ∧ .unwind i ∈ ms ++ ms') ∧
    ((∀ p ∈ f'.people, p.hasEnded = true) →
      f'.premises.gate.occupancy = 0 ∧ f'.premises.scale.holders = 0) := by
  have hwhole := run?_append hrun hrest
  obtain ⟨hkept, -, -, -⟩ := sound_run hword hms.of_append hrun
  obtain ⟨⟨ledgers', hkept'⟩, hpromised', -, hsound'⟩ := sound_run hword hms hwhole
  have hshut := (bolted_run hms.of_append hrun).isShut hclosed
  have hshut' : f'.premises.IsShut :=
    (run_induction (motive := fun _ g => g.premises.IsShut)
      (fun hg hmove d => isShut_move hmove (hg d)) hshut hrest)
  have hbegins := fun p hp => hms.begins p (List.mem_append_right _ hp)
  have honce : ∀ w, (f.badges ++ newcomers ms').count (.worker w) ≤ 1 := by
    intro w
    have hbadges : f.badges = newcomers ms := badges_run hrun
    rw [hbadges, ← newcomers_append]
    exact hms.once w
  have hhurt : ∀ (i : Nat) (p : Person), f'.people[i]? = some p → ¬ p.Unhurt →
      .unwind i ∈ ms ++ ms' := by
    intro i p hi hhurt
    by_contra hno
    exact hhurt (unhurt_run hms hno hwhole p hi)
  refine ⟨?_, ?_, ?_, ?_, ?_, ?_⟩
  · intro i p hi
    exact hkept'.step_of_shut hpromised' hshut' hi
  · intro i j
    exact hkept'.no_exchange hshut' i j
  · intro i
    constructor
    · rw [← spent_one hrest]
      refine spent_le hkept hshut hbegins honce hrest (Person.leftAlone workers)
        (fun hpool hslots hgoes => ?_) (Person.leftAlone_le workers) i
      have hless := hgoes.left_lt hpool hslots
      omega
    · exact spent_le hkept hshut hbegins honce hrest Person.headsLeft
        (fun _ _ hgoes => hgoes.heads_le) Person.headsLeft_le i
  · intro i c v e hi he
    exact ((hsound' i _ hi).visit_ending he).imp_right
      (.imp_right fun hpanicked => ⟨hpanicked.1, hhurt i _ hi hpanicked.2⟩)
  · intro i w k e hi he
    exact ((hsound' i _ hi).shift_ending he).imp_right
      fun hpanicked => ⟨hpanicked.1, hhurt i _ hi hpanicked.2⟩
  · intro hended
    exact (counted_run hms hwhole).nobody hended

/-- The office is closed while a worker is on the way to the scale and its customer waits for the
completion: both go on alone, the worker reports and the customer is interrupted. -/
theorem close_frees_everybody_serving :
    let c : Customer := ⟨7, .mailPackage⟩
    let ms : List Move := List.flatten [[.join (.starts 0), .join (.arrives c)],
      .replicate 7 (.step 0), .replicate 10 (.step 1), [.exchange 1 0, .step 0, .step 0, .step 0,
      .exchange 0 1, .step 1, .step 1, .exchange 1 0, .step 0, .join .closes],
      .replicate 7 (.step 2)]
    let ms' : List Move := [.step 0, .step 1, .step 0, .step 1, .step 0, .step 1]
    1 ≤ wordMax ∧ Regular 1 (ms ++ ms') ∧
      ∃ f f', run? ms (.opening (.furnish 1 1 0) 0) = some f ∧ .closer .ended ∈ f.people ∧
        run? ms' f = some f' ∧
        f'.people = [.worker 0 (.ended (.returned ⟨0, 0⟩)),
          .customer c (.ended (.failed .interrupted)), .closer .ended] ∧
        (∀ i, rounds i ms' f ≤ 1) ∧ f'.premises.gate.occupancy = 0 ∧
        f'.premises.scale.holders = 0 := by
  intro c ms ms'
  have hms : Regular 1 (ms ++ ms') := by decide
  have hcloses : (run? ms (.opening (.furnish 1 1 0) 0)).any
      (fun f => Person.closer .ended ∈ f.people) = true := by
    decide +kernel
  have hends : ((run? ms (.opening (.furnish 1 1 0) 0)).bind (run? ms')).map Floor.people =
      some [.worker 0 (.ended (.returned ⟨0, 0⟩)),
        .customer c (.ended (.failed .interrupted)), .closer .ended] := by
    decide +kernel
  obtain ⟨f', hrun', hpeople⟩ := Option.map_eq_some_iff.1 hends
  obtain ⟨f, hrun, hrest⟩ := Option.bind_eq_some_iff.1 hrun'
  have hclosed : Person.closer .ended ∈ f.people := by simpa [hrun] using hcloses
  obtain ⟨-, -, hrounds, -, -, hnobody⟩ :=
    close_frees_everybody 1 1 0 0 (by decide) ms ms' hms f f' hrun hclosed hrest
  exact ⟨by decide, hms, f, f', hrun, hclosed, hrest, hpeople, fun i => (hrounds i).2,
    hnobody (by rw [hpeople]; decide)⟩

end Floor

end Postal

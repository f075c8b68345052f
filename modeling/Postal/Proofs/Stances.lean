import Postal.Proofs.Attempts
import Postal.Proofs.Driver
import Postal.Proofs.Returns

/-!
# How far a service has come at the scale.

A service with the scale makes one attempt to take it. If the attempt misses, that is counted, and
the worker queues for the permit; with the permit it is counted as a holder and notes the peak; and
in the end it announces that the task is finished. So every attempt stands for a service that is
somewhere on this way (`Working.atScale?`), or for one whose end was announced (`Tallied`). An
attempt misses only if somebody else has the permit or a ticket in hand, and that is nobody before
the first attempt, and nobody at all where there is a single worker (`Floor.Weighed`).

## §1 — the way of a service.
## §2 — the attempts, and what has become of them.
## §3 — one step of a worker.
## §4 — people at the scale, and when their attempts succeed.
## §5 — what every move on the floor keeps.
-/

namespace Postal

/-! ## §1 — the way of a service -/

theorem Task.needsScale_iff {t : Task} : t.needsScale = true ↔ t = .mailPackage := by
  cases t <;> simp [needsScale]

/-- How far a service has come at the scale. -/
inductive Stance where
  /-- The attempt has missed and is about to be counted. -/
  | missed
  /-- On the way to the permit, or with the permit and about to be counted as a holder. -/
  | approaching
  /-- About to note that there are so many holders. -/
  | noting (holders : Nat)
  /-- The peak is noted; the end of the task is still to be announced. -/
  | weighed
  deriving DecidableEq

/-- How far a service with the scale has come after its attempt. -/
def Service.stance? : Service → Option Stance
  | .weighing .counting => some .missed
  | .weighing (.acquiring _) | .weighing .raising => some .approaching
  | .weighing (.noting holders) => some (.noting holders)
  | .announcingStart | .busy _ | .releasing _ | .announcingFinish => some .weighed
  | _ => none

/-- The assignment that a worker has made its attempt for, from then on until the end of the task is
announced. -/
def Working.atScale? : Working → Option (Assignment × Stance)
  | .serving _ a position =>
    position.stance?.bind fun stance => if a.task.needsScale then some (a, stance) else none
  | _ => none

/-- The attempt that a worker is about to make, and whether it will succeed. -/
def Working.attempt? (s : Scale) : Working → Option (Assignment × Bool)
  | .serving _ a (.weighing .trying) => some (a, s.permit.tryAcquire.1)
  | _ => none

/-- Whether a worker is at the scale only for a task that needs it. -/
def Working.Rightful : Working → Prop
  | .serving _ a (.weighing _) | .serving _ a (.releasing _) => a.task.needsScale = true
  | _ => True

/-- The assignment whose end is announced, if it needed the scale. -/
def Event.weighed? : Event → Option Assignment
  | .taskFinished _ c t => if t.needsScale then some ⟨c, t⟩ else none
  | _ => none

/-- The assignments that needed the scale, in the order in which their ends were announced. -/
def Trace.weighed (es : List Event) : List Assignment := es.filterMap Event.weighed?

/-- What is kept of a scale: how often an attempt was counted as missed, the peak, and the
assignments that were announced as finished. -/
structure Figures where
  waits : Nat
  peak : Nat
  done : List Assignment

namespace Premises

/-- The figures of the scale on these premises. -/
def figures (p : Premises) : Figures := ⟨p.scale.waits, p.scale.peak, Trace.weighed p.events⟩

theorem figures_record (p : Premises) {e : Event} (he : e.weighed? = none) :
    (p.record e).figures = p.figures := by
  rw [figures, events_record, Trace.weighed, filterMap_concat, he]
  simp only [Option.toList_none, List.append_nil]
  rfl

end Premises

/-! ## §2 — the attempts, and what has become of them -/

/-- **`Tallied tries g present`** — of the services that have made these attempts, those that are
not announced as finished are present; whoever has missed is counted or is about to be; everybody
notes a single holder, and the peak is one as soon as somebody has noted it. -/
structure Tallied (tries : List (Assignment × Bool)) (g : Figures)
    (present : List (Assignment × Stance)) : Prop where
  once : (tries.map Prod.fst).Perm (g.done ++ present.map Prod.fst)
  waits : g.waits + present.countP (·.2 = .missed) = tries.countP (!·.2)
  single : ∀ a holders, (a, .noting holders) ∈ present → holders = 1
  peak : ∃ noted, tries.length = noted + present.countP (·.2 ≠ .weighed) ∧ g.peak = min noted 1

section Tallied

variable {tries : List (Assignment × Bool)} {g : Figures} {a : Assignment}
  {present others : List (Assignment × Stance)}

/-- The order of those who are present does not matter. -/
theorem Tallied.perm (h : Tallied tries g present) (hperm : present.Perm others) :
    Tallied tries g others where
  once := h.once.trans ((hperm.map Prod.fst).append_left g.done)
  waits := by rw [← hperm.countP_eq]; exact h.waits
  single a holders hmem := h.single a holders (hperm.mem_iff.2 hmem)
  peak := by rw [← hperm.countP_eq]; exact h.peak

/-- **Somebody makes its attempt.** -/
theorem Tallied.attempts (h : Tallied tries g others) (taken : Bool) :
    Tallied (tries ++ [(a, taken)]) g ((a, if taken then .approaching else .missed) :: others) where
  once := by
    have hperm := (h.once.append_right [a]).trans
      (.of_eq (List.append_assoc g.done (others.map Prod.fst) [a]))
    rw [List.map_append]
    exact hperm.trans ((List.perm_append_singleton a _).append_left g.done)
  waits := by
    have hwaits := h.waits
    cases taken <;> simp <;> omega
  single b holders hmem := by
    rcases List.mem_cons.1 hmem with heq | hmem
    · cases taken <;> cases heq
    · exact h.single b holders hmem
  peak := by
    obtain ⟨noted, hlength, hpeak⟩ := h.peak
    refine ⟨noted, ?_, hpeak⟩
    cases taken <;> simp at hlength ⊢ <;> omega

/-- **An attempt that has missed** is counted. -/
theorem Tallied.counts (h : Tallied tries g ((a, .missed) :: others)) :
    Tallied tries { g with waits := g.waits + 1 } ((a, .approaching) :: others) where
  once := h.once
  waits := by
    have hwaits := h.waits
    simp at hwaits ⊢
    omega
  single b holders hmem := by
    rcases List.mem_cons.1 hmem with heq | hmem
    · cases heq
    · exact h.single b holders (List.mem_cons_of_mem _ hmem)
  peak := by simpa using h.peak

/-- **Somebody is counted** as the only holder. -/
theorem Tallied.raises (h : Tallied tries g ((a, .approaching) :: others)) :
    Tallied tries g ((a, .noting 1) :: others) where
  once := h.once
  waits := by simpa using h.waits
  single b holders hmem := by
    rcases List.mem_cons.1 hmem with heq | hmem
    · cases heq
      rfl
    · exact h.single b holders (List.mem_cons_of_mem _ hmem)
  peak := by simpa using h.peak

/-- **The peak is noted.** -/
theorem Tallied.notes {holders : Nat} (h : Tallied tries g ((a, .noting holders) :: others)) :
    Tallied tries { g with peak := max g.peak holders } ((a, .weighed) :: others) where
  once := h.once
  waits := by simpa using h.waits
  single b holders hmem := by
    rcases List.mem_cons.1 hmem with heq | hmem
    · cases heq
    · exact h.single b holders (List.mem_cons_of_mem _ hmem)
  peak := by
    obtain ⟨noted, hlength, hpeak⟩ := h.peak
    have hone := h.single a holders List.mem_cons_self
    refine ⟨noted + 1, ?_, ?_⟩
    · simp at hlength ⊢
      omega
    · show max g.peak holders = _
      omega

/-- **The end of a task** is announced. -/
theorem Tallied.finishes (h : Tallied tries g ((a, .weighed) :: others)) :
    Tallied tries { g with done := g.done ++ [a] } others where
  once := h.once.trans (.of_eq (List.append_assoc g.done [a] _).symm)
  waits := by simpa using h.waits
  single b holders hmem := h.single b holders (List.mem_cons_of_mem _ hmem)
  peak := by simpa using h.peak

end Tallied

/-! ## §3 — one step of a worker -/

section Working

variable {id n : Nat} {a : Assignment} {p p' : Premises} {offered : Bool} {k k' : Working}

/-- A service with the scale is at the scale from its attempt on. -/
theorem Working.atScale?_of_needs (hneeds : a.task.needsScale = true) {position : Service}
    {stance : Stance} (hstance : position.stance? = some stance) (n : Nat) :
    (serving n a position).atScale? = some (a, stance) := by
  rw [atScale?, hstance]
  exact if_pos hneeds

/-- A service without the scale is never there. -/
theorem Working.atScale?_of_light (hlight : a.task.needsScale = false) (n : Nat)
    (position : Service) : (serving n a position).atScale? = none := by
  simp [atScale?, hlight]

/-- Whoever is about to make an attempt has not made it yet. -/
theorem Working.attempt?_of_present {x : Assignment × Stance} (hk : k.atScale? = some x)
    (s : Scale) : k.attempt? s = none := by
  unfold attempt?
  split
  · simp [Working.atScale?, Service.stance?] at hk
  · rfl

/-- A worker is at the scale only for a task that needs it. -/
theorem Working.Steps.rightful (h : k.Steps id p offered k' p') (hk : k.Rightful) :
    k'.Rightful := by
  cases h with
  | @advertises n pos progress pool hoffer => rcases progress with pos' | ⟨e | ⟨⟩⟩ <;> trivial
  | @starts n a s hs hphase =>
      cases hneeds : a.task.needsScale with
      | true => exact hneeds
      | false => trivial
  | @weighs n a pos progress scale hacq =>
      rcases progress with pos' | ⟨e | ⟨⟩⟩
      · exact hk
      · cases e <;> trivial
      · trivial
  | @works n deadline a =>
      cases hneeds : a.task.needsScale with
      | true => exact hneeds
      | false => trivial
  | @drops n a pos =>
      cases pos with
      | counted => exact hk
      | releasing => trivial
  | @unwinds pos => cases pos <;> trivial
  | _ => trivial

/-- Whoever has not made its attempt, or is through, has nothing of the scale in hand. -/
theorem Working.scaleHand_of_absent (hright : k.Rightful) (hunhurt : k.Unhurt)
    (habsent : k.atScale? = none) : k.scaleHand = .empty := by
  cases k with
  | serving n a position =>
      cases hneeds : a.task.needsScale with
      | true =>
          have habsent' : ∀ stance, position.stance? ≠ some stance := by
            intro stance hstance
            rw [atScale?_of_needs hneeds hstance] at habsent
            cases habsent
          cases position with
          | weighing pos => cases pos <;> first | rfl | exact absurd rfl (habsent' _)
          | announcingStart => exact absurd rfl (habsent' _)
          | busy deadline => exact absurd rfl (habsent' _)
          | releasing pos => exact absurd rfl (habsent' _)
          | _ => rfl
      | false =>
          cases position with
          | weighing pos => exact absurd (hneeds.symm.trans hright) Bool.false_ne_true
          | announcingStart => simp [Working.scaleHand, hneeds, Semaphore.Hand.empty]
          | busy deadline => simp [Working.scaleHand, hneeds, Semaphore.Hand.empty]
          | releasing pos => exact absurd (hneeds.symm.trans hright) Bool.false_ne_true
          | _ => rfl
  | unwinding pos => exact hunhurt.elim
  | _ => rfl

/-- Nobody is counted as a holder without the permit. -/
theorem Working.holding_le (k : Working) : k.holding ≤ k.scaleHand.permits := by
  cases k with
  | serving n a position =>
      cases position with
      | weighing pos => cases pos <;> exact Nat.le_of_ble_eq_true rfl
      | releasing pos => cases pos <;> exact Nat.le_of_ble_eq_true rfl
      | _ => exact Nat.le_refl _
  | unwinding pos => cases pos <;> exact Nat.le_of_ble_eq_true rfl
  | _ => exact Nat.le_refl _

/-- **`k.AtScale p k' p'`** — everything that a step of a worker can do to the figures of the scale.
-/
inductive Working.AtScale (k : Working) (p : Premises) (k' : Working) (p' : Premises) : Prop
  | aside (htry : k.attempt? p.scale = none) (hk : k'.atScale? = k.atScale?)
      (hfigures : p'.figures = p.figures)
  | tries {a : Assignment} {taken : Bool} (htry : k.attempt? p.scale = some (a, taken))
      (hk : k.atScale? = none)
      (hk' : k'.atScale? = some (a, if taken then .approaching else .missed))
      (hfigures : p'.figures = p.figures)
  | counts {a : Assignment} (hk : k.atScale? = some (a, .missed))
      (hk' : k'.atScale? = some (a, .approaching))
      (hfigures : p'.figures = { p.figures with waits := p.figures.waits + 1 })
  | raises {a : Assignment} (hk : k.atScale? = some (a, .approaching))
      (hk' : k'.atScale? = some (a, .noting (p.scale.holders + 1)))
      (hfigures : p'.figures = p.figures) (hheld : k.scaleHand.permits = 1)
      (hcounted : k.holding = 0)
  | notes {a : Assignment} {holders : Nat} (hk : k.atScale? = some (a, .noting holders))
      (hk' : k'.atScale? = some (a, .weighed))
      (hfigures : p'.figures = { p.figures with peak := max p.figures.peak holders })
  | finishes {a : Assignment} (hk : k.atScale? = some (a, .weighed)) (hk' : k'.atScale? = none)
      (hfigures : p'.figures = { p.figures with done := p.figures.done ++ [a] })

/-- **On the way to the scale**, while it is open. -/
theorem Working.AtScale.weighs {pos : Scale.Acquiring}
    {progress : Progress Scale.Acquiring (Except Fault Unit)} {scale : Scale}
    (hneeds : a.task.needsScale = true) (hopen : p.scale.permit.closed = false)
    (hacq : p.scale.acquire? pos = some (progress, scale)) :
    (Working.serving n a (.weighing pos)).AtScale p
      (progress.within (fun pos => .serving n a (.weighing pos)) (afterWeighing id n a))
      { p with scale } := by
  have hstance : ∀ {position : Service} {stance : Stance}, position.stance? = some stance →
      (serving n a position).atScale? = some (a, stance) :=
    fun hstance => atScale?_of_needs hneeds hstance n
  cases Scale.acquires_of_acquire? hacq with
  | missed htry =>
      have hattempt : (serving n a (.weighing .trying)).attempt? p.scale = some (a, false) := by
        rw [attempt?, htry]
      exact .tries hattempt rfl (hstance rfl) rfl
  | took htry =>
      have hattempt : (serving n a (.weighing .trying)).attempt? p.scale = some (a, true) := by
        rw [attempt?, htry]
      exact .tries hattempt rfl (hstance rfl) rfl
  | counts => exact .counts (hstance rfl) (hstance rfl) rfl
  | waits hpermit => exact .aside rfl ((hstance rfl).trans (hstance rfl).symm) rfl
  | granted hpermit => exact .aside rfl ((hstance rfl).trans (hstance rfl).symm) rfl
  | refused hpermit =>
      have hclosed := (Semaphore.acquire?_fault hpermit).2
      rw [hopen] at hclosed
      cases hclosed
  | raises => exact .raises (hstance rfl) (hstance rfl) rfl rfl rfl
  | notes => exact .notes (hstance rfl) (hstance rfl) rfl

/-- **A step of a worker** in an office whose scale is open. -/
theorem Working.Steps.atScale (h : k.Steps id p offered k' p')
    (hopen : p.scale.permit.closed = false) (hright : k.Rightful) (hunhurt : k.Unhurt) :
    k.AtScale p k' p' := by
  cases h with
  | weighs hacq => exact .weighs hright hopen hacq
  | announcesCreation => exact .aside rfl rfl (p.figures_record rfl)
  | announcesIdle => exact .aside rfl rfl (p.figures_record rfl)
  | announcesIntent => exact .aside rfl rfl (p.figures_record rfl)
  | announcesStart => exact .aside rfl rfl (p.figures_record rfl)
  | @announcesFinish n a =>
      cases hneeds : a.task.needsScale with
      | true =>
          have hdone : Event.weighed? (.taskFinished id a.customer a.task) = some a := if_pos hneeds
          refine .finishes (atScale?_of_needs hneeds rfl n) rfl ?_
          rw [Premises.figures, Premises.events_record, Trace.weighed, filterMap_concat, hdone]
          rfl
      | false =>
          refine .aside rfl ?_ (p.figures_record (if_neg (by simp [hneeds])))
          exact (atScale?_of_light hneeds n _).symm
  | @advertises n pos progress pool hoffer =>
      rcases progress with pos' | ⟨e | ⟨⟩⟩
      · exact .aside rfl rfl rfl
      · exact .aside rfl rfl rfl
      · exact .aside rfl rfl rfl
  | @interrupted n a position hwaits hclosed =>
      cases position <;> first | exact .aside rfl rfl rfl | exact False.elim hwaits
  | @starts n a s hs hphase =>
      cases hneeds : a.task.needsScale with
      | true => exact .aside rfl rfl rfl
      | false => exact .aside rfl (atScale?_of_light hneeds n _) rfl
  | @works n deadline a =>
      cases hneeds : a.task.needsScale with
      | true => exact .aside rfl rfl rfl
      | false => exact .aside rfl rfl rfl
  | @drops n a pos =>
      cases pos with
      | counted => exact .aside rfl rfl rfl
      | releasing => exact .aside rfl rfl rfl
  | unwinds => exact hunhurt.elim
  | @breaks k s needed hs hneeds hphase f =>
      cases k with
      | serving n a position => cases position <;> first | exact .aside rfl rfl rfl | cases hneeds
      | opening n => exact .aside rfl rfl rfl
      | checkingReceived n a => exact .aside rfl rfl rfl
      | _ => cases hneeds
  | _ => exact .aside rfl rfl rfl

end Working

/-- Nobody who comes to the office weighs anything itself. -/
theorem Visiting.Steps.figures_eq {c : Customer} {p p' : Premises} {v v' : Visiting}
    (h : v.Steps c p v' p') : p'.figures = p.figures := by
  cases h <;> first | rfl | exact p.figures_record rfl

/-! ## §4 — people at the scale, and when their attempts succeed -/

section Replace

variable {A B : Type} {l : List A} {i : Nat} {a b : A}

/-- What the members of a list bring is what one of them brings and what all the others bring. -/
theorem perm_filterMap (bring : A → Option B) (hi : l[i]? = some a) :
    (l.filterMap bring).Perm ((bring a).toList ++ (l.eraseIdx i).filterMap bring) := by
  obtain ⟨hlt, rfl⟩ := List.getElem?_eq_some_iff.1 hi
  have hperm := (List.getElem_cons_eraseIdx_perm hlt).symm.filterMap bring
  rw [List.filterMap_cons] at hperm
  cases hb : bring l[i] with
  | none => rwa [hb] at hperm
  | some x => rwa [hb] at hperm

/-- After a replacement the others bring what they did. -/
theorem perm_filterMap_set (bring : A → Option B) (hi : l[i]? = some a) (b : A) :
    ((l.set i b).filterMap bring).Perm ((bring b).toList ++ (l.eraseIdx i).filterMap bring) := by
  have hb : (l.set i b)[i]? = some b := List.getElem?_set_self (List.getElem?_eq_some_iff.1 hi).1
  have hperm := perm_filterMap bring hb
  rwa [List.eraseIdx_set_eq] at hperm

end Replace

namespace Person

/-- The assignment for which a person is at the scale. -/
def atScale? : Person → Option (Assignment × Stance)
  | .worker _ k => k.atScale?
  | _ => none

/-- The attempt that a person is about to make. -/
def attempt? (s : Scale) : Person → Option (Assignment × Bool)
  | .worker _ k => k.attempt? s
  | _ => none

/-- Whether a person is at the scale only for a task that needs it. -/
def Rightful : Person → Prop
  | .worker _ k => k.Rightful
  | _ => True

/-- Nobody is counted as a holder without the permit. -/
theorem holding_le (p : Person) : p.holding ≤ p.scaleHand.permits := by
  cases p with
  | worker w k => exact k.holding_le
  | _ => exact Nat.le_refl 0

/-- Whoever is not at the scale has nothing of it in hand. -/
theorem scaleHand_of_absent {p : Person} (hright : p.Rightful) (hunhurt : p.Unhurt)
    (habsent : p.atScale? = none) : p.scaleHand = .empty := by
  cases p with
  | worker w k => exact Working.scaleHand_of_absent hright hunhurt habsent
  | _ => rfl

end Person

namespace Floor

theorem Swaps.atScale?_eq {p p' : Person} (h : Swaps p p') : p'.atScale? = p.atScale? := by
  cases h <;> rfl

theorem Swaps.rightful {p p' : Person} (h : Swaps p p') : p'.Rightful := by
  cases h <;> trivial

/-- Those who are at the scale. -/
def atScale (f : Floor) : List (Assignment × Stance) := f.people.filterMap Person.atScale?

/-- The attempt that the next step of person `i` makes. -/
def attempt? (f : Floor) (i : Nat) : Option (Assignment × Bool) :=
  (f.people[i]?).bind (Person.attempt? f.premises.scale)

section Free

variable {workers room : Nat} {f : Floor}

/-- **An attempt succeeds** where nobody has anything of the scale in hand. -/
theorem Calm.scale_free (h : f.Calm workers room)
    (hnobody : ∀ (i : Nat) (p : Person), f.people[i]? = some p → p.scaleHand = .empty) :
    f.premises.scale.permit.tryAcquire.1 = true := by
  have hopen := h.isOpen.scale
  have hbalance := h.scale
  have hheld : f.held Person.scaleHand = 0 := tally_eq_zero fun i p hi => by
    rw [hnobody i p hi]
    rfl
  have hline : f.line Person.scaleHand f.premises.scale.permit.nowServing = 0 :=
    tally_eq_zero fun i p hi => by
      rw [hnobody i p hi]
      rfl
  rw [hheld] at hbalance
  -- a ticket at the head of the line would be in somebody's hand
  obtain ⟨hle, htickets⟩ := hbalance.lined hopen
  rw [htickets, ite_eq_right_iff] at hline
  have hnext : f.premises.scale.permit.nowServing = f.premises.scale.permit.nextTicket := by
    omega
  rw [Semaphore.tryAcquire_of_grants hopen hnext (hbalance.free Nat.one_pos)]

/-- **Nobody is counted** as a holder where the permit is with somebody who is not counted. -/
theorem Counted.nobody_holds (h : f.Counted) (hconserved : Stock.scale.Conserved 1 f) {i : Nat}
    {p : Person} (hi : f.people[i]? = some p) (hheld : p.scaleHand.permits = 1)
    (hcounted : p.holding = 0) : f.premises.scale.holders = 0 := by
  have hbalance := hconserved.balance
  -- all others together have as many permits as are left, and that is none
  have hothers := tally_le_tally Person.holding_le (f.people.eraseIdx i)
  rw [show tally Stock.scale.held f.people = _ from
    tally_eq_add (f := fun p : Person => p.scaleHand.permits) hi] at hbalance
  rw [h.holding, tally_eq_add hi]
  omega

end Free

/-! ## §5 — what every move on the floor keeps -/

/-- **`f.Weighed workers tries`** — an office of so many workers in which these attempts were made:
the first of them has succeeded, and where there is only one worker all of them have. -/
structure Weighed (workers : Nat) (tries : List (Assignment × Bool)) (f : Floor) : Prop where
  counted : f.Counted
  conserved : Stock.scale.Conserved 1 f
  rightful : ∀ (i : Nat) (p : Person), f.people[i]? = some p → p.Rightful
  tallied : Tallied tries f.premises.figures f.atScale
  first : ∀ t, tries.head? = some t → t.2 = true
  alone : workers = 1 → ∀ t ∈ tries, t.2 = true

section Weighed

variable {workers room i : Nat} {tries : List (Assignment × Bool)} {f f' : Floor}

theorem weighed_opening (capacity workers minute clock : Nat) :
    Weighed workers [] (opening (.furnish capacity workers minute) clock) where
  counted := counted_opening capacity workers minute clock
  conserved := Semaphore.conserved_bounded (Nat.le_refl 1)
  rightful i p hi := by simp [opening] at hi
  tallied := ⟨.nil, rfl, nofun, 0, rfl, rfl⟩
  first := nofun
  alone _ := nofun

/-- Before the first attempt nobody has anything of the scale in hand. -/
theorem Weighed.untouched (h : f.Weighed workers []) (hcalm : f.Calm workers room) {p : Person}
    (hi : f.people[i]? = some p) : p.scaleHand = .empty := by
  refine Person.scaleHand_of_absent (h.rightful i p hi) (hcalm.well i p hi).unhurt ?_
  have hnobody := h.tallied.once.symm.eq_nil
  rw [List.append_eq_nil_iff, List.map_eq_nil_iff] at hnobody
  exact List.filterMap_eq_nil_iff.1 hnobody.2 p (List.mem_of_getElem? hi)

/-- Nobody but the only worker has anything of the scale in hand. -/
theorem Calm.only_worker (hcalm : f.Calm 1 room) {w : Nat} {k : Working} {p : Person} {j : Nat}
    (hi : f.people[i]? = some (.worker w k)) (hj : f.people[j]? = some p) (hij : j ≠ i) :
    p.scaleHand = .empty := by
  obtain ⟨ledgers, hkept⟩ := hcalm.kept
  cases p with
  | worker v l =>
      have hw := (hkept.worker_fits hi).1
      have hv := (hkept.worker_fits hj).1
      obtain rfl : v = w := by omega
      exact absurd (hkept.worker_unique hj hi) hij
  | _ => rfl

/-- **An attempt succeeds** if it is the first, or if there is no other worker. -/
theorem Weighed.succeeds (h : f.Weighed workers tries) (hcalm : f.Calm workers room) {w : Nat}
    {k : Working} {t : Assignment × Bool} (hi : f.people[i]? = some (.worker w k))
    (htry : k.attempt? f.premises.scale = some t) (hfree : tries = [] ∨ workers = 1) :
    t.2 = true := by
  have hself : k.scaleHand = .empty ∧ t.2 = f.premises.scale.permit.tryAcquire.1 := by
    unfold Working.attempt? at htry
    split at htry
    · obtain rfl := Option.some.inj htry
      exact ⟨rfl, rfl⟩
    · cases htry
  rw [hself.2]
  apply hcalm.scale_free
  intro j p hj
  rcases hfree with rfl | rfl
  · exact h.untouched hcalm hj
  · by_cases hij : j = i
    · subst hij
      obtain rfl := Option.some.inj (hi.symm.trans hj)
      exact hself.1
    · exact hcalm.only_worker hi hj hij

/-- **What a step of a worker does** to the attempts and to those who are at the scale. -/
theorem Weighed.tallied_step (h : f.Weighed workers tries) {w : Nat} {k k' : Working}
    {premises' : Premises} (hi : f.people[i]? = some (.worker w k))
    (hstep : k.AtScale f.premises k' premises') :
    Tallied (tries ++ (k.attempt? f.premises.scale).toList) premises'.figures
      (atScale ⟨premises', f.people.set i (.worker w k')⟩) := by
  set f' : Floor := ⟨premises', f.people.set i (.worker w k')⟩
  have hbefore : f.atScale.Perm (k.atScale?.toList ++ _) := perm_filterMap Person.atScale? hi
  have hafter : f'.atScale.Perm (k'.atScale?.toList ++ _) :=
    perm_filterMap_set Person.atScale? hi (.worker w k')
  -- the others are at the scale before and after
  have htallied := h.tallied.perm hbefore
  refine Tallied.perm ?_ hafter.symm
  cases hstep with
  | aside htry hk hfigures =>
      rw [htry, hk, hfigures, Option.toList_none, List.append_nil]
      exact htallied
  | @tries a taken htry hk hk' hfigures =>
      rw [hk] at htallied
      rw [htry, hk', hfigures]
      exact htallied.attempts taken
  | counts hk hk' hfigures =>
      rw [hk] at htallied
      rw [Working.attempt?_of_present hk, hk', hfigures, Option.toList_none, List.append_nil]
      exact htallied.counts
  | raises hk hk' hfigures hheld hcounted =>
      have hnobody := h.counted.nobody_holds h.conserved hi hheld hcounted
      rw [hk] at htallied
      rw [hnobody] at hk'
      rw [Working.attempt?_of_present hk, hk', hfigures, Option.toList_none, List.append_nil]
      exact htallied.raises
  | notes hk hk' hfigures =>
      rw [hk] at htallied
      rw [Working.attempt?_of_present hk, hk', hfigures, Option.toList_none, List.append_nil]
      exact htallied.notes
  | finishes hk hk' hfigures =>
      rw [hk] at htallied
      rw [Working.attempt?_of_present hk, hk', hfigures, Option.toList_none, List.append_nil]
      exact htallied.finishes

/-- **Nothing at the scale**: a move that makes no attempt. -/
theorem Weighed.still (h : f.Weighed workers tries) (hcounted : f'.Counted)
    (hconserved : Stock.scale.Conserved 1 f') (hfigures : f'.premises.figures = f.premises.figures)
    (hpresent : f'.people.map Person.atScale? = f.people.map Person.atScale?)
    (hright : ∀ (j : Nat) (p : Person), f'.people[j]? = some p → p.Rightful) :
    f'.Weighed workers tries where
  counted := hcounted
  conserved := hconserved
  rightful := hright
  tallied := by
    have hsame : f'.atScale = f.atScale := by
      have hbring := congrArg (List.filterMap id) hpresent
      rwa [List.filterMap_map, List.filterMap_map] at hbring
    rw [hfigures, hsame]
    exact h.tallied
  first := h.first
  alone := h.alone

/-- **A step** of a worker. -/
theorem Weighed.worker_step (h : f.Weighed workers tries) (hcalm : f.Calm workers room) {w : Nat}
    {k k' : Working} {premises' : Premises} (hi : f.people[i]? = some (.worker w k))
    (hk : k.Steps w f.premises (f.offered w) k' premises')
    (hcounted : Counted ⟨premises', f.people.set i (.worker w k')⟩)
    (hconserved : Stock.scale.Conserved 1 ⟨premises', f.people.set i (.worker w k')⟩) :
    Weighed workers (tries ++ (k.attempt? f.premises.scale).toList)
      ⟨premises', f.people.set i (.worker w k')⟩ := by
  have hright : k.Rightful := h.rightful i _ hi
  have hsucceeds : ∀ t, k.attempt? f.premises.scale = some t → tries = [] ∨ workers = 1 →
      t.2 = true := fun t htry hfree => h.succeeds hcalm hi htry hfree
  refine ⟨hcounted, hconserved, ?_, ?_, ?_, ?_⟩
  · intro j q hj
    rcases getElem?_set_cases hj with ⟨-, rfl⟩ | ⟨-, hj'⟩
    · exact hk.rightful hright
    · exact h.rightful j q hj'
  · exact h.tallied_step hi (hk.atScale hcalm.isOpen.scale hright (hcalm.well i _ hi).unhurt)
  · intro t ht
    cases htries : tries with
    | nil =>
        rw [htries, List.nil_append, Option.head?_toList] at ht
        exact hsucceeds t ht (.inl htries)
    | cons t' rest =>
        rw [htries, List.cons_append, List.head?_cons] at ht
        exact h.first t (htries ▸ ht)
  · intro hone t ht
    rcases List.mem_append.1 ht with ht | ht
    · exact h.alone hone t ht
    · exact hsucceeds t (Option.mem_toList.1 ht) (.inr hone)

/-- **A step** keeps account of the attempts. -/
theorem Weighed.step (h : f.Weighed workers tries) (hcalm : f.Calm workers room)
    (hmove : f.step? i = some f') : f'.Weighed workers (tries ++ (f.attempt? i).toList) := by
  have hcounted := h.counted.move (m := .step i) hmove fun p hp => by cases hp
  have hconserved := h.conserved.move h.counted.apt (m := .step i) hmove fun p hp => by cases hp
  cases steps_of_step? hmove with
  | @customer c v v' p' hi hv =>
      have htry : f.attempt? i = none := by
        rw [attempt?, hi]
        rfl
      rw [htry, Option.toList_none, List.append_nil]
      refine h.still hcounted hconserved hv.figures_eq (map_set_of_eq hi rfl) fun j q hj => ?_
      rcases getElem?_set_cases hj with ⟨-, rfl⟩ | ⟨-, hj'⟩
      · trivial
      · exact h.rightful j q hj'
  | @worker w k k' p' hi hk =>
      have htry : f.attempt? i = k.attempt? f.premises.scale := by
        rw [attempt?, hi]
        rfl
      rw [htry]
      exact h.worker_step hcalm hi hk hcounted hconserved
  | closer hi hk => exact absurd (List.mem_of_getElem? (badge_of_getElem? hi)) hcalm.unclosed

/-- **An exchange** makes no attempt. -/
theorem Weighed.exchange (h : f.Weighed workers tries) {j : Nat}
    (hmove : f.exchange? i j = some f') : f'.Weighed workers tries := by
  have hcounted := h.counted.move (m := .exchange i j) hmove fun p hp => by cases hp
  have hconserved := h.conserved.move h.counted.apt (m := .exchange i j) hmove
    fun p hp => by cases hp
  obtain ⟨w, people', -, hex, rfl⟩ := exchanges_of_exchange? hmove
  refine h.still hcounted hconserved rfl (hex.map_eq Swaps.atScale?_eq) fun k p hk => ?_
  obtain ⟨a, a', b, b', -, -, -, haa', hbb', hpeople⟩ := hex.swaps
  rw [show Floor.people _ = _ from hpeople] at hk
  rcases getElem?_set_cases hk with ⟨-, rfl⟩ | ⟨-, hk'⟩
  · exact hbb'.rightful
  · rcases getElem?_set_cases hk' with ⟨-, rfl⟩ | ⟨-, hk''⟩
    · exact haa'.rightful
    · exact h.rightful k p hk''

/-- **A newcomer**, a customer or a worker, makes no attempt. -/
theorem Weighed.join (h : f.Weighed workers tries) {p : Person}
    (hp : (∃ c, p = .arrives c) ∨ ∃ w, p = .starts w) : (f.join p).Weighed workers tries := by
  have hself : p.atScale? = none ∧ p.Rightful ∧ (p.Apt ∧ p.inside = 0 ∧ p.holding = 0) ∧
      p.scaleHand.permits = 0 := by
    rcases hp with ⟨c, rfl⟩ | ⟨w, rfl⟩
    · exact ⟨rfl, trivial, ⟨trivial, rfl, rfl⟩, rfl⟩
    · exact ⟨rfl, trivial, ⟨trivial, rfl, rfl⟩, rfl⟩
  obtain ⟨habsent, hright, hcounts, hheld⟩ := hself
  refine ⟨?_, ?_, ?_, ?_, h.first, h.alone⟩
  · exact h.counted.move (m := .join p) rfl fun q hq => (Move.join.inj hq) ▸ hcounts
  · exact h.conserved.move h.counted.apt (m := .join p) rfl fun q hq => (Move.join.inj hq) ▸ hheld
  · intro i q hi
    rcases getElem?_concat_cases hi with hi' | ⟨-, rfl⟩
    · exact h.rightful i q hi'
    · exact hright
  · rw [atScale, Floor.join, filterMap_concat, habsent, Option.toList_none, List.append_nil]
    exact h.tallied

/-- **Whatever the driver does** on the floor makes no attempt. -/
theorem Weighed.tended (h : f.Weighed workers tries) (htended : f.Tended workers f') :
    f'.Weighed workers tries := by
  cases htended with
  | leftAlone => exact h
  | hires hw hnew => exact h.join (.inr ⟨_, rfl⟩)
  | welcomes c => exact h.join (.inl ⟨c, rfl⟩)
  | announces c =>
      exact h.still ⟨h.counted.apt, h.counted.inside, h.counted.holding⟩ h.conserved
        (f.premises.figures_record rfl) rfl h.rightful
  | fires =>
      exact h.still ⟨h.counted.apt, h.counted.inside, h.counted.holding⟩ h.conserved rfl rfl
        h.rightful

/-- **Only a service with the scale** changes anything of it. -/
theorem Weighed.touched (h : f.Weighed workers tries) (hcalm : f.Calm workers room) {m : Move}
    (hmove : f.move? m = some f') (hm : ∀ i, m ≠ .unwind i)
    (htouched : f'.premises.scale ≠ f.premises.scale) :
    ∃ i w n a position, m = .step i ∧
      f.people[i]? = some (.worker w (.serving n a position)) ∧ a.task.needsScale = true := by
  cases m with
  | step i =>
      cases steps_of_step? hmove with
      | customer hi hv => exact absurd hv.scale_eq htouched
      | closer hi hk => exact absurd (List.mem_of_getElem? (badge_of_getElem? hi)) hcalm.unclosed
      | @worker w k k' p' hi hk =>
          have hright : k.Rightful := h.rightful i _ hi
          have hunhurt : k.Unhurt := (hcalm.well i _ hi).unhurt
          cases hk with
          | @weighs n a pos progress scale hacq => exact ⟨i, w, n, a, _, rfl, hi, hright⟩
          | @drops n a pos => exact ⟨i, w, n, a, _, rfl, hi, hright⟩
          | unwinds => exact hunhurt.elim
          | _ => exact absurd rfl htouched
  | exchange i j =>
      obtain ⟨w, people', -, -, rfl⟩ := exchanges_of_exchange? hmove
      exact absurd rfl htouched
  | unwind i => exact absurd rfl (hm i)
  | fire =>
      obtain rfl := Option.some.inj hmove
      exact absurd rfl htouched
  | join p =>
      obtain rfl := Option.some.inj hmove
      exact absurd rfl htouched

end Weighed

/-- Whatever the driver does on the floor, it does not touch the scale. -/
theorem Tended.scale_eq {workers : Nat} {f f' : Floor} (h : f.Tended workers f') :
    f'.premises.scale = f.premises.scale := by
  cases h <;> rfl

end Floor

end Postal

import Postal.Proofs.Grants
import Postal.Proofs.Permits
import Postal.Proofs.Turnstile

/-!
# The gate never lets in too many, nor anybody before their turn.

The gate is a turnstile with as many permits as it has room. A visitor on the way in has a permit
before it is counted, and on the way out it still has one after it is no longer counted. So those
who are counted and the permits that are free never come to more than the capacity, and what is
missing is the visitors that are between their two steps (`Visitor.between`). And since the permits
are granted in the order of the tickets, so are the admissions.

## §1 — what one step of a visitor can do, said once (`Visitor.Steps`).
## §2 — the gate as a turnstile.
## §3 — the order of the admissions.
## §4 — what every move keeps, and the theorem.
-/

namespace Postal.Gate

open Semaphore.Hall (Ordered)

/-! ## §1 — one step of a visitor -/

/-- Where a visitor stands after its entry. -/
def Visitor.afterEntry : Except Fault Nat → Visitor
  | .ok ticket => .inside ticket
  | .error f => .refused f

/-- **`Steps g v v' g'`** — everything that the next step of a visitor can do. -/
inductive Visitor.Steps (g : Gate) : Visitor → Visitor → Gate → Prop
  | enters {pos : Entering} {progress : Progress Entering (Except Fault Nat)} {g' : Gate}
      (h : g.Enters pos progress g') :
      Steps g (.entering pos) (progress.within .entering afterEntry) g'
  | uncounts :
      Steps g (.leaving .counted) (.leaving .releasing) { g with occupancy := g.occupancy - 1 }
  | releases :
      Steps g (.leaving .releasing) .gone { g with permits := g.permits.releaseOrKeep }

theorem Visitor.steps_of_step? {g g' : Gate} {v v' : Visitor} (h : v.step? g = some (v', g')) :
    v.Steps g v' g' := by
  cases v with
  | entering pos =>
      obtain ⟨⟨progress, g''⟩, henter, hend⟩ := Option.map_eq_some_iff.1 h
      obtain ⟨rfl, rfl⟩ := Prod.mk.inj hend
      exact .enters (enters_of_enter? henter)
  | leaving pos =>
      obtain ⟨rfl, rfl⟩ := Prod.mk.inj (Option.some.inj h)
      cases pos with
      | counted => exact .uncounts
      | releasing => exact .releases
  | _ => cases h

/-- The capacity is fixed. -/
theorem Visitor.Steps.capacity_eq {g g' : Gate} {v v' : Visitor} (h : v.Steps g v' g') :
    g'.capacity = g.capacity := by
  cases h with
  | enters henter => cases henter <;> rfl
  | uncounts => rfl
  | releases => rfl

/-! ## §2 — the gate as a turnstile -/

/-- What a visitor has of the permits. -/
def Visitor.hand : Visitor → Semaphore.Hand
  | .entering (.acquiring pos) => pos.hand
  | .entering (.counting _) | .inside _ | .leaving _ => ⟨fun _ => 0, 1⟩
  | _ => .empty

/-- Whether a visitor is counted inside, as a weight. -/
def Visitor.counted : Visitor → Nat
  | .inside _ | .leaving .counted => 1
  | _ => 0

/-- Whether a visitor is between its two steps, with a permit and not counted, as a weight. -/
def Visitor.between : Visitor → Nat
  | .entering (.counting _) | .leaving .releasing => 1
  | _ => 0

/-- Whoever has a permit is counted, or between its two steps. -/
theorem Visitor.hand_permits (v : Visitor) : v.hand.permits = v.counted + v.between := by
  cases v with
  | entering pos => cases pos <;> rfl
  | leaving pos => cases pos <;> rfl
  | _ => rfl

/-- A step of a visitor uses the permits. -/
theorem Visitor.Steps.uses {g g' : Gate} {v v' : Visitor} (h : v.Steps g v' g') :
    g.permits.Uses g'.permits v.hand v'.hand := by
  cases h with
  | enters henter =>
      cases henter with
      | waits hacq => exact .acquires hacq
      | admitted hacq => exact .acquires hacq
      | refused hacq => exact .acquires hacq
      | counts => exact .aside
  | uncounts => exact .aside
  | releases => exact .releases

/-- A step of a visitor keeps the count of the gate. -/
theorem Visitor.Steps.counts {g g' : Gate} {v v' : Visitor} (h : v.Steps g v' g')
    (hcounted : v.counted ≤ g.occupancy) :
    g'.occupancy + v.counted = g.occupancy + v'.counted := by
  cases h with
  | enters henter => cases henter <;> rfl
  | uncounts => exact Nat.sub_add_cancel hcounted
  | releases => rfl

/-- What visitors do at a gate. -/
def custom : Custom Gate Visitor := ⟨conduct, Visitor.turn, close⟩

/-- **The gate is a turnstile.** -/
def turnstile : Turnstile custom where
  permits := Gate.permits
  count := Gate.occupancy
  hand := Visitor.hand
  counted := Visitor.counted
  uses h := (Visitor.steps_of_step? h).uses
  counts h := (Visitor.steps_of_step? h).counts
  turns v := by cases v <;> exact ⟨rfl, rfl⟩
  closes _ := ⟨rfl, rfl⟩

/-! ## §3 — the order of the admissions -/

/-- The ticket that a visitor waits with. -/
def Visitor.ticket? : Visitor → Option Nat
  | .entering (.acquiring (.queued ticket)) => some ticket
  | _ => none

/-- The ticket for which a visitor has got its permit, as long as it does not turn to leave. -/
def Visitor.admittedWith? : Visitor → Option Nat
  | .entering (.counting ticket) | .inside ticket => some ticket
  | _ => none

/-- The ticket that a visitor draws as it goes on from one position to another. -/
def Visitor.draws? : Visitor → Visitor → Option Nat
  | .entering (.acquiring .arriving), .entering (.acquiring (.queued ticket)) => some ticket
  | .entering (.acquiring .arriving), .entering (.counting ticket) => some ticket
  | _, _ => none

/-- The ticket for which a visitor is granted its permit. -/
def Visitor.isGranted? : Visitor → Visitor → Option Nat
  | .entering (.acquiring _), .entering (.counting ticket) => some ticket
  | _, _ => none

/-- Where a visitor stands after a section of the semaphore. -/
def Visitor.afterSection : Progress Semaphore.Acquiring (Except Fault Nat) → Visitor
  | .onward pos => .entering (.acquiring pos)
  | .ended (.ok ticket) => .entering (.counting ticket)
  | .ended (.error f) => .refused f

/-- What is seen of a section of an entry is what the semaphore draws and serves. -/
theorem Visitor.sees_section (pos : Semaphore.Acquiring)
    (progress : Progress Semaphore.Acquiring (Except Fault Nat)) :
    draws? (.entering (.acquiring pos)) (afterSection progress) = pos.draws? progress ∧
      isGranted? (.entering (.acquiring pos)) (afterSection progress) =
        Semaphore.serves? progress := by
  cases pos <;> rcases progress with pos' | ⟨f | ticket⟩ <;> first | exact ⟨rfl, rfl⟩ |
    (cases pos' <;> exact ⟨rfl, rfl⟩)

section Order

variable {c : Crowd Gate Visitor} {g' : Gate} {i : Nat} {v v' : Visitor}
  {drawn granted : List (Nat × Nat)}

/-- A section of the semaphore keeps the order. -/
theorem ordered_section {pos : Semaphore.Acquiring}
    {progress : Progress Semaphore.Acquiring (Except Fault Nat)} {permits : Semaphore}
    (ho : Ordered c.shared.permits (c.Shows Visitor.ticket?) drawn granted)
    (hi : c.callers[i]? = some (.entering (.acquiring pos)))
    (hacq : c.shared.permits.acquire? pos = some (progress, permits)) :
    Ordered permits
      (Crowd.Shows Visitor.ticket? ⟨g', c.callers.set i (.afterSection progress)⟩)
      (drawn ++ ((Visitor.draws? (.entering (.acquiring pos)) (.afterSection progress)).map
        (i, ·)).toList)
      (granted ++ ((Visitor.isGranted? (.entering (.acquiring pos)) (.afterSection progress)).map
        (i, ·)).toList) := by
  obtain ⟨hdraws, hgranted⟩ := Visitor.sees_section pos progress
  rw [hdraws, hgranted]
  refine ho.acquires hacq (fun ticket hpos => ⟨_, hi, hpos ▸ rfl⟩) fun j ticket hj => ?_
  rcases Crowd.shows_set hj with ⟨rfl, hticket⟩ | hj
  · refine .inl ⟨rfl, ?_⟩
    rcases progress with pos' | ⟨f | ticket'⟩
    · cases pos' <;> cases hticket
      rfl
    · cases hticket
    · cases hticket
  · exact .inr hj

/-- **A step** keeps the order. -/
theorem ordered_step (ho : Ordered c.shared.permits (c.Shows Visitor.ticket?) drawn granted)
    (hi : c.callers[i]? = some v) (hstep : v.Steps c.shared v' g') :
    Ordered g'.permits (Crowd.Shows Visitor.ticket? ⟨g', c.callers.set i v'⟩)
      (drawn ++ ((v.draws? v').map (i, ·)).toList)
      (granted ++ ((v.isGranted? v').map (i, ·)).toList) := by
  have hstill : v.draws? v' = none → v.isGranted? v' = none → v'.ticket? = none →
      g'.permits.nextTicket = c.shared.permits.nextTicket →
      g'.permits.nowServing = c.shared.permits.nowServing →
      Ordered g'.permits (Crowd.Shows Visitor.ticket? ⟨g', c.callers.set i v'⟩)
        (drawn ++ ((v.draws? v').map (i, ·)).toList)
        (granted ++ ((v.isGranted? v').map (i, ·)).toList) := by
    intro hdraws hgranted hticket hnext hnow
    rw [hdraws, hgranted, Option.map_none, Option.toList_none, List.append_nil, List.append_nil]
    refine ho.mono (fun j ticket hj => ?_) hnext hnow
    rcases Crowd.shows_set hj with ⟨-, hshows⟩ | hj
    · rw [hticket] at hshows
      cases hshows
    · exact hj
  cases hstep with
  | enters henter =>
      cases henter with
      | waits hacq => exact ordered_section ho hi hacq
      | admitted hacq => exact ordered_section ho hi hacq
      | refused hacq => exact ordered_section ho hi hacq
      | counts => exact hstill rfl rfl rfl rfl rfl
  | uncounts => exact hstill rfl rfl rfl rfl rfl
  | releases =>
      exact hstill rfl rfl rfl (Semaphore.releaseOrKeep_nextTicket _)
        (Semaphore.releaseOrKeep_nowServing _)

/-- Whoever has got a permit in a step was granted it there, or had it before. -/
theorem Visitor.Steps.admittedWith (hstep : v.Steps c.shared v' g') {ticket : Nat}
    (hv' : v'.admittedWith? = some ticket) :
    v.isGranted? v' = some ticket ∨ v.admittedWith? = some ticket := by
  cases hstep with
  | enters henter =>
      cases henter with
      | waits hacq => cases hv'
      | admitted hacq => exact .inl hv'
      | refused hacq => cases hv'
      | counts => exact .inr hv'
  | uncounts => cases hv'
  | releases => cases hv'

end Order

/-- Two that stand in a list one before the other are found there in this order. -/
theorem pair_sublist {A : Type} {l : List A} {m n : Nat} {a b : A} (ha : l[m]? = some a)
    (hb : l[n]? = some b) (hmn : m < n) : [a, b].Sublist l := by
  have htake : a ∈ l.take n :=
    List.mem_of_getElem? ((List.getElem?_take_of_lt hmn).trans ha)
  have hdrop : b ∈ l.drop n := by
    refine List.mem_of_getElem? (i := 0) ?_
    rw [List.getElem?_drop]
    exact hb
  have happend := (List.singleton_sublist.2 htake).append (List.singleton_sublist.2 hdrop)
  rwa [List.take_append_drop] at happend

/-! ## §4 — every move -/

/-- **`Admits capacity drawn granted c`** — the permits and the count of the gate are in order, and
whoever has been let in has been granted its permit in the order of the tickets. -/
structure Admits (capacity : Nat) (drawn granted : List (Nat × Nat)) (c : Crowd Gate Visitor) :
    Prop where
  kept : turnstile.Kept capacity c
  capacity : c.shared.capacity = capacity
  ordered : Ordered c.shared.permits (c.Shows Visitor.ticket?) drawn granted
  admitted : ∀ i ticket, c.Shows Visitor.admittedWith? i ticket → (i, ticket) ∈ granted

section Admits

variable {capacity : Nat} {drawn granted : List (Nat × Nat)} {c c' : Crowd Gate Visitor}

/-- **Every move** keeps the gate in order. -/
theorem Admits.move {m : Custom.Move Visitor} (h : Admits capacity drawn granted c)
    (hmove : custom.move? c m = some c') (hjoin : ∀ v, m = .join v → v = .entering .start) :
    Admits capacity (drawn ++ (Custom.seen Visitor.draws? ⟨c, m, c'⟩).toList)
      (granted ++ (Custom.seen Visitor.isGranted? ⟨c, m, c'⟩).toList) c' := by
  have hkept := h.kept.move hmove fun v hv => by
    rw [hjoin v hv]
    exact ⟨rfl, rfl⟩
  cases Custom.moves_of_move? hmove with
  | @steps i v v' g' hi hstep =>
      have hsteps := Visitor.steps_of_step? hstep
      rw [Custom.seen_step hi, Custom.seen_step hi]
      refine ⟨hkept, hsteps.capacity_eq.trans h.capacity, ordered_step h.ordered hi hsteps,
        fun j ticket hj => ?_⟩
      rcases Crowd.shows_set hj with ⟨rfl, hadmitted⟩ | hj
      · rcases hsteps.admittedWith hadmitted with hgranted | hbefore
        · rw [hgranted]
          exact List.mem_concat_self
        · exact List.mem_append_left _ (h.admitted j ticket ⟨v, hi, hbefore⟩)
      · exact List.mem_append_left _ (h.admitted j ticket hj)
  | @turns i v hi =>
      simp only [Custom.seen, Option.toList_none, List.append_nil]
      refine ⟨hkept, h.capacity, h.ordered.mono (fun j ticket hj => ?_) rfl rfl,
        fun j ticket hj => h.admitted j ticket ?_⟩
      · rcases Crowd.shows_set hj with ⟨rfl, hticket⟩ | hj
        · refine ⟨v, hi, ?_⟩
          cases v with
          | inside ticket' => cases hticket
          | _ => exact hticket
        · exact hj
      · rcases Crowd.shows_set hj with ⟨rfl, hadmitted⟩ | hj
        · refine ⟨v, hi, ?_⟩
          cases v with
          | inside ticket' => cases hadmitted
          | _ => exact hadmitted
        · exact hj
  | closes =>
      simp only [Custom.seen, Option.toList_none, List.append_nil]
      exact ⟨hkept, h.capacity, h.ordered.mono (fun _ _ hj => hj) rfl rfl, h.admitted⟩
  | @comes v =>
      obtain rfl := hjoin v rfl
      simp only [Custom.seen, Option.toList_none, List.append_nil]
      refine ⟨hkept, h.capacity, h.ordered.mono (fun j ticket hj => ?_) rfl rfl,
        fun j ticket hj => h.admitted j ticket ?_⟩
      · exact (Crowd.shows_concat hj).resolve_left (Option.some_ne_none ticket).symm
      · exact (Crowd.shows_concat hj).resolve_left (Option.some_ne_none ticket).symm

theorem admits_of_runs (hword : capacity ≤ wordMax)
    {past : List (Happening (Crowd Gate Visitor) (Custom.Move Visitor))}
    (hruns : Runs custom.move? (.ofShared (.ofCapacity capacity)) past c)
    (hbegin : ∀ x ∈ past, ∀ v, x.move = .join v → v = .entering .start) :
    Admits capacity (past.filterMap (Custom.seen Visitor.draws?))
      (past.filterMap (Custom.seen Visitor.isGranted?)) c := by
  induction hruns with
  | start =>
      have hnobody : ∀ (look : Visitor → Option Nat) i ticket,
          ¬ Crowd.Shows look (Crowd.ofShared (Gate.ofCapacity capacity)) i ticket := by
        rintro look i ticket ⟨v, hi, -⟩
        simp [Crowd.ofShared] at hi
      exact ⟨⟨Semaphore.conserved_ofPermits hword, rfl⟩, rfl,
        ⟨rfl, rfl, Nat.le_refl _, fun i ticket hi => absurd hi (hnobody _ i ticket)⟩,
        fun i ticket hi => absurd hi (hnobody _ i ticket)⟩
  | more hruns hmove ih =>
      have hadmits := ih fun x hx => hbegin x (List.mem_append_left _ hx)
      rw [filterMap_concat, filterMap_concat]
      exact hadmits.move hmove (hbegin _ List.mem_concat_self)

/-- Those who are counted, the permits that are free and those between their two steps make up the
capacity. -/
theorem Admits.balance (h : Admits capacity drawn granted c) :
    c.shared.occupancy + c.shared.permits.permits + tally Visitor.between c.callers = capacity := by
  have hbalance : c.shared.permits.permits + tally (fun v => v.hand.permits) c.callers = capacity :=
    h.kept.permits.balance
  have hcount : c.shared.occupancy = tally Visitor.counted c.callers := h.kept.count
  rw [tally_congr fun v _ => v.hand_permits, tally_add] at hbalance
  omega

/-- **The gate never lets in too many, nor anybody before their turn.** Take a gate of any capacity,
any number of visitors, and any interleaving of their steps in which the gate may be closed at any
moment. Those who are counted inside, the permits that are free, and the visitors that are between
their two steps on the way in or out make up the capacity; so the first two never exceed it, and
make it up alone when nobody is between two steps. Whoever is about to be counted finds room under
the capacity, whoever is about to be uncounted is counted, and whoever is about to give its permit
back can give it back. The tickets that were drawn are `0, 1, 2, …`, those who got a permit are the
first who drew one, and among them is everybody who has been let in. So of two visitors who were
both let in, the one with the smaller ticket got its permit first. Tickets are counted without
wrapping. -/
theorem never_over_capacity (hword : capacity ≤ wordMax) {moves : List (Custom.Move Visitor)}
    (hmoves : ∀ v, .join v ∈ moves → v = .entering .start)
    (hrun : custom.run? moves (.ofShared (.ofCapacity capacity)) = some c) :
    let past := course custom.move? moves (.ofShared (.ofCapacity capacity))
    let drawn := past.filterMap (Custom.seen Visitor.draws?)
    let granted := past.filterMap (Custom.seen Visitor.isGranted?)
    c.shared.occupancy + c.shared.permits.permits + tally Visitor.between c.callers = capacity ∧
    c.shared.occupancy + c.shared.permits.permits ≤ capacity ∧
    ((∀ v ∈ c.callers, v.between = 0) →
      c.shared.occupancy + c.shared.permits.permits = capacity) ∧
    (∀ i ticket : Nat, c.callers[i]? = some (.entering (.counting ticket)) →
      c.shared.occupancy + 1 ≤ c.shared.capacity) ∧
    (∀ i : Nat, c.callers[i]? = some (.leaving .counted) → 0 < c.shared.occupancy) ∧
    (∀ i : Nat, c.callers[i]? = some (.leaving .releasing) → c.shared.permits.release =
      .ok { c.shared.permits with permits := c.shared.permits.permits + 1 }) ∧
    drawn.map Prod.snd = List.range c.shared.permits.nextTicket ∧
    granted = drawn.take c.shared.permits.nowServing ∧
    (∀ i ticket : Nat, c.callers[i]? = some (.entering (.counting ticket)) ∨
      c.callers[i]? = some (.inside ticket) → (i, ticket) ∈ granted) ∧
    ∀ i j a b : Nat, (i, a) ∈ granted → (j, b) ∈ granted → a < b →
      [(i, a), (j, b)].Sublist granted := by
  intro past drawn granted
  have hadmits : Admits capacity drawn granted c := by
    refine admits_of_runs hword (Custom.runs_course hrun) fun x hx v hv => hmoves v ?_
    rw [← hv]
    exact move_mem_of_course hx
  have hkept := hadmits.kept
  have hbalance := hadmits.balance
  have hordered := hadmits.ordered
  have htickets : granted.map Prod.snd = List.range c.shared.permits.nowServing := by
    rw [hordered.first, List.map_take, hordered.tickets, List.take_range,
      Nat.min_eq_left hordered.behind]
  -- a grant stands in the list at the place of its ticket
  have hplace : ∀ {i a : Nat}, (i, a) ∈ granted → granted[a]? = some (i, a) := by
    intro i a hmem
    obtain ⟨n, hn⟩ := List.mem_iff_getElem?.1 hmem
    have hticket : (granted.map Prod.snd)[n]? = some a := by rw [List.getElem?_map, hn]; rfl
    rw [htickets] at hticket
    have hlt := (List.getElem?_eq_some_iff.1 hticket).1
    rw [List.length_range] at hlt
    obtain rfl := Option.some.inj ((List.getElem?_range hlt).symm.trans hticket)
    exact hn
  refine ⟨hbalance, by omega, fun hnobody => ?_, fun i ticket hi => ?_, fun i hi => ?_,
    fun i hi => ?_, hordered.tickets, hordered.first, fun i ticket hi => ?_,
    fun i j a b hi hj hab => ?_⟩
  · rw [tally_eq_zero_of_mem hnobody, Nat.add_zero] at hbalance
    exact hbalance
  · have hone : 1 ≤ tally Visitor.between c.callers := le_tally (f := Visitor.between) hi
    rw [hadmits.capacity]
    omega
  · exact hkept.counted_le hi
  · exact hkept.release hi Nat.one_pos
  · rcases hi with hi | hi <;> exact hadmits.admitted i ticket ⟨_, hi, rfl⟩
  · exact pair_sublist (hplace hi) (hplace hj) hab

/-- There is room for one. The second visitor and the third wait until the first has left; then the
second gets the permit, and before it is counted the gate is closed, which turns the third away. -/
theorem never_over_capacity_closed :
    let moves : List (Custom.Move Visitor) := [.join (.entering .start), .join (.entering .start),
      .join (.entering .start), .step 0, .step 1, .step 2, .step 0, .turn 0, .step 0, .step 0,
      .step 1, .close, .step 2]
    1 ≤ wordMax ∧ (∀ v, .join v ∈ moves → v = .entering .start) ∧
      ∃ c, custom.run? moves (.ofShared (.ofCapacity 1)) = some c ∧
        c.callers = [.gone, .entering (.counting 1), .refused .interrupted] ∧
        c.shared.occupancy + c.shared.permits.permits + tally Visitor.between c.callers = 1 ∧
        c.shared.occupancy + 1 ≤ c.shared.capacity ∧
        [(0, 0), (1, 1)].Sublist ((course custom.move? moves (.ofShared (.ofCapacity 1))).filterMap
          (Custom.seen Visitor.isGranted?)) := by
  intro moves
  have hmoves : ∀ v, .join v ∈ moves → v = .entering .start := by
    simp [moves]
  obtain ⟨c, hrun, hcallers, hgranted⟩ : ∃ c,
      custom.run? moves (.ofShared (.ofCapacity 1)) = some c ∧
        c.callers = [.gone, .entering (.counting 1), .refused .interrupted] ∧
        (course custom.move? moves (.ofShared (.ofCapacity 1))).filterMap
          (Custom.seen Visitor.isGranted?) = [(0, 0), (1, 1)] := ⟨_, rfl, rfl, rfl⟩
  obtain ⟨hbalance, -, -, hroom, -, -, -, -, -, horder⟩ :=
    never_over_capacity (show 1 ≤ wordMax by decide) hmoves hrun
  refine ⟨by decide, hmoves, c, hrun, hcallers, hbalance, hroom 1 1 (by rw [hcallers]; rfl),
    horder 0 1 0 1 ?_ ?_ Nat.one_pos⟩
  · rw [hgranted]
    decide
  · rw [hgranted]
    decide

end Admits

end Postal.Gate

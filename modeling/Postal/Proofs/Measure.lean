import Postal.Proofs.Permits
import Postal.Proofs.Steps

/-!
# How much is left to do.

A bound on the steps that everybody has left (`Person.left`). The shift of a worker has no bound of
its own: it serves as many customers as come to its desk. So the effort of a whole service is
counted with the customer, who hands it to the worker together with the assignment
(`Floor.Exchanges.left_lt`); otherwise whoever steps has less left than before
(`Visiting.Steps.left_lt`, `Working.Steps.left_lt`), a close that goes from door to door as well
(`Closing.Steps.left_lt`). Nor is anything won by a panic (`Floor.unwind_left_lt`).
-/

namespace Postal

/-! ## What is left of a visit and of a shift -/

/-- Steps that are left of a visit at the slot, and of the service that the worker will have to do
for it. -/
def Dealing.left : Dealing → Nat
  | .announcingClaim => 39
  | .publishing => 38
  | .offering => 37
  | .handing => 36
  | .awaitingAcknowledge => 10
  | .announcingIntent => 9
  | .proceeding => 8
  | .sendingProceed => 7
  | .awaitingCompletion => 6
  | .announcingFinish => 5
  | .announcingDeparture => 4
  | .departing => 3

/-- Steps that are left of a visit to an office with that pool, with the service. -/
def Visiting.left (pool : Pool) : Visiting → Nat
  | .announcingCreation => pool.size + 49
  | .entering position => position.left + pool.size + 45
  | .admitted _ => pool.size + 45
  | .announcingAdmission _ => pool.size + 44
  | .claiming _ position => position.left pool + 39
  | .dealing _ _ position => position.left
  | .leaving .counted _ => 2
  | .leaving .releasing _ => 1
  | .ended _ => 0

/-- Steps that are left of a service, and until the worker waits for the next one. -/
def Service.left : Service → Nat
  | .announcingIntent => 25
  | .acknowledging => 24
  | .sendingAcknowledge => 23
  | .awaitingProceed => 22
  | .checkingProceed => 21
  | .weighing position => position.left + 14
  | .announcingStart => 14
  | .busy _ => 13
  | .releasing position => position.left + 10
  | .announcingFinish => 10
  | .completing => 9
  | .sendingCompletion => 8
  | .settling => 7

/-- Steps that are left until a worker waits for an assignment, and leaves then. -/
def Working.left : Working → Nat
  | .arriving => 8
  | .announcingCreation => 7
  | .deciding _ => 6
  | .opening _ => 5
  | .announcingIdle _ => 4
  | .advertising _ .token => 3
  | .advertising _ .aggregate => 2
  | .awaitingPublish _ => 1
  | .checkingReceived _ _ => 26
  | .serving _ _ position => position.left
  | .unwinding position => position.left
  | .ended _ => 0

/-- Steps that a close has left in an office of so many workers. -/
def Closing.left (workers : Nat) : Closing → Nat
  | .gate => 2 * workers + 5
  | .pool .aggregate => 2 * workers + 4
  | .pool (.slot w) => (workers - w) + workers + 3
  | .scale => workers + 2
  | .slot w => (workers - w) + 1
  | .ended => 0

/-- Steps that a person has left in an office with that pool. -/
def Person.left (pool : Pool) : Person → Nat
  | .customer _ v => v.left pool
  | .worker _ k => k.left
  | .closer _ => 0

/-- Steps that everybody has left. -/
def Floor.left (pool : Pool) (f : Floor) : Nat := tally (Person.left pool) f.people

/-! ## Every step takes something away -/

/-- Where a scan goes on, it has at most the slots from there on left. -/
theorem Pool.scan_left (p pool : Pool) (w : Nat) :
    (p.scan w).weigh (Claiming.left pool) ≤ pool.size - w + 2 := by
  rw [scan]
  split_ifs with hnext hlast
  · exact Nat.le_refl _
  · show 2 ≤ _
    omega
  · exact Nat.zero_le _

/-- A section of a search. -/
theorem Pool.Claims.left_lt {p p' pool : Pool} {pos : Pool.Claiming}
    {progress : Progress Pool.Claiming (Except Fault Nat)} (h : p.Claims pos progress p')
    (hsize : pool.size = p.size) : progress.weigh (Claiming.left pool) < pos.left pool := by
  cases h with
  | waits hacq =>
      have hless := Semaphore.acquire?_left hacq
      simp only [Progress.weigh, Claiming.left]
      omega
  | @admitted position ticket available hacq =>
      have hscan := scan_left p pool 0
      have hpos := position.left_pos
      simp only [Claiming.left]
      omega
  | @refused position f available hacq =>
      simp only [Progress.weigh, Claiming.left]
      omega
  | @missed w s hs htry =>
      have hw : w < p.size := (List.getElem?_eq_some_iff.1 hs).1
      have hscan := scan_left p pool (w + 1)
      simp only [Claiming.left]
      omega
  | took hs htry => exact Nat.succ_pos _
  | lastWaits hs hacq => exact Semaphore.acquire?_left hacq
  | @lastTook position s s' ticket hs hacq => exact position.left_pos
  | @lastRefused position s s' f hs hacq => exact position.left_pos

/-- **A step of a customer** leaves less of its visit. -/
theorem Visiting.Steps.left_lt {c : Customer} {p p' : Premises} {v v' : Visiting} {pool : Pool}
    (h : v.Steps c p v' p') (hsize : pool.size = p.pool.size) : v'.left pool < v.left pool := by
  cases h with
  | announcesCreation =>
      simp only [left, Gate.Entering.start, Gate.Entering.left, Semaphore.Acquiring.left]
      omega
  | @enters pos progress gate henter =>
      rcases progress with pos' | ⟨e | ticket⟩
      · have hless := Gate.enter?_left henter
        simp only [Progress.within, left]
        omega
      · simp only [Progress.within, afterEntry, left]
        omega
      · have hpos : 0 < pos.left := by cases pos <;> exact Nat.succ_pos _
        simp only [Progress.within, afterEntry, left]
        omega
  | looksUp => exact Nat.lt_succ_self _
  | announcesAdmission =>
      simp only [left, Pool.Claiming.start, Pool.Claiming.left, Semaphore.Acquiring.left]
      omega
  | @claims stay pos progress pool' hclaim =>
      have hless := hclaim.left_lt hsize
      rcases progress with pos' | ⟨e | worker⟩
      · exact Nat.add_lt_add_right hless 39
      · simp only [Progress.within, afterSearch, leave, left]
        omega
      · simp only [Progress.weigh] at hless
        simp only [Progress.within, afterSearch]
        split <;> simp only [leave, left, Dealing.left] <;> omega
  | @interrupted stay w d hwaits hclosed =>
      cases d <;> simp only [leave, left, Dealing.left] <;> omega
  | @breaks stay w d s needed hs hneeds hphase f =>
      cases d <;> simp only [leave, left, Dealing.left] <;> omega
  | _ => exact Nat.lt_succ_self _

/-- **A step of a worker** leaves less of its shift. -/
theorem Working.Steps.left_lt {id : Nat} {p p' : Premises} {offered : Bool} {k k' : Working}
    (h : k.Steps id p offered k' p') : k'.left < k.left := by
  cases h with
  | @advertises n pos progress pool hoffer =>
      cases hoffer <;> simp only [Progress.within, afterOffer, left] <;> omega
  | @interrupted n a position hwaits hclosed =>
      cases position <;> first | exact hwaits.elim | exact Nat.succ_pos _
  | @starts n a s hs hphase =>
      cases a.task.needsScale <;>
        simp only [Bool.false_eq_true, if_true, if_false, left, Service.left,
          Scale.Acquiring.left] <;> omega
  | @weighs n a pos progress scale hacq =>
      rcases progress with pos' | ⟨e | ⟨⟩⟩
      · exact Nat.add_lt_add_right (Scale.acquire?_left hacq) 14
      · cases e <;> simp only [Progress.within, afterWeighing, stop, report, left, Service.left] <;>
          omega
      · have hpos : 0 < pos.left := by
          cases pos <;> simp only [Scale.Acquiring.left] <;> omega
        simp only [Progress.within, afterWeighing, left, Service.left]
        omega
  | @works n deadline a =>
      cases a.task.needsScale <;>
        simp only [Bool.false_eq_true, if_true, if_false, left, Service.left,
          Scale.Dropping.left] <;> omega
  | @drops n a pos => cases pos <;> exact Nat.lt_succ_self _
  | @unwinds pos => cases pos <;> exact Nat.lt_succ_self _
  | @breaks k s needed hs hneeds hphase f =>
      cases k with
      | serving n a position => cases position <;> exact Nat.succ_pos _
      | advertising n pos => cases hneeds
      | unwinding pos => cases hneeds
      | ended ending => cases hneeds
      | _ => exact Nat.succ_pos _
  | _ => simp only [report, left, Service.left]; omega

/-- **A step of a close** leaves less of it. -/
theorem Closing.Steps.left_lt {p p' : Premises} {k k' : Closing} {workers : Nat}
    (h : k.Steps p k' p') (hpool : p.pool.size = workers) (hslots : p.slots.length = workers) :
    k'.left workers < k.left workers := by
  cases h with
  | @token w s hs =>
      have hw : w < p.pool.size := (List.getElem?_eq_some_iff.1 hs).1
      simp only [left]
      omega
  | @slot w s hs =>
      have hw := (List.getElem?_eq_some_iff.1 hs).1
      simp only [left]
      omega
  | _ =>
      simp only [left]
      omega

/-- **A panic** leaves less to do. -/
theorem Person.unwind?_left_lt (pool : Pool) {p p' : Person} (h : p.unwind? = some p') :
    p'.left pool < p.left pool := by
  cases unwinds_of_unwind? h with
  | outside => exact Nat.succ_pos _
  | entered =>
      simp only [left, Visiting.leave, Visiting.left]
      omega
  | @dealing c stay w d e he =>
      show 2 < d.left
      cases d <;> simp only [Dealing.left] <;> omega
  | weighing hneeds =>
      simp only [left, Working.left, Service.left, Scale.Dropping.left]
      omega
  | @working w k e he hscale =>
      show 0 < k.left
      cases k with
      | serving n a position => cases position <;> simp only [Working.left, Service.left] <;> omega
      | _ => first | (simp only [Working.left]; omega) | cases he

namespace Floor

/-- **A step** leaves less to do for everybody together. -/
theorem Steps.left_lt {f f' : Floor} {i : Nat} {pool : Pool} (h : f.Steps i f')
    (hcloser : .closer ∉ f.badges) (hsize : pool.size = f.premises.pool.size) :
    f'.left pool < f.left pool := by
  cases h with
  | @customer c v v' p' hi hv =>
      have hset := tally_set (f := Person.left pool) hi (.customer c v')
      have hless := hv.left_lt hsize
      simp only [Person.left] at hset
      show tally (Person.left pool) (f.people.set i (.customer c v')) <
        tally (Person.left pool) f.people
      omega
  | @worker id k k' p' hi hk =>
      have hset := tally_set (f := Person.left pool) hi (.worker id k')
      have hless := hk.left_lt
      simp only [Person.left] at hset
      show tally (Person.left pool) (f.people.set i (.worker id k')) <
        tally (Person.left pool) f.people
      omega
  | closer hi hk => exact absurd (List.mem_of_getElem? (badge_of_getElem? hi)) hcloser

/-- **A panic** leaves less to do for everybody together. -/
theorem unwind_left_lt {f f' : Floor} {i : Nat} (pool : Pool) (h : f.unwind? i = some f') :
    f'.left pool < f.left pool := by
  obtain ⟨p, p', hi, hunwind, rfl⟩ := unwind?_eq_some h
  have hset := tally_set (f := Person.left pool) hi p'
  have hless := Person.unwind?_left_lt pool hunwind
  show tally (Person.left pool) (f.people.set i p') < tally (Person.left pool) f.people
  omega

/-- **An exchange** leaves less to do for both sides together. -/
theorem Exchanges.left_lt {people people' : List Person} {i j w : Nat} {pool : Pool}
    (h : Exchanges people i j w people') :
    tally (Person.left pool) people' < tally (Person.left pool) people := by
  have two : ∀ {a a' b b' : Person}, people[i]? = some a → people[j]? = some b → a ≠ b →
      a'.left pool + b'.left pool < a.left pool + b.left pool →
      tally (Person.left pool) ((people.set i a').set j b') < tally (Person.left pool) people := by
    intro a a' b b' hi hj hab hless
    have hij : i ≠ j := by
      rintro rfl
      exact hab (Option.some.inj (hi.symm.trans hj))
    have hj' : (people.set i a')[j]? = some b := by rw [List.getElem?_set_ne hij]; exact hj
    have hfirst := tally_set (f := Person.left pool) hi a'
    have hsecond := tally_set (f := Person.left pool) hj' b'
    omega
  -- a worker that receives an assignment takes over what the customer has kept for the service
  cases h with
  | published hi hj => exact two hi hj nofun (show 10 + 26 < 36 + 1 by decide)
  | acknowledged hi hj => exact two hi hj nofun (show 22 + 9 < 23 + 10 by decide)
  | proceeded hi hj => exact two hi hj nofun (show 6 + 21 < 7 + 22 by decide)
  | completed hi hj => exact two hi hj nofun (show 7 + 5 < 8 + 6 by decide)

end Floor

end Postal

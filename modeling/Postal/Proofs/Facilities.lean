import Postal.Proofs.Permits
import Postal.Proofs.Steps

/-!
# Who has what of the gate, the pool and the scale.

The facilities of the office are shared, and an invariant of any of them counts what everybody has
in hand: a ticket of the gate, of the aggregate or of the scale, a permit of the gate or of the
scale, a scan of the pool, an offer between its two releases. What a person has in hand depends on
its position alone, and changes only by a section of that facility (`Floor.Steps.uses_gate`,
`Floor.Steps.uses_scale`, `Floor.AtPool`). An exchange changes nobody's hand (`Floor.Swaps`), and
neither does a panic. What any move can make of a single person is said once (`Floor.Becomes`), and
so is when the shutdown fires (`Floor.fired_of_move`).

## §1 — what everybody has in hand.
## §2 — the gate.
## §3 — the scale.
## §4 — the pool.
## §5 — exchanges and panics.
## §6 — the shutdown.
-/

namespace Postal

/-! ## §1 — what everybody has in hand -/

/-- What a customer has of the gate. -/
def Visiting.gateHand : Visiting → Semaphore.Hand
  | .announcingCreation | .ended _ => .empty
  | .entering (.acquiring pos) => pos.hand
  | _ => ⟨fun _ => 0, 1⟩

/-- What a worker has of the scale. -/
def Working.scaleHand : Working → Semaphore.Hand
  | .serving _ _ (.weighing (.acquiring pos)) => pos.hand
  | .serving _ _ (.weighing .raising) | .serving _ _ (.weighing (.noting _)) => ⟨fun _ => 0, 1⟩
  | .serving _ a .announcingStart | .serving _ a (.busy _) =>
    ⟨fun _ => 0, if a.task.needsScale then 1 else 0⟩
  | .serving _ _ (.releasing _) | .unwinding _ => ⟨fun _ => 0, 1⟩
  | _ => .empty

/-- What somebody has of the pool: a ticket of the aggregate, a scan of the slots, an offer that is
put down and not counted yet. -/
structure Pool.Share where
  ticket : Nat → Nat
  scans : Nat → Nat → Nat
  offers : Nat

/-- Nothing of the pool. -/
def Pool.Share.empty : Pool.Share := ⟨fun _ => 0, fun _ _ => 0, 0⟩

/-- What a customer has of the pool. -/
def Visiting.poolShare : Visiting → Pool.Share
  | .claiming _ pos => ⟨fun n => pos.holds n, fun size q => pos.scansFrom size q, 0⟩
  | _ => .empty

/-- What a worker has of the pool. -/
def Working.poolShare : Working → Pool.Share
  | .advertising _ pos => ⟨fun _ => 0, fun _ _ => 0, pos.between⟩
  | _ => .empty

namespace Person

/-- What a person has of the gate. -/
def gateHand : Person → Semaphore.Hand
  | .customer _ v => v.gateHand
  | _ => .empty

/-- What a person has of the scale. -/
def scaleHand : Person → Semaphore.Hand
  | .worker _ k => k.scaleHand
  | _ => .empty

/-- What a person has of the pool. -/
def poolShare : Person → Pool.Share
  | .customer _ v => v.poolShare
  | .worker _ k => k.poolShare
  | .closer _ => .empty

end Person

/-! ## §2 — the gate -/

/-- A step of a customer uses the gate. -/
theorem Visiting.Steps.uses_gate {c : Customer} {p p' : Premises} {v v' : Visiting}
    (h : v.Steps c p v' p') :
    p.gate.permits.Uses p'.gate.permits v.gateHand v'.gateHand := by
  cases h with
  | enters henter =>
      cases Gate.enters_of_enter? henter with
      | waits hacq => exact .acquires hacq
      | admitted hacq => exact .acquires hacq
      | refused hacq => exact .acquires hacq
      | counts => exact .aside
  | @claims stay pos progress pool hclaim =>
      have hinside : (progress.within (.claiming stay) (afterSearch p.workerCount stay)).gateHand =
          ⟨fun _ => 0, 1⟩ := by
        rcases progress with pos' | ⟨e | worker⟩
        · rfl
        · rfl
        · simp only [Progress.within, afterSearch]
          split <;> rfl
      rw [hinside]
      exact .aside
  | leaves => exact .releases
  | _ => exact .aside

/-- A step of a worker leaves the gate alone. -/
theorem Working.Steps.gate_eq {id : Nat} {p p' : Premises} {offered : Bool} {k k' : Working}
    (h : k.Steps id p offered k' p') : p'.gate = p.gate := by
  cases h <;> rfl

/-- **At the gate**, a step of a person is a use of its permits, with what that person has in hand.
Only a close does anything else. -/
theorem Floor.Steps.uses_gate {f f' : Floor} {i : Nat} (h : f.Steps i f')
    (hcloser : .closer ∉ f.badges) :
    ∃ p p', f.people[i]? = some p ∧ f'.people = f.people.set i p' ∧
      f.premises.gate.permits.Uses f'.premises.gate.permits p.gateHand p'.gateHand := by
  cases h with
  | customer hi hv => exact ⟨_, _, hi, rfl, hv.uses_gate⟩
  | worker hi hk => exact ⟨_, _, hi, rfl, by rw [hk.gate_eq]; exact .aside⟩
  | closer hi hk => exact absurd (List.mem_of_getElem? (Floor.badge_of_getElem? hi)) hcloser

/-! ## §3 — the scale -/

/-- Whether a worker is on the way to the scale only for a task that needs it. -/
def Working.Apt : Working → Prop
  | .serving _ a (.weighing _) => a.task.needsScale = true
  | _ => True

/-- A worker goes to the scale only when the task needs it. -/
theorem Working.Steps.apt {id : Nat} {p p' : Premises} {offered : Bool} {k k' : Working}
    (h : k.Steps id p offered k' p') (hk : k.Apt) : k'.Apt := by
  cases h with
  | @advertises n pos progress pool hoffer => rcases progress with pos' | ⟨e | ⟨⟩⟩ <;> trivial
  | @starts n a s hs hphase =>
      cases hneeds : a.task.needsScale with
      | true => exact hneeds
      | false => trivial
  | @weighs n a pos progress scale hacq =>
      rcases progress with pos' | ⟨e | ⟨⟩⟩
      · exact hk
      · cases e <;> trivial
      · trivial
  | @works n deadline a =>
      cases a.task.needsScale <;> trivial
  | @drops n a pos => cases pos <;> trivial
  | @unwinds pos => cases pos <;> trivial
  | _ => trivial

/-- Who is turned away has nothing of the scale. -/
theorem scaleHand_stop (id n : Nat) (f : Fault) : (Working.stop id n f).scaleHand = .empty := by
  cases f <;> rfl

/-- A step of a worker uses the scale. -/
theorem Working.Steps.uses_scale {id : Nat} {p p' : Premises} {offered : Bool} {k k' : Working}
    (h : k.Steps id p offered k' p') (hk : k.Apt) :
    p.scale.permit.Uses p'.scale.permit k.scaleHand k'.scaleHand := by
  cases h with
  | @advertises n pos progress pool hoffer =>
      rcases progress with pos' | ⟨e | ⟨⟩⟩
      · exact .aside
      · exact .aside
      · exact .aside
  | @interrupted n a position hwaits hclosed =>
      cases position <;> first | exact .aside | exact hwaits.elim
  | @starts n a s hs hphase =>
      cases hneeds : a.task.needsScale with
      | true => exact .aside
      | false =>
          show p.scale.permit.Uses _ .empty ⟨fun _ => 0, if a.task.needsScale then 1 else 0⟩
          rw [hneeds]
          exact .aside
  | @weighs n a pos progress scale hacq =>
      have hneeds : a.task.needsScale = true := hk
      cases Scale.acquires_of_acquire? hacq with
      | missed htry => exact .aside
      | took htry => exact .tries htry
      | counts => exact .aside
      | waits hpermit => exact .acquires hpermit
      | granted hpermit => exact .acquires hpermit
      | refused hpermit =>
          simp only [Progress.within, afterWeighing, scaleHand_stop]
          exact .acquires hpermit
      | raises => exact .aside
      | notes =>
          show p.scale.permit.Uses _ _ ⟨fun _ => 0, if a.task.needsScale then 1 else 0⟩
          rw [hneeds]
          exact .aside
  | @works n deadline a =>
      show p.scale.permit.Uses _ ⟨fun _ => 0, if a.task.needsScale then 1 else 0⟩ _
      cases a.task.needsScale with
      | true => exact .aside
      | false => exact .aside
  | @drops n a pos =>
      cases pos with
      | counted => exact .aside
      | releasing => exact .releases
  | @unwinds pos =>
      cases pos with
      | counted => exact .aside
      | releasing => exact .releases
  | @breaks k s needed hs hneeds hphase f =>
      cases k with
      | serving n a position => cases position <;> first | exact .aside | cases hneeds
      | opening n => exact .aside
      | checkingReceived n a => exact .aside
      | _ => cases hneeds
  | _ => exact .aside

/-- A step of a customer leaves the scale alone. -/
theorem Visiting.Steps.scale_eq {c : Customer} {p p' : Premises} {v v' : Visiting}
    (h : v.Steps c p v' p') : p'.scale = p.scale := by
  cases h <;> rfl

/-- **At the scale**, a step of a person is a use of its permit, with what that person has in hand.
Only a close does anything else. -/
theorem Floor.Steps.uses_scale {f f' : Floor} {i : Nat} (h : f.Steps i f')
    (hcloser : .closer ∉ f.badges)
    (hapt : ∀ (i id : Nat) (k : Working), f.people[i]? = some (.worker id k) → k.Apt) :
    ∃ p p', f.people[i]? = some p ∧ f'.people = f.people.set i p' ∧
      f.premises.scale.permit.Uses f'.premises.scale.permit p.scaleHand p'.scaleHand := by
  cases h with
  | customer hi hv => exact ⟨_, _, hi, rfl, by rw [hv.scale_eq]; exact .aside⟩
  | worker hi hk => exact ⟨_, _, hi, rfl, hk.uses_scale (hapt _ _ _ hi)⟩
  | closer hi hk => exact absurd (List.mem_of_getElem? (Floor.badge_of_getElem? hi)) hcloser

/-! ## §4 — the pool -/

/-- What a search has of the pool after one of its sections. -/
def Pool.shareAfterSearch (progress : Progress Pool.Claiming (Except Fault Nat)) : Pool.Share :=
  ⟨fun n => progress.weigh (Pool.Claiming.holds n),
    fun size q => progress.weigh (Pool.Claiming.scansFrom size q), 0⟩

/-- What an offer has of the pool after one of its sections. -/
def Pool.shareAfterOffer (progress : Progress Pool.Advertising (Except Fault Unit)) : Pool.Share :=
  ⟨fun _ => 0, fun _ _ => 0, progress.weigh Pool.Advertising.between⟩

/-- Whether a person is past the aggregate and has only slots from `q` on ahead, as a weight. -/
def Person.scansFrom (size q : Nat) (p : Person) : Nat := p.poolShare.scans size q

/-- Whether a person has put down an offer that is not counted yet, as a weight. -/
def Person.offering (p : Person) : Nat := p.poolShare.offers

theorem poolShare_search {progress : Progress Pool.Claiming (Except Fault Nat)} {stay : Stay}
    (workers : Nat) :
    (progress.within (.claiming stay) (Visiting.afterSearch workers stay)).poolShare =
      Pool.shareAfterSearch progress := by
  rcases progress with pos | ⟨e | worker⟩
  · rfl
  · rfl
  · simp only [Progress.within, Visiting.afterSearch]
    split <;> rfl

theorem poolShare_offer (progress : Progress Pool.Advertising (Except Fault Unit)) (n : Nat) :
    (progress.within (.advertising n) (Working.afterOffer n)).poolShare =
      Pool.shareAfterOffer progress := by
  rcases progress with pos | ⟨e | ⟨⟩⟩ <;> rfl

/-! The shares of a search and of an offer, one by one. -/

section Shares

variable {c : Customer} {stay : Stay} {w n : Nat} (size q workers : Nat)

@[simp] theorem scansFrom_claiming (pos : Pool.Claiming) :
    (Person.customer c (.claiming stay pos)).scansFrom size q = pos.scansFrom size q := rfl

@[simp] theorem offering_claiming (pos : Pool.Claiming) :
    (Person.customer c (.claiming stay pos)).offering = 0 := rfl

@[simp] theorem scansFrom_advertising (pos : Pool.Advertising) :
    (Person.worker w (.advertising n pos)).scansFrom size q = 0 := rfl

@[simp] theorem offering_advertising (pos : Pool.Advertising) :
    (Person.worker w (.advertising n pos)).offering = pos.between := rfl

@[simp] theorem scansFrom_search (progress : Progress Pool.Claiming (Except Fault Nat)) :
    (Person.customer c (progress.within (.claiming stay)
      (Visiting.afterSearch workers stay))).scansFrom size q =
        progress.weigh (Pool.Claiming.scansFrom size q) := by
  rw [Person.scansFrom, Person.poolShare, poolShare_search]
  rfl

@[simp] theorem offering_search (progress : Progress Pool.Claiming (Except Fault Nat)) :
    (Person.customer c (progress.within (.claiming stay)
      (Visiting.afterSearch workers stay))).offering = 0 := by
  rw [Person.offering, Person.poolShare, poolShare_search]
  rfl

@[simp] theorem scansFrom_offer (progress : Progress Pool.Advertising (Except Fault Unit)) :
    (Person.worker w (progress.within (.advertising n) (Working.afterOffer n))).scansFrom size q =
      0 := by
  rw [Person.scansFrom, Person.poolShare, poolShare_offer]
  rfl

@[simp] theorem offering_offer (progress : Progress Pool.Advertising (Except Fault Unit)) :
    (Person.worker w (progress.within (.advertising n) (Working.afterOffer n))).offering =
      progress.weigh Pool.Advertising.between := by
  rw [Person.offering, Person.poolShare, poolShare_offer]
  rfl

end Shares

/-- Whether a person is not queued at the last slot. -/
def Person.Unqueued : Person → Prop
  | .customer _ (.claiming _ pos) => pos.Unqueued
  | _ => True

/-- **At the pool**, a step of person `i` is a section of a search or of an offer, or closes a
semaphore, or has nothing to do with it. -/
inductive Floor.AtPool (f : Floor) (i : Nat) (f' : Floor) : Prop
  | aside {p p' : Person} (hi : f.people[i]? = some p) (hpeople : f'.people = f.people.set i p')
      (hpool : f'.premises.pool = f.premises.pool) (hshare : p'.poolShare = p.poolShare)
      (hunqueued : p'.Unqueued)
  | claims {c : Customer} {stay : Stay} {pos : Pool.Claiming}
      {progress : Progress Pool.Claiming (Except Fault Nat)}
      (hi : f.people[i]? = some (.customer c (.claiming stay pos)))
      (hpeople : f'.people = f.people.set i (.customer c
        (progress.within (.claiming stay) (Visiting.afterSearch f.premises.workerCount stay))))
      (h : f.premises.pool.Claims pos progress f'.premises.pool)
  | offers {w n : Nat} {pos : Pool.Advertising}
      {progress : Progress Pool.Advertising (Except Fault Unit)}
      (hi : f.people[i]? = some (.worker w (.advertising n pos)))
      (hpeople : f'.people = f.people.set i
        (.worker w (progress.within (.advertising n) (Working.afterOffer n))))
      (h : f.premises.pool.Offers w pos progress f'.premises.pool)
  | closes {k k' : Closing} (hi : f.people[i]? = some (.closer k))
      (hpeople : f'.people = f.people.set i (.closer k'))
      (h : k.Steps f.premises k' f'.premises)

theorem Floor.Steps.atPool {f f' : Floor} {i : Nat} (h : f.Steps i f') : f.AtPool i f' := by
  cases h with
  | closer hi hk => exact .closes hi rfl hk
  | customer hi hv =>
      cases hv with
      | @enters pos progress gate henter =>
          rcases progress with pos' | ⟨e | ticket⟩
          · exact .aside hi rfl rfl rfl trivial
          · exact .aside hi rfl rfl rfl trivial
          · exact .aside hi rfl rfl rfl trivial
      | claims hclaim => exact .claims hi rfl hclaim
      | _ => exact .aside hi rfl rfl rfl trivial
  | @worker w k k' p' hi hk =>
      cases hk with
      | advertises hoffer => exact .offers hi rfl hoffer
      | @weighs n a pos progress scale hacq =>
          rcases progress with pos' | ⟨e | ⟨⟩⟩
          · exact .aside hi rfl rfl rfl trivial
          · cases e <;> exact .aside hi rfl rfl rfl trivial
          · exact .aside hi rfl rfl rfl trivial
      | @drops n a pos => cases pos <;> exact .aside hi rfl rfl rfl trivial
      | @unwinds pos => cases pos <;> exact .aside hi rfl rfl rfl trivial
      | @breaks k s needed hs hneeds hphase f =>
          cases k with
          | advertising n pos => cases hneeds
          | _ => exact .aside hi rfl rfl rfl trivial
      | _ => exact .aside hi rfl rfl rfl trivial

/-! ## §5 — exchanges and panics -/

/-- What an exchange makes of either side of it. -/
inductive Floor.Swaps : Person → Person → Prop
  | hands {c : Customer} {stay : Stay} {w : Nat} :
      Swaps (.customer c (.dealing stay w .handing))
        (.customer c (.dealing stay w .awaitingAcknowledge))
  | acknowledged {c : Customer} {stay : Stay} {w : Nat} :
      Swaps (.customer c (.dealing stay w .awaitingAcknowledge))
        (.customer c (.dealing stay w .announcingIntent))
  | permits {c : Customer} {stay : Stay} {w : Nat} :
      Swaps (.customer c (.dealing stay w .sendingProceed))
        (.customer c (.dealing stay w .awaitingCompletion))
  | finishes {c : Customer} {stay : Stay} {w : Nat} :
      Swaps (.customer c (.dealing stay w .awaitingCompletion))
        (.customer c (.dealing stay w .announcingFinish))
  | receives {w n : Nat} {a : Assignment} :
      Swaps (.worker w (.awaitingPublish n)) (.worker w (.checkingReceived n a))
  | accepted {w n : Nat} {a : Assignment} :
      Swaps (.worker w (.serving n a .sendingAcknowledge))
        (.worker w (.serving n a .awaitingProceed))
  | proceeds {w n : Nat} {a : Assignment} :
      Swaps (.worker w (.serving n a .awaitingProceed)) (.worker w (.serving n a .checkingProceed))
  | completed {w n : Nat} {a : Assignment} :
      Swaps (.worker w (.serving n a .sendingCompletion)) (.worker w (.serving n a .settling))

namespace Floor

/-- Nobody who closes the office takes part in an exchange. -/
theorem Swaps.badge_ne_closer {p p' : Person} (h : Swaps p p') : p.badge ≠ .closer := by
  cases h <;> simp [Person.badge]

theorem Swaps.gateHand {p p' : Person} (h : Swaps p p') : p'.gateHand = p.gateHand := by
  cases h <;> rfl

theorem Swaps.scaleHand {p p' : Person} (h : Swaps p p') : p'.scaleHand = p.scaleHand := by
  cases h <;> rfl

theorem Swaps.poolShare {p p' : Person} (h : Swaps p p') : p'.poolShare = p.poolShare := by
  cases h <;> rfl

/-- **An exchange** swaps the positions of two different people. -/
theorem Exchanges.swaps {people people' : List Person} {i j w : Nat}
    (h : Exchanges people i j w people') :
    ∃ a a' b b', people[i]? = some a ∧ people[j]? = some b ∧ i ≠ j ∧ Swaps a a' ∧ Swaps b b' ∧
      people' = (people.set i a').set j b' := by
  have apart : ∀ {a b : Person}, people[i]? = some a → people[j]? = some b → a ≠ b → i ≠ j := by
    intro a b hi hj hab hij
    subst hij
    exact hab (Option.some.inj (hi.symm.trans hj))
  cases h with
  | published hi hj => exact ⟨_, _, _, _, hi, hj, apart hi hj nofun, .hands, .receives, rfl⟩
  | acknowledged hi hj =>
      exact ⟨_, _, _, _, hi, hj, apart hi hj nofun, .accepted, .acknowledged, rfl⟩
  | proceeded hi hj => exact ⟨_, _, _, _, hi, hj, apart hi hj nofun, .permits, .proceeds, rfl⟩
  | completed hi hj => exact ⟨_, _, _, _, hi, hj, apart hi hj nofun, .completed, .finishes, rfl⟩

/-- What a swap keeps of everybody is the same for all after an exchange. -/
theorem Exchanges.tally_eq {people people' : List Person} {i j w : Nat} {g : Person → Nat}
    (h : Exchanges people i j w people') (hg : ∀ {p p'}, Swaps p p' → g p' = g p) :
    tally g people' = tally g people := by
  obtain ⟨a, a', b, b', hi, hj, hij, ha, hb, rfl⟩ := h.swaps
  have hj' : (people.set i a')[j]? = some b := by rw [List.getElem?_set_ne hij]; exact hj
  rw [tally_set_of_eq hj' (hg hb), tally_set_of_eq hi (hg ha)]

/-- What a swap keeps of everybody is shown by all after an exchange. -/
theorem Exchanges.map_eq {B : Type} {people people' : List Person} {i j w : Nat} {g : Person → B}
    (h : Exchanges people i j w people') (hg : ∀ {p p'}, Swaps p p' → g p' = g p) :
    people'.map g = people.map g := by
  obtain ⟨a, a', b, b', hi, hj, hij, ha, hb, rfl⟩ := h.swaps
  have hj' : (people.set i a')[j]? = some b := by rw [List.getElem?_set_ne hij]; exact hj
  rw [map_set_of_eq hj' (hg hb), map_set_of_eq hi (hg ha)]

/-- **`f.Becomes f' m i p'`** — where person `i` can stand after a move that leads to `f'`: where it
stood, or one of its own steps further, or on the other side of an exchange, or unwound, or at the
door. -/
inductive Becomes (f f' : Floor) (m : Move) (i : Nat) : Person → Prop
  | stays {p : Person} (hi : f.people[i]? = some p) : Becomes f f' m i p
  | visits {c : Customer} {v v' : Visiting} (hi : f.people[i]? = some (.customer c v))
      (h : v.Steps c f.premises v' f'.premises) : Becomes f f' m i (.customer c v')
  | works {id : Nat} {k k' : Working} (hi : f.people[i]? = some (.worker id k))
      (h : k.Steps id f.premises (f.offered id) k' f'.premises) :
      Becomes f f' m i (.worker id k')
  | closes {k k' : Closing} (hi : f.people[i]? = some (.closer k))
      (h : k.Steps f.premises k' f'.premises) : Becomes f f' m i (.closer k')
  | swaps {p p' : Person} (hi : f.people[i]? = some p) (h : Swaps p p') : Becomes f f' m i p'
  | unwinds {p p' : Person} (hm : m = .unwind i) (hi : f.people[i]? = some p)
      (h : p.unwind? = some p') : Becomes f f' m i p'
  | comes {p : Person} (hm : m = .join p) (hlast : i = f.people.length) : Becomes f f' m i p

/-- **What a move makes of a person.** -/
theorem becomes_of_move {f f' : Floor} {m : Move} {i : Nat} {p : Person}
    (hmove : f.move? m = some f') (hi : f'.people[i]? = some p) : f.Becomes f' m i p := by
  cases m with
  | step j =>
      cases steps_of_step? hmove with
      | customer hj hv =>
          rcases getElem?_set_cases hi with ⟨rfl, rfl⟩ | ⟨-, hi'⟩
          · exact .visits hj hv
          · exact .stays hi'
      | worker hj hk =>
          rcases getElem?_set_cases hi with ⟨rfl, rfl⟩ | ⟨-, hi'⟩
          · exact .works hj hk
          · exact .stays hi'
      | closer hj hk =>
          rcases getElem?_set_cases hi with ⟨rfl, rfl⟩ | ⟨-, hi'⟩
          · exact .closes hj hk
          · exact .stays hi'
  | exchange a b =>
      obtain ⟨w, people', -, hex, rfl⟩ := exchanges_of_exchange? hmove
      obtain ⟨q, q', r, r', ha, hb, -, hq, hr, rfl⟩ := hex.swaps
      rcases getElem?_set_cases hi with ⟨rfl, rfl⟩ | ⟨-, hi'⟩
      · exact .swaps hb hr
      · rcases getElem?_set_cases hi' with ⟨rfl, rfl⟩ | ⟨-, hi''⟩
        · exact .swaps ha hq
        · exact .stays hi''
  | unwind j =>
      obtain ⟨q, q', hj, hunwind, rfl⟩ := unwind?_eq_some hmove
      rcases getElem?_set_cases hi with ⟨rfl, rfl⟩ | ⟨-, hi'⟩
      · exact .unwinds rfl hj hunwind
      · exact .stays hi'
  | fire =>
      obtain rfl := Option.some.inj hmove
      exact .stays hi
  | join q =>
      obtain rfl := Option.some.inj hmove
      rcases getElem?_concat_cases hi with hi' | ⟨hlast, rfl⟩
      · exact .stays hi'
      · exact .comes rfl hlast

/-- Whoever is there after a move was there before or has just come. -/
theorem was_or_comes {f f' : Floor} {m : Move} {i : Nat} {p' : Person}
    (hmove : f.move? m = some f') (hi' : f'.people[i]? = some p') :
    (∃ p, f.people[i]? = some p) ∨ m = .join p' ∧ i = f.people.length := by
  cases becomes_of_move hmove hi' with
  | stays hi => exact .inl ⟨_, hi⟩
  | visits hi hv => exact .inl ⟨_, hi⟩
  | works hi hk => exact .inl ⟨_, hi⟩
  | closes hi hk => exact .inl ⟨_, hi⟩
  | swaps hi hs => exact .inl ⟨_, hi⟩
  | unwinds hm hi hu => exact .inl ⟨_, hi⟩
  | comes hm hlast => exact .inr ⟨hm, hlast⟩

/-- **What a move announces**: nothing, or what the person who steps was about to announce. -/
theorem events_of_move {f f' : Floor} {m : Move} (hmove : f.move? m = some f') :
    f'.premises.events = f.premises.events ∨
      ∃ i p e, m = .step i ∧ f.people[i]? = some p ∧ p.emits? = some e ∧
        f'.premises.events = f.premises.events ++ [e] := by
  cases m with
  | step i =>
      -- a step announces what the person was about to
      have announced : ∀ {p : Person}, f.people[i]? = some p →
          f'.premises.events = f.premises.events ++ p.emits?.toList →
          f'.premises.events = f.premises.events ∨
            ∃ i' p e, Move.step i = .step i' ∧ f.people[i']? = some p ∧ p.emits? = some e ∧
              f'.premises.events = f.premises.events ++ [e] := by
        intro p hi hevents
        cases he : p.emits? with
        | none => exact .inl (by rw [hevents, he, Option.toList_none, List.append_nil])
        | some e =>
            exact .inr ⟨i, p, e, rfl, hi, he, by rw [hevents, he, Option.toList_some]⟩
      cases steps_of_step? hmove with
      | customer hi hv => exact announced hi hv.events_eq
      | worker hi hk => exact announced hi hk.events_eq
      | closer hi hk => exact .inl hk.events_eq
  | exchange i j =>
      obtain ⟨w, people', -, hex, rfl⟩ := exchanges_of_exchange? hmove
      exact .inl rfl
  | unwind i =>
      obtain ⟨p, p', hi, hunwind, rfl⟩ := unwind?_eq_some hmove
      exact .inl rfl
  | fire =>
      obtain rfl := Option.some.inj hmove
      exact .inl rfl
  | join p =>
      obtain rfl := Option.some.inj hmove
      exact .inl rfl

end Floor

namespace Person

/-- A panic takes nothing of the pool out of anybody's hand. -/
theorem unwind?_poolShare {p p' : Person} (h : p.unwind? = some p') :
    p'.poolShare = p.poolShare := by
  cases unwinds_of_unwind? h with
  | @working w k e he hscale => cases k <;> first | rfl | cases he
  | _ => rfl

end Person

/-! ## §6 — the shutdown -/

/-- The shutdown fires in no step of a customer. -/
theorem Visiting.Steps.fired_eq {c : Customer} {p p' : Premises} {v v' : Visiting}
    (h : v.Steps c p v' p') : p'.fired = p.fired := by
  cases h <;> rfl

/-- The shutdown fires in no step of a worker. -/
theorem Working.Steps.fired_eq {id : Nat} {p p' : Premises} {offered : Bool} {k k' : Working}
    (h : k.Steps id p offered k' p') : p'.fired = p.fired := by
  cases h <;> rfl

/-- The shutdown fires in no step of a close. -/
theorem Closing.Steps.fired_eq {p p' : Premises} {k k' : Closing} (h : k.Steps p k' p') :
    p'.fired = p.fired := by
  cases h <;> rfl

/-- **The shutdown** fires in a move of its own. -/
theorem Floor.fired_of_move {f f' : Floor} {m : Move} (hmove : f.move? m = some f')
    (hm : m ≠ .fire) : f'.premises.fired = f.premises.fired := by
  cases m with
  | step i =>
      cases steps_of_step? hmove with
      | customer hi hv => exact hv.fired_eq
      | worker hi hk => exact hk.fired_eq
      | closer hi hk => exact hk.fired_eq
  | exchange i j =>
      obtain ⟨w, people', -, hex, rfl⟩ := exchanges_of_exchange? hmove
      rfl
  | unwind i =>
      obtain ⟨p, p', hi, hunwind, rfl⟩ := unwind?_eq_some hmove
      rfl
  | fire => exact absurd rfl hm
  | join p =>
      obtain rfl := Option.some.inj hmove
      rfl

/-- Once the shutdown has fired, it has fired. -/
theorem Floor.fired_stays {f f' : Floor} {m : Move} (hmove : f.move? m = some f')
    (hfired : f.premises.fired = true) : f'.premises.fired = true := by
  by_cases hm : m = .fire
  · subst hm
    obtain rfl := Option.some.inj hmove
    rfl
  · rw [fired_of_move hmove hm]
    exact hfired

end Postal

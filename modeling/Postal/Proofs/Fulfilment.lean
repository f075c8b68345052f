import Mathlib.Data.List.Induction
import Postal.Proofs.Course
import Postal.Proofs.Standstill

/-!
# Nobody is abandoned in service.

A worker sees the shutdown at two places only: at the head of its loop, and while it waits for an
assignment that nobody holds out. Between the two it has an assignment in hand, and goes on with it
until the customer who handed it over has taken the completion. So at every moment a worker has
completed all the assignments it was ever handed, in their order, but for the one in its hand
(`Floor.Owes`); and when it leaves it has none in hand. While it has one, nobody else deals with it
(`Floor.Alone`), so that the customer who takes the completion is the one who is waiting for it.

## §1 — what passes between a worker and its customers.
## §2 — one move of a worker.
## §3 — one customer at a desk.
## §4 — what a worker owes.
## §5 — after the shutdown.
## §6 — where nothing moves.
## §7 — the theorem.
-/

namespace Postal

/-! ## §1 — what passes between a worker and its customers -/

namespace Working

/-- The assignment that a worker has in hand and whose completion nobody has taken yet. -/
def inHand? : Working → Option Assignment
  | .serving _ _ .settling => none
  | k => k.assignment?

/-- The assignment that a worker was handed while it waits for one, and has not looked at. -/
def unread? : Working → Option Assignment
  | .checkingReceived _ a => some a
  | _ => none

/-- How many completions of a worker were taken. -/
def finished? : Working → Option Nat
  | .serving n _ .settling => some (n + 1)
  | k => k.served?

/-- The assignment with which the wait for one returns, if that is how a worker goes on. -/
def reads? : Working → Working → Option Assignment
  | .checkingReceived _ a, .serving _ _ _ => some a
  | _, _ => none

end Working

/-- The assignment with which the wait of a worker returns, if that is how a person goes on. -/
def Person.reads? : Person → Person → Option Assignment
  | .worker _ k, .worker _ k' => k.reads? k'
  | _, _ => none

namespace Floor

/-- The assignment that a move hands to person `i`, and the person from whom it comes. -/
def order? (i : Nat) (x : Happening Floor Move) : Option (Nat × Assignment) :=
  match x.move with
  | .exchange j k =>
    if k = i then
      match (x.before.people[j]?).bind Person.sends? with
      | some (_, .assignment a) => some (j, a)
      | _ => none
    else none
  | _ => none

/-- The assignment with which the wait of person `i` for one returns in a move. -/
def receipt? (i : Nat) (x : Happening Floor Move) : Option Assignment :=
  match x.before.people[i]?, x.after.people[i]? with
  | some p, some p' => p.reads? p'
  | _, _ => none

/-- The person who takes the completion of person `i` in a move, and what that customer came for. -/
def fulfilled? (i : Nat) (x : Happening Floor Move) : Option (Nat × Assignment) :=
  match x.move with
  | .exchange k j =>
    if k = i then
      match (x.before.people[i]?).bind Person.sends?, x.before.people[j]? with
      | some (_, .completed), some (.customer c _) => some (j, c.assignment)
      | _, _ => none
    else none
  | _ => none

/-- All that was handed to person `i`, one after the other. -/
def orders (i : Nat) (past : List (Happening Floor Move)) : List (Nat × Assignment) :=
  past.filterMap (order? i)

/-- All the assignments with which a wait of person `i` has returned. -/
def receipts (i : Nat) (past : List (Happening Floor Move)) : List Assignment :=
  past.filterMap (receipt? i)

/-- All the completions of person `i` that were taken. -/
def fulfilled (i : Nat) (past : List (Happening Floor Move)) : List (Nat × Assignment) :=
  past.filterMap (fulfilled? i)

/-! ## §2 — one move of a worker -/

/-- **`f.Serves w k k' order receipt fulfilled`** — what a move can mean to worker `w` who is still
counting its services: it is handed an assignment, its wait returns with it, its completion is
taken, or none of the three. -/
inductive Serves (f : Floor) (w : Nat) :
    Working → Working → Option (Nat × Assignment) → Option Assignment →
      Option (Nat × Assignment) → Prop
  | ordered {j n : Nat} {c : Customer} {stay : Stay}
      (hj : f.people[j]? = some (.customer c (.dealing stay w .handing))) :
      Serves f w (.awaitingPublish n) (.checkingReceived n c.assignment)
        (some (j, c.assignment)) none none
  | reads {n : Nat} {a : Assignment} :
      Serves f w (.checkingReceived n a) (.serving n a .announcingIntent) none (some a) none
  | fulfils {j n : Nat} {a : Assignment} {c : Customer} {stay : Stay}
      (hj : f.people[j]? = some (.customer c (.dealing stay w .awaitingCompletion))) :
      Serves f w (.serving n a .sendingCompletion) (.serving n a .settling) none none
        (some (j, c.assignment))
  | aside {k k' : Working} (hhand : k'.inHand? = k.inHand?) (hunread : k'.unread? = k.unread?)
      (hfinished : k'.finished? = k.finished?) : Serves f w k k' none none none

end Floor

/-- A worker counts its services until it fails or is unwound. -/
theorem Working.finished?_ne_none {k : Working} (hunhurt : k.Unhurt)
    (hsound : ∀ e, k ≠ .ended (.failed e)) : k.finished? ≠ none := by
  cases k with
  | serving n a position => cases position <;> exact nofun
  | unwinding pos => exact hunhurt.elim
  | ended e =>
      cases e with
      | returned r => exact nofun
      | failed fault => exact absurd rfl (hsound fault)
      | panicked => exact hunhurt.elim
  | _ => exact nofun

/-- A worker that has read no more than before reads nothing. -/
theorem Working.reads?_eq_none {k k' : Working} (h : k'.unread? = k.unread?) :
    k.reads? k' = none := by
  cases k with
  | checkingReceived n a =>
      cases k' with
      | serving m b position => cases h
      | _ => rfl
  | _ => rfl

/-- **A step of a worker** in an open office: it looks at the assignment that it was handed, or
keeps what it has in hand and what it has counted. -/
theorem Working.Steps.serves {id : Nat} {p p' : Premises} {offered : Bool} {k k' : Working}
    (h : k.Steps id p offered k' p') (hopen : p.IsOpen) (hcounts : k'.finished? ≠ none) :
    (∃ n a, k = .checkingReceived n a ∧ k' = .serving n a .announcingIntent) ∨
      k'.inHand? = k.inHand? ∧ k'.unread? = k.unread? ∧ k'.finished? = k.finished? := by
  cases h with
  | accepts hs hphase hcustomer => exact .inl ⟨_, _, rfl, rfl⟩
  | @advertises n pos progress pool hoffer =>
      rcases progress with pos' | ⟨e | ⟨⟩⟩
      · exact .inr ⟨rfl, rfl, rfl⟩
      · exact absurd rfl hcounts
      · exact .inr ⟨rfl, rfl, rfl⟩
  | interrupted hwaits hclosed =>
      rw [hopen.slot] at hclosed
      cases hclosed
  | @starts n a s hs hphase => cases a.task.needsScale <;> exact .inr ⟨rfl, rfl, rfl⟩
  | @weighs n a pos progress scale hacq =>
      rcases progress with pos' | ⟨e | ⟨⟩⟩
      · exact .inr ⟨rfl, rfl, rfl⟩
      · have hclosed := (Scale.acquire?_fault hacq).2
        rw [hopen.scale] at hclosed
        cases hclosed
      · exact .inr ⟨rfl, rfl, rfl⟩
  | @works n deadline a => cases a.task.needsScale <;> exact .inr ⟨rfl, rfl, rfl⟩
  | @drops n a pos => cases pos <;> exact .inr ⟨rfl, rfl, rfl⟩
  | @unwinds pos => cases pos <;> exact absurd rfl hcounts
  | unknown hge => exact absurd rfl hcounts
  | rejects hs hno e => exact absurd rfl hcounts
  | breaks hs hneeds hphase e => exact absurd rfl hcounts
  | _ => exact .inr ⟨rfl, rfl, rfl⟩

namespace Floor

variable {f f' : Floor} {m : Move} {i j w workers : Nat} {k k' : Working}

/-- Whoever stays where it is takes part in nothing. -/
theorem serves_of_stays (hi : f.people[i]? = some (.worker w k))
    (hi' : f'.people[i]? = some (.worker w k)) (horder : order? i ⟨f, m, f'⟩ = none)
    (hfulfilled : fulfilled? i ⟨f, m, f'⟩ = none) :
    ∃ k₀, f.people[i]? = some (.worker w k₀) ∧
      f.Serves w k₀ k (order? i ⟨f, m, f'⟩) (receipt? i ⟨f, m, f'⟩) (fulfilled? i ⟨f, m, f'⟩) := by
  have hreceipt : receipt? i ⟨f, m, f'⟩ = none := by
    simp only [receipt?, hi, hi']
    exact Working.reads?_eq_none rfl
  rw [horder, hreceipt, hfulfilled]
  exact ⟨k, hi, .aside rfl rfl rfl⟩

/-- **What an exchange means to a worker.** -/
theorem serves_of_exchange {a b v : Nat} {people' : List Person}
    (hex : Exchanges f.people a b v people') (hf' : f' = { f with people := people' })
    (hi' : f'.people[i]? = some (.worker w k')) :
    ∃ k, f.people[i]? = some (.worker w k) ∧
      f.Serves w k k' (order? i ⟨f, .exchange a b, f'⟩) (receipt? i ⟨f, .exchange a b, f'⟩)
        (fulfilled? i ⟨f, .exchange a b, f'⟩) := by
  obtain ⟨-, -, -, -, -, -, hab, -, -, -⟩ := hex.swaps
  subst hf'
  -- the worker is on the receiving side, or on the sending side, or on neither
  have hsides : ∀ {p q : Person}, people' = (f.people.set a p).set b q →
      (i = b ∧ q = .worker w k') ∨ (i = a ∧ p = .worker w k') ∨
      ∃ k, f.people[i]? = some (.worker w k) ∧
        f.Serves w k k' (order? i ⟨f, .exchange a b, { f with people := people' }⟩)
          (receipt? i ⟨f, .exchange a b, { f with people := people' }⟩)
          (fulfilled? i ⟨f, .exchange a b, { f with people := people' }⟩) := by
    rintro p q rfl
    rcases getElem?_set_cases hi' with ⟨hib, hq⟩ | ⟨hib, hi₁⟩
    · exact .inl ⟨hib, hq.symm⟩
    · rcases getElem?_set_cases hi₁ with ⟨hia, hp⟩ | ⟨hia, hi⟩
      · exact .inr (.inl ⟨hia, hp.symm⟩)
      · exact .inr (.inr (serves_of_stays hi hi' (if_neg (Ne.symm hib)) (if_neg (Ne.symm hia))))
  cases hex with
  | published ha hb =>
      rcases hsides rfl with ⟨rfl, hq⟩ | ⟨-, hp⟩ | hneither
      · obtain ⟨rfl, rfl⟩ := Person.worker.inj hq
        refine ⟨_, hb, ?_⟩
        simp only [order?, receipt?, fulfilled?, ha, hb, hi', hab, if_true, if_false,
          Option.bind_some, Person.sends?, Visiting.sends?]
        exact .ordered ha
      · cases hp
      · exact hneither
  | acknowledged ha hb =>
      rcases hsides rfl with ⟨-, hq⟩ | ⟨rfl, hp⟩ | hneither
      · cases hq
      · obtain ⟨rfl, rfl⟩ := Person.worker.inj hp
        refine ⟨_, ha, ?_⟩
        simp only [order?, receipt?, fulfilled?, ha, hb, hi', Ne.symm hab, if_true, if_false,
          Option.bind_some, Person.sends?, Working.sends?, Option.map_some]
        exact .aside rfl rfl rfl
      · exact hneither
  | proceeded ha hb =>
      rcases hsides rfl with ⟨rfl, hq⟩ | ⟨-, hp⟩ | hneither
      · obtain ⟨rfl, rfl⟩ := Person.worker.inj hq
        refine ⟨_, hb, ?_⟩
        simp only [order?, receipt?, fulfilled?, ha, hb, hi', hab, if_true, if_false,
          Option.bind_some, Person.sends?, Visiting.sends?]
        exact .aside rfl rfl rfl
      · cases hp
      · exact hneither
  | completed ha hb =>
      rcases hsides rfl with ⟨-, hq⟩ | ⟨rfl, hp⟩ | hneither
      · cases hq
      · obtain ⟨rfl, rfl⟩ := Person.worker.inj hp
        refine ⟨_, ha, ?_⟩
        simp only [order?, receipt?, fulfilled?, ha, hb, hi', Ne.symm hab, if_true, if_false,
          Option.bind_some, Person.sends?, Working.sends?, Option.map_some]
        exact .fulfils hb
      · exact hneither

/-- **What a move means to a worker** who is there afterwards and still counts its services. -/
theorem serves_of_move (hopen : f.premises.IsOpen) (hmove : f.move? m = some f')
    (hi' : f'.people[i]? = some (.worker w k')) (hcounts : k'.finished? ≠ none) :
    m = .join (.worker w k') ∧ i = f.people.length ∨
      ∃ k, f.people[i]? = some (.worker w k) ∧
        f.Serves w k k' (order? i ⟨f, m, f'⟩) (receipt? i ⟨f, m, f'⟩)
          (fulfilled? i ⟨f, m, f'⟩) := by
  cases m with
  | step j =>
      cases steps_of_step? hmove with
      | customer hj hv =>
          rcases getElem?_set_cases hi' with ⟨rfl, hp⟩ | ⟨-, hi⟩
          · cases hp
          · exact .inr (serves_of_stays hi hi' rfl rfl)
      | closer hj hv =>
          rcases getElem?_set_cases hi' with ⟨rfl, hp⟩ | ⟨-, hi⟩
          · cases hp
          · exact .inr (serves_of_stays hi hi' rfl rfl)
      | @worker id k k₁ p' hj hk =>
          rcases getElem?_set_cases hi' with ⟨rfl, hp⟩ | ⟨-, hi⟩
          · obtain ⟨rfl, rfl⟩ := Person.worker.inj hp
            refine .inr ⟨k, hj, ?_⟩
            simp only [receipt?, hj, hi', Person.reads?]
            rcases hk.serves hopen hcounts with ⟨n, a, rfl, rfl⟩ | ⟨hhand, hunread, hfinished⟩
            · exact .reads
            · rw [Working.reads?_eq_none hunread]
              exact .aside hhand hunread hfinished
          · exact .inr (serves_of_stays hi hi' rfl rfl)
  | exchange a b =>
      obtain ⟨v, people', -, hex, hf'⟩ := exchanges_of_exchange? hmove
      exact .inr (serves_of_exchange hex hf' hi')
  | unwind j =>
      obtain ⟨p, p', hj, hunwind, rfl⟩ := unwind?_eq_some hmove
      rcases getElem?_set_cases hi' with ⟨rfl, rfl⟩ | ⟨-, hi⟩
      · -- a worker that a panic unwinds counts no longer
        cases Person.unwinds_of_unwind? hunwind <;> exact absurd rfl hcounts
      · exact .inr (serves_of_stays hi hi' rfl rfl)
  | fire =>
      obtain rfl := Option.some.inj hmove
      exact .inr (serves_of_stays hi' hi' rfl rfl)
  | join p =>
      obtain rfl := Option.some.inj hmove
      rcases getElem?_concat_cases hi' with hi | ⟨hlast, rfl⟩
      · exact .inr (serves_of_stays hi hi' rfl rfl)
      · exact .inl ⟨rfl, hlast⟩

end Floor

/-! ## §3 — one customer at a desk -/

/-- Whether a customer deals with worker `w` and has not taken its completion. -/
def Visiting.DealsWith (w : Nat) : Visiting → Prop
  | .dealing _ v d => v = w ∧ d.isDone = false
  | _ => False

/-- Whether a person is a customer who deals with worker `w` and has not taken its completion. -/
def Person.DealsWith (w : Nat) : Person → Prop
  | .customer _ v => v.DealsWith w
  | _ => False

/-- **Whoever deals with a worker** after a step has just claimed it, or has dealt with it
before. -/
theorem Visiting.Steps.dealsWith {c : Customer} {p p' : Premises} {v v' : Visiting} {w : Nat}
    (h : v.Steps c p v' p') (hdeals : v'.DealsWith w) :
    (∃ stay, v' = .dealing stay w .announcingClaim) ∨ v.DealsWith w := by
  cases h with
  | @enters pos progress gate henter =>
      rcases progress with pos' | ⟨e | ticket⟩ <;> exact hdeals.elim
  | @claims stay pos progress pool hclaim =>
      rcases progress with pos' | ⟨e | worker⟩
      · exact hdeals.elim
      · exact hdeals.elim
      · simp only [Progress.within, afterSearch] at hdeals ⊢
        split at hdeals
        · next hlt =>
          rw [if_pos hlt]
          obtain ⟨rfl, -⟩ := hdeals
          exact .inl ⟨stay, rfl⟩
        · exact hdeals.elim
  | announcesClaim => exact .inr hdeals
  | binds hs hphase => exact .inr hdeals
  | linesUp => exact .inr hdeals
  | announcesIntent => exact .inr hdeals
  | proceeds hs hphase => exact .inr hdeals
  | announcesFinish => exact .inr hdeals
  | announcesDeparture => exact .inr hdeals
  | _ => exact hdeals.elim

namespace Floor

/-- **Person `j` is alone** with worker `w`: nobody else deals with that worker and waits for a
completion. -/
def Alone (f : Floor) (w j : Nat) : Prop :=
  ∀ (i : Nat) (p : Person), f.people[i]? = some p → p.DealsWith w → i = j

section Alone

variable {f f' : Floor} {m : Move} {i j w workers : Nat} {k : Working} {ledgers : Nat → Ledger}

/-- The person who deals with a worker is the one in its ledger. -/
theorem Kept.claimant_eq (h : f.Kept workers ledgers) {p : Person} (hi : f.people[i]? = some p)
    (hdeals : p.DealsWith w) : (ledgers w).claimant = i := by
  cases p with
  | customer c v =>
      cases v with
      | dealing stay v d =>
          obtain ⟨rfl, hd⟩ := hdeals
          exact (h.dealing_fits hi hd).2.1
      | _ => exact hdeals.elim
  | _ => exact hdeals.elim

/-- Whoever deals with a worker is alone with it. -/
theorem Kept.alone (h : f.Kept workers ledgers) {p : Person} (hj : f.people[j]? = some p)
    (hdeals : p.DealsWith w) : f.Alone w j := fun _ _ hi hdeals' =>
  (h.claimant_eq hi hdeals').symm.trans (h.claimant_eq hj hdeals)

/-- Nobody claims a worker that has an assignment in hand. -/
theorem Kept.not_claimed (h : f.Kept workers ledgers) (hi : f.people[i]? = some (.worker w k))
    (hhand : k.assignment? ≠ none) (c : Customer) (stay : Stay) :
    f.people[j]? ≠ some (.customer c (.dealing stay w .announcingClaim)) := by
  intro hclaims
  obtain ⟨-, -, -, hstage⟩ := h.dealing_fits hclaims rfl
  have hallows := (h.worker_fits hi).2.stage
  rw [List.mem_singleton.1 hstage] at hallows
  cases k with
  | checkingReceived n a => cases hallows
  | serving n a position =>
      cases position <;> simp [Working.Allows, Service.stages] at hallows
  | _ => exact hhand rfl

/-- **Nobody comes in between** as long as the worker has an assignment in hand. -/
theorem Alone.move (h : f.Alone w j) (hkept' : f'.Kept workers ledgers)
    (hmove : f.move? m = some f') (hbegins : m.Begins) (hi' : f'.people[i]? = some (.worker w k))
    (hhand : k.assignment? ≠ none) : f'.Alone w j := by
  intro b p hb hdeals
  cases becomes_of_move hmove hb with
  | stays hi => exact h b _ hi hdeals
  | visits hi hv =>
      rcases hv.dealsWith hdeals with ⟨stay, rfl⟩ | hdealt
      · exact absurd hb (hkept'.not_claimed hi' hhand _ stay)
      · exact h b _ hi hdealt
  | works hi hk => exact hdeals.elim
  | closes hi hk => exact hdeals.elim
  | @swaps q q' hi hs =>
      refine h b q hi ?_
      cases hs with
      | hands => exact hdeals
      | acknowledged => exact hdeals
      | permits => exact hdeals
      | finishes => exact ⟨hdeals.1, rfl⟩
      | _ => exact hdeals.elim
  | unwinds hm hi hu =>
      -- whoever a panic unwinds is on the way out
      cases Person.unwinds_of_unwind? hu <;> exact hdeals.elim
  | comes hm hlast =>
      subst hm
      rcases hbegins with ⟨c₀, rfl⟩ | ⟨v, rfl⟩ | rfl <;> exact hdeals.elim

end Alone

/-! ## §4 — what a worker owes -/

/-- **`f.Owes w k orders receipts fulfilled`** — worker `w`, who stands at `k`, has completed
whatever it was handed, in that order, but for what it has in hand; the customer of that one is
alone with it. Its waits have returned with all that it was handed, but for what it has not looked
at. -/
structure Owes (f : Floor) (w : Nat) (k : Working) (orders : List (Nat × Assignment))
    (receipts : List Assignment) (fulfilled : List (Nat × Assignment)) : Prop where
  finished : k.finished? = some fulfilled.length
  read : receipts ++ k.unread?.toList = orders.map Prod.snd
  current : ∃ now, orders = fulfilled ++ now ∧ now.map Prod.snd = k.inHand?.toList ∧
    ∀ x ∈ now, f.Alone w x.1

/-- **`f.Dutiful past`** — every worker who counts its services owes what it has in hand, and
nothing has happened to anybody who is not there yet. -/
structure Dutiful (past : List (Happening Floor Move)) (f : Floor) : Prop where
  absent : ∀ i, f.people.length ≤ i →
    orders i past = [] ∧ receipts i past = [] ∧ fulfilled i past = []
  present : ∀ (i w : Nat) (k : Working), f.people[i]? = some (.worker w k) →
    k.finished? ≠ none → f.Owes w k (orders i past) (receipts i past) (fulfilled i past)

section Dutiful

variable {f f' : Floor} {m : Move} {i w workers : Nat} {k k' : Working}
  {ledgers ledgers' : Nat → Ledger} {past : List (Happening Floor Move)}

/-- A worker who counts its services has counted them before. -/
theorem Serves.counts {o d : Option (Nat × Assignment)} {r : Option Assignment}
    (h : f.Serves w k k' o r d) (hcounts : k'.finished? ≠ none) : k.finished? ≠ none := by
  cases h with
  | aside hhand hunread hfinished => rwa [← hfinished]
  | _ => exact nofun

/-- An assignment in hand is one that the worker was handed. -/
theorem assignment?_of_inHand? (h : k.inHand? ≠ none) : k.assignment? ≠ none := by
  cases k with
  | serving n a position => exact nofun
  | _ => exact h

/-- **A worker goes on**, and owes what it has in hand. -/
theorem Owes.serves {os : List (Nat × Assignment)} {rs : List Assignment}
    {ds : List (Nat × Assignment)} {o : Option (Nat × Assignment)} {r : Option Assignment}
    {d : Option (Nat × Assignment)} (h : f.Owes w k os rs ds) (hkept : f.Kept workers ledgers)
    (hi : f.people[i]? = some (.worker w k)) (hserves : f.Serves w k k' o r d)
    (halone : k'.inHand? ≠ none → ∀ j, f.Alone w j → f'.Alone w j) :
    f'.Owes w k' (os ++ o.toList) (rs ++ r.toList) (ds ++ d.toList) := by
  obtain ⟨now, rfl, hnow, honly⟩ := h.current
  have hread := h.read
  cases hserves with
  | @ordered j n c stay hj =>
      obtain rfl : now = [] := List.map_eq_nil_iff.1 hnow
      refine ⟨?_, ?_, [(j, c.assignment)], ?_, rfl, ?_⟩
      · rw [Option.toList_none, List.append_nil]
        exact h.finished
      · simpa [Working.unread?] using hread
      · simp
      · intro x hx
        obtain rfl := List.mem_singleton.1 hx
        exact halone nofun j (hkept.alone hj ⟨rfl, rfl⟩)
  | @reads n a =>
      refine ⟨?_, ?_, now, ?_, hnow, fun x hx => halone nofun x.1 (honly x hx)⟩
      · rw [Option.toList_none, List.append_nil]
        exact h.finished
      · simpa [Working.unread?] using hread
      · simp
  | @fulfils j n a c stay hj =>
      -- the customer at the desk is the one on record there, and so is its assignment
      have hcurrent : a = c.assignment := by
        have hrecord := (hkept.worker_fits hi).2.assignment a rfl
        rw [hrecord, (hkept.dealing_fits hj rfl).2.2.1]
      obtain ⟨x, rfl, hx⟩ := List.map_eq_singleton_iff.1 hnow
      obtain rfl : j = x.1 := honly x (List.mem_singleton_self x) j _ hj ⟨rfl, rfl⟩
      obtain rfl : a = x.2 := hx.symm
      refine ⟨?_, ?_, [], ?_, rfl, nofun⟩
      · have hfinished := h.finished
        simp only [Working.finished?, Working.served?, Option.some.injEq] at hfinished ⊢
        simp [hfinished]
      · simpa [Working.unread?] using hread
      · simp [← hcurrent]
  | aside hhand hunread hfinished =>
      refine ⟨?_, ?_, now, ?_, ?_, fun x hx => halone ?_ x.1 (honly x hx)⟩
      · simpa [hfinished] using h.finished
      · simpa [hunread] using hread
      · simp
      · rw [hhand]
        exact hnow
      · rw [hhand]
        intro hnone
        rw [hnone, Option.toList_none, List.map_eq_nil_iff] at hnow
        subst hnow
        cases hx

/-- Nothing happens to anybody who is not there. -/
theorem nothing_of_absent (hmove : f.move? m = some f') (hi : f.people[i]? = none) :
    order? i ⟨f, m, f'⟩ = none ∧ receipt? i ⟨f, m, f'⟩ = none ∧ fulfilled? i ⟨f, m, f'⟩ = none := by
  have hreceipt : receipt? i ⟨f, m, f'⟩ = none := by simp only [receipt?, hi]
  cases m with
  | exchange a b =>
      obtain ⟨v, people', -, hex, -⟩ := exchanges_of_exchange? hmove
      obtain ⟨p, p', q, q', ha, hb, -⟩ := hex.swaps
      have hia : a ≠ i := by
        rintro rfl
        cases hi.symm.trans ha
      have hib : b ≠ i := by
        rintro rfl
        cases hi.symm.trans hb
      exact ⟨if_neg hib, hreceipt, if_neg hia⟩
  | _ => exact ⟨rfl, hreceipt, rfl⟩

/-- **Every move** keeps the workers of an open office dutiful. -/
theorem Dutiful.move (h : f.Dutiful past) (hkept : f.Kept workers ledgers)
    (hkept' : f'.Kept workers ledgers') (hopen : f.premises.IsOpen) (hmove : f.move? m = some f')
    (hbegins : m.Begins) : f'.Dutiful (past ++ [⟨f, m, f'⟩]) := by
  have habsent : ∀ i, f.people.length ≤ i → orders i (past ++ [⟨f, m, f'⟩]) = [] ∧
      receipts i (past ++ [⟨f, m, f'⟩]) = [] ∧ fulfilled i (past ++ [⟨f, m, f'⟩]) = [] := by
    intro i hi
    obtain ⟨horders, hreceipts, hfulfilled⟩ := h.absent i hi
    obtain ⟨ho, hr, hd⟩ := nothing_of_absent hmove (List.getElem?_eq_none hi)
    unfold orders receipts fulfilled at *
    simp only [filterMap_concat, horders, hreceipts, hfulfilled, ho, hr, hd, Option.toList_none,
      List.append_nil, and_self]
  refine ⟨fun i hi => habsent i (Nat.le_trans (length_le_of_move hmove) hi),
    fun i w k' hi' hcounts => ?_⟩
  rcases serves_of_move hopen hmove hi' hcounts with ⟨rfl, rfl⟩ | ⟨k, hi, hserves⟩
  · -- a newcomer owes nothing
    obtain ⟨horders, hreceipts, hfulfilled⟩ := habsent _ (Nat.le_refl _)
    rw [horders, hreceipts, hfulfilled]
    rcases hbegins with ⟨c, heq⟩ | ⟨v, heq⟩ | heq
    · cases heq
    · obtain ⟨rfl, rfl⟩ := Person.worker.inj heq
      exact ⟨rfl, rfl, [], rfl, rfl, nofun⟩
    · cases heq
  · have hcounted := hserves.counts hcounts
    unfold orders receipts fulfilled
    rw [filterMap_concat, filterMap_concat, filterMap_concat]
    exact (h.present i w k hi hcounted).serves hkept hi hserves fun hhand j halone =>
      halone.move hkept' hmove hbegins hi' (assignment?_of_inHand? hhand)

/-- **Workers are dutiful** in every regular run of an office that nobody closes. -/
theorem dutiful_run {capacity minute clock : Nat} {ms : List Move} (hword : workers ≤ wordMax)
    (hms : Regular workers ms) (hunclosed : .closer ∉ newcomers ms)
    (hrun : run? ms (.opening (.furnish capacity workers minute) clock) = some f) :
    f.Dutiful (course move? ms (.opening (.furnish capacity workers minute) clock)) := by
  induction ms using List.reverseRecOn generalizing f with
  | nil =>
      obtain rfl := Option.some.inj hrun
      exact ⟨fun _ _ => ⟨rfl, rfl, rfl⟩, fun i w k hi => by simp [opening] at hi⟩
  | append_singleton ms m ih =>
      obtain ⟨g, hbefore, hmove, hcourse⟩ :=
        course_concat (fun _ => rfl) (fun _ _ _ => rfl) hrun
      have hunclosed' : .closer ∉ newcomers ms := by
        rw [newcomers_append, List.mem_append, not_or] at hunclosed
        exact hunclosed.1
      obtain ⟨⟨ledgers, hkept⟩, -, hguarded, -⟩ := sound_run hword hms.of_append hbefore
      obtain ⟨⟨ledgers', hkept'⟩, -⟩ := sound_run hword hms hrun
      have hopen : g.premises.IsOpen := by
        apply hguarded.isOpen
        rw [badges_run hbefore]
        exact hunclosed'
      rw [hcourse]
      exact (ih hms.of_append hunclosed' hbefore).move hkept hkept' hopen hmove
        (hms.move_begins List.mem_concat_self)

end Dutiful

end Floor

/-! ## §5 — after the shutdown -/

/-- How many assignments the wait of a worker can still return with once the shutdown has fired. -/
def Working.expects : Working → Nat
  | .opening _ | .announcingIdle _ | .advertising _ _ | .awaitingPublish _
  | .checkingReceived _ _ => 1
  | _ => 0

/-- How many assignments the wait of a person can still return with once the shutdown has fired. -/
def Person.expects : Person → Nat
  | .worker _ k => k.expects
  | _ => 0

/-- Whoever stays where it is reads nothing. -/
theorem Person.reads?_self (p : Person) : p.reads? p = none := by
  cases p with
  | worker w k => exact Working.reads?_eq_none rfl
  | _ => rfl

/-- A worker that a panic unwinds reads nothing, and expects nothing any more. -/
theorem Person.expects_of_unwind? {p p' : Person} (h : p.unwind? = some p') :
    (p.reads? p').toList.length + p'.expects ≤ p.expects := by
  cases unwinds_of_unwind? h with
  | @working w k e he hscale =>
      cases k with
      | checkingReceived n a => cases he
      | _ => exact Nat.zero_le _
  | _ => exact Nat.zero_le _

/-- **A step of a worker** after the shutdown takes whatever it reads off what it expects. -/
theorem Working.Steps.expects_le {id : Nat} {p p' : Premises} {offered : Bool} {k k' : Working}
    (h : k.Steps id p offered k' p') (hfired : p.fired = true) :
    (k.reads? k').toList.length + k'.expects ≤ k.expects := by
  cases h with
  | stays hno =>
      rw [hfired] at hno
      cases hno
  | @advertises n pos progress pool hoffer =>
      rcases progress with pos' | ⟨e | ⟨⟩⟩
      · exact Nat.le_refl 1
      · exact Nat.zero_le 1
      · exact Nat.le_refl 1
  | @weighs n a pos progress scale hacq =>
      rcases progress with pos' | ⟨e | ⟨⟩⟩
      · exact Nat.le_refl 0
      · cases e <;> exact Nat.le_refl 0
      · exact Nat.le_refl 0
  | @drops n a pos => cases pos <;> exact Nat.le_refl 0
  | @unwinds pos => cases pos <;> exact Nat.le_refl 0
  | @breaks k s needed hs hneeds hphase f =>
      cases k <;> first | exact Nat.zero_le _
  | goesHome hout => exact Nat.zero_le 1
  | rejects hs hno e => exact Nat.zero_le 1
  | _ => exact Nat.le_refl _

namespace Floor

section Expects

variable {f f' : Floor} {m : Move} {ms : List Move}

/-- How many assignments the wait of person `i` can still return with once the shutdown has fired;
whoever comes after that expects none. -/
def expects (f : Floor) (i : Nat) : Nat := ((f.people[i]?).map Person.expects).getD 0

theorem expects_of_getElem? {i : Nat} {p : Person} (hi : f.people[i]? = some p) :
    f.expects i = p.expects := by
  rw [expects, hi]
  rfl

theorem expects_le (f : Floor) (i : Nat) : f.expects i ≤ 1 := by
  rw [expects]
  cases f.people[i]? with
  | none => exact Nat.zero_le 1
  | some p =>
      cases p with
      | worker w k => cases k <;> exact Nat.le_of_ble_eq_true rfl
      | _ => exact Nat.zero_le 1

/-- **Every move** after the shutdown takes whatever person `i` reads off what it expects. -/
theorem receipt?_le (hmove : f.move? m = some f') (hbegins : m.Begins)
    (hfired : f.premises.fired = true) (i : Nat) :
    (receipt? i ⟨f, m, f'⟩).toList.length + f'.expects i ≤ f.expects i := by
  cases hi' : f'.people[i]? with
  | none =>
      have hnothing : receipt? i ⟨f, m, f'⟩ = none := by
        cases hi : f.people[i]? <;> simp only [receipt?, hi, hi']
      rw [hnothing, expects, hi']
      exact Nat.zero_le _
  | some p' =>
      -- whoever was there before goes on from there
      have hwas : ∀ {p : Person}, f.people[i]? = some p →
          (p.reads? p').toList.length + p'.expects ≤ p.expects →
            (receipt? i ⟨f, m, f'⟩).toList.length + f'.expects i ≤ f.expects i := by
        intro p hi hle
        rw [expects_of_getElem? hi, expects_of_getElem? hi']
        simpa only [receipt?, hi, hi'] using hle
      cases becomes_of_move hmove hi' with
      | stays hi =>
          refine hwas hi ?_
          rw [Person.reads?_self]
          exact Nat.le_of_eq (Nat.zero_add _)
      | visits hi hv => exact hwas hi (Nat.le_refl 0)
      | works hi hk => exact hwas hi (hk.expects_le hfired)
      | closes hi hk => exact hwas hi (Nat.le_refl 0)
      | swaps hi hs => exact hwas hi (by cases hs <;> exact Nat.le_refl _)
      | unwinds hm hi hu => exact hwas hi (Person.expects_of_unwind? hu)
      | comes hm hlast =>
          subst hm
          have hnew := List.getElem?_eq_none (Nat.le_of_eq hlast.symm)
          obtain ⟨-, hnothing, -⟩ := nothing_of_absent hmove hnew
          rw [hnothing, expects_of_getElem? hi']
          rcases hbegins with ⟨c, rfl⟩ | ⟨w, rfl⟩ | rfl <;> exact Nat.zero_le _

/-- **After the shutdown** nobody's wait returns with more than what that person expects. -/
theorem receipts_le {i : Nat} (hbegins : ∀ m ∈ ms, m.Begins) (hfired : f.premises.fired = true) :
    (receipts i (course move? ms f)).length ≤ f.expects i := by
  induction ms generalizing f with
  | nil => exact Nat.zero_le _
  | cons m ms ih =>
      cases hmove : f.move? m with
      | none =>
          rw [receipts, course, hmove]
          exact Nat.zero_le _
      | some g =>
          have hone := receipt?_le hmove (hbegins m List.mem_cons_self) hfired i
          have hmany := ih (fun m hm => hbegins m (List.mem_cons_of_mem _ hm))
            (fired_stays hmove hfired)
          have hcourse : receipts i (course move? (m :: ms) f) =
              (receipt? i ⟨f, m, g⟩).toList ++ receipts i (course move? ms g) := by
            rw [receipts, receipts, course, hmove, List.filterMap_cons]
            cases receipt? i ⟨f, m, g⟩ <;> rfl
          rw [hcourse, List.length_append]
          omega

end Expects

/-! ## §6 — where nothing moves -/

/-- **Nobody is left waiting in the middle of a service**: where nothing moves in a calm office, no
worker has an assignment in hand. -/
theorem Calm.nobody_serves {workers room : Nat} {f : Floor} {ledgers : Nat → Ledger}
    (h : f.Calm workers room) (hkept : f.Kept workers ledgers) (hstill : f.Still) {i w : Nat}
    {k : Working} (hi : f.people[i]? = some (.worker w k)) : k.assignment? = none := by
  obtain ⟨hw, hk⟩ := hkept.worker_fits hi
  have hallows := hk.stage
  -- whom a worker serves is still at the desk, and waits for nobody but a worker that has left
  have hleft (position : Service) (hwaits : position.Waits)
      (hstage : (ledgers w).stage ∈ position.stages) : k.ending?.isSome = true := by
    obtain ⟨hengaged, -⟩ := Service.engaged_of_waits position hwaits hstage
    obtain ⟨stay, d, hdeals⟩ := h.claimant_deals hkept hw hengaged
    exact h.worker_has_left hkept hstill hdeals hi
  cases hkept.worker_parked hstill hi with
  | awaitingPublish n => rfl
  | ended ending => rfl
  | sendingAcknowledge n a => cases hleft .sendingAcknowledge trivial hallows
  | awaitingProceed n a => cases hleft .awaitingProceed trivial hallows
  | sendingCompletion n a => cases hleft .sendingCompletion trivial hallows
  | queued n a ticket => exact (h.nobody_weighs hkept hstill hi).elim

/-! ## §7 — the theorem -/

/-- A worker with nothing in hand owes nothing: every assignment that it was handed is completed,
and its waits have returned with each of them. -/
theorem Owes.settled {f : Floor} {w : Nat} {k : Working} {os ds : List (Nat × Assignment)}
    {rs : List Assignment} (h : f.Owes w k os rs ds) (hhand : k.assignment? = none) :
    ds = os ∧ rs = os.map Prod.snd := by
  have hnothing : k.inHand? = none ∧ k.unread? = none := by
    cases k with
    | checkingReceived n a => cases hhand
    | serving n a position => cases hhand
    | _ => exact ⟨rfl, rfl⟩
  obtain ⟨now, rfl, hnow, -⟩ := h.current
  rw [hnothing.1] at hnow
  obtain rfl : now = [] := List.map_eq_nil_iff.1 hnow
  refine ⟨(List.append_nil ds).symm, ?_⟩
  have hread := h.read
  rwa [hnothing.2, Option.toList_none, List.append_nil] at hread

/-- **The shutdown abandons nobody in service.** Take an office that nobody closes, any number of
visits, a shift for each worker at most, the shutdown and panics at any moment, and any interleaving
of all their steps. A worker that leaves with a report has completed every assignment with which its
wait for one has returned: its completions were taken by exactly the customers who handed these
assignments over, in that order, and it reports as many services. Shifts do not end otherwise, but
for a panic of that very worker. From the moment at which the shutdown has fired, no wait of a
worker returns with more than one further assignment. Nor does a worker stay in the middle of a
service: as long as nobody panics, something moves until every assignment that was handed over is
completed. -/
theorem nobody_is_abandoned (capacity workers minute clock : Nat) (hword : workers ≤ wordMax)
    (ms : List Move) (hms : Regular workers ms) (hunclosed : .closer ∉ newcomers ms) (f : Floor)
    (hrun : run? ms (.opening (.furnish capacity workers minute) clock) = some f) :
    let past := course move? ms (.opening (.furnish capacity workers minute) clock)
    (∀ (i w : Nat) (e : Ending WorkerReport), f.people[i]? = some (.worker w (.ended e)) →
      (∃ r, e = .returned r ∧ fulfilled i past = orders i past ∧
        receipts i past = (orders i past).map Prod.snd ∧ r.served = (receipts i past).length) ∨
      e = .panicked ∧ .unwind i ∈ ms) ∧
    (∀ (before after : List Move) (g : Floor), ms = before ++ after →
      run? before (.opening (.furnish capacity workers minute) clock) = some g →
      g.premises.fired = true → ∀ i, (receipts i (course move? after g)).length ≤ 1) ∧
    ((∀ i, .unwind i ∉ ms) → f.Still → ∀ (i w : Nat) (k : Working),
      f.people[i]? = some (.worker w k) →
        fulfilled i past = orders i past ∧ receipts i past = (orders i past).map Prod.snd) := by
  intro past
  obtain ⟨⟨ledgers, hkept⟩, -, -, hsound⟩ := sound_run hword hms hrun
  have hdutiful : f.Dutiful past := dutiful_run hword hms hunclosed hrun
  refine ⟨fun i w e hi => ?_, fun before after g hsplit hbefore hfired i => ?_,
    fun hunwind hstill i w k hi => ?_⟩
  · cases e with
    | returned r =>
        have howes := hdutiful.present i w _ hi nofun
        obtain ⟨hfulfilled, hreceipts⟩ := howes.settled rfl
        refine .inl ⟨r, rfl, hfulfilled, hreceipts, ?_⟩
        rw [hreceipts, List.length_map, ← hfulfilled]
        exact Option.some.inj howes.finished
    | failed fault => exact absurd rfl (hsound i _ hi fault)
    | panicked =>
        refine .inr ⟨rfl, ?_⟩
        by_contra hno
        exact unhurt_run hms hno hrun _ hi
  · subst hsplit
    exact Nat.le_trans (receipts_le (fun m hm => hms.move_begins (List.mem_append_right _ hm))
      hfired) (g.expects_le i)
  · have hcalm := calm_run hword hms hunclosed hunwind hrun
    have hcounts : k.finished? ≠ none :=
      Working.finished?_ne_none (hcalm.well i _ hi).unhurt (hsound i _ hi)
    exact (hdutiful.present i w k hi hcounts).settled (hcalm.nobody_serves hkept hstill hi)

/-- The shutdown fires while the first worker is about to acknowledge its customer, and before the
second customer has come in. The first worker completes its service, and the second one still serves
the customer who comes in afterwards; then both leave. -/
theorem nobody_is_abandoned_latecomer :
    let a : Customer := ⟨7, .buyStamps⟩
    let b : Customer := ⟨8, .mailLetter⟩
    let before : List Move := List.flatten [[.join (.starts 0), .join (.starts 1),
      .join (.arrives a), .join (.arrives b)], .replicate 7 (.step 0), .replicate 7 (.step 1),
      .replicate 10 (.step 2), [.exchange 2 0, .step 0, .step 0, .fire]]
    let after : List Move := List.flatten [.replicate 11 (.step 3), [.exchange 3 1, .step 0,
      .exchange 0 2, .step 2, .step 2, .exchange 2 0], .replicate 5 (.step 0), [.exchange 0 2,
      .step 0, .step 0], .replicate 5 (.step 2), .replicate 3 (.step 1), [.exchange 1 3, .step 3,
      .step 3, .exchange 3 1], .replicate 5 (.step 1), [.exchange 1 3, .step 1, .step 1],
      .replicate 5 (.step 3)]
    let opened : Floor := .opening (.furnish 2 2 0) 0
    let past := course move? (before ++ after) opened
    2 ≤ wordMax ∧ Regular 2 (before ++ after) ∧ .closer ∉ newcomers (before ++ after) ∧
      ∃ f g, run? (before ++ after) opened = some f ∧
        f.people = [.worker 0 (.ended (.returned ⟨0, 1⟩)), .worker 1 (.ended (.returned ⟨1, 1⟩)),
          .customer a (.ended (.returned ⟨a, 0, 0, 0, 0⟩)),
          .customer b (.ended (.returned ⟨b, 1, 1, 0, 0⟩))] ∧
        orders 0 past = [(2, a.assignment)] ∧ orders 1 past = [(3, b.assignment)] ∧
        (∀ i ∈ [0, 1], fulfilled i past = orders i past ∧
          receipts i past = (orders i past).map Prod.snd) ∧
        run? before opened = some g ∧ g.premises.fired = true ∧
        receipts 1 (course move? after g) = [b.assignment] ∧
        ∀ i, (receipts i (course move? after g)).length ≤ 1 := by
  intro a b before after opened past
  have hms : Regular 2 (before ++ after) := by decide
  have hunclosed : .closer ∉ newcomers (before ++ after) := by decide
  have hends : (run? (before ++ after) opened).map Floor.people =
      some [.worker 0 (.ended (.returned ⟨0, 1⟩)), .worker 1 (.ended (.returned ⟨1, 1⟩)),
        .customer a (.ended (.returned ⟨a, 0, 0, 0, 0⟩)),
        .customer b (.ended (.returned ⟨b, 1, 1, 0, 0⟩))] := by
    decide +kernel
  have hfires : (run? before opened).map (fun g =>
      (g.premises.fired, receipts 1 (course move? after g))) = some (true, [b.assignment]) := by
    decide +kernel
  obtain ⟨f, hrun, hpeople⟩ := Option.map_eq_some_iff.1 hends
  obtain ⟨g, hbefore, hg⟩ := Option.map_eq_some_iff.1 hfires
  obtain ⟨hfired, hreceipts⟩ := Prod.mk.inj hg
  obtain ⟨hleave, hshutdown, -⟩ :=
    nobody_is_abandoned 2 2 0 0 (by decide) (before ++ after) hms hunclosed f hrun
  refine ⟨by decide, hms, hunclosed, f, g, hrun, hpeople, by decide +kernel, by decide +kernel,
    fun i hi => ?_, hbefore, hfired, hreceipts, hshutdown before after g rfl hbefore hfired⟩
  simp only [List.mem_cons, List.not_mem_nil, or_false] at hi
  rcases hi with rfl | rfl
  · rcases hleave 0 0 _ (by rw [hpeople]; rfl) with ⟨r, -, hfulfilled, hreceived, -⟩ | ⟨he, -⟩
    · exact ⟨hfulfilled, hreceived⟩
    · cases he
  · rcases hleave 1 1 _ (by rw [hpeople]; rfl) with ⟨r, -, hfulfilled, hreceived, -⟩ | ⟨he, -⟩
    · exact ⟨hfulfilled, hreceived⟩
    · cases he

end Floor

end Postal

import Postal.Proofs.Shut

/-!
# Whose turn it is at a slot.

In three of its phases a slot waits for one person alone: for the customer who has claimed the desk,
for the customer who was accepted, and for the worker that is done. The right to turn the slot on
goes from hand to hand like a baton. A worker that opens its slot has it, lays it down with its
token, and the customer who takes the token takes it up; with an acceptance it passes from the
worker to the customer. Nobody makes a second one, however many shifts a worker begins and whoever
leaves in between (`Floor.Relayed`). So whoever has it finds the slot in the phase that it needs,
and while nothing is closed no visit breaks off (`Floor.Robust.goes_on`).

## §1 — batons.
## §2 — what a step does with a baton.
## §3 — no slot has two of them.
## §4 — visits in an open office.
-/

namespace Postal

/-! ## §1 — batons -/

/-- The phases in which a slot waits for one person alone. -/
def Phase.isRelayed : Phase → Bool
  | .awaitingPublish | .workerAcknowledged | .completed => true
  | _ => false

/-- The baton that is out while slot `w` is in a phase. -/
def Phase.baton? (ph : Phase) (w : Nat) : Option (Nat × Phase) :=
  if ph.isRelayed then some (w, ph) else none

/-- The baton of a customer: the slot that it is to turn on, and the phase of the slot until
then. -/
def Visiting.baton? : Visiting → Option (Nat × Phase)
  | .dealing _ w .announcingClaim | .dealing _ w .publishing => some (w, .awaitingPublish)
  | .dealing _ w .announcingIntent | .dealing _ w .proceeding => some (w, .workerAcknowledged)
  | _ => none

/-- The baton of a worker. -/
def Working.baton? (id : Nat) : Working → Option (Nat × Phase)
  | .announcingIdle _ | .advertising _ .token => some (id, .awaitingPublish)
  | .serving _ _ .sendingAcknowledge => some (id, .workerAcknowledged)
  | .serving _ _ .sendingCompletion | .serving _ _ .settling => some (id, .completed)
  | _ => none

/-- The baton of a person. -/
def Person.baton? : Person → Option (Nat × Phase)
  | .customer _ v => v.baton?
  | .worker id k => k.baton? id
  | .closer _ => none

/-- Whether a baton is the one of slot `w` in phase `ph`, as a weight. -/
def isBaton (w : Nat) (ph : Phase) (baton : Option (Nat × Phase)) : Nat :=
  if baton = some (w, ph) then 1 else 0

/-- Whether a person has the baton of slot `w` in phase `ph`, as a weight. -/
def Person.holdsBaton (w : Nat) (ph : Phase) (p : Person) : Nat := isBaton w ph p.baton?

namespace Premises

/-- How many batons of slot `w` in phase `ph` lie in the pool: the tokens of an open slot. -/
def laid (p : Premises) (w : Nat) (ph : Phase) : Nat :=
  if ph = .awaitingPublish then p.pool.token w else 0

/-- Whether slot `w` is in phase `ph`, as a weight. -/
def isIn (p : Premises) (w : Nat) (ph : Phase) : Nat :=
  if (p.slots[w]?).map (·.phase) = some ph then 1 else 0

theorem isIn_of_some {p : Premises} {w : Nat} {s : Slot} (hs : p.slots[w]? = some s) (ph : Phase) :
    p.isIn w ph = if s.phase = ph then 1 else 0 := by
  simp only [isIn, hs, Option.map_some, Option.some.injEq]

/-- Another slot stays in its phase. -/
theorem isIn_set_of_ne {p p' : Premises} {u w : Nat} {s' : Slot}
    (hslots : p'.slots = p.slots.set w s') (hne : w ≠ u) (ph : Phase) :
    p'.isIn u ph = p.isIn u ph := by
  rw [isIn, isIn, hslots, List.getElem?_set_ne hne]

end Premises

/-! ## §2 — what a step does with a baton -/

/-- **`p.Relays p' b b'`** — everything that a step can do with the baton of whoever takes it: keep
it or lose it, turn the slot on and have the next one, lay it down with a token, or take it up. -/
inductive Premises.Relays (p p' : Premises) (b b' : Option (Nat × Phase)) : Prop
  | keeps (hslots : ∀ w ph, p'.isIn w ph = p.isIn w ph)
      (htokens : ∀ w, p'.pool.token w = p.pool.token w) (h : b' = b)
  | loses (hslots : ∀ w ph, p'.isIn w ph = p.isIn w ph)
      (htokens : ∀ w, p'.pool.token w = p.pool.token w) (h : b' = none)
  | turns {w : Nat} {s s' : Slot} (hs : p.slots[w]? = some s)
      (hslots : p'.slots = p.slots.set w s') (htokens : ∀ w, p'.pool.token w = p.pool.token w)
      (h : b = s.phase.baton? w) (h' : b' = s'.phase.baton? w)
  | lays {w : Nat} (hslots : ∀ w ph, p'.isIn w ph = p.isIn w ph)
      (htokens : ∀ u, p'.pool.token u = p.pool.token u + if w = u then 1 else 0)
      (h : b = some (w, .awaitingPublish)) (h' : b' = none)
  | takes {w : Nat} (hslots : ∀ w ph, p'.isIn w ph = p.isIn w ph)
      (htokens : ∀ u, p'.pool.token u + (if w = u then 1 else 0) = p.pool.token u)
      (h' : b' = some (w, .awaitingPublish))

/-- The baton of a phase is there in that phase and in no other one. -/
theorem isBaton_self {ph : Phase} (hph : ph.isRelayed = true) (ph' : Phase) (w u : Nat) :
    isBaton u ph (ph'.baton? w) = if w = u ∧ ph' = ph then 1 else 0 := by
  rw [isBaton, Phase.baton?]
  by_cases heq : ph' = ph
  · subst heq
    simp [hph]
  · have hne : (if ph'.isRelayed then some (w, ph') else none) ≠ some (u, ph) := by
      split
      · simp [heq]
      · nofun
    rw [if_neg hne, if_neg fun h => heq h.2]

/-- The baton of an open slot weighs what its token weighs. -/
theorem isBaton_open (w u : Nat) (ph : Phase) :
    isBaton u ph (some (w, .awaitingPublish)) =
      if ph = .awaitingPublish then (if w = u then 1 else 0) else 0 := by
  rw [isBaton]
  by_cases hph : ph = .awaitingPublish
  · subst hph
    simp
  · rw [if_neg hph, if_neg]
    simp [Ne.symm hph]

/-- **No step makes a baton** but the one of the phase that it turns a slot to. -/
theorem Premises.Relays.balance {p p' : Premises} {b b' : Option (Nat × Phase)}
    (h : p.Relays p' b b') (u : Nat) {ph : Phase} (hph : ph.isRelayed = true) :
    isBaton u ph b' + p'.laid u ph + p.isIn u ph ≤ isBaton u ph b + p.laid u ph + p'.isIn u ph := by
  have still : (∀ w, p'.pool.token w = p.pool.token w) → p'.laid u ph = p.laid u ph := by
    intro htokens
    rw [laid, laid, htokens]
  cases h with
  | keeps hslots htokens h => exact Nat.le_of_eq (by rw [h, hslots, still htokens])
  | loses hslots htokens h =>
      rw [h, hslots, still htokens]
      have hnone : isBaton u ph none = 0 := if_neg nofun
      omega
  | @turns w s s' hs hslots htokens h h' =>
      rw [h, h', still htokens, isBaton_self hph, isBaton_self hph]
      by_cases hw : w = u
      · subst hw
        have hs' : p'.slots[w]? = some s' := by
          rw [hslots]
          exact List.getElem?_set_self (List.getElem?_eq_some_iff.1 hs).1
        rw [isIn_of_some hs, isIn_of_some hs']
        simp only [true_and]
        omega
      · rw [isIn_set_of_ne hslots hw]
        simp only [hw, false_and, if_false]
        omega
  | @lays w hslots htokens h h' =>
      have hnone : isBaton u ph none = 0 := if_neg nofun
      rw [h, h', hslots, isBaton_open, laid, laid, htokens, hnone]
      split_ifs <;> omega
  | @takes w hslots htokens h' =>
      have htoken := htokens u
      rw [h', hslots, isBaton_open, laid, laid]
      split_ifs at htoken ⊢ <;> omega

/-- A token that is taken is missing at its slot, and nowhere else. -/
theorem Pool.token_taken {p : Pool} {w n : Nat} {s s' : Semaphore} (hs : p.slots[w]? = some s)
    (hpermits : s'.permits + n = s.permits) (u : Nat) :
    (p.setSlot w s').token u + (if w = u then n else 0) = p.token u := by
  rw [token_setSlot hs]
  split_ifs with hw
  · subst hw
    rw [token_of_slot hs, hpermits]
  · rfl

/-- Who looks for a worker has no baton. -/
theorem Visiting.baton?_scan (p : Pool) (w workers : Nat) (stay : Stay) :
    ((p.scan w).within (.claiming stay) (afterSearch workers stay)).baton? = none := by
  rw [Pool.scan]
  split_ifs <;> rfl

/-- **A step of a customer** does one of these things with its baton. -/
theorem Visiting.Steps.relays {c : Customer} {p p' : Premises} {v v' : Visiting}
    (h : v.Steps c p v' p') (hsize : p.pool.size = p.workerCount) :
    p.Relays p' v.baton? v'.baton? := by
  -- whoever takes a token takes up the baton of that slot
  have takes : ∀ {stay : Stay} {w : Nat} {s s' : Semaphore}, p.pool.slots[w]? = some s →
      s'.permits + 1 = s.permits →
      p.Relays { p with pool := p.pool.setSlot w s' } none
        (afterSearch p.workerCount stay (.ok w)).baton? := by
    intro stay w s s' hs hpermits
    have hw : w < p.workerCount :=
      Nat.lt_of_lt_of_eq (List.getElem?_eq_some_iff.1 hs).1 hsize
    refine .takes (w := w) (fun _ _ => rfl) (fun u => Pool.token_taken hs hpermits u) ?_
    rw [afterSearch, if_pos hw]
    rfl
  -- whoever stays at the last slot leaves its token alone
  have leaves : ∀ {b' : Option (Nat × Phase)} {w : Nat} {s s' : Semaphore},
      p.pool.slots[w]? = some s → s'.permits + 0 = s.permits → b' = none →
      p.Relays { p with pool := p.pool.setSlot w s' } none b' := by
    intro b' w s s' hs hpermits hb'
    refine .loses (fun _ _ => rfl) (fun u => ?_) hb'
    have htoken := Pool.token_taken hs hpermits u
    rwa [ite_self] at htoken
  cases h with
  | @enters pos progress gate henter =>
      rcases progress with pos' | ⟨e | ticket⟩ <;> exact .keeps (fun _ _ => rfl) (fun _ => rfl) rfl
  | claims hclaim =>
      cases hclaim with
      | waits hacq => exact .keeps (fun _ _ => rfl) (fun _ => rfl) rfl
      | admitted hacq => exact .loses (fun _ _ => rfl) (fun _ => rfl) (baton?_scan _ _ _ _)
      | refused hacq => exact .keeps (fun _ _ => rfl) (fun _ => rfl) rfl
      | missed hs htry => exact .loses (fun _ _ => rfl) (fun _ => rfl) (baton?_scan _ _ _ _)
      | took hs htry => exact takes hs (Semaphore.tryAcquire_permits htry)
      | lastWaits hs hacq => exact leaves hs (Semaphore.acquire?_permits hacq) rfl
      | lastTook hs hacq => exact takes hs (Semaphore.acquire?_permits hacq)
      | lastRefused hs hacq => exact leaves hs (Semaphore.acquire?_permits hacq) rfl
  | binds hs hphase => exact .turns hs rfl (fun _ => rfl) (by rw [hphase]; rfl) rfl
  | proceeds hs hphase => exact .turns hs rfl (fun _ => rfl) (by rw [hphase]; rfl) rfl
  | interrupted hwaits hclosed => exact .loses (fun _ _ => rfl) (fun _ => rfl) rfl
  | breaks hs hneeds hphase f => exact .loses (fun _ _ => rfl) (fun _ => rfl) rfl
  | _ => exact .keeps (fun _ _ => rfl) (fun _ => rfl) rfl

/-- **A step of a worker** does one of these things with its baton; who frees its slot finds it in
the phase of that baton. -/
theorem Working.Steps.relays {id : Nat} {p p' : Premises} {offered : Bool} {k k' : Working}
    (h : k.Steps id p offered k' p')
    (hphase : ∀ s ph, p.slots[id]? = some s → k.baton? id = some (id, ph) → s.phase = ph) :
    p.Relays p' (k.baton? id) (k'.baton? id) := by
  cases h with
  | opens hs hidle => exact .turns hs rfl (fun _ => rfl) (by rw [hidle]; rfl) rfl
  | acknowledges hs hpublished => exact .turns hs rfl (fun _ => rfl) (by rw [hpublished]; rfl) rfl
  | completes hs hexecuting => exact .turns hs rfl (fun _ => rfl) (by rw [hexecuting]; rfl) rfl
  | settles hs => exact .turns hs rfl (fun _ => rfl) (by rw [hphase _ _ hs rfl]; rfl) rfl
  | announcesIdle => exact .keeps (fun _ _ => rfl) (fun _ => rfl) rfl
  | advertises hoffer =>
      cases hoffer with
      | putDown hs hroom =>
          refine .lays (fun _ _ => rfl) (fun u => ?_) rfl rfl
          rw [Pool.token_setSlot hs]
          split_ifs with hw
          · subst hw
            rw [Pool.token_of_slot hs]
          · rfl
      | _ => exact .loses (fun _ _ => rfl) (fun _ => rfl) rfl
  | @starts n a s hs hexecuting =>
      cases a.task.needsScale <;> exact .loses (fun _ _ => rfl) (fun _ => rfl) rfl
  | @weighs n a pos progress scale hacq =>
      rcases progress with pos' | ⟨e | ⟨⟩⟩
      · exact .loses (fun _ _ => rfl) (fun _ => rfl) rfl
      · cases e <;> exact .loses (fun _ _ => rfl) (fun _ => rfl) rfl
      · exact .loses (fun _ _ => rfl) (fun _ => rfl) rfl
  | @works n deadline a =>
      cases a.task.needsScale <;> exact .loses (fun _ _ => rfl) (fun _ => rfl) rfl
  | @drops n a pos => cases pos <;> exact .loses (fun _ _ => rfl) (fun _ => rfl) rfl
  | @unwinds pos => cases pos <;> exact .loses (fun _ _ => rfl) (fun _ => rfl) rfl
  | _ => exact .loses (fun _ _ => rfl) (fun _ => rfl) rfl

/-- **A step of a close** turns no slot on, and leaves the tokens where they are. -/
theorem Closing.Steps.relays {p p' : Premises} {k k' : Closing} (h : k.Steps p k' p') :
    p.Relays p' none none := by
  cases h with
  | @token w s hs =>
      refine .keeps (fun _ _ => rfl) (fun u => ?_) rfl
      have htoken := Pool.token_taken hs (show s.close.permits + 0 = s.permits from rfl) u
      rwa [ite_self] at htoken
  | @slot w s hs =>
      refine .keeps (fun u ph => ?_) (fun _ => rfl) rfl
      rw [Premises.isIn, Premises.isIn, ← List.getElem?_map, ← List.getElem?_map,
        show (p.setSlot w s.close).slots.map (·.phase) = p.slots.map (·.phase) from
          map_set_of_eq hs rfl]
  | _ => exact .keeps (fun _ _ => rfl) (fun _ => rfl) rfl

/-! ## §3 — no slot has two of them -/

namespace Floor

/-- **`f.Relayed`** — in each of the three phases at most one baton of a slot is out, in somebody's
hand or in the pool, and in any other phase none. -/
def Relayed (f : Floor) : Prop :=
  ∀ w ph, ph.isRelayed = true →
    tally (Person.holdsBaton w ph) f.people + f.premises.laid w ph ≤ f.premises.isIn w ph

/-- Every baton is one of the three phases. -/
theorem isRelayed_of_baton? {p : Person} {w : Nat} {ph : Phase} (hp : p.baton? = some (w, ph)) :
    ph.isRelayed = true := by
  have same : ∀ {u : Nat} {ph' : Phase}, ph'.isRelayed = true → some (u, ph') = some (w, ph) →
      ph.isRelayed = true := by
    intro u ph' hph heq
    obtain ⟨-, rfl⟩ := Prod.mk.inj (Option.some.inj heq)
    exact hph
  cases p with
  | customer c v =>
      cases v with
      | dealing stay u d => cases d <;> first | exact same rfl hp | cases hp
      | _ => cases hp
  | worker id k =>
      cases k with
      | announcingIdle n => exact same rfl hp
      | advertising n pos => cases pos <;> first | exact same rfl hp | cases hp
      | serving n a position => cases position <;> first | exact same rfl hp | cases hp
      | _ => cases hp
  | closer k => cases hp

/-- **Whoever has the baton** of a slot finds the slot in its phase. -/
theorem Relayed.phase {f : Floor} (h : f.Relayed) {i w : Nat} {p : Person} {ph : Phase} {s : Slot}
    (hi : f.people[i]? = some p) (hp : p.baton? = some (w, ph))
    (hs : f.premises.slots[w]? = some s) : s.phase = ph := by
  have hone : Person.holdsBaton w ph p ≤ tally (Person.holdsBaton w ph) f.people := le_tally hi
  have hall := h w ph (isRelayed_of_baton? hp)
  rw [Premises.isIn_of_some hs] at hall
  rw [Person.holdsBaton, hp, isBaton, if_pos rfl] at hone
  by_contra hne
  rw [if_neg hne] at hall
  omega

/-- **One person moves on**, and does with its baton what a step can do. -/
theorem Relayed.set {f : Floor} (h : f.Relayed) {i : Nat} {p p' : Person} {premises' : Premises}
    (hi : f.people[i]? = some p) (hrelays : f.premises.Relays premises' p.baton? p'.baton?) :
    Relayed ⟨premises', f.people.set i p'⟩ := by
  intro w ph hph
  have hwas := h w ph hph
  have hbalance := hrelays.balance w hph
  have hset := tally_set (f := Person.holdsBaton w ph) hi p'
  simp only [Person.holdsBaton] at hset hwas ⊢
  omega

/-- **An exchange** hands a baton over, or leaves it where it is. -/
theorem Exchanges.holdsBaton_eq {people people' : List Person} {i j u : Nat}
    (h : Exchanges people i j u people') (w : Nat) (ph : Phase) :
    tally (Person.holdsBaton w ph) people' = tally (Person.holdsBaton w ph) people := by
  have pass : ∀ {a b : Person}, people[i]? = some a → people[j]? = some b → a.badge ≠ b.badge →
      ∀ a' b' : Person, a'.holdsBaton w ph + b'.holdsBaton w ph =
        a.holdsBaton w ph + b.holdsBaton w ph →
      tally (Person.holdsBaton w ph) ((people.set i a').set j b') =
        tally (Person.holdsBaton w ph) people := by
    intro a b hi hj hab a' b' hpass
    have hij : i ≠ j := by
      rintro rfl
      exact hab (congrArg Person.badge (Option.some.inj (hi.symm.trans hj)))
    have hset := tally_set_set (f := Person.holdsBaton w ph) hi hj hij a' b'
    omega
  cases h with
  | published hi hj => exact pass hi hj nofun _ _ rfl
  | acknowledged hi hj => exact pass hi hj nofun _ _ (Nat.add_comm _ _)
  | proceeded hi hj => exact pass hi hj nofun _ _ rfl
  | completed hi hj => exact pass hi hj nofun _ _ rfl

/-- Whoever is unwound drops its baton. -/
theorem baton?_of_unwind? {p p' : Person} (h : p.unwind? = some p') : p'.baton? = none := by
  cases Person.unwinds_of_unwind? h <;> rfl

/-- **Every move** keeps it that no slot has two batons. -/
theorem Relayed.move {f f' : Floor} {m : Move} (h : f.Relayed)
    (hsize : f.premises.pool.size = f.premises.workerCount) (hmove : f.move? m = some f')
    (hjoin : ∀ p, m = .join p → p.baton? = none) : f'.Relayed := by
  cases m with
  | step i =>
      cases steps_of_step? hmove with
      | customer hi hv => exact h.set hi (hv.relays hsize)
      | worker hi hk => exact h.set hi (hk.relays fun s ph hs hbaton => h.phase hi hbaton hs)
      | closer hi hk => exact h.set hi hk.relays
  | exchange i j =>
      obtain ⟨w, people', -, hex, rfl⟩ := exchanges_of_exchange? hmove
      intro u ph hph
      rw [hex.holdsBaton_eq]
      exact h u ph hph
  | unwind i =>
      obtain ⟨p, p', hi, hunwind, rfl⟩ := unwind?_eq_some hmove
      exact h.set hi (.loses (fun _ _ => rfl) (fun _ => rfl) (baton?_of_unwind? hunwind))
  | fire =>
      obtain rfl := Option.some.inj hmove
      exact h
  | join p =>
      obtain rfl := Option.some.inj hmove
      intro u ph hph
      have hnone : p.holdsBaton u ph = 0 := by
        rw [Person.holdsBaton, hjoin p rfl]
        rfl
      rw [Floor.join, tally_concat, hnone]
      exact h u ph hph

end Floor

/-! ## §4 — visits in an open office -/

/-- A customer leaves the sizes of the pool and of the office alone. -/
theorem Visiting.Steps.workerCount_eq {c : Customer} {p p' : Premises} {v v' : Visiting}
    (h : v.Steps c p v' p') : p'.workerCount = p.workerCount := by
  cases h with
  | binds hs hphase => exact List.length_set
  | proceeds hs hphase => exact List.length_set
  | _ => rfl

theorem Working.Steps.workerCount_eq {id : Nat} {p p' : Premises} {offered : Bool}
    {k k' : Working} (h : k.Steps id p offered k' p') : p'.workerCount = p.workerCount := by
  cases h with
  | opens hs hphase => exact List.length_set
  | acknowledges hs hphase => exact List.length_set
  | completes hs hphase => exact List.length_set
  | settles hs => exact List.length_set
  | _ => rfl

theorem Closing.Steps.workerCount_eq {p p' : Premises} {k k' : Closing} (h : k.Steps p k' p') :
    p'.workerCount = p.workerCount := by
  cases h with
  | slot hs => exact List.length_set
  | _ => rfl

/-- A search goes on to a slot only if there is another one behind it. -/
theorem Pool.Claims.probes {p p' : Pool} {pos : Pool.Claiming} {w : Nat}
    {progress : Progress Pool.Claiming (Except Fault Nat)} (h : p.Claims pos progress p')
    (hprogress : progress = .onward (.probing w)) : w + 1 < p'.size := by
  have scanned : ∀ v, p.scan v = .onward (.probing w) → w + 1 < p.size := by
    intro v hv
    rw [Pool.scan] at hv
    split_ifs at hv with hlt hlast
    · obtain rfl := Pool.Claiming.probing.inj (Progress.onward.inj hv)
      exact hlt
    · cases hv
  rw [h.size_eq]
  cases h with
  | admitted hacq => exact scanned 0 hprogress
  | missed hs htry => exact scanned _ hprogress
  | _ => cases hprogress

namespace Floor

/-- **`f.Robust`** — every worker has a slot and a token, the aggregate promises no more than there
is, no slot has two batons, and a customer who tries a token has another one behind it. -/
structure Robust (f : Floor) : Prop where
  sized : f.premises.pool.size = f.premises.workerCount
  promised : f.Promised
  relayed : f.Relayed
  probing : ∀ (i : Nat) (c : Customer) (stay : Stay) (w : Nat),
    f.people[i]? = some (.customer c (.claiming stay (.probing w))) →
      w + 1 < f.premises.pool.size

/-- No move changes how many workers an office is for. -/
theorem sizes_of_move {f f' : Floor} {m : Move} (hmove : f.move? m = some f') :
    f'.premises.pool.size = f.premises.pool.size ∧
      f'.premises.workerCount = f.premises.workerCount := by
  cases m with
  | step i =>
      cases steps_of_step? hmove with
      | customer hi hv => exact ⟨hv.pool_size, hv.workerCount_eq⟩
      | worker hi hk => exact ⟨hk.pool_size, hk.workerCount_eq⟩
      | closer hi hk => exact ⟨hk.pool_counts.1, hk.workerCount_eq⟩
  | exchange i j =>
      obtain ⟨w, people', -, hex, rfl⟩ := exchanges_of_exchange? hmove
      exact ⟨rfl, rfl⟩
  | unwind i =>
      obtain ⟨p, p', hi, hunwind, rfl⟩ := unwind?_eq_some hmove
      exact ⟨rfl, rfl⟩
  | fire =>
      obtain rfl := Option.some.inj hmove
      exact ⟨rfl, rfl⟩
  | join p =>
      obtain rfl := Option.some.inj hmove
      exact ⟨rfl, rfl⟩

/-- Whoever begins something has nothing of the pool, and no baton. -/
theorem Move.Begins.empty_handed {m : Move} (h : m.Begins) {p : Person} (hm : m = .join p) :
    p.poolShare = .empty ∧ p.baton? = none := by
  subst hm
  rcases h with ⟨c, rfl⟩ | ⟨w, rfl⟩ | rfl <;> exact ⟨rfl, rfl⟩

/-- A customer who tries a token after a move has another one behind it. -/
theorem Robust.probing_move {f f' : Floor} {m : Move} (h : f.Robust) (hmove : f.move? m = some f')
    (hbegins : m.Begins) {i : Nat} {c : Customer} {stay : Stay} {w : Nat}
    (hi : f'.people[i]? = some (.customer c (.claiming stay (.probing w)))) :
    w + 1 < f'.premises.pool.size := by
  generalize hp : Person.customer c (.claiming stay (.probing w)) = p at hi
  cases becomes_of_move hmove hi with
  | stays hi' =>
      rw [(sizes_of_move hmove).1]
      exact h.probing i c stay w (hp ▸ hi')
  | @visits c' v v' hi' hv =>
      obtain ⟨-, hv'⟩ := Person.customer.inj hp
      generalize hpremises : f'.premises = premises' at hv ⊢
      cases hv with
      | @claims stay' pos progress pool hclaim =>
          rcases progress with pos' | ⟨e | worker⟩
          · obtain ⟨-, rfl⟩ := Visiting.claiming.inj hv'
            exact hclaim.probes rfl
          · cases hv'
          · simp only [Progress.within, Visiting.afterSearch] at hv'
            split at hv' <;> cases hv'
      | @enters pos progress gate henter => rcases progress with pos' | ⟨e | ticket⟩ <;> cases hv'
      | _ => cases hv'
  | swaps hi' hs => cases hs <;> cases hp
  | unwinds hm hi' hunwind => cases Person.unwinds_of_unwind? hunwind <;> cases hp
  | comes hm hlast =>
      subst hm
      subst hp
      rcases hbegins with ⟨c', hc⟩ | ⟨w', hw⟩ | hk
      · cases hc
      · cases hw
      · cases hk
  | _ => cases hp

/-- **Every move** keeps an office robust, whoever comes. -/
theorem Robust.move {f f' : Floor} {m : Move} (h : f.Robust) (hmove : f.move? m = some f')
    (hbegins : m.Begins) : f'.Robust := by
  obtain ⟨hpool, hworkers⟩ := sizes_of_move hmove
  exact {
    sized := hpool.trans (h.sized.trans hworkers.symm)
    promised := h.promised.move hmove fun p hm => (hbegins.empty_handed hm).1
    relayed := h.relayed.move h.sized hmove fun p hm => (hbegins.empty_handed hm).2
    probing := fun i c stay w hi => h.probing_move hmove hbegins hi }

/-- An office that has just opened is robust. -/
theorem robust_opening (capacity workers minute clock : Nat) :
    (opening (.furnish capacity workers minute) clock).Robust where
  sized := by
    simp [opening, Premises.opening, Office.furnish, Office.workerCount, Pool.ofWorkers, Pool.size]
  promised := ⟨rfl, Nat.zero_le _⟩
  relayed w ph _ := by
    -- no token lies in the pool yet
    have htoken : (Pool.ofWorkers workers).token w = 0 := by
      cases hs : (Pool.ofWorkers workers).slots[w]? with
      | none => rw [Pool.token, hs]
      | some s =>
          rw [Pool.token_of_slot hs]
          simp only [Pool.ofWorkers, List.getElem?_replicate] at hs
          split at hs
          · exact Option.some.inj hs ▸ rfl
          · cases hs
    have hlaid : (opening (.furnish capacity workers minute) clock).premises.laid w ph = 0 := by
      rw [Premises.laid]
      split
      · exact htoken
      · rfl
    rw [hlaid]
    exact Nat.zero_le _
  probing i c stay w hi := by simp [opening] at hi

/-- **In an open office no visit breaks off.** -/
theorem Robust.goes_on {f : Floor} (h : f.Robust) (hopen : f.premises.IsOpen) {i : Nat}
    {c : Customer} {v v' : Visiting} {premises' : Premises}
    (hi : f.people[i]? = some (.customer c v)) (hstep : v.Steps c f.premises v' premises')
    (hv : v.failure? = none) : v'.failure? = none := by
  have hguided : v.Guided f.premises := by
    cases v with
    | claiming stay pos =>
        cases pos with
        | probing w => exact h.probing i c stay w hi
        | _ => trivial
    | dealing stay w d =>
        intro needed s hneeds hs
        cases d with
        | publishing =>
            obtain rfl := Option.some.inj hneeds
            exact h.relayed.phase hi rfl hs
        | proceeding =>
            obtain rfl := Option.some.inj hneeds
            exact h.relayed.phase hi rfl hs
        | _ => cases hneeds
    | _ => trivial
  cases he : v'.failure? with
  | none => rfl
  | some e =>
      rcases hstep.fails hguided h.sized h.promised.size_pos he with hbefore | ⟨-, hclosed⟩
      · cases hv.symm.trans hbefore
      · exact absurd hopen hclosed

end Floor

end Postal

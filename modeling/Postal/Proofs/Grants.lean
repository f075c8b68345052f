import Postal.Proofs.Hall

/-!
# Permits are granted in the order of the tickets.

The tickets that have been drawn are `0, 1, 2, …`, each by one caller, and those who have been
granted a permit are the first of them, in the same order: nobody is ever served before somebody who
came earlier. Nor is a permit ever lost or made: those that were there at the start and those that
were given back are the ones that are free and the ones that were granted.

## §1 — what is seen of a move: who draws a ticket, who is granted a permit, who gives one back.
## §2 — the order, as a relation between the two lists and the tickets in hand.
## §3 — the balance of permits.
## §4 — calls that fail, and calls after a close.
-/

namespace Postal.Semaphore

/-! ## §1 — what is seen of a move -/

/-- The ticket that a caller draws as it goes on from one position to another. An attempt that
succeeds draws the next ticket, though it does not tell. -/
def Caller.draws? (s : Semaphore) : Caller → Caller → Option Nat
  | .acquiring, .asleep ticket => some ticket
  | .acquiring, .acquired (.ok ticket) => some ticket
  | .trying, .tried true => some s.nextTicket
  | _, _ => none

/-- The ticket for which a caller is granted a permit. -/
def Caller.isGranted? (s : Semaphore) : Caller → Caller → Option Nat
  | .acquiring, .acquired (.ok ticket) => some ticket
  | .awake _, .acquired (.ok ticket) => some ticket
  | .trying, .tried true => some s.nextTicket
  | _, _ => none

/-- The ticket that a section of an acquisition draws. -/
def Acquiring.draws? : Acquiring → Progress Acquiring (Except Fault Nat) → Option Nat
  | .arriving, .onward (.queued ticket) => some ticket
  | .arriving, .ended (.ok ticket) => some ticket
  | _, _ => none

/-- The ticket that a section of an acquisition serves. -/
def serves? : Progress Acquiring (Except Fault Nat) → Option Nat
  | .ended (.ok ticket) => some ticket
  | _ => none

/-- Whether a caller has got what it asked for. -/
def Caller.Gained : Caller → Prop
  | .acquired (.ok _) | .tried true | .released (.ok ()) => True
  | _ => False

/-- Whether a caller gives a permit back. -/
def Caller.returns? (_ : Semaphore) : Caller → Caller → Option Unit
  | .releasing, .released (.ok ()) => some ()
  | _, _ => none

namespace Hall

/-- What `look` sees of a move, and of which caller. -/
def seen {A : Type} (look : Semaphore → Caller → Caller → Option A) (x : Happening Hall Move) :
    Option (Nat × A) :=
  match x.move with
  | .step i => do
    let c ← x.before.callers[i]?
    let c' ← x.after.callers[i]?
    (look x.before.semaphore c c').map (i, ·)
  | _ => none

section Seen

variable {A : Type} {look : Semaphore → Caller → Caller → Option A} {h h' : Hall} {i : Nat}
  {c c' : Caller} {s' : Semaphore} {wakes : Bool}

/-- Nobody wakes itself. -/
theorem callers_steps (hi : h.callers[i]? = some c) (hs : c.Steps h.semaphore c' s' wakes) :
    ((h.put i c' s').wakeIf wakes).callers[i]? = some c' := by
  have hlt := (List.getElem?_eq_some_iff.1 hi).1
  cases hs with
  | @looks pos progress s' hacq =>
      cases progress with
      | ended r => exact callers_put_self hlt rfl
      | onward pos => exact List.getElem?_set_self hlt
  | dozes hc hg => exact List.getElem?_set_self hlt
  | tries htry => exact List.getElem?_set_self hlt
  | full hp => exact List.getElem?_set_self hlt
  | gives hp => exact callers_put_self hlt rfl
  | closes => exact List.getElem?_set_self hlt
  | notifies => exact callers_put_self hlt rfl

theorem seen_step (hi : h.callers[i]? = some c) (hs : c.Steps h.semaphore c' s' wakes) :
    seen look ⟨h, .step i, (h.put i c' s').wakeIf wakes⟩ = (look h.semaphore c c').map (i, ·) := by
  simp only [seen, hi, callers_steps hi hs, Option.bind_eq_bind, Option.bind_some]

end Seen

/-! ## §2 — the order -/

/-- Caller `i` waits with this ticket. -/
def Waits (h : Hall) (i ticket : Nat) : Prop :=
  ∃ c, h.callers[i]? = some c ∧ c.ticket? = some ticket

/-- Whoever waits after a section of caller `i` is `i` at its new position, or waited before. -/
theorem waits_put {h : Hall} {i j ticket : Nat} {c : Caller} {s : Semaphore} {wakes : Bool}
    (hj : ((h.put i c s).wakeIf wakes).Waits j ticket) :
    (j = i ∧ c.ticket? = some ticket) ∨ h.Waits j ticket := by
  obtain ⟨d, hd, hticket⟩ := hj
  rw [wakeIf_callers, Option.map_eq_some_iff] at hd
  obtain ⟨e, he, rfl⟩ := hd
  have hbefore : e.ticket? = some ticket := by
    split at hticket
    · rwa [ticket?_wake] at hticket
    · exact hticket
  rcases getElem?_set_cases he with ⟨rfl, rfl⟩ | ⟨-, he⟩
  · exact .inl ⟨rfl, hbefore⟩
  · exact .inr ⟨e, he, hbefore⟩

/-- After a section that leaves its caller without a new ticket, nobody waits who did not before. -/
theorem waits_of_put {h : Hall} {i j ticket : Nat} {c c' : Caller} {s : Semaphore} {wakes : Bool}
    (hi : h.callers[i]? = some c) (hc : c'.ticket? = none ∨ c'.ticket? = c.ticket?)
    (hj : ((h.put i c' s).wakeIf wakes).Waits j ticket) : h.Waits j ticket := by
  rcases waits_put hj with ⟨rfl, hticket⟩ | hj
  · rcases hc with hc | hc
    · rw [hc] at hticket
      cases hticket
    · exact ⟨c, hi, hc ▸ hticket⟩
  · exact hj

/-- A newcomer does not wait yet. -/
theorem waits_of_join {h : Hall} {i ticket : Nat} {c : Caller} (hc : c.Begins)
    (hi : (h.join c).Waits i ticket) : h.Waits i ticket := by
  obtain ⟨d, hd, hticket⟩ := hi
  rcases getElem?_concat_cases hd with hd | ⟨-, rfl⟩
  · exact ⟨d, hd, hticket⟩
  · rw [ticket?_of_begins hc] at hticket
    cases hticket

/-- **`Ordered s waits drawn granted`** — `drawn` are the callers in the order of their tickets,
`granted` the first of them, and whoever waits with a ticket has drawn it. -/
structure Ordered (s : Semaphore) (waits : Nat → Nat → Prop) (drawn granted : List (Nat × Nat)) :
    Prop where
  tickets : drawn.map Prod.snd = List.range s.nextTicket
  first : granted = drawn.take s.nowServing
  behind : s.nowServing ≤ s.nextTicket
  inHand : ∀ i ticket, waits i ticket → drawn[ticket]? = some (i, ticket)

section Ordered

variable {s s' : Semaphore} {waits waits' : Nat → Nat → Prop} {drawn granted : List (Nat × Nat)}

theorem Ordered.length (ho : Ordered s waits drawn granted) : drawn.length = s.nextTicket := by
  rw [← List.length_map Prod.snd, ho.tickets, List.length_range]

/-- The order only depends on the two ends of the queue and on those who wait. -/
theorem Ordered.mono (ho : Ordered s waits drawn granted)
    (hwaits : ∀ i ticket, waits' i ticket → waits i ticket)
    (hnext : s'.nextTicket = s.nextTicket) (hnow : s'.nowServing = s.nowServing) :
    Ordered s' waits' drawn granted where
  tickets := hnext ▸ ho.tickets
  first := hnow ▸ ho.first
  behind := by rw [hnext, hnow]; exact ho.behind
  inHand i ticket hi := ho.inHand i ticket (hwaits i ticket hi)

/-- **A ticket is drawn.** -/
theorem Ordered.draws (ho : Ordered s waits drawn granted) (i : Nat)
    (hwaits : ∀ j ticket, waits' j ticket → (j = i ∧ ticket = s.nextTicket) ∨ waits j ticket) :
    Ordered { s with nextTicket := s.nextTicket + 1 } waits' (drawn ++ [(i, s.nextTicket)])
      granted where
  tickets := by rw [List.map_append, ho.tickets, List.range_succ]; rfl
  first := by
    have hbehind := ho.behind
    rw [List.take_append_of_le_length (by rw [ho.length]; exact hbehind)]
    exact ho.first
  behind := Nat.le_succ_of_le ho.behind
  inHand j ticket hj := by
    rcases hwaits j ticket hj with ⟨rfl, rfl⟩ | hj
    · rw [← ho.length, List.getElem?_concat_length]
    · have hwas := ho.inHand j ticket hj
      rw [List.getElem?_append_left (List.getElem?_eq_some_iff.1 hwas).1]
      exact hwas

/-- **The next in the order is served.** -/
theorem Ordered.grants {x : Nat × Nat} (ho : Ordered s waits drawn granted)
    (hx : drawn[s.nowServing]? = some x) : Ordered s.grant waits drawn (granted ++ [x]) where
  tickets := ho.tickets
  first := by
    show _ = drawn.take (s.nowServing + 1)
    rw [List.take_add_one, hx, ho.first]
    rfl
  behind := by
    have hlt := (List.getElem?_eq_some_iff.1 hx).1
    rw [ho.length] at hlt
    exact hlt
  inHand := ho.inHand

/-- Whoever draws a ticket when nobody is queued is served at once. -/
theorem Ordered.servesAtOnce (ho : Ordered s waits drawn granted) (i : Nat)
    (hn : s.nowServing = s.nextTicket) :
    Ordered { s with nextTicket := s.nextTicket + 1 }.grant waits (drawn ++ [(i, s.nextTicket)])
      (granted ++ [(i, s.nextTicket)]) := by
  refine (ho.draws i fun _ _ => .inr).grants ?_
  show (drawn ++ [(i, s.nextTicket)])[s.nowServing]? = _
  rw [hn, ← ho.length, List.getElem?_concat_length]

/-- **A section of an acquisition** keeps the order; `waits'` are those who wait after it. -/
theorem Ordered.acquires {i : Nat} {pos : Acquiring}
    {progress : Progress Acquiring (Except Fault Nat)} (ho : Ordered s waits drawn granted)
    (hacq : s.acquire? pos = some (progress, s')) (hpos : ∀ ticket, pos = .queued ticket →
      waits i ticket)
    (hwaits : ∀ j ticket, waits' j ticket →
      (j = i ∧ progress = .onward (.queued ticket)) ∨ waits j ticket) :
    Ordered s' waits' (drawn ++ ((pos.draws? progress).map (i, ·)).toList)
      (granted ++ ((serves? progress).map (i, ·)).toList) := by
  have hbefore : (∀ ticket, progress ≠ .onward (.queued ticket)) →
      ∀ j ticket, waits' j ticket → waits j ticket :=
    fun hno j ticket hj => (hwaits j ticket hj).resolve_left fun ⟨_, hp⟩ => hno ticket hp
  cases acquires_of_acquire? hacq with
  | refused _ hclosed =>
      have hdraws : pos.draws? (.ended (.error .interrupted)) = none := by cases pos <;> rfl
      simp only [hdraws, serves?, Option.map_none, Option.toList_none, List.append_nil]
      exact ho.mono (hbefore nofun) rfl rfl
  | queues hopen hg =>
      show Ordered _ _ (drawn ++ [(i, s.nextTicket)]) (granted ++ [])
      rw [List.append_nil]
      refine ho.draws i fun j ticket hj => ?_
      rcases hwaits j ticket hj with ⟨rfl, hp⟩ | hj
      · cases hp
        exact .inl ⟨rfl, rfl⟩
      · exact .inr hj
  | servedAtOnce hopen hn hp => exact (ho.servesAtOnce i hn).mono (hbefore nofun) rfl rfl
  | served ticket hopen hn hp =>
      subst hn
      show Ordered _ _ (drawn ++ []) (granted ++ [(i, s.nowServing)])
      rw [List.append_nil]
      exact (ho.grants (ho.inHand i _ (hpos _ rfl))).mono (hbefore nofun) rfl rfl

end Ordered

/-- What is seen of a section of an acquisition is what it draws and serves. -/
theorem sees_acquisition (s : Semaphore) (pos : Acquiring)
    (progress : Progress Acquiring (Except Fault Nat)) :
    pos.awake.draws? s (progress.within Acquiring.asleep .acquired) = pos.draws? progress ∧
      pos.awake.isGranted? s (progress.within Acquiring.asleep .acquired) = serves? progress := by
  cases pos <;> rcases progress with pos' | ⟨f | ticket⟩ <;> first | exact ⟨rfl, rfl⟩ |
    (cases pos' <;> exact ⟨rfl, rfl⟩)

/-- **A section** keeps the order. -/
theorem Ordered.step {h : Hall} {i : Nat} {c c' : Caller} {s' : Semaphore} {wakes : Bool}
    {drawn granted : List (Nat × Nat)} (ho : Ordered h.semaphore h.Waits drawn granted)
    (hi : h.callers[i]? = some c) (hs : c.Steps h.semaphore c' s' wakes) :
    Ordered s' ((h.put i c' s').wakeIf wakes).Waits
      (drawn ++ ((c.draws? h.semaphore c').map (i, ·)).toList)
      (granted ++ ((c.isGranted? h.semaphore c').map (i, ·)).toList) := by
  have hstill : c.draws? h.semaphore c' = none → c.isGranted? h.semaphore c' = none →
      (c'.ticket? = none ∨ c'.ticket? = c.ticket?) → s'.nextTicket = h.semaphore.nextTicket →
      s'.nowServing = h.semaphore.nowServing →
      Ordered s' ((h.put i c' s').wakeIf wakes).Waits
        (drawn ++ ((c.draws? h.semaphore c').map (i, ·)).toList)
        (granted ++ ((c.isGranted? h.semaphore c').map (i, ·)).toList) := by
    intro hdraws hgranted hc hnext hnow
    rw [hdraws, hgranted, Option.map_none, Option.toList_none, List.append_nil, List.append_nil]
    exact ho.mono (fun _ _ => waits_of_put hi hc) hnext hnow
  cases hs with
  | @looks pos progress s' hacq =>
      obtain ⟨hdraws, hgranted⟩ := sees_acquisition h.semaphore pos progress
      rw [hdraws, hgranted]
      refine ho.acquires hacq (fun ticket hpos => ?_) fun j ticket hj => ?_
      · subst hpos
        exact ⟨_, hi, rfl⟩
      · rcases waits_put hj with ⟨rfl, hticket⟩ | hj
        · refine .inl ⟨rfl, ?_⟩
          rcases progress with pos' | r
          · cases pos' <;> cases hticket
            rfl
          · cases hticket
        · exact .inr hj
  | dozes hopen hg => exact hstill rfl rfl (.inr rfl) rfl rfl
  | tries htry =>
      cases tries_of_tryAcquire htry with
      | failed hf => exact hstill rfl rfl (.inl rfl) rfl rfl
      | took hopen hp hq =>
          have hn : h.semaphore.nowServing = h.semaphore.nextTicket := by
            have hbehind := ho.behind
            rw [queued] at hq
            omega
          exact (ho.servesAtOnce i hn).mono (fun _ _ => waits_of_put hi (.inl rfl)) rfl rfl
  | full hp => exact hstill rfl rfl (.inl rfl) rfl rfl
  | gives hp => exact hstill rfl rfl (.inl rfl) rfl rfl
  | closes => exact hstill rfl rfl (.inl rfl) rfl rfl
  | notifies => exact hstill rfl rfl (.inl rfl) rfl rfl

/-! ## §3 — the balance of permits -/

/-- **`Balances s max begun granted returned`** — of `begun` permits and those that were returned,
each is free or was granted, and no more than `max` are free. -/
structure Balances (s : Semaphore) (max begun granted returned : Nat) : Prop where
  ceiling : s.ceiling = max
  room : s.permits ≤ max
  balance : begun + returned = s.permits + granted

/-- **A permit is granted.** -/
theorem Balances.grants {s s' : Semaphore} {max begun granted returned : Nat}
    (hb : Balances s max begun granted returned) (hp : 0 < s.permits)
    (hceiling : s'.ceiling = s.ceiling) (hpermits : s'.permits = s.permits - 1) :
    Balances s' max begun (granted + 1) returned where
  ceiling := hceiling.trans hb.ceiling
  room := by
    rw [hpermits]
    exact Nat.le_trans (Nat.sub_le _ _) hb.room
  balance := by
    have hbalance := hb.balance
    omega

/-- **A section** keeps the balance. -/
theorem Balances.step {s s' : Semaphore} {c c' : Caller} {wakes : Bool}
    {max begun granted returned : Nat} (hb : Balances s max begun granted returned)
    (hs : c.Steps s c' s' wakes) :
    Balances s' max begun (granted + (c.isGranted? s c').toList.length)
      (returned + (c.returns? s c').toList.length) := by
  cases hs with
  | @looks pos progress s' hacq =>
      cases acquires_of_acquire? hacq with
      | refused _ hclosed => cases pos <;> exact hb
      | queues hopen hg => exact ⟨hb.ceiling, hb.room, hb.balance⟩
      | servedAtOnce hopen hn hp => exact hb.grants hp rfl rfl
      | served ticket hopen hn hp => exact hb.grants hp rfl rfl
  | dozes hopen hg => exact hb
  | tries htry =>
      cases tries_of_tryAcquire htry with
      | failed hf => exact hb
      | took hopen hp hq => exact hb.grants hp rfl rfl
  | full hp => exact hb
  | gives hp =>
      have hbalance := hb.balance
      refine ⟨hb.ceiling, hb.ceiling ▸ hp, ?_⟩
      show begun + (returned + 1) = s.permits + 1 + (granted + 0)
      omega
  | closes => exact ⟨hb.ceiling, hb.room, hb.balance⟩
  | notifies => exact hb

/-! ## §4 — calls that fail, and calls after a close -/

/-- A section in which a caller does not get what it asked for takes and gives no permit, and serves
nobody. -/
theorem keeps_or_gains {s s' : Semaphore} {c c' : Caller} {wakes : Bool}
    (hs : c.Steps s c' s' wakes) :
    c'.Gained ∨ (s'.permits = s.permits ∧ s'.nowServing = s.nowServing) := by
  cases hs with
  | looks hacq =>
      cases acquires_of_acquire? hacq with
      | refused pos hclosed => exact .inr ⟨rfl, rfl⟩
      | queues hopen hg => exact .inr ⟨rfl, rfl⟩
      | servedAtOnce hopen hn hp => exact .inl trivial
      | served ticket hopen hn hp => exact .inl trivial
  | dozes hopen hg => exact .inr ⟨rfl, rfl⟩
  | tries htry =>
      cases tries_of_tryAcquire htry with
      | failed hf => exact .inr ⟨rfl, rfl⟩
      | took hopen hp hq => exact .inl trivial
  | full hp => exact .inr ⟨rfl, rfl⟩
  | gives hp => exact .inl trivial
  | closes => exact .inr ⟨rfl, rfl⟩
  | notifies => exact .inr ⟨rfl, rfl⟩

/-- Whoever has got what it asked for has ended. -/
theorem not_steps_of_gained {s s' : Semaphore} {c c' : Caller} {wakes : Bool} (hc : c.Gained) :
    ¬ c.Steps s c' s' wakes := by
  intro hs
  cases hs with
  | @looks pos progress s' hacq => cases pos <;> exact hc
  | _ => exact hc

section Past

variable {h h' : Hall} {i : Nat} {xs : List (Happening Hall Move)}

theorem gained_stays {m : Move} {c : Caller} (hi : h.callers[i]? = some c) (hc : c.Gained)
    (hmove : h.move? m = some h') : h'.callers[i]? = some c := by
  have hwake : c.wake = c := by
    cases c with
    | asleep ticket => exact absurd hc id
    | _ => rfl
  cases m with
  | step j =>
      obtain ⟨d, d', s', wakes, hj, hs, rfl⟩ := steps_of_step? hmove
      refine callers_put_of_ne ?_ hi hwake
      rintro rfl
      obtain rfl := Option.some.inj (hi.symm.trans hj)
      exact not_steps_of_gained hc hs
  | stir j =>
      obtain ⟨ticket, hj, rfl⟩ := stir?_eq_some hmove
      refine callers_put_of_ne ?_ hi hwake
      rintro rfl
      obtain rfl := Option.some.inj (hi.symm.trans hj)
      exact hc
  | join d =>
      obtain rfl := Option.some.inj hmove
      exact (List.getElem?_append_left (List.getElem?_eq_some_iff.1 hi).1).trans hi

/-- **Whoever changes anything gets what it asked for.** -/
theorem kept_or_gained {s : Hall} (hruns : Runs move? s xs h) :
    ∀ x ∈ xs, x.move = .step i →
      (x.after.semaphore.permits = x.before.semaphore.permits ∧
        x.after.semaphore.nowServing = x.before.semaphore.nowServing) ∨
      ∃ c, h.callers[i]? = some c ∧ c.Gained := by
  induction hruns with
  | start => intro x hx; cases hx
  | @more xs h₁ h₂ m hruns hmove ih =>
      intro x hx hstep
      rcases List.mem_append.1 hx with hx | hx
      · rcases ih x hx hstep with hkept | ⟨c, hi, hc⟩
        · exact .inl hkept
        · exact .inr ⟨c, gained_stays hi hc hmove, hc⟩
      · obtain rfl := List.mem_singleton.1 hx
        obtain rfl : m = .step i := hstep
        obtain ⟨c, c', s', wakes, hi, hs, rfl⟩ := steps_of_step? hmove
        rcases keeps_or_gains hs with hgained | hkept
        · exact .inr ⟨c', callers_steps hi hs, hgained⟩
        · refine .inl ?_
          rw [wakeIf_semaphore]
          exact hkept

/-- Once closed, always closed. -/
theorem closed_of_runs (hruns : Runs move? h xs h') (hc : h.semaphore.closed = true) :
    h'.semaphore.closed = true ∧ ∀ x ∈ xs, x.before.semaphore.closed = true := by
  induction hruns with
  | start => exact ⟨hc, fun x hx => by cases hx⟩
  | more hruns hmove ih =>
      obtain ⟨hclosed, hbefore⟩ := ih
      refine ⟨closed_of_move hmove hclosed, fun x hx => ?_⟩
      rcases List.mem_append.1 hx with hx | hx
      · exact hbefore x hx
      · obtain rfl := List.mem_singleton.1 hx
        exact hclosed

/-- A closed semaphore grants nothing. -/
theorem isGranted?_of_closed {s s' : Semaphore} {c c' : Caller} {wakes : Bool}
    (hs : c.Steps s c' s' wakes) (hc : s.closed = true) : c.isGranted? s c' = none := by
  cases hs with
  | @looks pos progress s' hacq =>
      rw [acquire?_closed hc] at hacq
      obtain ⟨rfl, rfl⟩ := Prod.mk.inj (Option.some.inj hacq)
      cases pos <;> rfl
  | tries htry =>
      cases tries_of_tryAcquire htry with
      | failed hf => rfl
      | took hopen hp hq => rw [hopen] at hc; cases hc
  | _ => rfl

theorem granted_of_closed (hruns : Runs move? h xs h') (hc : h.semaphore.closed = true) :
    xs.filterMap (seen Caller.isGranted?) = [] := by
  rw [List.filterMap_eq_nil_iff]
  rintro ⟨before, m, after⟩ hx
  have hclosed : before.semaphore.closed = true := (closed_of_runs hruns hc).2 _ hx
  have hmove : before.move? m = some after := hruns.possible hx
  cases m with
  | step i =>
      obtain ⟨c, c', s', wakes, hi, hs, rfl⟩ := steps_of_step? hmove
      rw [seen_step hi hs, isGranted?_of_closed hs hclosed, Option.map_none]
  | stir i => rfl
  | join c => rfl

/-! ## The theorem -/

theorem ordered_of_runs {p max : Nat} {s : Semaphore} (hs : Made p max s)
    (hruns : Runs move? ⟨s, []⟩ xs h) (hbegin : ∀ x ∈ xs, x.move.Begins) :
    Ordered h.semaphore h.Waits (xs.filterMap (seen Caller.draws?))
        (xs.filterMap (seen Caller.isGranted?)) ∧
      Balances h.semaphore max (min p max) (xs.filterMap (seen Caller.isGranted?)).length
        (xs.filterMap (seen Caller.returns?)).length := by
  induction hruns with
  | start =>
      have hnobody : ∀ i ticket, ¬ Waits ⟨s, []⟩ i ticket := by
        rintro i ticket ⟨c, hi, -⟩
        simp at hi
      cases hs with
      | ofPermits hp =>
          exact ⟨⟨rfl, rfl, Nat.le_refl _, fun i ticket hi => absurd hi (hnobody i ticket)⟩,
            rfl, hp, by rw [Nat.min_eq_left hp]; rfl⟩
      | bounded =>
          exact ⟨⟨rfl, rfl, Nat.le_refl _, fun i ticket hi => absurd hi (hnobody i ticket)⟩,
            rfl, Nat.min_le_right _ _, rfl⟩
  | @more xs h₁ h₂ m hruns hmove ih =>
      obtain ⟨hordered, hbalances⟩ := ih fun x hx => hbegin x (List.mem_append_left _ hx)
      rw [filterMap_concat, filterMap_concat, filterMap_concat, List.length_append,
        List.length_append]
      cases m with
      | step i =>
          obtain ⟨c, c', s', wakes, hi, hstep, rfl⟩ := steps_of_step? hmove
          rw [seen_step hi hstep, seen_step hi hstep, seen_step hi hstep, wakeIf_semaphore,
            put_semaphore]
          refine ⟨hordered.step hi hstep, ?_⟩
          rw [Option.toList_map, Option.toList_map, List.length_map, List.length_map]
          exact hbalances.step hstep
      | stir i =>
          obtain ⟨ticket, hi, rfl⟩ := stir?_eq_some hmove
          simp only [seen, Option.toList_none, List.append_nil, List.length_nil, Nat.add_zero]
          exact ⟨hordered.mono (fun _ _ => waits_of_put hi (.inr rfl)) rfl rfl, hbalances⟩
      | join c =>
          obtain rfl := Option.some.inj hmove
          simp only [seen, Option.toList_none, List.append_nil, List.length_nil, Nat.add_zero]
          exact ⟨hordered.mono (fun _ _ => waits_of_join (hbegin _ List.mem_concat_self)) rfl rfl,
            hbalances⟩

/-- **Permits are granted in the order of the tickets, and none is lost.** Take a semaphore that is
made with `p` permits and a ceiling of `max`, any number of acquisitions, attempts, releases and
closes, and any interleaving of their sections in which sleepers may also wake up for no reason.
Tickets are counted without wrapping. The tickets that were drawn are `0, 1, 2, …`, and those who
were granted a permit are the first who drew one, in the same order. No more tickets were served
than drawn and no more permits are free than the ceiling allows; the permits of the start and those
that were given back are the free ones and the granted ones. No section of an acquisition that was
interrupted, or of a release that was refused, has changed the permits or the ticket that is served
next. And once the semaphore is closed nothing is granted, whatever happens later. -/
theorem granted_in_order {p max : Nat} {s : Semaphore} (hs : Made p max s) {moves : List Move}
    (hmoves : ∀ m ∈ moves, m.Begins) {h : Hall} (hrun : run? moves ⟨s, []⟩ = some h) :
    let past := course move? moves ⟨s, []⟩
    let drawn := past.filterMap (seen Caller.draws?)
    let granted := past.filterMap (seen Caller.isGranted?)
    let returned := past.filterMap (seen Caller.returns?)
    drawn.map Prod.snd = List.range h.semaphore.nextTicket ∧
    granted = drawn.take h.semaphore.nowServing ∧
    granted.map Prod.snd = List.range h.semaphore.nowServing ∧
    h.semaphore.nowServing ≤ h.semaphore.nextTicket ∧
    h.semaphore.permits ≤ max ∧
    min p max + returned.length = h.semaphore.permits + granted.length ∧
    (∀ (i : Nat) (f : Fault), h.callers[i]? = some (.acquired (.error f)) ∨
      h.callers[i]? = some (.released (.error f)) → ∀ x ∈ past, x.move = .step i →
        x.after.semaphore.permits = x.before.semaphore.permits ∧
        x.after.semaphore.nowServing = x.before.semaphore.nowServing) ∧
    (h.semaphore.closed = true → ∀ (later : List Move) (h' : Hall), run? later h = some h' →
      (course move? later h).filterMap (seen Caller.isGranted?) = []) := by
  have hruns := runs_course hrun
  obtain ⟨hordered, hbalances⟩ :=
    ordered_of_runs hs hruns fun x hx => hmoves _ (move_mem_of_course hx)
  intro past drawn granted returned
  refine ⟨hordered.tickets, hordered.first, ?_, hordered.behind, hbalances.room,
    hbalances.balance, fun i f hfails x hx hstep => ?_, fun hc later h' hlater => ?_⟩
  · show (past.filterMap _).map Prod.snd = _
    rw [hordered.first, List.map_take, hordered.tickets, List.take_range,
      Nat.min_eq_left hordered.behind]
  · rcases kept_or_gained hruns x hx hstep with hkept | ⟨c, hi, hc⟩
    · exact hkept
    · rcases hfails with hfails | hfails <;>
        · rw [hfails] at hi
          obtain rfl := Option.some.inj hi
          exact absurd hc id
  · exact granted_of_closed (runs_course hlater) hc

/-- Two callers wait, a permit comes back, and the second of them looks first, which gains it
nothing. One more permit is refused. The first is served, then the second, then an attempt, and a
close sends the last one away. -/
theorem granted_in_order_waiting :
    let moves : List Move := [.join .acquiring, .join .acquiring, .join .releasing, .step 0,
      .step 1, .step 2, .step 1, .join .releasing, .step 3, .step 0, .stir 1, .join .releasing,
      .step 4, .step 1, .join .releasing, .step 5, .join .trying, .step 6, .join .acquiring,
      .step 7, .join .closing, .step 8, .step 8, .step 7]
    (∀ m ∈ moves, m.Begins) ∧
      ∃ h, run? moves ⟨.bounded 0 1, []⟩ = some h ∧
        (course move? moves ⟨.bounded 0 1, []⟩).filterMap (seen Caller.isGranted?) =
          [(0, 0), (1, 1), (6, 2)] ∧
        h.semaphore.nowServing ≤ h.semaphore.nextTicket ∧ h.semaphore.nextTicket = 4 ∧
        (course move? moves ⟨.bounded 0 1, []⟩).filterMap (seen Caller.isGranted?) =
          ((course move? moves ⟨.bounded 0 1, []⟩).filterMap (seen Caller.draws?)).take
            h.semaphore.nowServing := by
  intro moves
  have hbegin : ∀ m ∈ moves, m.Begins := by
    simp [moves, Move.Begins, Caller.Begins]
  obtain ⟨h, hrun, hnext, hgranted⟩ :
      ∃ h, run? moves ⟨.bounded 0 1, []⟩ = some h ∧ h.semaphore.nextTicket = 4 ∧
        (course move? moves ⟨.bounded 0 1, []⟩).filterMap (seen Caller.isGranted?) =
          [(0, 0), (1, 1), (6, 2)] := ⟨_, rfl, rfl, rfl⟩
  obtain ⟨-, hfirst, -, hbehind, -⟩ := granted_in_order (.bounded 1) hbegin hrun
  exact ⟨hbegin, h, hrun, hgranted, hbehind, hnext, hfirst⟩

end Past

end Hall

end Postal.Semaphore

import Postal.Proofs.Weighing

/-!
# What the scale counts as a wait.

Whoever does not get the scale at its first attempt is counted before it goes on. An attempt misses
if the permit is in somebody else's hand or somebody else is queued for it, and also if the scale is
closed, even when nobody else is there. So while the scale is open the count tells how often there
was somebody in the way, and every attempt after a close is counted as well.

## §1 — the line in front of a turnstile.
## §2 — when an attempt misses.
## §3 — the count, and the theorem.
-/

namespace Postal

namespace Turnstile

/-! ## §1 — the line in front of a turnstile -/

section Line

variable {S P : Type} {k : Custom S P} {t : Turnstile k} {c c' : Crowd S P}

/-- **In line**: as long as the semaphore is open, every ticket that is drawn and not served is in
the hand of one caller. -/
def InLine (t : Turnstile k) (c : Crowd S P) : Prop :=
  (t.permits c.shared).Lined fun n => tally (fun p => (t.hand p).ticket n) c.callers

/-- **Every move** keeps the line; newcomers bring no ticket. -/
theorem InLine.move {m : Custom.Move P} (h : t.InLine c) (hmove : k.move? c m = some c')
    (hjoin : ∀ p, m = .join p → ∀ n, (t.hand p).ticket n = 0) : t.InLine c' := by
  cases Custom.moves_of_move? hmove with
  | steps hi hstep =>
      have hbefore := h.congr (fun n => (tally_eq_add hi).symm) rfl rfl rfl
      exact (hbefore.uses (t.uses hstep)).congr (fun n => tally_set_eq_add hi _) rfl rfl rfl
  | @turns i p hi =>
      refine h.congr (fun n => ?_) rfl rfl rfl
      exact tally_set_of_eq hi (by rw [(t.turns p).1])
  | closes =>
      intro hopen
      rw [(t.closes c.shared).1] at hopen
      cases hopen
  | @comes p =>
      refine h.congr (fun n => ?_) rfl rfl rfl
      rw [tally_concat, hjoin p rfl n, Nat.add_zero]

/-- **Closing is for ever.** -/
theorem closed_of_move (t : Turnstile k) {m : Custom.Move P} (hmove : k.move? c m = some c')
    (hc : (t.permits c.shared).closed = true) : (t.permits c'.shared).closed = true := by
  cases Custom.moves_of_move? hmove with
  | steps hi hstep => rw [(t.uses hstep).closed_eq, hc]
  | turns hi => exact hc
  | closes => rw [(t.closes c.shared).1]; rfl
  | comes => exact hc

/-- What is open at the end has been open all the time. -/
theorem open_of_runs (t : Turnstile k) {s : Crowd S P}
    {past : List (Happening (Crowd S P) (Custom.Move P))} (hruns : Runs k.move? s past c)
    (hopen : (t.permits c.shared).closed = false) :
    ∀ x ∈ past, (t.permits x.before.shared).closed = false := by
  induction hruns with
  | start => exact fun x hx => absurd hx List.not_mem_nil
  | more hruns hmove ih =>
      have hbefore := Bool.eq_false_iff.2 fun hc =>
        Bool.eq_false_iff.1 hopen (t.closed_of_move hmove hc)
      intro x hx
      rcases List.mem_append.1 hx with hx | hx
      · exact ih hbefore x hx
      · obtain rfl := List.mem_singleton.1 hx
        exact hbefore

end Line

end Turnstile

/-! ## §2 — when an attempt misses -/

/-- An attempt has three reasons to fail. -/
theorem Semaphore.tryAcquire_eq_false_iff (s : Semaphore) :
    s.tryAcquire.1 = false ↔ s.closed = true ∨ s.permits = 0 ∨ 0 < s.queued := by
  rw [tryAcquire]
  split
  · next h => simpa [or_assoc] using h
  · next h => simpa [or_assoc] using h

namespace Scale

/-- A user who has the permit in hand, or waits for it with a ticket. -/
def User.InTheWay : User → Prop
  | .acquiring _ (.acquiring (.queued _)) => True
  | u => 0 < u.hand.permits

/-- Somebody other than user `i` is in the way. -/
def Contended (c : Crowd Scale User) (i : Nat) : Prop :=
  ∃ (j : Nat) (u : User), j ≠ i ∧ c.callers[j]? = some u ∧ u.InTheWay

theorem User.inTheWay_of_held {u : User} (h : 0 < u.hand.permits) : u.InTheWay := by
  cases u with
  | acquiring panics pos =>
      cases pos with
      | acquiring pos =>
          cases pos with
          | arriving => exact absurd h (Nat.lt_irrefl 0)
          | queued ticket => trivial
      | _ => exact h
  | _ => exact h

theorem User.inTheWay_of_ticket {u : User} {n : Nat} (h : 0 < u.hand.ticket n) : u.InTheWay := by
  cases u with
  | acquiring panics pos =>
      cases pos with
      | acquiring pos =>
          cases pos with
          | arriving => exact absurd h (Nat.lt_irrefl 0)
          | queued ticket => trivial
      | _ => exact absurd h (Nat.lt_irrefl 0)
  | _ => exact absurd h (Nat.lt_irrefl 0)

/-- Whoever is in the way has the permit, or a ticket. -/
theorem User.InTheWay.hand {u : User} (h : u.InTheWay) :
    0 < u.hand.permits ∨ ∃ n, 0 < u.hand.ticket n := by
  cases u with
  | acquiring panics pos =>
      cases pos with
      | acquiring pos =>
          cases pos with
          | arriving => exact .inl h
          | queued ticket =>
              exact .inr ⟨ticket, Nat.lt_of_lt_of_eq Nat.one_pos
                (Semaphore.Acquiring.holds_self ticket).symm⟩
      | _ => exact .inl h
  | _ => exact .inl h

section Misses

variable {c c' : Crowd Scale User} {i : Nat} {u u' : User} {s' : Scale} {panics : Bool}

/-- **An attempt misses** exactly if the scale is closed or somebody else is in the way. -/
theorem misses_iff (hkept : turnstile.Kept 1 c) (hline : turnstile.InLine c)
    (hi : c.callers[i]? = some (.acquiring panics .trying)) :
    c.shared.permit.tryAcquire.1 = false ↔ c.shared.permit.closed = true ∨ Contended c i := by
  have hbalance : c.shared.permit.permits + tally turnstile.held c.callers = 1 :=
    hkept.permits.balance
  -- whoever has anything in hand is not the one that tries
  have hother : ∀ {j : Nat} {u : User}, c.callers[j]? = some u →
      (0 < u.hand.permits ∨ ∃ n, 0 < u.hand.ticket n) → j ≠ i := by
    rintro j u hj hhand rfl
    obtain rfl := Option.some.inj (hi.symm.trans hj)
    rcases hhand with hpos | ⟨n, hpos⟩ <;> exact absurd hpos (Nat.lt_irrefl 0)
  rw [Semaphore.tryAcquire_eq_false_iff]
  constructor
  · rintro (hc | hnone | hqueued)
    · exact .inl hc
    · obtain ⟨j, u, hj, hpos⟩ := exists_of_tally_pos (f := turnstile.held) (l := c.callers)
        (by omega)
      exact .inr ⟨j, u, hother hj (.inl hpos), hj, User.inTheWay_of_held hpos⟩
    · cases hc : c.shared.permit.closed with
      | true => exact .inl rfl
      | false =>
          -- the ticket at the head of the line is in somebody's hand
          have hhead := (hline hc).2 c.shared.permit.nowServing
          have hlt := Nat.lt_of_sub_pos hqueued
          simp only [show turnstile.permits c.shared = c.shared.permit from rfl, Nat.le_refl, hlt,
            and_self, if_true] at hhead
          obtain ⟨j, u, hj, hpos⟩ := exists_of_tally_pos (Nat.lt_of_lt_of_eq Nat.one_pos hhead.symm)
          exact .inr ⟨j, u, hother hj (.inr ⟨_, hpos⟩), hj, User.inTheWay_of_ticket hpos⟩
  · rintro (hc | ⟨j, u, -, hj, hway⟩)
    · exact .inl hc
    · rcases hway.hand with hpos | ⟨n, hpos⟩
      · have hle : u.hand.permits ≤ tally turnstile.held c.callers :=
          le_tally (f := turnstile.held) hj
        exact .inr (.inl (by omega))
      · cases hc : c.shared.permit.closed with
        | true => exact .inl rfl
        | false =>
            have hle : u.hand.ticket n ≤ tally (fun v : User => v.hand.ticket n) c.callers :=
              le_tally (f := fun v : User => v.hand.ticket n) hj
            have hticket : tally (fun v : User => v.hand.ticket n) c.callers = _ := (hline hc).2 n
            rw [hticket] at hle
            refine .inr (.inr ?_)
            rw [Semaphore.queued]
            simp only [show turnstile.permits c.shared = c.shared.permit from rfl] at hle
            split_ifs at hle <;> omega

end Misses

/-! ## §3 — the count -/

/-- Whether an attempt has missed. -/
def User.misses? : User → User → Option Unit
  | .acquiring _ .trying, .acquiring _ .counting => some ()
  | _, _ => none

/-- Whether a user has missed and is about to be counted, as a weight. -/
def User.toBeCounted : User → Nat
  | .acquiring _ .counting => 1
  | _ => 0

/-- **`Reasoned x`** — if a user tries in this move, it misses exactly if the scale is closed or
somebody else is in the way. -/
def Reasoned (x : Happening (Crowd Scale User) (Custom.Move User)) : Prop :=
  ∀ (i : Nat) (panics : Bool), x.move = .step i →
    x.before.callers[i]? = some (.acquiring panics .trying) →
    (Custom.seen User.misses? x = some (i, ()) ↔
      x.before.shared.permit.closed = true ∨ Contended x.before i)

theorem User.toBeCounted_of_begins {u : User} (h : u.Begins) : u.toBeCounted = 0 := by
  match u, h with
  | .acquiring _ .trying, _ => rfl

theorem User.empty_of_begins {u : User} (h : u.Begins) (n : Nat) : u.hand.ticket n = 0 := by
  match u, h with
  | .acquiring _ .trying, _ => rfl

/-- Only who tries can miss. -/
theorem User.begins_of_misses {u u' : User} {a : Unit} (h : u.misses? u' = some a) : u.Begins := by
  unfold misses? at h
  split at h
  · trivial
  · cases h

/-- Nobody tries a second time. -/
theorem User.Steps.not_begins {s s' : Scale} {u u' : User} (h : u.Steps s u' s') : ¬ u'.Begins := by
  intro hbegins
  cases h with
  | @acquires panics pos progress s' hacq =>
      cases hacq with
      | notes => cases panics <;> exact hbegins
      | _ => exact hbegins
  | uncounts => exact hbegins
  | @releases unwound => cases unwound <;> exact hbegins

/-- **A step of a user**: those who miss are counted, or are about to be. -/
theorem User.Steps.toBeCounted {s s' : Scale} {u u' : User} (h : u.Steps s u' s') :
    s'.waits + u'.toBeCounted =
      s.waits + u.toBeCounted + (u.misses? u').toList.length := by
  cases h with
  | @acquires panics pos progress s' hacq =>
      cases hacq with
      | notes => cases panics <;> rfl
      | _ => rfl
  | uncounts => rfl
  | @releases unwound => cases unwound <;> rfl

/-- **`Counts missed c`** — those who have missed are counted, or are about to be, and none of them
has missed twice. -/
structure Counts (missed : List (Nat × Unit)) (c : Crowd Scale User) : Prop where
  waits : c.shared.waits + tally User.toBeCounted c.callers = missed.length
  once : missed.Nodup
  before : ∀ i, (i, ()) ∈ missed → ∃ u, c.callers[i]? = some u ∧ ¬ u.Begins

section Counts

variable {c c' : Crowd Scale User} {missed : List (Nat × Unit)}

/-- Whoever has missed goes on to other things than trying. -/
theorem Counts.before_set (h : Counts missed c) {i j : Nat} {u u' : User} {s' : Scale}
    (hi : c.callers[i]? = some u) (hu : ¬ u.Begins → ¬ u'.Begins) (hj : (j, ()) ∈ missed) :
    ∃ v, (Crowd.mk s' (c.callers.set i u')).callers[j]? = some v ∧ ¬ v.Begins := by
  obtain ⟨v, hv, hbegins⟩ := h.before j hj
  rcases eq_or_ne i j with rfl | hij
  · obtain rfl := Option.some.inj (hi.symm.trans hv)
    exact ⟨u', List.getElem?_set_self (List.getElem?_eq_some_iff.1 hi).1, hu hbegins⟩
  · exact ⟨v, (List.getElem?_set_ne hij).trans hv, hbegins⟩

/-- **A step** keeps the count. -/
theorem Counts.step (h : Counts missed c) {i : Nat} {u u' : User} {s' : Scale}
    (hi : c.callers[i]? = some u) (hs : u.Steps c.shared u' s') :
    Counts (missed ++ ((u.misses? u').map (i, ·)).toList) ⟨s', c.callers.set i u'⟩ := by
  have hwaits := h.waits
  have hcounted := hs.toBeCounted
  have hset := tally_set (f := User.toBeCounted) hi u'
  have hkept : ∀ j, (j, ()) ∈ missed →
      ∃ v, (Crowd.mk s' (c.callers.set i u')).callers[j]? = some v ∧ ¬ v.Begins :=
    fun j hj => h.before_set hi (fun _ => hs.not_begins) hj
  cases hmissed : u.misses? u' with
  | none =>
      rw [hmissed] at hcounted
      simp only [Option.toList_none, List.length_nil, Option.map_none,
        List.append_nil] at hcounted ⊢
      refine ⟨?_, h.once, hkept⟩
      show s'.waits + tally User.toBeCounted (c.callers.set i u') = _
      omega
  | some a =>
      rw [hmissed] at hcounted
      simp only [Option.toList_some, List.length_singleton, Option.map_some] at hcounted ⊢
      refine ⟨?_, ?_, fun j hj => ?_⟩
      · rw [List.length_append, List.length_singleton]
        show s'.waits + tally User.toBeCounted (c.callers.set i u') = _
        omega
      · -- whoever misses has not tried before
        refine List.nodup_append.2 ⟨h.once, List.pairwise_singleton _ _, fun x hx y hy heq => ?_⟩
        obtain rfl := List.mem_singleton.1 hy
        subst heq
        obtain ⟨v, hv, hbegins⟩ := h.before i hx
        obtain rfl := Option.some.inj (hi.symm.trans hv)
        exact hbegins (User.begins_of_misses hmissed)
      · rcases List.mem_append.1 hj with hj | hj
        · exact hkept j hj
        · obtain ⟨rfl, -⟩ := Prod.mk.inj (List.mem_singleton.1 hj)
          exact ⟨u', List.getElem?_set_self (List.getElem?_eq_some_iff.1 hi).1, hs.not_begins⟩

/-- **Every move** keeps the count. -/
theorem Counts.move {m : Custom.Move User} (h : Counts missed c)
    (hmove : custom.move? c m = some c') (hjoin : ∀ u, m = .join u → u.Begins) :
    Counts (missed ++ (Custom.seen User.misses? ⟨c, m, c'⟩).toList) c' := by
  cases Custom.moves_of_move? hmove with
  | steps hi hstep =>
      rw [Custom.seen_step hi]
      exact h.step hi (User.steps_of_step? hstep)
  | @turns i u hi =>
      simp only [Custom.seen, Option.toList_none, List.append_nil]
      refine ⟨?_, h.once, fun j hj => h.before_set hi (fun hu => ?_) hj⟩
      · rw [tally_set_of_eq hi (by cases u <;> rfl)]
        exact h.waits
      · cases u with
        | holding => exact id
        | _ => exact hu
  | closes =>
      simp only [Custom.seen, Option.toList_none, List.append_nil]
      exact ⟨h.waits, h.once, h.before⟩
  | @comes u =>
      simp only [Custom.seen, Option.toList_none, List.append_nil]
      refine ⟨?_, h.once, fun j hj => ?_⟩
      · rw [tally_concat, User.toBeCounted_of_begins (hjoin u rfl)]
        exact h.waits
      · obtain ⟨v, hv, hbegins⟩ := h.before j hj
        exact ⟨v, (List.getElem?_append_left (List.getElem?_eq_some_iff.1 hv).1).trans hv, hbegins⟩

/-- **A move** in which a user tries. -/
theorem reasoned_of_move {m : Custom.Move User} (hkept : turnstile.Kept 1 c)
    (hline : turnstile.InLine c) (hmove : custom.move? c m = some c') : Reasoned ⟨c, m, c'⟩ := by
  rintro i panics rfl hi
  rw [← misses_iff hkept hline hi]
  obtain ⟨u, u', s', hu, hstep, rfl⟩ := Crowd.step?_eq_some hmove
  obtain rfl := Option.some.inj (hi.symm.trans hu)
  rw [Custom.seen_step hi]
  have hsteps : (User.acquiring panics .trying).Steps c.shared u' s' := User.steps_of_step? hstep
  cases hsteps with
  | acquires hacq =>
      cases hacq with
      | missed htry => simp [htry, Progress.within, User.misses?]
      | took htry => simp [htry, Progress.within, User.misses?]

theorem counts_of_runs {past : List (Happening (Crowd Scale User) (Custom.Move User))}
    (hruns : Runs custom.move? (.ofShared .fresh) past c)
    (hbegin : ∀ x ∈ past, ∀ u, x.move = .join u → u.Begins) :
    Counts (past.filterMap (Custom.seen User.misses?)) c ∧ turnstile.InLine c ∧
      ∀ x ∈ past, Reasoned x := by
  induction hruns with
  | start =>
      exact ⟨⟨rfl, List.nodup_nil, fun i hi => absurd hi List.not_mem_nil⟩,
        Semaphore.lined_bounded 1 1, fun x hx => absurd hx List.not_mem_nil⟩
  | more hruns hmove ih =>
      obtain ⟨hcounts, hline, hreasoned⟩ := ih fun x hx => hbegin x (List.mem_append_left _ hx)
      have hexclusive := exclusive_of_runs hruns fun x hx => hbegin x (List.mem_append_left _ hx)
      have hjoin := hbegin _ List.mem_concat_self
      rw [filterMap_concat]
      refine ⟨hcounts.move hmove hjoin, hline.move hmove fun u hu n => ?_, fun x hx => ?_⟩
      · exact User.empty_of_begins (hjoin u hu) n
      · rcases List.mem_append.1 hx with hx | hx
        · exact hreasoned x hx
        · obtain rfl := List.mem_singleton.1 hx
          exact reasoned_of_move hexclusive.kept hline hmove

end Counts

/-! ## The theorem -/

/-- **The scale counts the attempts that miss.** Take any number of users of a scale and any
interleaving of their steps in which the scale may be closed at any moment. The count is the number
of those whose attempt has missed, less those who have missed and not been counted yet, and nobody
misses twice. An attempt misses exactly if the scale is closed, or somebody else has the permit or
is queued for it. So as long as nobody closes the scale an attempt misses exactly if somebody else
is in the way, while after a close everybody who comes is counted. -/
theorem waits_count_missed_attempts {moves : List (Custom.Move User)}
    (hmoves : ∀ u, .join u ∈ moves → u.Begins) {c : Crowd Scale User}
    (hrun : custom.run? moves (.ofShared .fresh) = some c) :
    let past := course custom.move? moves (.ofShared .fresh)
    let missed := past.filterMap (Custom.seen User.misses?)
    c.shared.waits + tally User.toBeCounted c.callers = missed.length ∧ missed.Nodup ∧
    (∀ x ∈ past, ∀ (i : Nat) (panics : Bool), x.move = .step i →
      x.before.callers[i]? = some (.acquiring panics .trying) →
      (Custom.seen User.misses? x = some (i, ()) ↔
        x.before.shared.permit.closed = true ∨ Contended x.before i)) ∧
    (c.shared.permit.closed = false → ∀ x ∈ past, ∀ (i : Nat) (panics : Bool), x.move = .step i →
      x.before.callers[i]? = some (.acquiring panics .trying) →
      (Custom.seen User.misses? x = some (i, ()) ↔ Contended x.before i)) := by
  intro past missed
  have hruns := Custom.runs_course hrun
  have hbegin : ∀ x ∈ past, ∀ u, x.move = .join u → u.Begins := by
    intro x hx u hu
    refine hmoves u ?_
    rw [← hu]
    exact move_mem_of_course hx
  obtain ⟨hcounts, -, hreasoned⟩ := counts_of_runs hruns hbegin
  refine ⟨hcounts.waits, hcounts.once, hreasoned, fun hopen x hx i panics hmove hi => ?_⟩
  have hbefore : x.before.shared.permit.closed = false :=
    turnstile.open_of_runs hruns hopen x hx
  rw [hreasoned x hx i panics hmove hi, hbefore]
  simp only [Bool.false_eq_true, false_or]

/-- The second user misses since the first has the permit, and is counted and sent away by a close.
When everybody has gone a third one comes to the closed scale, and is counted as well. -/
theorem waits_count_missed_attempts_closed :
    let moves : List (Custom.Move User) := [.join (.acquiring false .trying),
      .join (.acquiring false .trying), .step 0, .step 1, .step 1, .close, .step 1, .step 0,
      .step 0, .turn 0, .step 0, .step 0, .join (.acquiring false .trying), .step 2, .step 2]
    (∀ u, .join u ∈ moves → u.Begins) ∧
      ∃ c, custom.run? moves (.ofShared .fresh) = some c ∧
        c.callers = [.gone, .refused .interrupted, .acquiring false (.acquiring .arriving)] ∧
        (course custom.move? moves (.ofShared .fresh)).filterMap (Custom.seen User.misses?) =
          [(1, ()), (2, ())] ∧ c.shared.waits + 0 = 2 := by
  intro moves
  have hmoves : ∀ u, .join u ∈ moves → u.Begins := by
    simp [moves, User.Begins]
  obtain ⟨c, hrun, hcallers, hmissed⟩ : ∃ c, custom.run? moves (.ofShared .fresh) = some c ∧
      c.callers = [.gone, .refused .interrupted, .acquiring false (.acquiring .arriving)] ∧
      (course custom.move? moves (.ofShared .fresh)).filterMap (Custom.seen User.misses?) =
        [(1, ()), (2, ())] := ⟨_, rfl, rfl, rfl⟩
  obtain ⟨hwaits, -, -, -⟩ := waits_count_missed_attempts hmoves hrun
  rw [hmissed, hcallers] at hwaits
  exact ⟨hmoves, c, hrun, hcallers, hmissed, hwaits⟩

/-- **A missed attempt need not be contended.** A single user comes to a closed scale, misses and is
counted, although nobody else was ever in the way. -/
theorem missed_without_contention :
    let moves : List (Custom.Move User) :=
      [.close, .join (.acquiring false .trying), .step 0, .step 0]
    ∃ c, custom.run? moves (.ofShared .fresh) = some c ∧ c.shared.waits = 1 ∧
      ∀ x ∈ course custom.move? moves (.ofShared .fresh), ∀ i, x.move = .step i →
        ¬ Contended x.before i := by
  intro moves
  have hsingle : ∀ x ∈ course custom.move? moves (.ofShared .fresh),
      x.before.callers.length ≤ 1 := by
    decide
  refine ⟨_, rfl, rfl, ?_⟩
  rintro x hx i hmove ⟨j, u, hji, hj, -⟩
  have hi : .step i ∈ moves := hmove ▸ move_mem_of_course hx
  have hlt := (List.getElem?_eq_some_iff.1 hj).1
  have hle := hsingle x hx
  obtain rfl : i = 0 := by simpa [moves] using hi
  omega

end Scale

end Postal

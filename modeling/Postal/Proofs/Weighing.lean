import Postal.Proofs.Permits
import Postal.Proofs.Turnstile

/-!
# One holder at a time.

The scale is a turnstile with a single permit. Somebody may hold that permit without being counted
yet, or without being counted any more, but nobody is counted without it; so the scale never counts
two holders (`Scale.Exclusive`). What a holder notes for the peak is the count that it has raised
itself, which was zero before. All of that holds whoever tries, waits, is turned away by a close or
panics with the scale in hand.

## §1 — what one step of a user can do, said once (`User.Steps`).
## §2 — the scale as a turnstile.
## §3 — what every move keeps, and the theorem.
-/

namespace Postal.Scale

/-! ## §1 — one step of a user -/

/-- Where a user stands after it has asked for the scale. -/
def User.afterAcquiring (panics : Bool) : Except Fault Unit → User
  | .ok _ => if panics then .dropping true .counted else .holding
  | .error f => .refused f

/-- Where a user stands after it has given the scale back. -/
def User.afterDropping (unwound : Bool) : User :=
  if unwound then .panicked else .gone

/-- **`Steps s u u' s'`** — everything that the next step of a user can do. -/
inductive User.Steps (s : Scale) : User → User → Scale → Prop
  | acquires {panics : Bool} {pos : Acquiring} {progress : Progress Acquiring (Except Fault Unit)}
      {s' : Scale} (h : s.Acquires pos progress s') :
      Steps s (.acquiring panics pos)
        (progress.within (.acquiring panics) (afterAcquiring panics)) s'
  | uncounts {unwound : Bool} :
      Steps s (.dropping unwound .counted) (.dropping unwound .releasing)
        { s with holders := s.holders - 1 }
  | releases {unwound : Bool} :
      Steps s (.dropping unwound .releasing) (afterDropping unwound)
        { s with permit := s.permit.releaseOrKeep }

theorem User.steps_of_step? {s s' : Scale} {u u' : User} (h : u.step? s = some (u', s')) :
    u.Steps s u' s' := by
  cases u with
  | acquiring panics pos =>
      obtain ⟨⟨progress, s''⟩, hacq, hend⟩ := Option.map_eq_some_iff.1 h
      obtain ⟨rfl, rfl⟩ := Prod.mk.inj hend
      exact .acquires (acquires_of_acquire? hacq)
  | dropping unwound pos =>
      obtain ⟨rfl, rfl⟩ := Prod.mk.inj (Option.some.inj h)
      cases pos with
      | counted => exact .uncounts
      | releasing => exact .releases
  | _ => cases h

/-! ## §2 — the scale as a turnstile -/

/-- What somebody on the way to the scale has of its permit. -/
def Acquiring.hand : Acquiring → Semaphore.Hand
  | .acquiring pos => pos.hand
  | .raising | .noting _ => ⟨fun _ => 0, 1⟩
  | _ => .empty

/-- What a user has of the permit. -/
def User.hand : User → Semaphore.Hand
  | .acquiring _ pos => pos.hand
  | .holding | .dropping _ _ => ⟨fun _ => 0, 1⟩
  | _ => .empty

/-- Whether somebody on the way to the scale is counted as a holder, as a weight. -/
def Acquiring.counted : Acquiring → Nat
  | .noting _ => 1
  | _ => 0

/-- Whether a user is counted as a holder, as a weight. -/
def User.counted : User → Nat
  | .acquiring _ pos => pos.counted
  | .holding | .dropping _ .counted => 1
  | _ => 0

/-- Whether a user has the scale, from the end of its acquisition until the scale is given back, as
a weight. -/
def User.hasScale : User → Nat
  | .holding | .dropping _ _ => 1
  | _ => 0

/-- A step of a user uses the permit. -/
theorem User.Steps.uses {s s' : Scale} {u u' : User} (h : u.Steps s u' s') :
    s.permit.Uses s'.permit u.hand u'.hand := by
  cases h with
  | @acquires panics pos progress s' hacq =>
      cases hacq with
      | missed htry => exact .aside
      | took htry => exact .tries htry
      | counts => exact .aside
      | waits hpermit => exact .acquires hpermit
      | granted hpermit => exact .acquires hpermit
      | refused hpermit => exact .acquires hpermit
      | raises => exact .aside
      | notes => cases panics <;> exact .aside
  | uncounts => exact .aside
  | @releases unwound => cases unwound <;> exact .releases

/-- A step of a user keeps the count of the holders. -/
theorem User.Steps.counts {s s' : Scale} {u u' : User} (h : u.Steps s u' s')
    (hcounted : u.counted ≤ s.holders) : s'.holders + u.counted = s.holders + u'.counted := by
  cases h with
  | @acquires panics pos progress s' hacq =>
      cases hacq with
      | notes => cases panics <;> rfl
      | _ => rfl
  | uncounts => exact Nat.sub_add_cancel hcounted
  | @releases unwound => cases unwound <;> rfl

/-- What users do at a scale. -/
def custom : Custom Scale User := ⟨conduct, User.turn, close⟩

/-- **The scale is a turnstile.** -/
def turnstile : Turnstile custom where
  permits := Scale.permit
  count := Scale.holders
  hand := User.hand
  counted := User.counted
  uses h := (User.steps_of_step? h).uses
  counts h := (User.steps_of_step? h).counts
  turns u := by cases u <;> exact ⟨rfl, rfl⟩
  closes _ := ⟨rfl, rfl⟩

/-- Nobody is counted without the permit. -/
theorem User.counted_le_held (u : User) : u.counted ≤ turnstile.held u := by
  cases u with
  | acquiring panics pos => cases pos <;> exact Nat.le_of_ble_eq_true rfl
  | dropping unwound pos => cases pos <;> exact Nat.le_of_ble_eq_true rfl
  | _ => exact Nat.le_refl _

/-- Nobody has the scale without the permit. -/
theorem User.hasScale_le_held (u : User) : u.hasScale ≤ turnstile.held u := by
  cases u with
  | acquiring panics pos => exact Nat.zero_le _
  | _ => exact Nat.le_refl _

/-! ## §3 — every move -/

/-- A user who has just come: it will try to take the scale, and maybe panic with it. -/
def User.Begins : User → Prop
  | .acquiring _ .trying => True
  | _ => False

/-- A user who is not on the way to the scale and does not have it either. -/
def User.AtRest : User → Prop
  | .refused _ | .gone | .panicked => True
  | _ => False

theorem User.fresh_of_begins {u : User} (h : u.Begins) : turnstile.Fresh u := by
  match u, h with
  | .acquiring _ .trying, _ => exact ⟨rfl, rfl⟩

/-- **`Exclusive c`** — the permit and the count of the scale are in order, and whoever is about to
note the number of holders notes a single one. -/
structure Exclusive (c : Crowd Scale User) : Prop where
  kept : turnstile.Kept 1 c
  noted : ∀ (i : Nat) (panics : Bool) (holders : Nat),
    c.callers[i]? = some (.acquiring panics (.noting holders)) → holders = 1
  peak : c.shared.peak ≤ 1

section Exclusive

variable {c c' : Crowd Scale User}

/-- The permit is in one hand at most. -/
theorem Exclusive.held_le (h : Exclusive c) : tally turnstile.held c.callers ≤ 1 := by
  have hbalance := h.kept.permits.balance
  omega

/-- There is one holder at most. -/
theorem Exclusive.holders_le (h : Exclusive c) : c.shared.holders ≤ 1 := by
  have hcount : c.shared.holders = tally User.counted c.callers := h.kept.count
  rw [hcount]
  exact Nat.le_trans (tally_le_tally User.counted_le_held _) h.held_le

/-- Whoever has the permit and is not counted yet finds nobody counted. -/
theorem Exclusive.nobody_counted (h : Exclusive c) {i : Nat} {u : User}
    (hi : c.callers[i]? = some u) (hheld : turnstile.held u = 1) (hcounted : u.counted = 0) :
    c.shared.holders = 0 := by
  have hcount : c.shared.holders = tally User.counted c.callers := h.kept.count
  have hothers := h.held_le
  rw [tally_eq_add hi, hheld] at hothers
  rw [hcount, tally_eq_add hi, hcounted]
  have hle := tally_le_tally User.counted_le_held (c.callers.eraseIdx i)
  omega

/-- **A step** of a user: what is noted after it is one holder, and so is the peak. -/
theorem Exclusive.step (h : Exclusive c) {i : Nat} {u u' : User} {s' : Scale}
    (hi : c.callers[i]? = some u) (hstep : u.Steps c.shared u' s') :
    (∀ panics holders, u' = .acquiring panics (.noting holders) → holders = 1) ∧ s'.peak ≤ 1 := by
  have hpeak := h.peak
  cases hstep with
  | @acquires panics pos progress s' hacq =>
      cases hacq with
      | raises =>
          have hzero := h.nobody_counted hi rfl rfl
          refine ⟨fun panics' holders heq => ?_, hpeak⟩
          injection heq with _ hpos
          injection hpos with hholders
          omega
      | @notes holders =>
          have hone := h.noted i panics holders hi
          refine ⟨fun panics' holders' heq => ?_, Nat.max_le.2 ⟨hpeak, Nat.le_of_eq hone⟩⟩
          cases panics <;> cases heq
      | _ => exact ⟨nofun, hpeak⟩
  | uncounts => exact ⟨nofun, hpeak⟩
  | @releases unwound => cases unwound <;> exact ⟨nofun, hpeak⟩

/-- **Every move** keeps the scale exclusive. -/
theorem Exclusive.move {m : Custom.Move User} (h : Exclusive c) (hmove : custom.move? c m = some c')
    (hjoin : ∀ u, m = .join u → u.Begins) : Exclusive c' := by
  have hkept := h.kept.move hmove fun u hu => User.fresh_of_begins (hjoin u hu)
  cases Custom.moves_of_move? hmove with
  | @steps i u u' s' hi hstep =>
      obtain ⟨hnoted, hpeak⟩ := h.step hi (User.steps_of_step? hstep)
      refine ⟨hkept, fun j panics holders hj => ?_, hpeak⟩
      rcases getElem?_set_cases hj with ⟨-, heq⟩ | ⟨-, hj'⟩
      · exact hnoted panics holders heq.symm
      · exact h.noted j panics holders hj'
  | @turns i u hi =>
      refine ⟨hkept, fun j panics holders hj => ?_, h.peak⟩
      rcases getElem?_set_cases hj with ⟨-, heq⟩ | ⟨-, hj'⟩
      · -- whoever is noting does not turn round
        cases u with
        | acquiring panics' pos =>
            exact h.noted i panics holders (hi.trans (congrArg some heq.symm))
        | _ => cases heq
      · exact h.noted j panics holders hj'
  | closes => exact ⟨hkept, h.noted, h.peak⟩
  | @comes u =>
      refine ⟨hkept, fun j panics holders hj => ?_, h.peak⟩
      rcases getElem?_concat_cases hj with hj' | ⟨-, rfl⟩
      · exact h.noted j panics holders hj'
      · exact (hjoin _ rfl).elim

theorem exclusive_of_runs {past : List (Happening (Crowd Scale User) (Custom.Move User))}
    (hruns : Runs custom.move? (.ofShared .fresh) past c)
    (hbegin : ∀ x ∈ past, ∀ u, x.move = .join u → u.Begins) : Exclusive c := by
  induction hruns with
  | start =>
      refine ⟨⟨Semaphore.conserved_bounded (Nat.le_refl 1), rfl⟩, fun i panics holders hi => ?_,
        Nat.zero_le 1⟩
      simp [Crowd.ofShared] at hi
  | more hruns hmove ih =>
      have hexclusive := ih fun x hx => hbegin x (List.mem_append_left _ hx)
      exact hexclusive.move hmove (hbegin _ List.mem_concat_self)

/-- **One holder at a time.** Take any number of users of a scale, each of which may panic once it
has the scale, and any interleaving of their steps in which the scale may be closed at any moment.
The permit of the scale is free or in the hand of exactly one user, so that at most one user has the
scale; the users that the scale counts are those that it should, and neither they nor the peak ever
exceed one. Whoever notes the number of holders on its way in notes one. Whoever is about to be
uncounted is counted, and whoever is about to give the permit back can give it back. And when
everybody has been refused, has gone or has panicked, the scale counts nobody and its permit is
free. -/
theorem one_holder_at_a_time {moves : List (Custom.Move User)}
    (hmoves : ∀ u, .join u ∈ moves → u.Begins) {c : Crowd Scale User}
    (hrun : custom.run? moves (.ofShared .fresh) = some c) :
    c.shared.permit.permits + tally (fun u => u.hand.permits) c.callers = 1 ∧
    tally User.hasScale c.callers ≤ 1 ∧
    c.shared.holders = tally User.counted c.callers ∧
    c.shared.holders ≤ 1 ∧
    c.shared.peak ≤ 1 ∧
    (∀ (i : Nat) (panics : Bool) (holders : Nat),
      c.callers[i]? = some (.acquiring panics (.noting holders)) → holders = 1) ∧
    (∀ (i : Nat) (unwound : Bool), c.callers[i]? = some (.dropping unwound .counted) →
      0 < c.shared.holders) ∧
    (∀ (i : Nat) (unwound : Bool), c.callers[i]? = some (.dropping unwound .releasing) →
      c.shared.permit.release = .ok { c.shared.permit with permits := 1 }) ∧
    ((∀ u ∈ c.callers, u.AtRest) → c.shared.holders = 0 ∧ c.shared.permit.permits = 1) := by
  have hexclusive : Exclusive c := by
    refine exclusive_of_runs (Custom.runs_course hrun) fun x hx u hu => hmoves u ?_
    rw [← hu]
    exact move_mem_of_course hx
  have hkept := hexclusive.kept
  have hbalance := hkept.permits.balance
  refine ⟨hbalance, ?_, hkept.count, hexclusive.holders_le, hexclusive.peak, hexclusive.noted,
    fun i unwound hi => ?_, fun i unwound hi => ?_, fun hrest => ?_⟩
  · exact Nat.le_trans (tally_le_tally User.hasScale_le_held _) hexclusive.held_le
  · exact hkept.counted_le hi
  · have hheld : 1 ≤ tally turnstile.held c.callers := le_tally (f := turnstile.held) hi
    have hnone : c.shared.permit.permits = 0 := by
      have hone : c.shared.permit.permits + tally turnstile.held c.callers = 1 := hbalance
      omega
    have hrelease := hkept.release hi Nat.one_pos
    rw [show turnstile.permits c.shared = c.shared.permit from rfl, hnone] at hrelease
    exact hrelease
  · have hnothing : ∀ u ∈ c.callers, turnstile.Fresh u := by
      intro u hu
      match u, hrest u hu with
      | .refused _, _ => exact ⟨rfl, rfl⟩
      | .gone, _ => exact ⟨rfl, rfl⟩
      | .panicked, _ => exact ⟨rfl, rfl⟩
    exact ⟨hkept.uncounted fun u hu => (hnothing u hu).2,
      hkept.all_free fun u hu => (hnothing u hu).1⟩

/-- The first user panics with the scale while the second waits for it; the second gets it and keeps
it during a close, which turns the third away; then it gives the scale back. -/
theorem one_holder_at_a_time_contended :
    let moves : List (Custom.Move User) := [.join (.acquiring true .trying),
      .join (.acquiring false .trying), .step 0, .step 1, .step 1, .step 1, .step 0, .step 0,
      .step 0, .step 0, .step 1, .step 1, .step 1, .close, .join (.acquiring false .trying),
      .step 2, .step 2, .step 2, .turn 1, .step 1, .step 1]
    (∀ u, .join u ∈ moves → u.Begins) ∧
      ∃ c, custom.run? moves (.ofShared .fresh) = some c ∧
        c.callers = [.panicked, .gone, .refused .interrupted] ∧ c.shared.waits = 2 ∧
        c.shared.peak ≤ 1 ∧ c.shared.holders = 0 ∧ c.shared.permit.permits = 1 := by
  intro moves
  have hmoves : ∀ u, .join u ∈ moves → u.Begins := by
    simp [moves, User.Begins]
  obtain ⟨c, hrun, hcallers, hwaits⟩ : ∃ c, custom.run? moves (.ofShared .fresh) = some c ∧
      c.callers = [.panicked, .gone, .refused .interrupted] ∧ c.shared.waits = 2 :=
    ⟨_, rfl, rfl, rfl⟩
  obtain ⟨-, -, -, -, hpeak, -, -, -, hrest⟩ := one_holder_at_a_time hmoves hrun
  obtain ⟨hholders, hpermits⟩ := hrest (by simp [hcallers, User.AtRest])
  exact ⟨hmoves, c, hrun, hcallers, hwaits, hpeak, hholders, hpermits⟩

end Exclusive

end Postal.Scale

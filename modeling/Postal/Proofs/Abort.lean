import Postal.Proofs.Day
import Postal.Proofs.Shut

/-!
# A day on which people panic.

Whoever is unwound by a panic reports that like anything else. Until the driver takes the first
failure nobody has failed in any other way (`Day.Sound`), so what it takes is the panic of somebody
who was really unwound. It keeps to that fault and closes the office, whatever the close makes
others report (`Day.Lost`). A close frees everybody, so the day ends and everybody reports
(`Day.first_panic_is_the_cause`).

## §1 — before the first failure.
## §2 — after it.
## §3 — any course of a day.
## §4 — somebody can move.
## §5 — the first panic.
-/

namespace Postal

/-! ## §1 — before the first failure -/

namespace Floor

variable {workers : Nat} {f f' : Floor}

/-- **Every move** keeps the desks, and keeps the office sound. -/
theorem Sound.kept_move (h : f.Sound) (hkept : ∃ ledgers, f.Kept workers ledgers)
    (hword : workers ≤ wordMax) {m : Move} (hmove : f.move? m = some f')
    (hjoin : ∀ p, m = .join p → (∃ c, p = .arrives c) ∨
      (∃ w, p = .starts w ∧ w < workers ∧ .worker w ∉ f.badges) ∨ p = .closes) :
    (∃ ledgers, f'.Kept workers ledgers) ∧ f'.Sound := by
  obtain ⟨ledgers, hkept⟩ := hkept
  refine ⟨hkept.move hmove hjoin, h.move hkept hword hmove fun p hp => ?_⟩
  rcases hjoin p hp with hc | ⟨w, hw, -⟩ | hk
  · exact .inl hc
  · exact .inr (.inl ⟨w, hw⟩)
  · exact .inr (.inr hk)

/-- **Whatever the driver does** on the floor keeps the desks, and keeps the office sound. -/
theorem Sound.tended (h : f.Sound) (hkept : ∃ ledgers, f.Kept workers ledgers)
    (hword : workers ≤ wordMax) (htended : f.Tended workers f') :
    (∃ ledgers, f'.Kept workers ledgers) ∧ f'.Sound := by
  cases htended with
  | leftAlone => exact ⟨hkept, h⟩
  | hires hw hnew =>
      apply h.kept_move hkept hword (m := .join (.starts _)) rfl
      intro p hp
      exact .inr (.inl ⟨_, (Move.join.inj hp).symm, hw, hnew⟩)
  | welcomes c =>
      apply h.kept_move hkept hword (m := .join (.arrives c)) rfl
      intro p hp
      exact .inl ⟨c, (Move.join.inj hp).symm⟩
  | announces c =>
      obtain ⟨ledgers, hkept⟩ := hkept
      refine ⟨⟨ledgers, hkept.premises rfl rfl fun w _ => ?_⟩, ?_⟩
      · exact Premises.view_record_of_none rfl w
      · exact ⟨⟨h.promised.ceiling, h.promised.whole⟩, h.guarded, h.people⟩
  | fires =>
      apply h.kept_move hkept hword (m := .fire) rfl
      intro p hp
      cases hp

/-- The driver hurts nobody. -/
theorem Tended.hurt_iff (h : f.Tended workers f') (i : Nat) : f'.Hurt i ↔ f.Hurt i := by
  have joins : ∀ {p : Person}, p.Unhurt → ((f.join p).Hurt i ↔ f.Hurt i) := by
    intro p hp
    have hiff := hurt_move (f := f) (m := .join p) (i := i) rfl
      fun q hq => (Move.join.inj hq) ▸ hp
    rw [hiff]
    exact ⟨fun h => h.resolve_right nofun, .inl⟩
  cases h with
  | hires hw hnew => exact joins trivial
  | welcomes c => exact joins trivial
  | _ => exact Iff.rfl

/-- Whoever is hurt has ended, or goes on to its end. -/
theorem Hurt.ends {i : Nat} (h : f.Hurt i) :
    (∃ p e, f.people[i]? = some p ∧ p.Panicked e) ∨ (f.step? i).isSome = true := by
  obtain ⟨p, hi, hhurt⟩ := h
  cases p with
  | closer k => exact absurd trivial hhurt
  | customer c v =>
      cases v with
      | leaving pos ending => exact .inr (step?_isSome hi rfl)
      | ended ending =>
          cases ending with
          | panicked => exact .inl ⟨_, _, hi, .customer c⟩
          | _ => exact absurd trivial hhurt
      | _ => exact absurd trivial hhurt
  | worker w k =>
      cases k with
      | unwinding pos => exact .inr (step?_isSome hi rfl)
      | ended ending =>
          cases ending with
          | panicked => exact .inl ⟨_, _, hi, .worker w⟩
          | _ => exact absurd trivial hhurt
      | _ => exact absurd trivial hhurt

end Floor

/-- What somebody reports who has panicked. -/
theorem Person.Panicked.outcome?_eq {p : Person} {e : Fault} (h : p.Panicked e) :
    p.outcome? = some (.failed e) := by
  cases h <;> rfl

/-- How far a driver that gives the day up has closed the office, and the fault because of which it
does. -/
def Driver.givesUp? : Driver → Option (Closing × Fault)
  | .aborting position e => some (position, e)
  | .givingUp e => some (.ended, e)
  | .ended (.failed e) => some (.ended, e)
  | _ => none

namespace Day

/-- **`d.Sound workers customers`** — a day whose driver has taken no failure, in an office in which
nobody has failed but by a panic. -/
structure Sound (workers : Nat) (customers : List Customer) (d : Day) : Prop
    extends Going workers customers d where
  kept : ∃ ledgers, d.floor.Kept workers ledgers
  sound : d.floor.Sound

section Sound

variable {workers : Nat} {customers : List Customer} {d d' : Day}

/-- **A failure that is reported** on such a day is a panic. -/
theorem Sound.panicked (h : d.Sound workers customers) {i : Nat} {e : Fault}
    (ho : d.floor.outcome? i = some (.failed e)) :
    ∃ p, d.floor.people[i]? = some p ∧ p.Panicked e := by
  obtain ⟨p, hi, hfailed⟩ := Floor.outcome?_eq_some.1 ho
  have hsound := Floor.sound_mono (h.sound.people i p hi) (Floor.not_begun h.unclosed)
  exact ⟨p, hi, hsound.panicked hfailed⟩

/-- A driver that has taken no failure gives nothing up. -/
theorem Sound.givesUp?_eq (h : d.Sound workers customers) : d.driver.givesUp? = none := by
  cases hdriver : d.driver with
  | ended ending =>
      cases ending with
      | failed e => exact (h.stands_at hdriver).elim
      | _ => rfl
  | aborting k e => exact (h.stands_at hdriver).elim
  | givingUp e => exact (h.stands_at hdriver).elim
  | _ => rfl

/-- **People move** on a sound day. -/
theorem Sound.goes (h : d.Sound workers customers) (hword : workers ≤ wordMax) {m : Move}
    {a : Floor.Move} {floor' : Floor} (hm : Move.ofFloor? a = some m)
    (hmove : d.floor.move? a = some floor') :
    ({ d with floor := floor' } : Day).Sound workers customers := by
  obtain ⟨-, -, hjoin⟩ := plain_of_ofFloor? hm
  obtain ⟨hkept, hsound⟩ := h.sound.kept_move h.kept hword hmove
    fun p hp => absurd hp (hjoin p)
  exact ⟨h.toGoing.goes hm hmove, hkept, hsound⟩

/-- **The driver** of a sound day goes on. -/
theorem Sound.drive (h : d.Sound workers customers) (hword : workers ≤ wordMax)
    (hdrives : d.Drives workers customers d') : d'.Sound workers customers := by
  obtain ⟨hkept, hsound⟩ := h.sound.tended h.kept hword (h.tends hdrives)
  exact ⟨h.toGoing.drive hdrives, hkept, hsound⟩

/-- **Somebody reports** on a sound day. -/
theorem Sound.post (h : d.Sound workers customers) {i : Nat} (hpost : d.post? i = some d') :
    d'.Sound workers customers := by
  refine ⟨h.toGoing.post hpost, ?_, ?_⟩
  · obtain ⟨p, hp, hsome, hnew, rfl⟩ := post?_eq_some hpost
    exact h.kept
  · obtain ⟨p, hp, hsome, hnew, rfl⟩ := post?_eq_some hpost
    exact h.sound

end Sound

/-! ## §2 — after it -/

/-- **`d.GivesUp d'`** — everything that the next step of a driver can do that gives the day up. -/
inductive GivesUp (d : Day) : Day → Prop
  | closes {k k' : Closing} {e : Fault} {premises' : Premises} (hdriver : d.driver = .aborting k e)
      (h : k.Steps d.floor.premises k' premises') :
      GivesUp d
        { d with floor := { d.floor with premises := premises' }, driver := .aborting k' e }
  | closed {e : Fault} (hdriver : d.driver = .aborting .ended e) :
      GivesUp d { d with driver := .givingUp e }
  | fires {e : Fault} (hdriver : d.driver = .givingUp e) :
      GivesUp d { d with floor := d.floor.fire, driver := .ended (.failed e) }

/-- **`d.Fell e`** — the first failure among the reports is `e`, the panic of somebody. -/
def Fell (d : Day) (e : Fault) : Prop :=
  ∃ n i p, d.posted[n]? = some i ∧ d.floor.people[i]? = some p ∧ p.Panicked e ∧
    ∀ j ∈ d.posted.take n, ∀ e', d.floor.outcome? j ≠ some (.failed e')

/-- **`d.Lost workers customers e`** — a day that the driver gives up because of `e`: everybody has
come, the first failure that was reported is `e`, and every door is shut that the close has
passed. -/
structure Lost (workers : Nat) (customers : List Customer) (e : Fault) (d : Day) : Prop
    extends Staffed workers customers d where
  kept : ∃ ledgers, d.floor.Kept workers ledgers
  promised : d.floor.Promised
  everybody : d.floor.people.length = workers + customers.length
  cause : d.Fell e
  closing : ∃ k, d.driver.givesUp? = some (k, e) ∧ k.Shuts d.floor.premises

section Lost

variable {workers : Nat} {customers : List Customer} {d d' : Day} {e : Fault}

/-- What was reported first stays so, whatever else people do and report. -/
theorem Fell.settles (h : d.Fell e) (hstaffed : d.Staffed workers customers)
    (hposted : d.posted <+: d'.posted)
    (hover : ∀ (i : Nat) (p : Person), d.floor.people[i]? = some p → p.outcome?.isSome = true →
      d'.floor.people[i]? = some p) : d'.Fell e := by
  obtain ⟨n, i, p, hn, hi, hp, hfirst⟩ := h
  have hlt := (List.getElem?_eq_some_iff.1 hn).1
  obtain ⟨later, hlater⟩ := hposted
  refine ⟨n, i, p, ?_, hover i p hi (by rw [hp.outcome?_eq]; rfl), hp, fun j hj e' => ?_⟩
  · rw [← hlater, List.getElem?_append_left hlt]
    exact hn
  · rw [← hlater, List.take_append_of_le_length (Nat.le_of_lt hlt)] at hj
    rw [hstaffed.outcome?_eq hover (List.mem_of_mem_take hj)]
    exact hfirst j hj e'

/-- **The day is lost** when the driver of a sound day takes a failure. -/
theorem Sound.fails (h : d.Sound workers customers) (hfails : d.Fails e d') :
    d'.Lost workers customers e := by
  obtain ⟨hdriver, hi, hfailed⟩ := hfails
  obtain ⟨p, hp, hpanicked⟩ := h.panicked hfailed
  have heverybody : d.floor.people.length = workers + customers.length := by
    rcases hdriver with hdriver | hdriver
    · exact (h.stands_at hdriver).1
    · exact (h.stands_at hdriver).1
  exact {
    h.toStaffed.takes hi with
    kept := h.kept
    promised := h.sound.promised
    everybody := heverybody
    cause := ⟨_, _, p, hi, hp, hpanicked, h.clean⟩
    closing := ⟨.gate, rfl, fun _ hdoor => hdoor.elim⟩ }

/-- **People move** on a lost day. -/
theorem Lost.goes (h : d.Lost workers customers e) {m : Move} {a : Floor.Move} {floor' : Floor}
    (hm : Move.ofFloor? a = some m) (hmove : d.floor.move? a = some floor') :
    ({ d with floor := floor' } : Day).Lost workers customers e := by
  obtain ⟨hnobody, -, hjoin⟩ := plain_of_ofFloor? hm
  have hbadges := Floor.badges_move hmove
  rw [hnobody, Option.toList_none, List.append_nil] at hbadges
  have hover : ∀ (i : Nat) (p : Person), d.floor.people[i]? = some p → p.outcome?.isSome = true →
      floor'.people[i]? = some p := fun i p hi ho => Floor.outcome_stays hmove hi ho
  obtain ⟨ledgers, hkept⟩ := h.kept
  obtain ⟨k, hgives, hshuts⟩ := h.closing
  exact {
    h.toStaffed.moves hbadges hover with
    kept := hkept.move hmove fun p hp => absurd hp (hjoin p)
    promised := h.promised.move hmove fun p hp => absurd hp (hjoin p)
    everybody := (Floor.length_of_badges hbadges).trans h.everybody
    cause := h.cause.settles h.toStaffed (List.prefix_refl _) hover
    closing := ⟨k, hgives, fun door hdoor => Floor.isShut_move hmove (hshuts door hdoor)⟩ }

/-- **Somebody reports** on a lost day. -/
theorem Lost.post (h : d.Lost workers customers e) {i : Nat} (hpost : d.post? i = some d') :
    d'.Lost workers customers e := by
  obtain ⟨p, hp, hsome, hnew, rfl⟩ := post?_eq_some hpost
  exact {
    h.toStaffed.post hp hsome hnew with
    kept := h.kept
    promised := h.promised
    everybody := h.everybody
    cause := h.cause.settles h.toStaffed (List.prefix_append _ _) fun _ _ hi _ => hi
    closing := h.closing }

/-- What the driver of a lost day can do. -/
theorem Lost.givesUp (h : d.Lost workers customers e) (hdrive : d.drive? = some d') :
    d.GivesUp d' := by
  obtain ⟨k, hgives, -⟩ := h.closing
  cases hdriver : d.driver with
  | aborting position e' =>
      simp only [drive?, hdriver] at hdrive
      split at hdrive
      · next position' premises' hstep =>
        obtain rfl := Option.some.inj hdrive
        exact .closes hdriver (Closing.steps_of_step? hstep)
      · next hnone =>
        obtain rfl := Option.some.inj hdrive
        obtain rfl := Closing.ended_of_step? hnone
        exact .closed hdriver
  | givingUp e' =>
      simp only [drive?, hdriver, Option.some.injEq] at hdrive
      subst hdrive
      exact .fires hdriver
  | ended ending =>
      simp only [drive?, hdriver] at hdrive
      cases hdrive
  | _ =>
      rw [hdriver] at hgives
      cases hgives

/-- **The driver** of a lost day keeps to its fault. -/
theorem Lost.drive (h : d.Lost workers customers e) (hgivesUp : d.GivesUp d') :
    d'.Lost workers customers e := by
  obtain ⟨ledgers, hkept⟩ := h.kept
  obtain ⟨k, hgives, hshuts⟩ := h.closing
  cases hgivesUp with
  | @closes position position' e' premises' hdriver hclose =>
      obtain ⟨hslots, hpool, hviews⟩ := Floor.alike_of_closing hclose
      rw [hdriver] at hgives
      obtain ⟨rfl, rfl⟩ := Prod.mk.inj (Option.some.inj hgives)
      exact {
        h.toStaffed.moves rfl fun _ _ hi _ => hi with
        kept := ⟨ledgers, hkept.premises hslots hpool fun w _ => hviews w⟩
        promised := h.promised.closing hclose
        everybody := h.everybody
        cause := h.cause.settles h.toStaffed (List.prefix_refl _) fun _ _ hi _ => hi
        closing := ⟨position', rfl, hclose.shuts hshuts⟩ }
  | closed hdriver =>
      rw [hdriver] at hgives
      obtain ⟨rfl, rfl⟩ := Prod.mk.inj (Option.some.inj hgives)
      exact { h with
        cause := h.cause
        closing := ⟨.ended, rfl, hshuts⟩ }
  | fires hdriver =>
      rw [hdriver] at hgives
      obtain ⟨rfl, rfl⟩ := Prod.mk.inj (Option.some.inj hgives)
      exact {
        h.toStaffed.moves rfl fun _ _ hi _ => hi with
        kept := ⟨ledgers, hkept.premises rfl rfl fun _ _ => rfl⟩
        promised := ⟨h.promised.ceiling, h.promised.whole⟩
        everybody := h.everybody
        cause := h.cause.settles h.toStaffed (List.prefix_refl _) fun _ _ hi _ => hi
        closing := ⟨.ended, rfl, fun door hdoor => Floor.isShut_move (m := .fire) rfl
          (hshuts door hdoor)⟩ }

/-- **A driver that gives the day up** leaves less to do. -/
theorem Lost.drive_left (h : d.Lost workers customers e) (hgivesUp : d.GivesUp d') :
    d'.left < d.left := by
  obtain ⟨ledgers, hkept⟩ := h.kept
  cases hgivesUp with
  | closes hdriver hclose =>
      have hless := hclose.left_lt (hkept.pool.trans h.crew.symm) (hkept.slots.trans h.crew.symm)
      simp only [left, staffing, hdriver, Driver.left, Floor.left]
      omega
  | closed hdriver =>
      simp only [left, staffing, hdriver, Driver.left]
      omega
  | fires hdriver =>
      simp only [left, staffing, hdriver, Driver.left, Floor.left, Floor.fire]
      omega

end Lost

/-! ## §3 — any course of a day -/

/-- **`d.Steady workers customers`** — the invariant of a day on which people panic: it is sound, or
lost because of some fault. -/
def Steady (workers : Nat) (customers : List Customer) (d : Day) : Prop :=
  d.Sound workers customers ∨ ∃ e, d.Lost workers customers e

section Steady

variable {workers : Nat} {customers : List Customer} {d d' : Day} {m : Move}

/-- What the driver of a steady day can do. -/
theorem Steady.drives (h : d.Steady workers customers) (hdrive : d.drive? = some d') :
    (d.Sound workers customers ∧ d.Drives workers customers d') ∨
      (∃ e, d.Sound workers customers ∧ d.Fails e d') ∨
      ∃ e, d.Lost workers customers e ∧ d.GivesUp d' := by
  rcases h with hsound | ⟨e, hlost⟩
  · rcases hsound.toGoing.drives hdrive with hdrives | ⟨e, hfails⟩
    · exact .inl ⟨hsound, hdrives⟩
    · exact .inr (.inl ⟨e, hsound, hfails⟩)
  · exact .inr (.inr ⟨e, hlost, hlost.givesUp hdrive⟩)

/-- **Every move** but a panic of the driver keeps the day steady. -/
theorem Steady.move (h : d.Steady workers customers) (hword : workers ≤ wordMax)
    (hm : m ≠ .unwindDriver) (hmove : d.move? m = some d') : d'.Steady workers customers := by
  cases moves_of_move? hmove with
  | goes hofFloor hgoes =>
      rcases h with hsound | ⟨e, hlost⟩
      · exact .inl (hsound.goes hword hofFloor hgoes)
      · exact .inr ⟨e, hlost.goes hofFloor hgoes⟩
  | posts hpost =>
      rcases h with hsound | ⟨e, hlost⟩
      · exact .inl (hsound.post hpost)
      · exact .inr ⟨e, hlost.post hpost⟩
  | drives hdrive =>
      rcases h.drives hdrive with ⟨hsound, hdrives⟩ | ⟨e, hsound, hfails⟩ | ⟨e, hlost, hgivesUp⟩
      · exact .inl (hsound.drive hword hdrives)
      · exact .inr ⟨e, hsound.fails hfails⟩
      · exact .inr ⟨e, hlost.drive hgivesUp⟩
  | panics hunwind => exact absurd rfl hm

/-- **Every move** but a panic of the driver leaves less to do. -/
theorem Steady.left_lt (h : d.Steady workers customers) (hm : m ≠ .unwindDriver)
    (hmove : d.move? m = some d') : d'.left < d.left := by
  by_cases hdrive : m = .drive
  · subst hdrive
    rcases h.drives hmove with ⟨hsound, hdrives⟩ | ⟨e, hsound, hfails⟩ | ⟨e, hlost, hgivesUp⟩
    · exact hsound.drive_left hdrives
    · exact hfails.left_lt hsound.toStaffed
    · exact hlost.drive_left hgivesUp
  · rcases h with hsound | ⟨e, hlost⟩
    · obtain ⟨ledgers, hkept⟩ := hsound.kept
      exact hsound.toStaffed.left_lt hkept.pool hdrive hm hmove
    · obtain ⟨ledgers, hkept⟩ := hlost.kept
      exact hlost.toStaffed.left_lt hkept.pool hdrive hm hmove

/-- **Whoever is hurt** after a move was hurt before, or is unwound in it. -/
theorem Steady.hurt_iff (h : d.Steady workers customers) (hm : m ≠ .unwindDriver)
    (hmove : d.move? m = some d') (i : Nat) :
    d'.floor.Hurt i ↔ d.floor.Hurt i ∨ m = .unwind i := by
  have same : (d'.floor.Hurt i ↔ d.floor.Hurt i) → m ≠ .unwind i →
      (d'.floor.Hurt i ↔ d.floor.Hurt i ∨ m = .unwind i) := by
    intro hsame hother
    rw [hsame]
    exact ⟨.inl, fun h => h.resolve_right hother⟩
  cases moves_of_move? hmove with
  | @goes _ a floor' hofFloor hgoes =>
      obtain ⟨-, -, hjoin⟩ := plain_of_ofFloor? hofFloor
      show floor'.Hurt i ↔ _
      rw [Floor.hurt_move hgoes fun p hp => absurd hp (hjoin p)]
      have hsame : a = .unwind i ↔ m = .unwind i := by
        cases a <;> cases hofFloor <;> simp
      rw [hsame]
  | posts hpost =>
      obtain ⟨p, hp, hsome, hnew, rfl⟩ := post?_eq_some hpost
      exact same Iff.rfl nofun
  | drives hdrive =>
      refine same ?_ nofun
      rcases h.drives hdrive with ⟨hsound, hdrives⟩ | ⟨e, hsound, hfails⟩ | ⟨e, hlost, hgivesUp⟩
      · exact (hsound.tends hdrives).hurt_iff i
      · cases hfails
        exact Iff.rfl
      · cases hgivesUp <;> exact Iff.rfl
  | panics hunwind => exact absurd rfl hm

/-- **A run** without a panic of the driver keeps the day steady and uses up what is left to do; and
hurt are those who are unwound in it. -/
theorem Steady.run (hword : workers ≤ wordMax) {ms : List Move} (hms : .unwindDriver ∉ ms)
    (h : d.Steady workers customers) (hrun : run? ms d = some d') :
    d'.Steady workers customers ∧ ms.length + d'.left ≤ d.left ∧
      ∀ i, d'.floor.Hurt i ↔ d.floor.Hurt i ∨ .unwind i ∈ ms := by
  -- the motive: what the moves so far have taken away, and whom they have hurt or are to unwind
  have hend := run_induction (motive := fun rest g => .unwindDriver ∉ rest ∧
    g.Steady workers customers ∧ ms.length + g.left ≤ rest.length + d.left ∧
    ∀ i, (g.floor.Hurt i ∨ .unwind i ∈ rest) ↔ (d.floor.Hurt i ∨ .unwind i ∈ ms))
    (fun {m rest g g'} hg hmove => ?_) ⟨hms, h, Nat.le_refl _, fun i => Iff.rfl⟩ hrun
  · obtain ⟨-, hsteady, hsum, hhurt⟩ := hend
    rw [List.length_nil, Nat.zero_add] at hsum
    refine ⟨hsteady, hsum, fun i => ?_⟩
    rw [← hhurt i]
    simp
  · obtain ⟨hdriver, hsteady, hsum, hhurt⟩ := hg
    rw [List.mem_cons, not_or] at hdriver
    obtain ⟨hm, hrest⟩ := hdriver
    have hless := hsteady.left_lt (Ne.symm hm) hmove
    rw [List.length_cons] at hsum
    refine ⟨hrest, hsteady.move hword (Ne.symm hm) hmove, by omega, fun i => ?_⟩
    rw [← hhurt i, hsteady.hurt_iff (Ne.symm hm) hmove, List.mem_cons, or_assoc,
      @eq_comm _ m (.unwind i)]

end Steady

/-! ## §4 — somebody can move -/

section Progress

variable {workers : Nat} {customers : List Customer} {d : Day}

/-- **Whoever reported** what the driver has taken is not hurt. -/
theorem Going.unhurt (h : d.Going workers customers) {i : Nat} (hi : i ∈ d.posted.take d.taken) :
    ¬ d.floor.Hurt i := by
  rintro ⟨p, hp, hhurt⟩
  rcases h.taken_outcome hi with ⟨-, r, hr⟩ | ⟨-, c, v, hv⟩
  · obtain rfl := Option.some.inj (hp.symm.trans hr)
    exact hhurt trivial
  · obtain rfl := Option.some.inj (hp.symm.trans hv)
    exact hhurt trivial

/-- Where nobody who has come can report any more, all of them who have ended have reported. -/
theorem moves_or_posted {i : Nat} {p : Person} (hi : d.floor.people[i]? = some p)
    (ho : p.outcome?.isSome = true) :
    i ∈ d.posted ∨ (d.move? (.post i)).isSome = true := by
  cases hpost : (d.post? i).isSome with
  | true => exact .inr hpost
  | false => exact .inl (posted_of_post? hpost hi ho)

/-- **Whoever is hurt** keeps a sound day going: it goes on to its end, or it reports, or the driver
takes what it has reported. -/
theorem Sound.moves_of_hurt (h : d.Sound workers customers) {i : Nat} (hhurt : d.floor.Hurt i)
    (hopen : d.ending? = none) : ∃ m : Move, ¬ m.IsPanic ∧ (d.move? m).isSome = true := by
  rcases hhurt.ends with ⟨p, e, hi, hp⟩ | hstep
  · rcases moves_or_posted hi (by rw [hp.outcome?_eq]; rfl) with hposted | hpost
    · rcases h.drives_or_waits hopen with hdrive | ⟨htaken, -⟩
      · exact ⟨.drive, id, hdrive⟩
      · -- everything is taken, so the driver has taken this failure
        rw [← List.take_length (l := d.posted), ← htaken] at hposted
        exact absurd hhurt (h.unhurt hposted)
    · exact ⟨.post i, id, hpost⟩
  · exact ⟨.step i, id, by rwa [move?, Option.isSome_map]⟩

/-- **A lost day goes on** until the driver has ended and everybody has reported. -/
theorem Lost.moves {e : Fault} (h : d.Lost workers customers e) :
    (∃ m : Move, ¬ m.IsPanic ∧ (d.move? m).isSome = true) ∨
      d.ending? = some (.failed e) ∧ ∀ i, i < d.floor.people.length → i ∈ d.posted := by
  obtain ⟨k, hgives, hshuts⟩ := h.closing
  cases hdriver : d.driver with
  | aborting position e' =>
      refine .inl ⟨.drive, id, ?_⟩
      simp only [move?, drive?, hdriver]
      split <;> rfl
  | givingUp e' =>
      exact .inl ⟨.drive, id, by simp only [move?, drive?, hdriver, Option.isSome_some]⟩
  | ended ending =>
      rw [hdriver] at hgives
      cases ending with
      | failed e' =>
          obtain ⟨rfl, rfl⟩ := Prod.mk.inj (Option.some.inj hgives)
          by_contra hstuck
          obtain ⟨hnone, hleft⟩ := not_or.1 hstuck
          refine hleft ⟨by rw [ending?, hdriver], fun i hlt => ?_⟩
          -- all doors are shut, so nobody waits
          obtain ⟨ledgers, hkept⟩ := h.kept
          have hi : d.floor.people[i]? = some d.floor.people[i] := List.getElem?_eq_getElem hlt
          have hshut : d.floor.premises.IsShut := fun door => hshuts door trivial
          rcases hkept.step_of_shut h.promised hshut hi with hend | hstep
          · have hbadge : d.floor.people[i].badge ≠ .closer := fun hcloser =>
              h.unclosed (hcloser ▸ List.mem_of_getElem? (Floor.badge_of_getElem? hi))
            rcases moves_or_posted hi (Person.outcome?_of_hasEnded hend hbadge) with hposted | hpost
            · exact hposted
            · exact absurd ⟨.post i, id, hpost⟩ hnone
          · exact absurd ⟨.step i, id, by rwa [move?, Option.isSome_map]⟩ hnone
      | returned r => cases hgives
      | panicked => cases hgives
  | _ =>
      rw [hdriver] at hgives
      cases hgives

end Progress

/-! ## §5 — the first panic -/

/-- An orderly day is steady, and nobody is hurt. -/
theorem Orderly.steady {workers room : Nat} {customers : List Customer} {d : Day}
    (h : d.Orderly workers room customers) :
    d.Steady workers customers ∧ ∀ i, ¬ d.floor.Hurt i := by
  refine ⟨.inl ⟨h.toGoing, h.calm.kept, h.calm.sound⟩, ?_⟩
  rintro i ⟨p, hi, hhurt⟩
  exact hhurt (h.calm.well i p hi).unhurt

/-- **A driver that returns its report** has taken no failure, and nobody is hurt. -/
theorem Steady.returned {workers : Nat} {customers : List Customer} {d : Day} {r : Report}
    (h : d.Steady workers customers) (hended : d.ending? = some (.returned r)) :
    ∀ i, ¬ d.floor.Hurt i := by
  rcases h with hsound | ⟨e, hlost⟩
  · obtain ⟨-, -, htaken⟩ := hsound.toGoing.ends hended
    intro i hhurt
    have hlt : i < d.floor.people.length := by
      obtain ⟨p, hp, -⟩ := hhurt
      exact (List.getElem?_eq_some_iff.1 hp).1
    exact hsound.unhurt (htaken i hlt) hhurt
  · obtain ⟨k, hgives, -⟩ := hlost.closing
    rw [driver_of_ending? hended] at hgives
    cases hgives

/-- **A day that ends with a report** has seen no panic. -/
theorem no_panic_of_returned {plan : Plan} {chance clock : Nat} {runId : RunId} {d₀ d : Day}
    {ms : List Move} {r : Report} (hword : plan.config.workerCount ≤ wordMax)
    (hopening : opening plan chance runId clock = .ok d₀) (hrun : run? ms d₀ = some d)
    (hended : d.ending? = some (.returned r)) : ∀ m ∈ ms, ¬ m.IsPanic := by
  have hms := not_unwound hrun hended
  obtain ⟨hsteady, -⟩ := (orderly_opening hopening).steady
  obtain ⟨hend, -, hhurt⟩ := hsteady.run hword hms hrun
  exact no_panic hms fun i hi => hend.returned hended i ((hhurt i).2 (.inr hi))

/-- **A steady day goes on** until the driver has ended and everybody has come and has reported.
Where nobody is hurt the day is orderly. -/
theorem Steady.moves {workers room : Nat} {customers : List Customer} {d : Day}
    (h : d.Steady workers customers) (hworkers : 0 < workers) (hroom : 0 < room)
    (horderly : (∀ i, ¬ d.floor.Hurt i) → d.Orderly workers room customers) :
    (∃ m : Move, ¬ m.IsPanic ∧ (d.move? m).isSome = true) ∨
      d.ending?.isSome = true ∧ d.floor.people.length = workers + customers.length ∧
        ∀ i, i < d.floor.people.length → i ∈ d.posted := by
  rcases h with hsound | ⟨e, hlost⟩
  · cases hended : d.ending? with
    | none =>
        left
        by_cases hhurt : ∃ i, d.floor.Hurt i
        · obtain ⟨i, hhurt⟩ := hhurt
          exact hsound.moves_of_hurt hhurt hended
        · exact (horderly (not_exists.1 hhurt)).can_move hworkers hroom hended
    | some ending =>
        obtain ⟨-, hpeople, htaken⟩ := hsound.toGoing.ends hended
        exact .inr ⟨rfl, hpeople, fun i hi => List.mem_of_mem_take (htaken i hi)⟩
  · rcases hlost.moves with hmoves | ⟨hended, hposted⟩
    · exact .inl hmoves
    · exact .inr ⟨by rw [hended]; rfl, hlost.everybody, hposted⟩

/-- **The first panic ends the day, and is its cause.** Take any configuration with room for a
customer and with a worker, any list of tasks, and let the announcements of customers and workers
end in panics wherever they may, but never one of the driver. The day begins, and then in every
interleaving the following holds after any run. The run is shorter than `lengthBound`, and until the
driver has ended and everybody has come and has reported, there is a move that can follow without
another panic. Nobody has reported twice, and only people who have something to report have. A
driver that gives the day up does so because of the first failure in the order of the reports: that
is the panic of somebody who was unwound in the run, so it is never an interruption, and neither
that all threads ended in silence nor that a visit came too late. A driver that has ended has
returned its report or failed, and it has returned its report if and only if nobody was unwound. -/
theorem first_panic_is_the_cause (plan : Plan) (chance : Nat) (runId : RunId) (clock : Nat)
    (hcapacity : 0 < plan.config.capacity) (hworkers : 0 < plan.config.workerCount)
    (hword : plan.config.workerCount ≤ wordMax) :
    ∃ d₀, opening plan chance runId clock = .ok d₀ ∧
      ∀ (ms : List Move) (d : Day), .unwindDriver ∉ ms → run? ms d₀ = some d →
        ms.length < lengthBound plan.config.workerCount (plan.customers chance).length ∧
        ((∃ m : Move, ¬ m.IsPanic ∧ (d.move? m).isSome = true) ∨
          d.ending?.isSome = true ∧
          d.floor.people.length = plan.config.workerCount + (plan.customers chance).length ∧
          ∀ i, i < d.floor.people.length → i ∈ d.posted) ∧
        (d.posted.Nodup ∧ ∀ i ∈ d.posted, (d.floor.outcome? i).isSome = true) ∧
        (∀ k e, d.driver.givesUp? = some (k, e) →
          e ≠ .interrupted ∧ (∀ worker b, e ≠ .violation worker b) ∧
          ∃ (n i : Nat) (p : Person), d.posted[n]? = some i ∧ d.floor.people[i]? = some p ∧
            p.Panicked e ∧ .unwind i ∈ ms ∧
            ∀ j ∈ d.posted.take n, ∀ e', d.floor.outcome? j ≠ some (.failed e')) ∧
        ∀ ending, d.ending? = some ending →
          ((∃ r, ending = .returned r) ∨ ∃ e, ending = .failed e) ∧
          ((∃ r, ending = .returned r) ↔ ∀ i, .unwind i ∉ ms) := by
  obtain ⟨d₀, hd₀⟩ := exists_opening chance runId clock hcapacity hworkers
  refine ⟨d₀, hd₀, fun ms d hms hrun => ?_⟩
  have hopening := orderly_opening hd₀
  obtain ⟨hsteady, hnobody⟩ := hopening.steady
  obtain ⟨hend, hlength, hhurt⟩ := hsteady.run hword hms hrun
  -- hurt are those who were unwound in the run, so without a panic the day is orderly
  have hunwound : ∀ i, d.floor.Hurt i ↔ .unwind i ∈ ms := fun i =>
    (hhurt i).trans ⟨fun h => h.resolve_left (hnobody i), .inr⟩
  have horderly : (∀ i, ¬ d.floor.Hurt i) →
      d.Orderly plan.config.workerCount (min plan.config.capacity wordMax)
        (plan.customers chance) := by
    intro hnone
    have hcalm := no_panic hms fun i hi => hnone i ((hunwound i).2 hi)
    exact (hopening.run hword hcalm hrun).1
  have hroom : 0 < min plan.config.capacity wordMax :=
    Nat.lt_min.2 ⟨hcapacity, Nat.lt_of_lt_of_le hworkers hword⟩
  have hstaffed : d.Staffed plan.config.workerCount (plan.customers chance) := by
    rcases hend with hsound | ⟨e, hlost⟩
    · exact hsound.toStaffed
    · exact hlost.toStaffed
  refine ⟨Nat.lt_of_le_of_lt (Nat.le_of_add_right_le hlength) (left_opening hd₀),
    hend.moves hworkers hroom horderly, ⟨hstaffed.once, fun i hi => ?_⟩, ?_, ?_⟩
  · obtain ⟨p, hp, hsome⟩ := hstaffed.finished i hi
    rwa [Floor.outcome?, hp]
  · intro k e hgives
    rcases hend with hsound | ⟨e', hlost⟩
    · rw [hsound.givesUp?_eq] at hgives
      cases hgives
    · obtain ⟨k', hgives', -⟩ := hlost.closing
      obtain ⟨-, rfl⟩ := Prod.mk.inj (Option.some.inj (hgives.symm.trans hgives'))
      obtain ⟨n, i, p, hn, hi, hp, hfirst⟩ := hlost.cause
      have hunwind := (hunwound i).1 ⟨p, hi, hp.hurt⟩
      refine ⟨?_, fun worker b => ?_, n, i, p, hn, hi, hp, hunwind, hfirst⟩
      · cases hp <;> simp
      · cases hp <;> simp
  · intro ending hended
    have hnobody : (∃ r, ending = .returned r) → ∀ i, .unwind i ∉ ms := by
      rintro ⟨r, rfl⟩ i hi
      exact hend.returned hended i ((hunwound i).2 hi)
    rcases hend with hsound | ⟨e, hlost⟩
    · obtain ⟨hreturned, -, -⟩ := hsound.toGoing.ends hended
      exact ⟨.inl hreturned, hnobody, fun _ => hreturned⟩
    · obtain ⟨k, hgives, -⟩ := hlost.closing
      obtain ⟨n, i, p, -, hi, hp, -⟩ := hlost.cause
      have hunwind := (hunwound i).1 ⟨p, hi, hp.hurt⟩
      rw [driver_of_ending? hended] at hgives
      cases ending with
      | failed e' => exact ⟨.inr ⟨e', rfl⟩, hnobody, fun hnone => absurd hunwind (hnone i)⟩
      | returned r => cases hgives
      | panicked => cases hgives

/-- A worker panics, then a customer who reports before it; the close interrupts another one. -/
theorem first_panic_is_the_cause_interrupted :
    let plan : Plan := ⟨⟨1, 1, 1, 0, none⟩, some [.mailPackage, .mailPackage]⟩
    let ms : List Move := List.flatten [[.drive, .step 0, .unwind 0], .replicate 4 .drive,
      [.unwind 1, .post 1, .post 0], .replicate 10 .drive, [.step 2, .step 2, .post 2]]
    0 < plan.config.capacity ∧ 0 < plan.config.workerCount ∧ plan.config.workerCount ≤ wordMax ∧
      ∃ d₀ d, opening plan 0 ⟨0⟩ 0 = .ok d₀ ∧ .unwindDriver ∉ ms ∧ run? ms d₀ = some d ∧
        d.posted = [1, 0, 2] ∧ d.floor.outcome? 2 = some (.failed .interrupted) ∧
        d.driver.givesUp? = some (.ended, .panicked .customer 0) ∧
        ms.length < lengthBound 1 2 ∧ d.posted.Nodup ∧
        ∃ (n i : Nat) (p : Person), d.posted[n]? = some i ∧ d.floor.people[i]? = some p ∧
          p.Panicked (.panicked .customer 0) ∧ .unwind i ∈ ms := by
  intro plan ms
  have hms : .unwindDriver ∉ ms := by simp [ms]
  have hends : ((opening plan 0 ⟨0⟩ 0).toOption.bind (run? ms)).map (fun d =>
      (d.posted, d.floor.outcome? 2, d.driver.givesUp?)) =
        some ([1, 0, 2], some (.failed .interrupted), some (.ended, .panicked .customer 0)) := by
    decide +kernel
  obtain ⟨d₀, hd₀, hday⟩ :=
    first_panic_is_the_cause plan 0 ⟨0⟩ 0 (by decide) (by decide) (by decide)
  rw [hd₀, Except.toOption, Option.bind_some] at hends
  obtain ⟨d, hrun, hall⟩ := Option.map_eq_some_iff.1 hends
  obtain ⟨hposted, hrest⟩ := Prod.mk.inj hall
  obtain ⟨houtcome, hgives⟩ := Prod.mk.inj hrest
  obtain ⟨hlength, -, ⟨honce, -⟩, hcause, -⟩ := hday ms d hms hrun
  obtain ⟨-, -, n, i, p, hn, hi, hp, hunwind, -⟩ := hcause _ _ hgives
  exact ⟨by decide, by decide, by decide, d₀, d, hd₀, hms, hrun, hposted, houtcome, hgives, hlength,
    honce, n, i, p, hn, hi, hp, hunwind⟩

end Day

end Postal

import Mathlib.Data.List.Induction
import Postal.Proofs.Breach
import Postal.Proofs.Course

/-!
# A calm office.

An office that nobody closes and in which no announcement panics. There the invariants of the
handshake, of the pool, of the gate and of the scale hold side by side (`Floor.Calm`): permits that
are not free are in somebody's hand, every ticket that is drawn and not served is in the hand of one
caller, and the aggregate stands for all the tokens that are not promised to a scan. A step, an
exchange, the shutdown, a newcomer and an announcement from outside keep all that.

## §1 — single people.
## §2 — the invariant.
## §3 — steps.
## §4 — the other moves.
-/

namespace Postal

/-! ## §1 — single people -/

/-- Whether a person goes to the scale only for a task that needs it. -/
def Person.Apt : Person → Prop
  | .worker _ k => k.Apt
  | _ => True

/-- **A person is well**: nothing has failed or panicked, and it stands where a calm office lets it
stand. -/
structure Person.Well (p : Person) : Prop where
  sound : p.Sound False
  unhurt : p.Unhurt
  unqueued : p.Unqueued
  apt : p.Apt

/-- Whether a person is a worker whose shift is over. -/
def Person.HasLeft : Person → Prop
  | .worker _ k => k.ending?.isSome = true
  | _ => False

/-- **A shift goes on** in an open office before the shutdown, unless it fails or is unwound. -/
theorem Working.Steps.goes_on {id : Nat} {p p' : Premises} {offered : Bool} {k k' : Working}
    (h : k.Steps id p offered k' p') (hopen : p.IsOpen) (hfired : p.fired = false)
    (hsound : (Person.worker id k').Sound False) (hunhurt : k'.Unhurt) : k'.ending? = none := by
  have hslot := hopen.slot id
  cases h with
  | unknown hge => exact absurd rfl (hsound _)
  | retires hout =>
      rw [hfired] at hout
      cases hout
  | @advertises n pos progress pool hoffer =>
      rcases progress with pos' | ⟨e | ⟨⟩⟩
      · rfl
      · exact absurd rfl (hsound e)
      · rfl
  | goesHome hout =>
      rw [hslot, hfired] at hout
      simp at hout
  | rejects hs hno e => exact absurd rfl (hsound e)
  | interrupted hwaits hclosed =>
      rw [hslot] at hclosed
      cases hclosed
  | @weighs n a pos progress scale hacq =>
      rcases progress with pos' | ⟨e | ⟨⟩⟩
      · rfl
      · have hclosed := (Scale.acquire?_fault hacq).2
        rw [hopen.scale] at hclosed
        cases hclosed
      · rfl
  | @drops n a pos => cases pos <;> rfl
  | @unwinds pos =>
      cases pos with
      | counted => rfl
      | releasing => exact hunhurt.elim
  | breaks hs hneeds hphase e => exact absurd rfl (hsound e)
  | _ => rfl

/-- Nobody swaps out of a shift. -/
theorem Floor.Swaps.hasLeft {p p' : Person} (h : Swaps p p') : ¬ p'.HasLeft := by
  cases h <;> simp [Person.HasLeft, Working.ending?]

/-- Nobody comes to harm by an exchange. -/
theorem Floor.Swaps.well {p p' : Person} (h : Swaps p p') : p'.Well :=
  ⟨h.sound False, by cases h <;> trivial, by cases h <;> trivial, by cases h <;> trivial⟩

namespace Floor

/-! ## §2 — the invariant -/

/-- The tickets that people have in hand at a facility, as a count for every number. -/
def line (f : Floor) (hand : Person → Semaphore.Hand) (n : Nat) : Nat :=
  tally (fun p => (hand p).ticket n) f.people

/-- The permits that people have in hand at a facility. -/
def held (f : Floor) (hand : Person → Semaphore.Hand) : Nat :=
  tally (fun p => (hand p).permits) f.people

/-- **`f.Calm workers room`** — the invariant of an office of so many workers, with `room` permits
at its gate, that nobody closes and in which nobody panics. -/
structure Calm (workers room : Nat) (f : Floor) : Prop where
  kept : ∃ ledgers, f.Kept workers ledgers
  promised : f.Promised
  guarded : f.Guarded
  unclosed : .closer ∉ f.badges
  well : ∀ (i : Nat) (p : Person), f.people[i]? = some p → p.Well
  loyal : f.premises.fired = false → ∀ (i : Nat) (p : Person), f.people[i]? = some p → ¬ p.HasLeft
  gate : f.premises.gate.permits.Balanced (f.line Person.gateHand) (f.held Person.gateHand) room
  scale : f.premises.scale.permit.Balanced (f.line Person.scaleHand) (f.held Person.scaleHand) 1
  queue : f.premises.pool.available.Lined fun n => tally (fun p => p.poolShare.ticket n) f.people
  covered : f.premises.pool.Covered
    (fun q => tally (Person.scansFrom f.premises.pool.size q) f.people)
    (tally Person.offering f.people)
  spare : f.premises.pool.tokensFrom 0 ≤ f.premises.pool.available.permits + f.pending

section Calm

variable {workers room : Nat} {f : Floor}

theorem Calm.isOpen (h : f.Calm workers room) : f.premises.IsOpen := h.guarded.isOpen h.unclosed

/-- In a calm office no close has begun. -/
theorem not_begun (hunclosed : .closer ∉ f.badges) : ¬ f.Begun := by
  rintro ⟨i, k, hi, -⟩
  exact hunclosed (List.mem_of_getElem? (badge_of_getElem? hi))

/-- A calm office is sound. -/
theorem Calm.sound (h : f.Calm workers room) : f.Sound :=
  ⟨h.promised, h.guarded, fun i p hi => sound_mono (h.well i p hi).sound False.elim⟩

/-- **An office that has just opened** is calm. -/
theorem calm_opening (capacity workers minute clock : Nat) :
    Calm workers (min capacity wordMax) (.opening (.furnish capacity workers minute) clock) where
  kept := ⟨_, kept_opening capacity workers minute clock⟩
  promised := ⟨rfl, Nat.zero_le _⟩
  guarded := guarded_opening capacity workers minute clock
  unclosed := List.not_mem_nil
  well i p hi := by simp [opening] at hi
  loyal _ i p hi := by simp [opening] at hi
  gate := Semaphore.balanced_ofPermits capacity
  scale := Semaphore.balanced_bounded 1 1
  queue := Semaphore.lined_ofPermits 0
  covered := Pool.covered_ofWorkers workers
  spare := by
    have hnone : ∀ (i : Nat) (s : Semaphore),
        ((Pool.ofWorkers workers).slots.drop 0)[i]? = some s → s.permits = 0 := by
      intro i s hs
      simp only [Pool.ofWorkers, List.drop_zero, List.getElem?_replicate] at hs
      split at hs
      · exact Option.some.inj hs ▸ rfl
      · cases hs
    exact Nat.le_trans (Nat.le_of_eq (tally_eq_zero hnone)) (Nat.zero_le _)

/-! ## §3 — steps -/

/-- **One caller at a semaphore**: what everybody has in hand stays in balance. -/
theorem balanced_set {people : List Person} {i : Nat} {p p' : Person} {s s' : Semaphore}
    {hand : Person → Semaphore.Hand} {total : Nat} (hi : people[i]? = some p)
    (h : s.Balanced (fun n => tally (fun p => (hand p).ticket n) people)
      (tally (fun p => (hand p).permits) people) total)
    (huses : s.Uses s' (hand p) (hand p')) :
    s'.Balanced (fun n => tally (fun p => (hand p).ticket n) (people.set i p'))
      (tally (fun p => (hand p).permits) (people.set i p')) total := by
  simp only [tally_eq_add hi] at h
  simp only [tally_set_eq_add hi]
  exact h.uses huses

/-- What `Pool.Claiming.scansFrom_succ_le` says of everybody. -/
theorem scansFrom_succ_le (size q : Nat) (p : Person) :
    p.scansFrom size (q + 1) ≤ p.scansFrom size q := by
  cases p with
  | customer c v =>
      cases v with
      | claiming stay pos => exact pos.scansFrom_succ_le size q
      | _ => exact Nat.le_refl _
  | worker w k => cases k <;> exact Nat.le_refl _
  | closer k => exact Nat.le_refl _

/-- The pool stays covered, and nobody is queued at the last slot. -/
theorem Calm.covered_step (h : f.Calm workers room) {i : Nat} {f' : Floor} (hstep : f.Steps i f') :
    f'.premises.pool.Covered (fun q => tally (Person.scansFrom f'.premises.pool.size q) f'.people)
      (tally Person.offering f'.people) ∧
      ∀ (j : Nat) (p : Person), f'.people[j]? = some p → p.Unqueued := by
  have hold : ∀ {j : Nat} {p : Person}, f.people[j]? = some p → p.Unqueued :=
    fun hj => (h.well _ _ hj).unqueued
  cases hstep.atPool with
  | @aside p p' hi hpeople hpool hshare hunqueued =>
      have hscans : ∀ q, tally (Person.scansFrom f.premises.pool.size q) (f.people.set i p') =
          tally (Person.scansFrom f.premises.pool.size q) f.people :=
        fun q => tally_set_of_eq hi (by rw [Person.scansFrom, Person.scansFrom, hshare])
      have hoffers : tally Person.offering (f.people.set i p') = tally Person.offering f.people :=
        tally_set_of_eq hi (by rw [Person.offering, Person.offering, hshare])
      rw [hpeople, hpool]
      refine ⟨by simp only [hscans, hoffers]; exact h.covered, fun j q hj => ?_⟩
      rcases getElem?_set_cases hj with ⟨rfl, rfl⟩ | ⟨-, hj'⟩
      · exact hunqueued
      · exact hold hj'
  | @claims c stay pos progress hi hpeople hclaim =>
      -- `Pool.Covered.claim`, with everybody but the customer as the others
      have hscans := fun q => tally_eq_add (f := Person.scansFrom f.premises.pool.size q) hi
      have hscans' := fun q => tally_set_eq_add (f := Person.scansFrom f.premises.pool.size q) hi
        (.customer c (progress.within (.claiming stay)
          (Visiting.afterSearch f.premises.workerCount stay)))
      have hoffers : tally Person.offering (f.people.set i (.customer c (progress.within
          (.claiming stay) (Visiting.afterSearch f.premises.workerCount stay)))) =
            tally Person.offering f.people :=
        tally_set_of_eq hi (by rw [offering_search, offering_claiming])
      have hanti := fun q => tally_le_tally (scansFrom_succ_le f.premises.pool.size q)
        (f.people.eraseIdx i)
      simp only [scansFrom_claiming] at hscans
      simp only [scansFrom_search] at hscans'
      rw [hpeople, hoffers, hclaim.size_eq]
      refine ⟨h.covered.claim hclaim (hold hi) hanti hscans hscans', fun j q hj => ?_⟩
      rcases getElem?_set_cases hj with ⟨rfl, rfl⟩ | ⟨-, hj'⟩
      · rcases progress with pos' | ⟨e | worker⟩
        · exact h.covered.claim_unqueued hclaim hscans rfl
        · trivial
        · simp only [Progress.within, Visiting.afterSearch]
          split <;> trivial
      · exact hold hj'
  | @offers w n pos progress hi hpeople hoffer =>
      have hscans : ∀ q, tally (Person.scansFrom f.premises.pool.size q) (f.people.set i
          (.worker w (progress.within (.advertising n) (Working.afterOffer n)))) =
            tally (Person.scansFrom f.premises.pool.size q) f.people :=
        fun q => tally_set_of_eq hi (by rw [scansFrom_offer, scansFrom_advertising])
      have hoffers := tally_eq_add (f := Person.offering) hi
      have hoffers' := tally_set_eq_add (f := Person.offering) hi
        (.worker w (progress.within (.advertising n) (Working.afterOffer n)))
      rw [offering_advertising] at hoffers
      rw [offering_offer] at hoffers'
      rw [hpeople, hoffer.size_eq]
      refine ⟨by simp only [hscans]; exact h.covered.advertise hoffer hoffers hoffers',
        fun j q hj => ?_⟩
      rcases getElem?_set_cases hj with ⟨rfl, rfl⟩ | ⟨-, hj'⟩
      · trivial
      · exact hold hj'
  | closes hi hpeople hk =>
      exact absurd (List.mem_of_getElem? (badge_of_getElem? hi)) h.unclosed

/-- The line in front of the aggregate stays in order. -/
theorem Calm.queue_step (h : f.Calm workers room) {i : Nat} {f' : Floor} (hstep : f.Steps i f') :
    f'.premises.pool.available.Lined fun n => tally (fun p => p.poolShare.ticket n) f'.people := by
  cases hstep.atPool with
  | @aside p p' hi hpeople hpool hshare hunqueued =>
      have hline : ∀ n, tally (fun p => p.poolShare.ticket n) (f.people.set i p') =
          tally (fun p => p.poolShare.ticket n) f.people :=
        fun n => tally_set_of_eq hi (by rw [hshare])
      rw [hpeople, hpool]
      exact h.queue.congr hline rfl rfl rfl
  | @claims c stay pos progress hi hpeople hclaim =>
      rw [hpeople]
      refine hclaim.lined h.queue (fun n => tally_eq_add hi) fun n => ?_
      rw [tally_set_eq_add hi]
      show _ + (Visiting.poolShare _).ticket n = _
      rw [poolShare_search]
      rfl
  | @offers w n pos progress hi hpeople hoffer =>
      have hline : ∀ m, tally (fun p => p.poolShare.ticket m) (f.people.set i
          (.worker w (progress.within (.advertising n) (Working.afterOffer n)))) =
            tally (fun p => p.poolShare.ticket m) f.people := by
        refine fun m => tally_set_of_eq hi ?_
        show (Working.poolShare _).ticket m = _
        rw [poolShare_offer]
        rfl
      rw [hpeople]
      exact (hoffer.lined h.queue).congr hline rfl rfl rfl
  | closes hi hpeople hk =>
      exact absurd (List.mem_of_getElem? (badge_of_getElem? hi)) h.unclosed

/-- **No token is spare**: the aggregate, the scans and the uncounted offers stand for all tokens,
after a step that brings nobody to harm. -/
theorem Calm.spare_step (h : f.Calm workers room) {i : Nat} {f' : Floor} (hstep : f.Steps i f')
    (hsound : ∀ (j : Nat) (p : Person), f'.people[j]? = some p → p.Sound False) :
    f'.premises.pool.tokensFrom 0 ≤ f'.premises.pool.available.permits + f'.pending := by
  have hspare := h.spare
  cases hstep.atPool with
  | aside hi hpeople hpool hshare hunqueued =>
      rw [pending_aside hi hpeople hshare (by rw [hpool]), hpool]
      exact hspare
  | @claims c stay pos progress hi hpeople hclaim =>
      have hlt := (List.getElem?_eq_some_iff.1 hi).1
      have hok : ∀ e, progress ≠ .ended (.error e) := by
        rintro e rfl
        have hself := hsound i _ (by rw [hpeople]; exact List.getElem?_set_self hlt)
        exact (hself e rfl).2
      have hpending := pending_search hi hpeople hclaim.size_eq
      have hsearch := hclaim.balance hok
      omega
  | @offers w n pos progress hi hpeople hoffer =>
      have hlt := (List.getElem?_eq_some_iff.1 hi).1
      have hok : ∀ e, progress ≠ .ended (.error e) := by
        rintro e rfl
        have hself := hsound i _ (by rw [hpeople]; exact List.getElem?_set_self hlt)
        exact hself e rfl
      have hpending := pending_offer hi hpeople hoffer.size_eq
      have hput := hoffer.balance hok
      omega
  | closes hi hpeople hk =>
      exact absurd (List.mem_of_getElem? (badge_of_getElem? hi)) h.unclosed

/-- Whoever steps goes to the scale only for a task that needs it. -/
theorem Calm.apt_step (h : f.Calm workers room) {i : Nat} {f' : Floor} (hstep : f.Steps i f')
    (j : Nat) (p : Person) (hj : f'.people[j]? = some p) : p.Apt := by
  cases hstep with
  | customer hi hv =>
      rcases getElem?_set_cases hj with ⟨rfl, rfl⟩ | ⟨-, hj'⟩
      · trivial
      · exact (h.well j p hj').apt
  | worker hi hk =>
      rcases getElem?_set_cases hj with ⟨rfl, rfl⟩ | ⟨-, hj'⟩
      · exact hk.apt (h.well _ _ hi).apt
      · exact (h.well j p hj').apt
  | closer hi hk =>
      rcases getElem?_set_cases hj with ⟨rfl, rfl⟩ | ⟨-, hj'⟩
      · trivial
      · exact (h.well j p hj').apt

/-- No worker leaves in a step before the shutdown. -/
theorem Calm.loyal_step (h : f.Calm workers room) {i : Nat} {f' : Floor} (hstep : f.Steps i f')
    (hwell : ∀ (j : Nat) (p : Person), f'.people[j]? = some p → p.Well)
    (hfired : f'.premises.fired = false) (j : Nat) (p : Person) (hj : f'.people[j]? = some p) :
    ¬ p.HasLeft := by
  cases hstep with
  | customer hi hv =>
      have hbefore : f.premises.fired = false := hv.fired_eq.symm.trans hfired
      rcases getElem?_set_cases hj with ⟨rfl, rfl⟩ | ⟨-, hj'⟩
      · exact id
      · exact h.loyal hbefore j p hj'
  | @worker id k k' p' hi hk =>
      have hbefore : f.premises.fired = false := hk.fired_eq.symm.trans hfired
      rcases getElem?_set_cases hj with ⟨rfl, rfl⟩ | ⟨-, hj'⟩
      · have hself := hwell j _ hj
        rw [Person.HasLeft, hk.goes_on h.isOpen hbefore hself.sound hself.unhurt]
        exact Bool.false_ne_true
      · exact h.loyal hbefore j p hj'
  | closer hi hk =>
      exact absurd (List.mem_of_getElem? (badge_of_getElem? hi)) h.unclosed

/-- **A step** keeps the office calm. -/
theorem Calm.step (h : f.Calm workers room) (hword : workers ≤ wordMax)
    {i : Nat} {f' : Floor} (hmove : f.step? i = some f') : f'.Calm workers room := by
  have hstep := steps_of_step? hmove
  obtain ⟨ledgers, hkept⟩ := h.kept
  have hbadges : f'.badges = f.badges := by
    simpa [Move.newcomer?] using badges_move (m := .step i) hmove
  have hunclosed : .closer ∉ f'.badges := hbadges ▸ h.unclosed
  have hnow := h.sound.move hkept hword (m := .step i) hmove fun _ hp => by cases hp
  -- whoever would be excused by a close is not excused here
  have hsound : ∀ (j : Nat) (p : Person), f'.people[j]? = some p → p.Sound False :=
    fun j p hj => sound_mono (hnow.people j p hj) (not_begun hunclosed)
  have hunhurt := fun j => unhurt_of_move (m := .step i) (i := j) hmove nofun
    (fun _ hp => by cases hp) fun p hj => (h.well j p hj).unhurt
  obtain ⟨hcovered, hunqueued⟩ := h.covered_step hstep
  have hwell : ∀ (j : Nat) (p : Person), f'.people[j]? = some p → p.Well := fun j p hj =>
    ⟨hsound j p hj, hunhurt j p hj, hunqueued j p hj, h.apt_step hstep j p hj⟩
  refine ⟨hkept.step hstep, hnow.promised, hnow.guarded, hunclosed, hwell,
    h.loyal_step hstep hwell, ?_, ?_, h.queue_step hstep, hcovered, h.spare_step hstep hsound⟩
  · obtain ⟨p, p', hi, hpeople, huses⟩ := hstep.uses_gate h.unclosed
    unfold line held
    rw [hpeople]
    exact balanced_set hi h.gate huses
  · obtain ⟨p, p', hi, hpeople, huses⟩ := hstep.uses_scale h.unclosed
      fun j id k hj => (h.well j _ hj).apt
    unfold line held
    rw [hpeople]
    exact balanced_set hi h.scale huses

/-! ## §4 — the other moves -/

/-- **An exchange** keeps the office calm. -/
theorem Calm.exchange (h : f.Calm workers room) {i j : Nat} {f' : Floor}
    (hmove : f.exchange? i j = some f') : f'.Calm workers room := by
  obtain ⟨ledgers, hkept⟩ := h.kept
  have hpromised := h.promised.move (m := .exchange i j) hmove fun _ hp => by cases hp
  have hguarded := h.guarded.move (m := .exchange i j) hmove
  obtain ⟨w, people', -, hex, rfl⟩ := exchanges_of_exchange? hmove
  have hbadges : badges { f with people := people' } = f.badges := hex.badges
  have same : ∀ {g : Person → Nat}, (∀ {p p' : Person}, Swaps p p' → g p' = g p) →
      tally g people' = tally g f.people := fun hg => hex.tally_eq hg
  obtain ⟨a, a', b, b', ha, hb, hab, haa', hbb', hpeople⟩ := hex.swaps
  have cases : ∀ {k : Nat} {p : Person}, people'[k]? = some p →
      p = a' ∨ p = b' ∨ f.people[k]? = some p := by
    intro k p hk
    rw [hpeople] at hk
    rcases getElem?_set_cases hk with ⟨-, rfl⟩ | ⟨-, hk'⟩
    · exact .inr (.inl rfl)
    · rcases getElem?_set_cases hk' with ⟨-, rfl⟩ | ⟨-, hk''⟩
      · exact .inl rfl
      · exact .inr (.inr hk'')
  refine ⟨hkept.exchange hex |>.imp fun _ => id, hpromised, hguarded, hbadges ▸ h.unclosed,
    fun k p hk => ?_, fun hfired k p hk => ?_, ?_, ?_, ?_, ?_, ?_⟩
  · rcases cases hk with rfl | rfl | hk'
    · exact haa'.well
    · exact hbb'.well
    · exact h.well k p hk'
  · rcases cases hk with rfl | rfl | hk'
    · exact haa'.hasLeft
    · exact hbb'.hasLeft
    · exact h.loyal hfired k p hk'
  · unfold line held
    simp only [same (g := fun p => p.gateHand.permits) fun hs => by rw [hs.gateHand],
      fun n => same (g := fun p => p.gateHand.ticket n) fun hs => by rw [hs.gateHand]]
    exact h.gate
  · unfold line held
    simp only [same (g := fun p => p.scaleHand.permits) fun hs => by rw [hs.scaleHand],
      fun n => same (g := fun p => p.scaleHand.ticket n) fun hs => by rw [hs.scaleHand]]
    exact h.scale
  · simp only [fun n => same (g := fun p => p.poolShare.ticket n) fun hs => by rw [hs.poolShare]]
    exact h.queue
  · simp only [fun size q => same (g := Person.scansFrom size q) fun hs => by
        rw [Person.scansFrom, Person.scansFrom, hs.poolShare],
      same (g := Person.offering) fun hs => by rw [Person.offering, Person.offering, hs.poolShare]]
    exact h.covered
  · rw [pending_exchange hex]
    exact h.spare

/-- **The shutdown** keeps the office calm. -/
theorem Calm.fire (h : f.Calm workers room) : f.fire.Calm workers room := by
  obtain ⟨ledgers, hkept⟩ := h.kept
  refine { h with
    kept := ⟨ledgers, hkept.premises rfl rfl fun _ _ => rfl⟩
    promised := ⟨h.promised.ceiling, h.promised.whole⟩
    guarded := .inr h.isOpen
    loyal := fun hfired => nomatch hfired }

/-- **An announcement from outside**, that tells of no worker, keeps the office calm. -/
theorem Calm.record (h : f.Calm workers room) {e : Event} (he : e.worker? = none) :
    Calm workers room { f with premises := f.premises.record e } := by
  obtain ⟨ledgers, hkept⟩ := h.kept
  refine { h with
    kept := ⟨ledgers, hkept.premises rfl rfl fun w _ =>
      Premises.view_record_of_none he w⟩
    promised := ⟨h.promised.ceiling, h.promised.whole⟩
    guarded := .inr h.isOpen }

/-- **A newcomer**, a customer or a worker who is not there yet, keeps the office calm. -/
theorem Calm.join (h : f.Calm workers room) {p : Person}
    (hp : (∃ c, p = .arrives c) ∨ ∃ w, p = .starts w ∧ w < workers ∧ .worker w ∉ f.badges) :
    (f.join p).Calm workers room := by
  obtain ⟨ledgers, hkept⟩ := h.kept
  have hpremises : (f.join p).premises = f.premises := rfl
  have hself : p.Well ∧ ¬ p.HasLeft ∧ p.badge ≠ .closer ∧ p.gateHand = .empty ∧
      p.scaleHand = .empty ∧ p.poolShare = .empty := by
    rcases hp with ⟨c, rfl⟩ | ⟨w, rfl, -⟩
    · exact ⟨⟨nofun, trivial, trivial, trivial⟩, id, nofun, rfl, rfl, rfl⟩
    · exact ⟨⟨nofun, trivial, trivial, trivial⟩, nofun, nofun, rfl, rfl, rfl⟩
  obtain ⟨hwell, hstays, hbadge, hgate, hscale, hshare⟩ := hself
  have hnothing : ∀ {g : Person → Nat}, g p = 0 → tally g (f.join p).people = tally g f.people :=
    fun hg => by rw [Floor.join, tally_concat, hg, Nat.add_zero]
  refine ⟨⟨ledgers, hkept.join (hp.imp_right .inl)⟩, ?_, .inr h.isOpen, ?_, fun i q hi => ?_,
    fun hfired i q hi => ?_, ?_, ?_, ?_, ?_, ?_⟩
  · exact h.promised.move (m := .join p) rfl fun q hq => (Move.join.inj hq) ▸ hshare
  · simp only [badges, Floor.join, List.map_append, List.map_cons, List.map_nil, List.mem_append,
      List.mem_singleton, not_or]
    exact ⟨h.unclosed, Ne.symm hbadge⟩
  · rcases getElem?_concat_cases hi with hi' | ⟨-, rfl⟩
    · exact h.well i q hi'
    · exact hwell
  · rcases getElem?_concat_cases hi with hi' | ⟨-, rfl⟩
    · exact h.loyal hfired i q hi'
    · exact hstays
  · unfold line held
    simp only [hnothing (g := fun p => p.gateHand.permits) (by rw [hgate]; rfl),
      fun n => hnothing (g := fun p => p.gateHand.ticket n) (by rw [hgate]; rfl)]
    exact h.gate
  · unfold line held
    simp only [hnothing (g := fun p => p.scaleHand.permits) (by rw [hscale]; rfl),
      fun n => hnothing (g := fun p => p.scaleHand.ticket n) (by rw [hscale]; rfl)]
    exact h.scale
  · simp only [fun n => hnothing (g := fun p => p.poolShare.ticket n) (by rw [hshare]; rfl)]
    exact h.queue
  · rw [hpremises]
    simp only [fun size q => hnothing (g := Person.scansFrom size q)
      (by rw [Person.scansFrom, hshare]; rfl),
      hnothing (g := Person.offering) (by rw [Person.offering, hshare]; rfl)]
    exact h.covered
  · rw [pending_join hshare]
    exact h.spare

/-- **An office stays calm** in every regular run without a close and without a panic. -/
theorem calm_run {capacity minute clock : Nat} {ms : List Move} (hword : workers ≤ wordMax)
    (hms : Regular workers ms) (hunclosed : .closer ∉ newcomers ms)
    (hunwind : ∀ i, .unwind i ∉ ms)
    (hrun : run? ms (.opening (.furnish capacity workers minute) clock) = some f) :
    f.Calm workers (min capacity wordMax) := by
  induction ms using List.reverseRecOn generalizing f with
  | nil =>
      obtain rfl := Option.some.inj hrun
      exact calm_opening capacity workers minute clock
  | append_singleton ms m ih =>
      obtain ⟨g, hbefore, hmove, -⟩ := course_concat (fun _ => rfl) (fun _ _ _ => rfl) hrun
      rw [newcomers_append, List.mem_append, not_or] at hunclosed
      have hcalm := ih hms.of_append hunclosed.1
        (fun i hi => hunwind i (List.mem_append_left _ hi)) hbefore
      cases m with
      | step i => exact hcalm.step hword hmove
      | exchange i j => exact hcalm.exchange hmove
      | unwind i => exact absurd List.mem_concat_self (hunwind i)
      | fire =>
          obtain rfl := Option.some.inj hmove
          exact hcalm.fire
      | join p =>
          obtain rfl := Option.some.inj hmove
          have hnobody : g.badges = newcomers ms := badges_run hbefore
          rcases hms.newcomer with hc | hw | rfl
          · exact hcalm.join (.inl hc)
          · exact hcalm.join (.inr (hnobody ▸ hw))
          · exact absurd (List.mem_singleton_self _) hunclosed.2

end Calm

end Floor

end Postal

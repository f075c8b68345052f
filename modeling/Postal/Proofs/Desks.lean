import Mathlib.Logic.Function.Basic
import Postal.Proofs.Ledger

/-!
# The desks and the people at them.

The invariant of the floor: there is a ledger for every desk such that each desk looks as its
ledger says, and everybody stands where the ledgers allow (`Floor.Kept`). A step of the office
either leaves the ledgers alone, or is a turn of the worker or of the customer at one desk, or an
exchange; whoever has nothing to do with that desk is not touched.

## §1 — who may stand where.
## §2 — the invariant, and changes at one desk.
-/

namespace Postal

/-! ## §1 — who may stand where -/

/-- How many services a worker believes it has completed. -/
def Working.served? : Working → Option Nat
  | .arriving | .announcingCreation => some 0
  | .deciding n | .opening n | .announcingIdle n | .advertising n _ | .awaitingPublish n
  | .checkingReceived n _ | .serving n _ _ => some n
  | .ended (.returned r) => some r.served
  | _ => none

/-- The assignment that a worker has in hand. -/
def Working.assignment? : Working → Option Assignment
  | .checkingReceived _ a | .serving _ a _ => some a
  | _ => none

/-- The report that a worker has left with. -/
def Working.report? : Working → Option WorkerReport
  | .ended (.returned r) => some r
  | _ => none

/-- **A worker fits the ledger** of its desk: the stage is one of its position, it has counted the
services right, and it serves the customer who is on record. -/
structure Working.Fits (w : Nat) (l : Ledger) (k : Working) : Prop where
  stage : k.Allows l.stage
  served : ∀ n, k.served? = some n → n = l.past.length
  assignment : ∀ a, k.assignment? = some a → a = l.current.assignment
  report : ∀ r, k.report? = some r → r.worker = w

/-- Whether a customer at the slot has taken the completion. -/
def Dealing.isDone : Dealing → Bool
  | .announcingFinish | .announcingDeparture | .departing => true
  | _ => false

/-- **A customer fits the ledgers**: at a desk it is the person on record there, and the stage is
one of its position. -/
def Visiting.Fits (workers i : Nat) (c : Customer) (ledgers : Nat → Ledger) : Visiting → Prop
  | .claiming _ (.probing w) => w + 1 < workers
  | .dealing _ w d => w < workers ∧ (d.isDone = false →
      (ledgers w).claimant = i ∧ (ledgers w).current = c ∧ (ledgers w).stage ∈ d.stages)
  | _ => True

/-- Whether person `i` stands where the ledgers allow. -/
def Person.Fits (workers i : Nat) (ledgers : Nat → Ledger) : Person → Prop
  | .customer c v => v.Fits workers i c ledgers
  | .worker w k => w < workers ∧ k.Fits w (ledgers w)
  | .closer _ => True

/-- Whether a call has returned its result. -/
def Ending.isReturned {A : Type} : Ending A → Bool
  | .returned _ => true
  | _ => false

/-- Whether a customer who has claimed the desk of worker `w` is still there, or has left it without
the completion. -/
def Visiting.Attends (w : Nat) : Visiting → Prop
  | .dealing _ v d => v = w ∧ d.isDone = false
  | .leaving _ ending | .ended ending => ending.isReturned = false
  | _ => False

namespace Working.Fits

variable {w n : Nat} {l : Ledger} {k k' : Working}

/-- A worker that goes on to another stage with the same count. The assignment that it has in hand
stays the one it had. -/
theorem turn (hk : k.Fits w l) {s : Stage} (hserved : k'.served? = k.served?)
    (hassignment : k'.assignment? = none ∨ k'.assignment? = k.assignment?)
    (hreport : k'.report? = none) (hstage : k'.Allows s) : k'.Fits w (l.turn s) where
  stage := hstage
  served m hm := hk.served m (hserved ▸ hm)
  assignment a ha := by
    rcases hassignment with hnone | hsame
    · cases hnone.symm.trans ha
    · exact hk.assignment a (hsame ▸ ha)
  report r hr := by cases hreport.symm.trans hr

/-- A worker that starts its shift at a fresh desk. -/
theorem arriving (hfresh : l.Fresh) : Working.arriving.Fits w l where
  stage := hfresh.1
  served m hm := by
    rw [hfresh.2, ← Option.some.inj hm]
    rfl
  assignment a ha := by cases ha
  report r hr := by cases hr

/-- A worker that receives the assignment of the customer on record. -/
theorem receives {c : Customer} (hk : (Working.awaitingPublish n).Fits w l)
    (hcurrent : l.current = c) :
    (Working.checkingReceived n c.assignment).Fits w (l.turn .received) where
  stage := rfl
  served m hm := hk.served m hm
  assignment a ha := by
    rw [← Option.some.inj ha, ← hcurrent]
    rfl
  report r hr := by cases hr

/-- A worker that books the completed service. -/
theorem settles {a : Assignment} (hk : (Working.serving n a .settling).Fits w l) :
    (Working.deciding (n + 1)).Fits w l.settle where
  stage := rfl
  served m hm := by
    obtain rfl := Option.some.inj hm
    rw [hk.served n rfl, Ledger.settle, List.length_append]
    rfl
  assignment a ha := by cases ha
  report r hr := by cases hr

/-- A worker that leaves with its report. -/
theorem leave (hk : k.Fits w l) (hn : k.served? = some n) (hleft : l.stage.isLeft = true) :
    (Working.report w n).Fits w l where
  stage := hleft
  served m hm := by
    obtain rfl := Option.some.inj hm
    exact hk.served _ hn
  assignment a ha := by cases ha
  report r hr := by
    obtain rfl := Option.some.inj hr
    rfl

/-- Nothing is said of a worker that has no count, no assignment and no report, and may be
anywhere. -/
theorem nothing (hstage : k.Allows l.stage) (hserved : k.served? = none)
    (hassignment : k.assignment? = none) (hreport : k.report? = none) : k.Fits w l where
  stage := hstage
  served m hm := by cases hserved.symm.trans hm
  assignment a ha := by cases hassignment.symm.trans ha
  report r hr := by cases hreport.symm.trans hr

theorem failed (f : Fault) : (Working.ended (.failed f)).Fits w l := nothing trivial rfl rfl rfl

theorem panicked : (Working.ended .panicked).Fits w l := nothing trivial rfl rfl rfl

theorem unwinding (pos : Scale.Dropping) : (Working.unwinding pos).Fits w l :=
  nothing trivial rfl rfl rfl

end Working.Fits

/-- A customer who has taken the completion may be at any desk. -/
theorem Visiting.fits_of_done {workers i w : Nat} {c : Customer} {ledgers : Nat → Ledger}
    {stay : Stay} {d : Dealing} (hw : w < workers) (hd : d.isDone = true) :
    (Visiting.dealing stay w d).Fits workers i c ledgers :=
  ⟨hw, fun hno => by cases hd.symm.trans hno⟩

/-- No customer deals at a desk that nobody has claimed. -/
theorem Dealing.free_not_mem (d : Dealing) : .free ∉ d.stages := by
  cases d <;> simp [Dealing.stages]

/-- No worker has an assignment in hand at a desk that nobody has claimed. -/
theorem Working.assignment?_of_free {k : Working} (hk : k.Allows .free) : k.assignment? = none := by
  cases k with
  | checkingReceived n a => simp [Working.Allows] at hk
  | serving n a position => cases position <;> simp [Working.Allows, Service.stages] at hk
  | ended e => cases e <;> rfl
  | _ => rfl

/-- **When one ledger changes**, a person fits as long as it does so at the desk of that ledger. -/
theorem Person.Fits.update {workers i w : Nat} {ledgers : Nat → Ledger} {l' : Ledger} {p : Person}
    (h : p.Fits workers i ledgers)
    (hworker : ∀ k, p = .worker w k → k.Fits w (ledgers w) → k.Fits w l')
    (hcustomer : ∀ c stay d, p = .customer c (.dealing stay w d) → (ledgers w).claimant = i →
      (ledgers w).current = c → (ledgers w).stage ∈ d.stages →
        l'.claimant = i ∧ l'.current = c ∧ l'.stage ∈ d.stages) :
    p.Fits workers i (Function.update ledgers w l') := by
  cases p with
  | closer k => trivial
  | worker v k =>
      refine ⟨h.1, ?_⟩
      by_cases hvw : v = w
      · subst hvw
        rw [Function.update_self]
        exact hworker k rfl h.2
      · rw [Function.update_of_ne hvw]
        exact h.2
  | customer c u =>
      cases u with
      | dealing stay v d =>
          refine ⟨h.1, fun hd => ?_⟩
          obtain ⟨hclaimant, hcurrent, hstage⟩ := h.2 hd
          by_cases hvw : v = w
          · subst hvw
            rw [Function.update_self]
            exact hcustomer c stay d rfl hclaimant hcurrent hstage
          · rw [Function.update_of_ne hvw]
            exact ⟨hclaimant, hcurrent, hstage⟩
      | claiming stay pos => cases pos <;> exact h
      | _ => trivial

/-! ## §2 — the invariant -/

/-- **`f.Kept workers ledgers`** — each desk looks as its ledger says, and everybody stands where
the ledgers allow. Nobody but the worker of a desk opens its ledger, every customer on record is on
the floor, and a desk is engaged only as long as its claimant attends to it. -/
structure Floor.Kept (workers : Nat) (f : Floor) (ledgers : Nat → Ledger) : Prop where
  slots : f.premises.slots.length = workers
  pool : f.premises.pool.size = workers
  views : ∀ w, w < workers → f.premises.view w = (ledgers w).view w
  fits : ∀ (i : Nat) (p : Person), f.people[i]? = some p → p.Fits workers i ledgers
  single : ∀ (i j w : Nat), f.badges[i]? = some (.worker w) → f.badges[j]? = some (.worker w) →
    i = j
  blank : ∀ w, w < workers → .worker w ∉ f.badges → (ledgers w).Fresh
  known : ∀ w, w < workers → ∀ c ∈ (ledgers w).present, .customer c ∈ f.badges
  attended : ∀ w, w < workers → (ledgers w).stage.isEngaged = true →
    ∃ v, f.people[(ledgers w).claimant]? = some (.customer (ledgers w).current v) ∧ v.Attends w

namespace Floor

section Kept

variable {workers : Nat} {f : Floor} {ledgers : Nat → Ledger}

/-- A worker is the only person with its badge. -/
theorem Kept.worker_unique (h : f.Kept workers ledgers) {i j w : Nat} {k k' : Working}
    (hi : f.people[i]? = some (.worker w k)) (hj : f.people[j]? = some (.worker w k')) : i = j :=
  h.single i j w (badge_of_getElem? hi) (badge_of_getElem? hj)

theorem Kept.worker_fits (h : f.Kept workers ledgers) {i w : Nat} {k : Working}
    (hi : f.people[i]? = some (.worker w k)) : w < workers ∧ k.Fits w (ledgers w) :=
  h.fits i _ hi

/-- A customer at a desk is the person on record there. -/
theorem Kept.dealing_fits (h : f.Kept workers ledgers) {i w : Nat} {c : Customer} {stay : Stay}
    {d : Dealing} (hi : f.people[i]? = some (.customer c (.dealing stay w d)))
    (hd : d.isDone = false) :
    w < workers ∧ (ledgers w).claimant = i ∧ (ledgers w).current = c ∧
      (ledgers w).stage ∈ d.stages := by
  obtain ⟨hw, hrest⟩ := h.fits i _ hi
  exact ⟨hw, hrest hd⟩

/-- **Nothing at the desks.** The premises may change as long as no desk looks different. -/
theorem Kept.premises (h : f.Kept workers ledgers) {premises' : Premises}
    (hslots : premises'.slots.length = f.premises.slots.length)
    (hpool : premises'.pool.size = f.premises.pool.size)
    (hviews : ∀ w, w < workers → premises'.view w = f.premises.view w) :
    Kept workers ⟨premises', f.people⟩ ledgers where
  slots := hslots.trans h.slots
  pool := hpool.trans h.pool
  views w hw := (hviews w hw).trans (h.views w hw)
  fits := h.fits
  single := h.single
  blank := h.blank
  known := h.known
  attended := h.attended

/-- **One person moves on** and the ledgers stay as they are. -/
theorem Kept.still (h : f.Kept workers ledgers) {i : Nat} {p p' : Person}
    (hi : f.people[i]? = some p) (hbadge : p'.badge = p.badge) (hfits : p'.Fits workers i ledgers)
    (hattends : ∀ c v w, p = .customer c v → v.Attends w →
      ∃ v', p' = .customer c v' ∧ v'.Attends w) :
    Kept workers ⟨f.premises, f.people.set i p'⟩ ledgers := by
  have hbadges : badges ⟨f.premises, f.people.set i p'⟩ = f.badges := map_set_of_eq hi hbadge
  have hlt := (List.getElem?_eq_some_iff.1 hi).1
  refine ⟨h.slots, h.pool, h.views, fun j q hj => ?_, ?_, ?_, ?_, fun w hw hengaged => ?_⟩
  · rcases getElem?_set_cases hj with ⟨rfl, rfl⟩ | ⟨hji, hj⟩
    · exact hfits
    · exact h.fits j q hj
  · rw [hbadges]
    exact h.single
  · rw [hbadges]
    exact h.blank
  · rw [hbadges]
    exact h.known
  · obtain ⟨v, hv, hatt⟩ := h.attended w hw hengaged
    by_cases hclaimant : (ledgers w).claimant = i
    · rw [hclaimant] at hv ⊢
      obtain ⟨v', rfl, hatt'⟩ := hattends _ v w (Option.some.inj (hi.symm.trans hv)) hatt
      exact ⟨v', List.getElem?_set_self hlt, hatt'⟩
    · exact ⟨v, by rw [List.getElem?_set_ne (Ne.symm hclaimant)]; exact hv, hatt⟩

/-- A worker moves on and no desk looks different. -/
theorem Kept.worker_still (h : f.Kept workers ledgers) {j w : Nat} {k k' : Working}
    {premises' : Premises} (hj : f.people[j]? = some (.worker w k))
    (hslots : premises'.slots.length = f.premises.slots.length)
    (hpool : premises'.pool.size = f.premises.pool.size)
    (hviews : ∀ v, premises'.view v = f.premises.view v) (hfits : k'.Fits w (ledgers w)) :
    Kept workers ⟨premises', f.people.set j (.worker w k')⟩ ledgers :=
  (h.premises hslots hpool fun v _ => hviews v).still hj rfl ⟨(h.worker_fits hj).1, hfits⟩
    fun _ _ _ hp => by cases hp

/-- A customer moves on and no desk looks different. -/
theorem Kept.customer_still (h : f.Kept workers ledgers) {i : Nat} {c : Customer}
    {v v' : Visiting} {premises' : Premises} (hi : f.people[i]? = some (.customer c v))
    (hslots : premises'.slots.length = f.premises.slots.length)
    (hpool : premises'.pool.size = f.premises.pool.size)
    (hviews : ∀ v, premises'.view v = f.premises.view v) (hfits : v'.Fits workers i c ledgers)
    (hattends : ∀ w, v.Attends w → v'.Attends w) :
    Kept workers ⟨premises', f.people.set i (.customer c v')⟩ ledgers := by
  refine (h.premises hslots hpool fun v _ => hviews v).still hi rfl hfits fun c' u w hp hatt => ?_
  obtain ⟨rfl, rfl⟩ := Person.customer.inj hp
  exact ⟨v', rfl, hattends w hatt⟩

/-- A desk stays attended when somebody moves on who does not attend to it. -/
theorem attended_set {people : List Person} {i claimant v : Nat} {c : Customer} {p' : Person}
    (h : ∃ u, people[claimant]? = some (.customer c u) ∧ u.Attends v)
    (hother : ∀ c u, people[i]? = some (.customer c u) → ¬ u.Attends v) :
    ∃ u, (people.set i p')[claimant]? = some (.customer c u) ∧ u.Attends v := by
  obtain ⟨u, hu, hatt⟩ := h
  have hne : i ≠ claimant := by
    rintro rfl
    exact hother c u hu hatt
  exact ⟨u, by rw [List.getElem?_set_ne hne]; exact hu, hatt⟩

/-- **One desk changes**, with whoever has to do with it; `people'` are the people afterwards. -/
theorem Kept.update (h : f.Kept workers ledgers) {w : Nat} {l' : Ledger} {premises' : Premises}
    {people' : List Person} (halike : f.premises.AlikeBut w premises')
    (hview : premises'.view w = l'.view w)
    (hbadges : people'.map Person.badge = f.badges)
    (hblank : .worker w ∉ f.badges → l'.Fresh)
    (hknown : ∀ c ∈ l'.present, .customer c ∈ f.badges)
    (hfits : ∀ (i : Nat) (p : Person), people'[i]? = some p →
      p.Fits workers i (Function.update ledgers w l'))
    (hattended : ∀ v, v < workers → (Function.update ledgers w l' v).stage.isEngaged = true →
      ∃ u, people'[(Function.update ledgers w l' v).claimant]? =
        some (.customer (Function.update ledgers w l' v).current u) ∧ u.Attends v) :
    Kept workers ⟨premises', people'⟩ (Function.update ledgers w l') where
  slots := halike.slots.trans h.slots
  pool := halike.pool.trans h.pool
  views v hv := by
    by_cases hvw : v = w
    · subst hvw
      rw [Function.update_self]
      exact hview
    · rw [Function.update_of_ne hvw]
      exact (halike.views v hvw).trans (h.views v hv)
  fits := hfits
  single := by
    show ∀ i j v, (people'.map Person.badge)[i]? = _ → (people'.map Person.badge)[j]? = _ → i = j
    rw [hbadges]
    exact h.single
  blank v hv := by
    show .worker v ∉ people'.map Person.badge → _
    rw [hbadges]
    by_cases hvw : v = w
    · subst hvw
      rw [Function.update_self]
      exact hblank
    · rw [Function.update_of_ne hvw]
      exact h.blank v hv
  known v hv := by
    show ∀ c ∈ _, .customer c ∈ people'.map Person.badge
    rw [hbadges]
    by_cases hvw : v = w
    · subst hvw
      rw [Function.update_self]
      exact hknown
    · rw [Function.update_of_ne hvw]
      exact h.known v hv
  attended := hattended

/-- **A turn of the worker** `w`, person `j`: the customer stays where it may be. -/
theorem Kept.worker_turn (h : f.Kept workers ledgers) {j w : Nat} {k k' : Working} {l' : Ledger}
    {premises' : Premises} (hj : f.people[j]? = some (.worker w k))
    (halike : f.premises.AlikeBut w premises')
    (hview : premises'.view w = l'.view w) (hturn : (ledgers w).stage.ByWorker l'.stage)
    (hcurrent : l'.current = (ledgers w).current) (hclaimant : l'.claimant = (ledgers w).claimant)
    (hpresent : ∀ c ∈ l'.present, c ∈ (ledgers w).present) (hfits : k'.Fits w l') :
    Kept workers ⟨premises', f.people.set j (.worker w k')⟩ (Function.update ledgers w l') := by
  have hw := (h.worker_fits hj).1
  have hmember : .worker w ∈ f.badges := List.mem_of_getElem? (badge_of_getElem? hj)
  refine h.update halike hview (map_set_of_eq hj rfl) (absurd hmember ·)
    (fun c hc => h.known w hw c (hpresent c hc)) (fun i p hi => ?_) (fun v hv hengaged => ?_)
  · rcases getElem?_set_cases hi with ⟨rfl, rfl⟩ | ⟨hij, hold⟩
    · exact ⟨hw, by rw [Function.update_self]; exact hfits⟩
    refine (h.fits i p hold).update (fun k hp _ => ?_) fun c stay d _ hcl hcur hst =>
      ⟨hclaimant.trans hcl, hcurrent.trans hcur, hturn.dealing hst⟩
    subst hp
    exact absurd (h.worker_unique hold hj) hij
  · have hsame : (Function.update ledgers w l' v).claimant = (ledgers v).claimant ∧
        (Function.update ledgers w l' v).current = (ledgers v).current ∧
        (ledgers v).stage.isEngaged = true := by
      by_cases hvw : v = w
      · subst hvw
        rw [Function.update_self] at hengaged ⊢
        exact ⟨hclaimant, hcurrent, hturn.engaged hengaged⟩
      · rw [Function.update_of_ne hvw] at hengaged ⊢
        exact ⟨rfl, rfl, hengaged⟩
    rw [hsame.1, hsame.2.1]
    exact attended_set (h.attended v hv hsame.2.2) fun c u hu => by cases hj.symm.trans hu

/-- **A turn of the customer** `c`, person `i`: the worker stays where it may be. -/
theorem Kept.customer_turn (h : f.Kept workers ledgers) {i w : Nat} {c : Customer}
    {v : Visiting} {stay : Stay} {d : Dealing} {l' : Ledger} {premises' : Premises}
    (hi : f.people[i]? = some (.customer c v)) (hw : w < workers)
    (halike : f.premises.AlikeBut w premises')
    (hview : premises'.view w = l'.view w) (hturn : (ledgers w).stage.ByCustomer l'.stage)
    (hpast : l'.past = (ledgers w).past) (hcurrent : l'.current = c) (hclaimant : l'.claimant = i)
    (hwas : (ledgers w).stage ≠ .free → (ledgers w).claimant = i ∧ (ledgers w).current = c)
    (hd : d.isDone = false) (hstage : l'.stage ∈ d.stages)
    (hattends : ∀ u, v.Attends u → u = w) :
    Kept workers ⟨premises', f.people.set i (.customer c (.dealing stay w d))⟩
      (Function.update ledgers w l') := by
  have hlt := (List.getElem?_eq_some_iff.1 hi).1
  have hmember : .customer c ∈ f.badges := List.mem_of_getElem? (badge_of_getElem? hi)
  refine h.update halike hview (map_set_of_eq hi rfl) (fun hno => ?_)
    (fun c' hc' => ?_) (fun j p hj => ?_) (fun u hu hengaged => ?_)
  · have hfresh := (h.blank w hw hno).1
    rw [hfresh] at hturn
    cases hturn
  · -- on record are those who were served before, and the customer itself
    have hmem : c' ∈ (ledgers w).past ++ [c] := by
      rw [Ledger.present, hpast, hcurrent] at hc'
      split at hc'
      · exact hc'
      · exact List.mem_append_left _ hc'
    rcases List.mem_append.1 hmem with hpastmem | hnew
    · refine h.known w hw c' ?_
      rw [Ledger.present]
      split
      · exact List.mem_append_left _ hpastmem
      · exact hpastmem
    · rw [List.mem_singleton.1 hnew]
      exact hmember
  · rcases getElem?_set_cases hj with ⟨rfl, rfl⟩ | ⟨hji, hj⟩
    · exact ⟨hw, fun _ => by rw [Function.update_self]; exact ⟨hclaimant, hcurrent, hstage⟩⟩
    refine (h.fits j p hj).update (fun k _ hk => ?_) fun c' stay' d' _ hcl _ hst => ?_
    · refine ⟨hturn.working hk.stage, fun n hn => ?_, fun a ha => ?_, hk.report⟩
      · rw [hpast]
        exact hk.served n hn
      · -- whoever has an assignment in hand is beyond the stage at which desks are claimed
        have hclaimed : (ledgers w).stage ≠ .free := by
          intro hfree
          have hnone := Working.assignment?_of_free (hfree ▸ hk.stage)
          cases hnone.symm.trans ha
        rw [hcurrent, hk.assignment a ha, (hwas hclaimed).2]
    · -- nobody else deals at a desk that somebody has claimed
      have hclaimed : (ledgers w).stage ≠ .free := fun hfree => d'.free_not_mem (hfree ▸ hst)
      exact absurd (hcl.symm.trans (hwas hclaimed).1) hji
  · by_cases huw : u = w
    · subst huw
      rw [Function.update_self, hclaimant, hcurrent]
      exact ⟨_, List.getElem?_set_self hlt, rfl, hd⟩
    · rw [Function.update_of_ne huw] at hengaged ⊢
      refine attended_set (h.attended u hu hengaged) fun c' x hx hatt => ?_
      obtain ⟨rfl, rfl⟩ := Person.customer.inj (Option.some.inj (hi.symm.trans hx))
      exact huw (hattends u hatt)

/-- **An exchange** between the customer `i` and the worker `j` of a desk moves both. -/
theorem Kept.exchange_turn (h : f.Kept workers ledgers) {i j w : Nat} {c : Customer} {stay : Stay}
    {d d' : Dealing} {k k' : Working} {s : Stage}
    (hi : f.people[i]? = some (.customer c (.dealing stay w d)))
    (hj : f.people[j]? = some (.worker w k)) (hd : d.isDone = false)
    (hview : ((ledgers w).turn s).view w = (ledgers w).view w)
    (htaken : s.isTaken = (ledgers w).stage.isTaken) (hfits : k'.Fits w ((ledgers w).turn s))
    (hd' : (d'.isDone = false ∧ s ∈ d'.stages) ∨ (d'.isDone = true ∧ s.isEngaged = false)) :
    Kept workers ⟨f.premises,
      (f.people.set i (.customer c (.dealing stay w d'))).set j (.worker w k')⟩
      (Function.update ledgers w ((ledgers w).turn s)) := by
  obtain ⟨hw, hclaimant, hcurrent, -⟩ := h.dealing_fits hi hd
  have hdealing : d'.isDone = false → s ∈ d'.stages := by
    intro hno
    rcases hd' with ⟨-, hmem⟩ | ⟨hyes, -⟩
    · exact hmem
    · cases hyes.symm.trans hno
  have hdone : d'.isDone = true → s.isEngaged = false := by
    intro hyes
    rcases hd' with ⟨hno, -⟩ | ⟨-, hfree⟩
    · cases hyes.symm.trans hno
    · exact hfree
  have hlt := (List.getElem?_eq_some_iff.1 hi).1
  have hij : i ≠ j := by
    rintro rfl
    cases hi.symm.trans hj
  have hj' : (f.people.set i (.customer c (.dealing stay w d')))[j]? = some (.worker w k) := by
    rw [List.getElem?_set_ne hij]
    exact hj
  have hmember : .worker w ∈ f.badges := List.mem_of_getElem? (badge_of_getElem? hj)
  have hbadges : ((f.people.set i (.customer c (.dealing stay w d'))).set j (.worker w k')).map
      Person.badge = f.badges := by
    have hworker : (Person.worker w k').badge = (Person.worker w k).badge := rfl
    rw [map_set_of_eq hj' hworker]
    exact map_set_of_eq hi rfl
  refine h.update ⟨rfl, rfl, fun _ _ => rfl⟩ ((h.views w hw).trans hview.symm) hbadges
    (absurd hmember ·) (fun c' hc' => h.known w hw c' ?_) (fun m p hm => ?_)
    (fun v hv hengaged => ?_)
  · rw [Ledger.present, show ((ledgers w).turn s).stage.isTaken = s.isTaken from rfl, htaken] at hc'
    exact hc'
  · rcases getElem?_set_cases hm with ⟨rfl, rfl⟩ | ⟨hmj, hm'⟩
    · exact ⟨hw, by rw [Function.update_self]; exact hfits⟩
    rcases getElem?_set_cases hm' with ⟨rfl, rfl⟩ | ⟨hmi, hold⟩
    · refine ⟨hw, fun hd' => ?_⟩
      rw [Function.update_self]
      exact ⟨hclaimant, hcurrent, hdealing hd'⟩
    refine (h.fits m p hold).update (fun k hp _ => ?_) fun c' stay' d'' _ hcl _ _ => ?_
    · subst hp
      exact absurd (h.worker_unique hold hj) hmj
    · exact absurd (hcl.symm.trans hclaimant) hmi
  · by_cases hvw : v = w
    · subst hvw
      rw [Function.update_self] at hengaged ⊢
      have hd' : d'.isDone = false := by
        by_contra hne
        have hno := hdone (by simpa using hne)
        rw [show ((ledgers v).turn s).stage.isEngaged = s.isEngaged from rfl, hno] at hengaged
        cases hengaged
      refine ⟨.dealing stay v d', ?_, rfl, hd'⟩
      show _ = some (Person.customer (ledgers v).current (.dealing stay v d'))
      rw [show ((ledgers v).turn s).claimant = i from hclaimant, hcurrent,
        List.getElem?_set_ne (Ne.symm hij), List.getElem?_set_self hlt]
    · rw [Function.update_of_ne hvw] at hengaged ⊢
      refine attended_set (attended_set (h.attended v hv hengaged) fun c' u hu hatt => ?_)
        fun c' u hu => by cases hj'.symm.trans hu
      obtain ⟨-, rfl⟩ := Person.customer.inj (Option.some.inj (hi.symm.trans hu))
      exact hvw hatt.1.symm

end Kept

end Floor

end Postal

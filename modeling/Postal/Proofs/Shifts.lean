import Mathlib.Data.List.Nodup
import Postal.Proofs.Breach

/-!
# What is announced at a desk is a shift.

The six events of a service come from two people, and are ordered only through a token and three
exchanges. The ledger of the desk knows them in order, so the events of a worker are those of the
services in its book (`Floor.Kept.events_begin`). That no customer is in two books is seen from the
claims: everybody announces a claim at most once, since there is no way back to where a claim is
announced (`Floor.claims_le`). At the end, when nobody has closed the office and nobody panicked, no
desk is engaged any more, and the book of a worker is its report (`shift_grammar`).

## §1 — one claim for each customer.
## §2 — the services in a book.
## §3 — the end of a shift.
-/

namespace Postal

/-! ## §1 — one claim for each customer -/

/-- The customer and the worker of an event that announces a claim. -/
def Event.claim? : Event → Option (Nat × Nat)
  | .customerClaimsWorker c w => some (c, w)
  | _ => none

/-- The claims that were announced. -/
def Trace.claims (es : List Event) : List (Nat × Nat) := es.filterMap Event.claim?

/-- Whether a customer is past the announcement of its claim. It may also have left before. -/
def Visiting.hasClaimed : Visiting → Bool
  | .announcingCreation | .entering _ | .admitted _ | .announcingAdmission _ => false
  | .claiming _ _ => false
  | .dealing _ _ .announcingClaim => false
  | _ => true

/-- Whether a person is the customer `x` and past the announcement of its claim, as a weight. -/
def Person.claimed (x : Nat) : Person → Nat
  | .customer c v => if c.id = x ∧ v.hasClaimed = true then 1 else 0
  | _ => 0

/-- The id of a customer. -/
def Badge.customerId? : Badge → Option Nat
  | .customer c => some c.id
  | _ => none

/-- Only who stands before its claim announces one. -/
theorem Visiting.claim?_of_emits {c : Customer} {v : Visiting} {claim : Nat × Nat}
    (h : (v.emits? c).bind Event.claim? = some claim) :
    ∃ stay w, v = .dealing stay w .announcingClaim ∧ claim = (c.id, w) := by
  cases v with
  | dealing stay w d =>
      cases d with
      | announcingClaim => exact ⟨stay, w, rfl, (Option.some.inj h).symm⟩
      | _ => cases h
  | _ => cases h

/-- There is no way back before the claim. -/
theorem Visiting.Steps.hasClaimed {c : Customer} {p p' : Premises} {v v' : Visiting}
    (h : v.Steps c p v' p') (hv : v.hasClaimed = true) : v'.hasClaimed = true := by
  cases h with
  | announcesCreation => cases hv
  | enters henter => cases hv
  | looksUp => cases hv
  | announcesAdmission => cases hv
  | claims hclaim => cases hv
  | _ => rfl

/-- Whoever announces its claim is past it. -/
theorem Visiting.Steps.claims_once {c : Customer} {p p' : Premises} {v' : Visiting} {stay : Stay}
    {w : Nat} (h : (Visiting.dealing stay w .announcingClaim).Steps c p v' p') :
    v'.hasClaimed = true := by
  cases h <;> rfl

namespace Floor

/-- How often customer `x` has announced a claim. -/
def claimsOf (f : Floor) (x : Nat) : Nat := ((Trace.claims f.premises.events).map Prod.fst).count x

/-- The claims after an announcement. -/
theorem claims_append (es : List Event) (e : Option Event) :
    Trace.claims (es ++ e.toList) = Trace.claims es ++ (e.bind Event.claim?).toList := by
  rw [Trace.claims, Trace.claims, List.filterMap_append]
  congr 1
  cases e with
  | none => rfl
  | some e => cases h : e.claim? <;> simp [h]

/-- A worker announces no claim. -/
theorem claim?_of_worker {id : Nat} (k : Working) : (k.emits? id).bind Event.claim? = none := by
  cases k with
  | serving n a position => cases position <;> rfl
  | _ => rfl

/-- The weight of a customer who goes on does not fall. -/
theorem claimed_le (x : Nat) {c : Customer} {v v' : Visiting}
    (h : v.hasClaimed = true → v'.hasClaimed = true) :
    (Person.customer c v).claimed x ≤ (Person.customer c v').claimed x := by
  simp only [Person.claimed]
  split_ifs with h1 h2
  · exact Nat.le_refl _
  · exact absurd ⟨h1.1, h h1.2⟩ h2
  · exact Nat.zero_le _
  · exact Nat.le_refl _

/-- **A customer that announces a claim** is past its claim from then on. -/
theorem claims_le_customer {f : Floor} {i : Nat} {c : Customer} {v v' : Visiting} {p' : Premises}
    (hi : f.people[i]? = some (.customer c v)) (hv : v.Steps c f.premises v' p') (x : Nat)
    (h : f.claimsOf x ≤ tally (Person.claimed x) f.people) :
    claimsOf ⟨p', f.people.set i (.customer c v')⟩ x ≤
      tally (Person.claimed x) (f.people.set i (.customer c v')) := by
  have hset := tally_set (f := Person.claimed x) hi (.customer c v')
  have hcount : claimsOf ⟨p', f.people.set i (.customer c v')⟩ x =
      f.claimsOf x + (((v.emits? c).bind Event.claim?).toList.map Prod.fst).count x := by
    rw [claimsOf, hv.events_eq, claims_append, List.map_append, List.count_append]
    rfl
  rw [hcount]
  -- whoever announces a claim weighs nothing before and one afterwards
  cases hclaim : (v.emits? c).bind Event.claim? with
  | none =>
      have hle := claimed_le x (c := c) hv.hasClaimed
      simp only [Option.toList_none, List.map_nil, List.count_nil]
      omega
  | some claim =>
      obtain ⟨stay, w, rfl, rfl⟩ := Visiting.claim?_of_emits hclaim
      have his := hv.claims_once
      have hwas : (Visiting.dealing stay w .announcingClaim).hasClaimed = false := rfl
      simp only [Person.claimed, his, hwas, and_true, Bool.false_eq_true, and_false, if_false]
        at hset
      simp only [Option.toList_some, List.map_cons, List.map_nil, List.count_singleton, beq_iff_eq]
      omega

/-- The weight of a person that is unwound does not fall. -/
theorem claimed_le_unwind (x : Nat) {p p' : Person} (h : p.unwind? = some p') :
    p.claimed x ≤ p'.claimed x := by
  -- whoever is unwound announces no claim afterwards
  cases Person.unwinds_of_unwind? h with
  | outside => exact claimed_le x fun _ => rfl
  | entered => exact claimed_le x fun _ => rfl
  | dealing he => exact claimed_le x fun _ => rfl
  | _ => exact Nat.zero_le _

/-- **Every move** keeps it that a customer has announced at most as many claims as there are people
with its id past that. -/
theorem claims_le_move {f f' : Floor} {m : Move} (hmove : f.move? m = some f') (x : Nat)
    (h : f.claimsOf x ≤ tally (Person.claimed x) f.people) :
    f'.claimsOf x ≤ tally (Person.claimed x) f'.people := by
  cases m with
  | step i =>
      cases steps_of_step? hmove with
      | customer hi hv => exact claims_le_customer hi hv x h
      | @worker id k k' p' hi hk =>
          have hsame : tally (Person.claimed x) (f.people.set i (.worker id k')) =
              tally (Person.claimed x) f.people := tally_set_of_eq hi rfl
          rw [claimsOf, hk.events_eq, claims_append, claim?_of_worker, Option.toList_none,
            List.append_nil, hsame]
          exact h
      | @closer k k' p' hi hk =>
          have hsame : tally (Person.claimed x) (f.people.set i (.closer k')) =
              tally (Person.claimed x) f.people := tally_set_of_eq hi rfl
          rw [hsame]
          cases hk <;> exact h
  | exchange i j =>
      obtain ⟨w, people', -, hex, rfl⟩ := exchanges_of_exchange? hmove
      rw [hex.tally_eq fun hs => by cases hs <;> rfl]
      exact h
  | unwind i =>
      obtain ⟨p, p', hi, hunwind, rfl⟩ := unwind?_eq_some hmove
      have hset := tally_set (f := Person.claimed x) hi p'
      have hle := claimed_le_unwind x hunwind
      have hclaims : claimsOf { f with people := f.people.set i p' } x = f.claimsOf x := rfl
      rw [hclaims]
      show f.claimsOf x ≤ tally (Person.claimed x) (f.people.set i p')
      omega
  | fire =>
      obtain rfl := Option.some.inj hmove
      exact h
  | join p =>
      obtain rfl := Option.some.inj hmove
      rw [Floor.join, tally_concat]
      exact Nat.le_add_right_of_le h

/-- There are no more people past their claim than people with that id. -/
theorem tally_claimed_le (people : List Person) (x : Nat) :
    tally (Person.claimed x) people ≤
      ((people.map Person.badge).filterMap Badge.customerId?).count x := by
  induction people with
  | nil => exact Nat.le_refl _
  | cons p people ih =>
      rw [tally_cons, List.map_cons, List.filterMap_cons]
      cases p with
      | customer c v =>
          show (if c.id = x ∧ v.hasClaimed = true then 1 else 0) + _ ≤ List.count x (c.id :: _)
          rw [List.count_cons]
          split_ifs with h1 h2 h2
          · omega
          · exact absurd (by simpa using h1.1) h2
          · omega
          · omega
      | worker w k =>
          show 0 + _ ≤ List.count x (List.filterMap Badge.customerId? _)
          omega
      | closer k =>
          show 0 + _ ≤ List.count x (List.filterMap Badge.customerId? _)
          omega

/-- **Nobody claims twice**: customers with distinct ids announce distinct claims. -/
theorem claims_nodup {capacity workers minute clock : Nat} {ms : List Move} {f : Floor}
    (hms : Regular workers ms)
    (hcustomers : ((newcomers ms).filterMap Badge.customerId?).Nodup)
    (hrun : run? ms (.opening (.furnish capacity workers minute) clock) = some f) :
    ((Trace.claims f.premises.events).map Prod.fst).Nodup := by
  obtain ⟨-, hclaims⟩ := regular_induction
    (motive := fun f => ∀ x, f.claimsOf x ≤ tally (Person.claimed x) f.people) hms
    (fun x => Nat.le_refl _) (fun _ _ hle hmove x => claims_le_move hmove x (hle x)) hrun
  refine List.nodup_iff_count_le_one.2 fun x => ?_
  have hids := List.nodup_iff_count_le_one.1 hcustomers x
  have hbadges : f.badges = newcomers ms := badges_run hrun
  rw [← hbadges] at hids
  exact Nat.le_trans (hclaims x) (Nat.le_trans (tally_claimed_le f.people x) hids)

end Floor

/-! ## §2 — the services in a book -/

/-- The customers whose claims at the desk were announced, in that order. -/
def Ledger.served (l : Ledger) : List Customer :=
  if l.stage = .absent then []
  else if 2 ≤ l.stage.announced then l.past ++ [l.current] else l.past

/-- The claims of a shift are those of its customers. -/
theorem claims_shift (w : Nat) (cs : List Customer) :
    Trace.claims (Trace.shift w cs) = cs.map fun c => (c.id, w) := by
  rw [Trace.shift, Trace.claims, List.filterMap_cons_none rfl, List.filterMap_flatMap]
  induction cs with
  | nil => rfl
  | cons c cs ih => rw [List.flatMap_cons, ih]; rfl

namespace Ledger

/-- The events of a desk are a shift with the customers served, possibly cut short, and possibly
with the announcement that the worker is idle once more. -/
theorem events_begin (l : Ledger) (w : Nat) :
    l.events w <+: Trace.shift w l.served ++ [.workerIdle w] := by
  rw [events]
  split
  · exact List.nil_prefix
  · next hstage =>
    rw [served, if_neg hstage]
    split
    · have hshift : Trace.shift w (l.past ++ [l.current]) =
          Trace.shift w l.past ++ Trace.service w l.current := by
        simp [Trace.shift]
      rw [hshift, List.append_assoc, List.prefix_append_right_inj]
      exact (List.take_prefix _ _).trans (List.prefix_append _ _)
    · next hcount =>
      rw [List.prefix_append_right_inj]
      have hfew : l.stage.announced = 0 ∨ l.stage.announced = 1 := by omega
      rcases hfew with hzero | hone
      · rw [hzero]
        exact List.nil_prefix
      · rw [hone]
        exact List.prefix_refl _

/-- The claims that were announced at a desk. -/
theorem claims_events (l : Ledger) (w : Nat) :
    Trace.claims (l.events w) = l.served.map fun c => (c.id, w) := by
  rw [events]
  split
  · next hstage =>
    rw [served, if_pos hstage]
    rfl
  · next hstage =>
    have hservice : Trace.claims ((Trace.service w l.current).take l.stage.announced) =
        if 2 ≤ l.stage.announced then [(l.current.id, w)] else [] := by
      cases l.stage <;> rfl
    rw [Trace.claims, List.filterMap_append]
    show Trace.claims _ ++ Trace.claims _ = _
    rw [claims_shift, hservice, served, if_neg hstage]
    split
    · rw [List.map_append]
      rfl
    · exact List.append_nil _

/-- Whoever was served at a desk is on its record. -/
theorem mem_present (l : Ledger) {c : Customer} (hc : c ∈ l.served) : c ∈ l.present := by
  have hmem : c ∈ (if 2 ≤ l.stage.announced then l.past ++ [l.current] else l.past) := by
    rw [served] at hc
    split at hc
    · cases hc
    · exact hc
  rw [present]
  split at hmem
  · next hcount =>
    have htaken : l.stage.isTaken = true := by
      cases hs : l.stage <;> rw [hs] at hcount <;> first | rfl | exact absurd hcount (by decide)
    rw [if_pos htaken]
    exact hmem
  · split
    · exact List.mem_append_left _ hmem
    · exact hmem

end Ledger

namespace Floor

section Kept

variable {workers : Nat} {f : Floor} {ledgers : Nat → Ledger}

/-- The events of a worker are those in the book of its desk. -/
theorem Kept.events_eq (h : f.Kept workers ledgers) {w : Nat} (hw : w < workers) :
    Trace.worker w f.premises.events = (ledgers w).events w :=
  congrArg View.events (h.views w hw)

/-- The claims announced at a desk are claims that were announced. -/
theorem Kept.claims_of_served (h : f.Kept workers ledgers) {w : Nat} (hw : w < workers) :
    ((ledgers w).served.map fun c => (c.id, w)).Sublist (Trace.claims f.premises.events) := by
  rw [← (ledgers w).claims_events w, ← h.events_eq hw]
  exact List.Sublist.filterMap _ List.filter_sublist

/-- **Nobody is served twice** when everybody announces a claim at most once. -/
theorem Kept.served_nodup (h : f.Kept workers ledgers)
    (hclaims : ((Trace.claims f.premises.events).map Prod.fst).Nodup) :
    ((List.range workers).flatMap fun w => (ledgers w).served.map (·.id)).Nodup := by
  rw [List.nodup_flatMap]
  refine ⟨fun w hw => ?_, ?_⟩
  · have hsub := (h.claims_of_served (List.mem_range.1 hw)).map Prod.fst
    rw [List.map_map] at hsub
    exact hclaims.sublist hsub
  · -- an id at two desks would be in two claims
    refine List.Pairwise.imp_of_mem (fun {w v} hw hv hne => ?_) List.nodup_range
    intro x hx hx'
    obtain ⟨c, hc, rfl⟩ := List.mem_map.1 hx
    obtain ⟨c', hc', hid⟩ := List.mem_map.1 hx'
    have hcw := (h.claims_of_served (List.mem_range.1 hw)).subset (List.mem_map_of_mem hc)
    have hcv := (h.claims_of_served (List.mem_range.1 hv)).subset (List.mem_map_of_mem hc')
    have heq := List.inj_on_of_nodup_map hclaims hcw hcv hid.symm
    exact hne (Prod.mk.inj heq).2

end Kept

end Floor

/-! ## §3 — the end of a shift -/

namespace Floor

section Kept

variable {workers : Nat} {f : Floor} {ledgers : Nat → Ledger}

/-- When everybody has left without a failure and without a panic, no desk is engaged. -/
theorem Kept.disengaged (h : f.Kept workers ledgers)
    (hsound : ∀ (i : Nat) (p : Person), f.people[i]? = some p → p.Sound False)
    (hunhurt : ∀ (i : Nat) (p : Person), f.people[i]? = some p → p.Unhurt)
    (hended : ∀ p ∈ f.people, p.hasEnded = true) {w : Nat} (hw : w < workers) :
    (ledgers w).stage.isEngaged = false := by
  by_contra hne
  obtain ⟨v, hv, hatt⟩ := h.attended w hw (by simpa using hne)
  have hover := hended _ (List.mem_of_getElem? hv)
  cases v with
  | ended ending =>
      cases ending with
      | returned visit => cases hatt
      | failed e => exact (hsound _ _ hv e rfl).2
      | panicked => exact hunhurt _ _ hv
  | _ => cases hover

/-- **The book of a worker that has left** is its report, when its desk is not engaged: it holds all
the events of the worker, but for the announcement that it was idle once more. -/
theorem Kept.closed_book (h : f.Kept workers ledgers) {i w : Nat} {r : WorkerReport}
    (hi : f.people[i]? = some (.worker w (.ended (.returned r))))
    (hengaged : (ledgers w).stage.isEngaged = false) :
    r.worker = w ∧ r.served = (ledgers w).served.length ∧
      (Trace.worker w f.premises.events = Trace.shift w (ledgers w).served ∨
        Trace.worker w f.premises.events =
          Trace.shift w (ledgers w).served ++ [.workerIdle w]) := by
  obtain ⟨hw, hk⟩ := h.worker_fits hi
  have hleft : (ledgers w).stage.isLeft = true := hk.stage
  -- all other stages at which a worker can have left have a customer
  have hstage : (ledgers w).stage = .resting ∨ (ledgers w).stage = .free := by
    cases hs : (ledgers w).stage <;> rw [hs] at hleft hengaged <;>
      first
      | exact .inl rfl
      | exact .inr rfl
      | exact absurd hleft (by decide)
      | exact absurd hengaged (by decide)
  have hserved : (ledgers w).served = (ledgers w).past := by
    rcases hstage with hs | hs <;> rw [Ledger.served, hs] <;> rfl
  refine ⟨hk.report r rfl, by rw [hserved]; exact hk.served r.served rfl, ?_⟩
  rw [h.events_eq hw, hserved, Ledger.events]
  rcases hstage with hs | hs
  · rw [hs]
    exact .inl (List.append_nil _)
  · rw [hs]
    exact .inr rfl

end Kept

/-- **The grammar of a shift.** Take an office, customers with distinct ids, a shift for each worker
at most, closes and the shutdown at any moment, and any interleaving. There is a list of customers
for every worker such that all that was announced of the worker is the beginning of a shift with
these customers, one service after another and then possibly one more announcement to be idle; each
of them is one of the customers who came, with its own task, and nobody occurs twice in all these
lists. If nobody closes the office and no announcement panics, then once everybody has left each
worker has reported exactly the services of its list, and nothing was announced of it but these
services and possibly one more time that it is idle. -/
theorem shift_grammar (capacity workers minute clock : Nat) (hword : workers ≤ wordMax)
    (ms : List Move) (hms : Regular workers ms)
    (hcustomers : ((newcomers ms).filterMap Badge.customerId?).Nodup) (f : Floor)
    (hrun : run? ms (.opening (.furnish capacity workers minute) clock) = some f) :
    ∃ served : Nat → List Customer,
      (∀ w, w < workers → Trace.worker w f.premises.events <+:
        Trace.shift w (served w) ++ [.workerIdle w]) ∧
      (∀ w, w < workers → ∀ c ∈ served w, .customer c ∈ newcomers ms) ∧
      ((List.range workers).flatMap fun w => (served w).map (·.id)).Nodup ∧
      ((.closer ∉ newcomers ms) → (∀ i, .unwind i ∉ ms) → (∀ p ∈ f.people, p.hasEnded = true) →
        ∀ (i w : Nat) (k : Working), f.people[i]? = some (.worker w k) →
          ∃ r, k.ending? = some (.returned r) ∧ r.worker = w ∧ r.served = (served w).length ∧
            (Trace.worker w f.premises.events = Trace.shift w (served w) ∨
              Trace.worker w f.premises.events =
                Trace.shift w (served w) ++ [.workerIdle w])) := by
  obtain ⟨⟨ledgers, h⟩, -, -, hsound⟩ := sound_run hword hms hrun
  have hbadges : f.badges = newcomers ms := badges_run hrun
  refine ⟨fun w => (ledgers w).served, fun w hw => ?_, fun w hw c hc => ?_, ?_,
    fun hcloser hunwind hended i w k hi => ?_⟩
  · rw [h.events_eq hw]
    exact (ledgers w).events_begin w
  · rw [← hbadges]
    exact h.known w hw c ((ledgers w).mem_present hc)
  · exact h.served_nodup (claims_nodup hms hcustomers hrun)
  · have hunhurt : ∀ (i : Nat) (p : Person), f.people[i]? = some p → p.Unhurt :=
      fun i => unhurt_run hms (hunwind i) hrun
    -- without a close nobody is excused
    have hstrict : ∀ (i : Nat) (p : Person), f.people[i]? = some p → p.Sound False := by
      intro i p hi
      refine sound_mono (hsound i p hi) fun hbegun => ?_
      obtain ⟨j, k, hj, -⟩ := hbegun
      exact hcloser (hbadges ▸ List.mem_of_getElem? (badge_of_getElem? hj))
    obtain ⟨e, he⟩ := Option.isSome_iff_exists.1 (hended _ (List.mem_of_getElem? hi))
    rcases (hstrict i _ hi).shift_ending he with ⟨r, rfl⟩ | ⟨-, hhurt⟩
    · obtain rfl := Working.eq_ended he
      exact ⟨r, rfl, h.closed_book hi (h.disengaged hstrict hunhurt hended (h.worker_fits hi).1)⟩
    · exact absurd (hunhurt i _ hi) hhurt

/-- One worker serves one customer, who comes before the shutdown: the worker has one customer in
its list, and has announced that it is idle once more. -/
theorem shift_grammar_served :
    let c : Customer := ⟨7, .mailPackage⟩
    let ms : List Move := List.flatten [[.join (.starts 0), .join (.arrives c)],
      .replicate 7 (.step 0), .replicate 10 (.step 1), [.exchange 1 0, .step 0, .step 0, .step 0,
      .exchange 0 1, .step 1, .step 1, .exchange 1 0], .replicate 10 (.step 0), [.exchange 0 1],
      .replicate 6 (.step 0), .replicate 5 (.step 1), [.fire, .step 0]]
    1 ≤ wordMax ∧ Regular 1 ms ∧ ((newcomers ms).filterMap Badge.customerId?).Nodup ∧
      ∃ f, run? ms (.opening (.furnish 1 1 0) 0) = some f ∧
        ∃ served : List Customer, served.length = 1 ∧ (∀ x ∈ served, x = c) ∧
          (Trace.worker 0 f.premises.events = Trace.shift 0 served ∨
            Trace.worker 0 f.premises.events = Trace.shift 0 served ++ [.workerIdle 0]) := by
  intro c ms
  have hms : Regular 1 ms := by decide
  have hids : ((newcomers ms).filterMap Badge.customerId?).Nodup := by decide
  have hends : (run? ms (.opening (.furnish 1 1 0) 0)).map Floor.people =
      some [.worker 0 (.ended (.returned ⟨0, 1⟩)),
        .customer c (.ended (.returned ⟨c, 0, 0, 0, 0⟩))] := by
    decide +kernel
  obtain ⟨f, hrun, hpeople⟩ := Option.map_eq_some_iff.1 hends
  refine ⟨by decide, hms, hids, f, hrun, ?_⟩
  obtain ⟨served, -, hknown, -, hend⟩ := shift_grammar 1 1 0 0 (by decide) ms hms hids f hrun
  obtain ⟨r, hr, -, hlength, hevents⟩ := hend (by decide)
    (fun i hi => by simp [ms] at hi) (by rw [hpeople]; decide) 0 0 _
    (by rw [hpeople]; rfl)
  obtain rfl := Ending.returned.inj (Option.some.inj hr)
  refine ⟨served 0, hlength.symm, fun x hx => ?_, hevents⟩
  have hmem := hknown 0 (by decide) x hx
  have hcame : newcomers ms = [.worker 0, .customer c] := rfl
  simpa [hcame] using hmem

end Floor

end Postal

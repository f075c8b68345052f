import Postal.Proofs.Select

/-!
# The rules of a place know its selects.

The rules of a place say in one step how a wait ends, and do not mention arms. Here it is shown what
they have to do with the selects: each move at the selects is one by the rules, or it comes to some
steps and exchanges, or to nothing (`Venue.Seated.move`); and each run at the selects is a run by
the rules (`Venue.Seated.run`).

The rules let a shutdown end a wait only if nobody holds out an assignment, and whoever tries once
more finds only those who are parked. So somebody who holds out an assignment must be parked as long
as it stands in line (`Venue.Lined`). All that is asked of a place is that nobody begins in line,
and that its rules have a step for each thing that happens at a select (`Venue.Faithful`).

## §1 — moves by the rules.
## §2 — who stands in line.
## §3 — one move at the selects.
## §4 — runs.
-/

namespace Postal

variable {S M P : Type}

/-- The wait of somebody who holds out an assignment. -/
def Wait.Offers (w : Wait) : Prop := w.signal = .published ∧ w.sends = true

theorem Wait.heeds_iff {w : Wait} : w.heeds = true ↔ w.signal = .published ∧ w.sends = false := by
  rw [heeds, Bool.and_eq_true, beq_iff_eq, Bool.not_eq_true']

/-- Whoever holds out an assignment does not heed the shutdown. -/
theorem Wait.Offers.not_heeds {w : Wait} (h : w.Offers) : w.heeds = false :=
  Bool.eq_false_iff.2 fun hheeds => by cases h.2.symm.trans (heeds_iff.1 hheeds).2

/-- Whoever heeds the shutdown meets whoever holds out an assignment. -/
theorem Wait.offers_of_meets {w w' : Wait} (hmeets : w.meets w' = true) (h : w.heeds = true) :
    w'.Offers := by
  obtain ⟨-, hsignal, hsides⟩ := meets_iff.1 ((meets_comm w' w).trans hmeets)
  obtain ⟨hpublished, hsends⟩ := heeds_iff.1 h
  exact ⟨hsignal.trans hpublished, by rw [hsides, hsends, Bool.not_false]⟩

namespace Venue

/-! ## §1 — moves by the rules -/

/-- Whether a move is a step of somebody, or an exchange. -/
def isOwn (v : Venue S M P) (m : M) : Bool := (v.stepper? m).isSome || v.isExchange m

/-- The state after some moves by the rules, if they are possible. -/
def rules? (v : Venue S M P) : List M → S → Option S
  | [], s => some s
  | m :: ms, s => (v.rule? s m).bind (rules? v ms)

/-- **`v.Acts s s'`** — a step or an exchange leads from `s` to `s'`. -/
def Acts (v : Venue S M P) (s s' : S) : Prop := ∃ m, v.isOwn m = true ∧ v.rule? s m = some s'

/-- **`v.Leads s s'`** — some steps and exchanges lead from `s` to `s'`. -/
def Leads (v : Venue S M P) (s s' : S) : Prop :=
  ∃ ms, v.rules? ms s = some s' ∧ ∀ m ∈ ms, v.isOwn m = true

section Leads

variable {v : Venue S M P} {s s' s'' : S} {m : M} {ms ms' : List M}

theorem rules?_append (h : v.rules? ms s = some s') (h' : v.rules? ms' s' = some s'') :
    v.rules? (ms ++ ms') s = some s'' := by
  induction ms generalizing s with
  | nil =>
      obtain rfl := Option.some.inj h
      exact h'
  | cons m ms ih =>
      obtain ⟨s₁, hrule, hrest⟩ := Option.bind_eq_some_iff.1 h
      exact Option.bind_eq_some_iff.2 ⟨s₁, hrule, ih hrest⟩

theorem Leads.refl (v : Venue S M P) (s : S) : v.Leads s s :=
  ⟨[], rfl, fun _ hm => absurd hm List.not_mem_nil⟩

theorem Leads.trans (h : v.Leads s s') (h' : v.Leads s' s'') : v.Leads s s'' := by
  obtain ⟨ms, hrun, hown⟩ := h
  obtain ⟨ms', hrun', hown'⟩ := h'
  refine ⟨ms ++ ms', rules?_append hrun hrun', fun m hm => ?_⟩
  rcases List.mem_append.1 hm with hm | hm
  · exact hown m hm
  · exact hown' m hm

theorem Acts.leads (h : v.Acts s s') : v.Leads s s' := by
  obtain ⟨m, hm, hrule⟩ := h
  refine ⟨[m], Option.bind_eq_some_iff.2 ⟨s', hrule, rfl⟩, fun m' hm' => ?_⟩
  exact List.mem_singleton.1 hm' ▸ hm

end Leads

/-- **`v.Faithful fit begins`** — the rules of a place fit its selects. As long as moves are as
`begins` says, the place stays `fit` for that; nobody begins in line; no slot is opened again; and
whoever stands in line, or need not, has a step for what happens at its select. A wait is
interrupted by the rules if its slot is closed, or if it heeds the shutdown and nobody stands in
line on the other side. -/
structure Faithful (v : Venue S M P) (fit : S → Prop) (begins : M → Prop) : Prop where
  lawful : v.Lawful
  fit_of_rule : ∀ {s s' : S} {m : M}, fit s → begins m → v.rule? s m = some s' → fit s'
  begins_of_own : ∀ {m : M}, v.isOwn m = true → begins m
  closed_of_aside : ∀ {s s' : S} {m : M} {slot : Nat}, fit s → v.aside? s m = some s' →
    v.closed s slot = true → v.closed s' slot = true
  outside : ∀ {s s' : S} {m : M} {i : Nat} {p : P} {w : Wait}, fit s → begins m →
    v.aside? s m = some s' → (v.people s')[i]? = some p → v.wait? p = some w → w.Offers →
      v.lineUp p = p → (v.people s)[i]? = some p
  lineUp_lineUp : ∀ p, v.lineUp (v.lineUp p) = v.lineUp p
  afterSend_lineUp : ∀ p, v.afterSend (v.lineUp p) = v.afterSend p
  afterReceive_lineUp : ∀ p q, v.afterReceive (v.lineUp p) q = v.afterReceive p q
  interrupted_lineUp : ∀ p, v.interrupted (v.lineUp p) = v.interrupted p
  sent : ∀ {p : P} {w w' : Wait}, v.wait? p = some w → w.sends = true →
    v.wait? (v.afterSend p) = some w' → ¬ w'.Offers
  received : ∀ {p q : P} {w w' w'' : Wait}, v.wait? p = some w → v.wait? q = some w' →
    w.meets w' = true → w.sends = true → v.wait? (v.afterReceive p q) = some w'' → ¬ w''.Offers
  gone : ∀ {p : P} {w : Wait}, v.wait? p = some w → v.wait? (v.interrupted p) = none
  lines : ∀ {s : S} {i : Nat} {p : P}, fit s → (v.people s)[i]? = some p → v.lineUp p ≠ p →
    v.Acts s (v.seat s ((v.people s).set i (v.lineUp p)))
  hands : ∀ {s : S} {i j : Nat} {p q : P} {w w' : Wait}, fit s → (v.people s)[i]? = some p →
    (v.people s)[j]? = some q → v.lineUp p = p → v.wait? p = some w → v.wait? q = some w' →
    w.meets w' = true → w.sends = true → v.closed s w.slot = false →
      v.Acts s (v.seat s (((v.people s).set i (v.afterSend p)).set j (v.afterReceive p q)))
  interrupts : ∀ {s : S} {i : Nat} {p : P} {w : Wait}, fit s → (v.people s)[i]? = some p →
    v.lineUp p = p → v.wait? p = some w → (v.closed s w.slot = true ∨ w.heeds = true ∧
      v.fired s = true ∧ ∀ (j : Nat) (q : P) (w' : Wait), (v.people s)[j]? = some q →
        v.wait? q = some w' → w.meets w' = true → v.lineUp q ≠ q) →
      v.Acts s (v.seat s ((v.people s).set i (v.interrupted p)))

section Faithful

variable {v : Venue S M P} {fit : S → Prop} {begins : M → Prop} {s s' : S} {i j : Nat} {p q : P}
  {w w' : Wait} (hf : v.Faithful fit begins)
include hf

theorem Faithful.fit_of_leads (hfit : fit s) (h : v.Leads s s') : fit s' := by
  obtain ⟨ms, hrun, hown⟩ := h
  induction ms generalizing s with
  | nil => exact Option.some.inj hrun ▸ hfit
  | cons m ms ih =>
      obtain ⟨s₁, hrule, hrest⟩ := Option.bind_eq_some_iff.1 hrun
      have hm := hf.begins_of_own (hown m List.mem_cons_self)
      exact ih (hf.fit_of_rule hfit hm hrule) hrest fun m' hm' =>
        hown m' (List.mem_cons_of_mem _ hm')

/-- Whoever is to wait stands in line for it, by a step or without one. -/
theorem Faithful.leads_lineUp (hfit : fit s) (hi : (v.people s)[i]? = some p) :
    v.Leads s (v.seat s ((v.people s).set i (v.lineUp p))) := by
  by_cases hline : v.lineUp p = p
  · obtain ⟨hlt, hp⟩ := List.getElem?_eq_some_iff.1 hi
    rw [hline, ← hp, List.set_getElem_self hlt, hf.lawful.seat_people]
    exact .refl v s
  · exact (hf.lines hfit hi hline).leads

/-- **A message that is handed over** is so by the rules. -/
theorem Faithful.leads_hands (hfit : fit s) (hi : (v.people s)[i]? = some p)
    (hj : (v.people s)[j]? = some q) (hw : v.wait? p = some w) (hw' : v.wait? q = some w')
    (hmeets : w.meets w' = true) (hsends : w.sends = true) (hopen : v.closed s w.slot = false) :
    v.Leads s (v.seat s (((v.people s).set i (v.afterSend p)).set j (v.afterReceive p q))) := by
  have hij : i ≠ j := by
    rintro rfl
    obtain rfl := Option.some.inj (hi.symm.trans hj)
    obtain rfl := Option.some.inj (hw.symm.trans hw')
    cases w.meets_self.symm.trans hmeets
  have hlines := hf.leads_lineUp hfit hi
  have hhands := hf.hands (hf.fit_of_leads hfit hlines) (i := i) (j := j) (q := q) ?_ ?_
    (hf.lineUp_lineUp p) ((hf.lawful.wait_lineUp p).trans hw) hw' hmeets hsends
    ((hf.lawful.closed_seat ..).trans hopen)
  · rw [hf.lawful.seat_seat, hf.lawful.people_seat, List.set_set, hf.afterSend_lineUp,
      hf.afterReceive_lineUp] at hhands
    exact hlines.trans hhands.leads
  · rw [hf.lawful.people_seat]
    exact List.getElem?_set_self (List.getElem?_eq_some_iff.1 hi).1
  · rw [hf.lawful.people_seat]
    exact (List.getElem?_set_ne hij).trans hj

/-- **A wait that is interrupted** is so by the rules. -/
theorem Faithful.leads_interrupted (hfit : fit s) (hi : (v.people s)[i]? = some p)
    (hw : v.wait? p = some w) (hover : v.closed s w.slot = true ∨ w.heeds = true ∧
      v.fired s = true ∧ ∀ (j : Nat) (q : P) (w' : Wait), (v.people s)[j]? = some q →
        v.wait? q = some w' → w.meets w' = true → v.lineUp q ≠ q) :
    v.Leads s (v.seat s ((v.people s).set i (v.interrupted p))) := by
  have hlines := hf.leads_lineUp hfit hi
  have hinterrupts := hf.interrupts (hf.fit_of_leads hfit hlines) (i := i) ?_ (hf.lineUp_lineUp p)
    ((hf.lawful.wait_lineUp p).trans hw) ?_
  · rw [hf.lawful.seat_seat, hf.lawful.people_seat, List.set_set, hf.interrupted_lineUp]
      at hinterrupts
    exact hlines.trans hinterrupts.leads
  · rw [hf.lawful.people_seat]
    exact List.getElem?_set_self (List.getElem?_eq_some_iff.1 hi).1
  · rw [hf.lawful.closed_seat, hf.lawful.fired_seat, hf.lawful.people_seat]
    rcases hover with hclosed | ⟨hheeds, hfired, hnobody⟩
    · exact .inl hclosed
    refine .inr ⟨hheeds, hfired, fun j q w' hj hq hmeets => ?_⟩
    rcases getElem?_set_cases hj with ⟨rfl, rfl⟩ | ⟨-, hj⟩
    · rw [hf.lawful.wait_lineUp, hw] at hq
      obtain rfl := Option.some.inj hq
      cases w.meets_self.symm.trans hmeets
    · exact hnobody j q w' hj hq hmeets

end Faithful

/-! ## §2 — who stands in line -/

/-- **`v.Lined x`** — whoever holds out an assignment stands in line for it if it is parked; and as
long as it stands in line it is parked, unless its slot was closed meanwhile. -/
def Lined (v : Venue S M P) (x : Selecting S) : Prop :=
  ∀ (i : Nat) (p : P) (w : Wait), (v.people x.place)[i]? = some p → v.wait? p = some w →
    w.Offers → (i ∈ x.parked → v.lineUp p = p) ∧
      (v.lineUp p = p → i ∈ x.parked ∨ v.closed x.place w.slot = true)

/-- **`v.Seated fit x`** — the place is fit, the selects are in order, and everybody is in line. -/
structure Seated (v : Venue S M P) (fit : S → Prop) (x : Selecting S) : Prop where
  fit : fit x.place
  orderly : v.Orderly x
  lined : v.Lined x

section Lined

variable {v : Venue S M P} {fit : S → Prop} {begins : M → Prop} {x : Selecting S}

/-- A move aside leaves everybody in line. -/
theorem Seated.lined_aside (h : v.Seated fit x) (hf : v.Faithful fit begins) {m : M} {s : S}
    (hm : begins m) (haside : v.aside? x.place m = some s) :
    v.Lined { x with place := s, parked := v.stillParked x s } := by
  intro i p w hi hw hoffers
  refine ⟨fun hparked => ?_, fun hline => ?_⟩
  · -- whoever is parked was so before
    obtain ⟨hold, -⟩ := List.mem_filter.1 hparked
    obtain ⟨w', hw', -⟩ := h.orderly.parked i hold
    obtain ⟨q, hq, hqw⟩ := waitOf?_eq_some.1 hw'
    have hwaits : v.wait? q ≠ none := by
      rw [hqw]
      rintro ⟨⟩
    obtain rfl := Option.some.inj ((hf.lawful.stays_of_aside haside hq hwaits).symm.trans hi)
    exact (h.lined i q w hq hw hoffers).1 hold
  · have hold := hf.outside h.fit hm haside hi hw hoffers hline
    rcases (h.lined i p w hold hw hoffers).2 hline with hparked | hclosed
    · -- whoever stays at a slot that is open is not woken
      cases hover : v.isOver s w with
      | true =>
          rw [isOver, hoffers.not_heeds, Bool.false_and, Bool.or_false] at hover
          exact .inr hover
      | false =>
          have hwait : v.waitOf? s i = some w := waitOf?_eq_some.2 ⟨p, hi, hw⟩
          exact .inl (List.mem_filter.2 ⟨hparked, by rw [hwait, Option.all_some, hover]; rfl⟩)
    · exact .inr (hf.closed_of_aside h.fit haside hclosed)

/-- Whoever has nothing to do with a move at the selects stays in line. -/
theorem Seated.lined_seat (h : v.Seated fit x) (hv : v.Lawful) {people : List P}
    {parked retrying : List Nat}
    (hstays : ∀ (i : Nat) (p : P), people[i]? = some p →
      (v.people x.place)[i]? = some p ∧ (i ∈ parked ↔ i ∈ x.parked) ∨
        (∀ w, v.wait? p = some w → ¬ w.Offers) ∨ i ∈ parked ∧ v.lineUp p = p) :
    v.Lined ⟨v.seat x.place people, parked, retrying⟩ := by
  intro i p w hi hw hoffers
  rw [hv.people_seat] at hi
  rw [hv.closed_seat]
  rcases hstays i p hi with ⟨hold, hsame⟩ | hnot | ⟨hparked, hline⟩
  · rw [hsame]
    exact h.lined i p w hold hw hoffers
  · exact absurd hoffers (hnot w hw)
  · exact ⟨fun _ => hline, fun _ => .inl hparked⟩

end Lined

/-! ## §3 — one move at the selects -/

/-- **`v.Shows s s' m`** — a move at the selects from `s` to `s'` is one by the rules, or it shows
there as some steps and exchanges, or not at all. -/
inductive Shows (v : Venue S M P) (s s' : S) : Selecting.Move M → Prop
  | rules {m : M} (h : v.rule? s m = some s') : Shows v s s' (.aside m)
  | leads {m : Selecting.Move M} (hm : ∀ m', m ≠ .aside m') (h : v.Leads s s') : Shows v s s' m

section Seated

variable {v : Venue S M P} {fit : S → Prop} {begins : M → Prop} {x y : Selecting S} {i j : Nat}
  {s s' : S}

/-- **A meeting** leaves the place seated, and the rules know it. -/
theorem Seated.meets (h : v.Seated fit x) (hf : v.Faithful fit begins) (hmeets : v.Meets x i j y) :
    v.Lined y ∧ v.Leads x.place y.place := by
  cases hmeets with
  | @hands a b p q w w' hends hj ha hb hw hw' hmeets hsends =>
      have hslot := (Wait.meets_iff.1 hmeets).1
      -- nobody is parked at a slot that is closed
      have hopen : v.closed x.place w.slot = false := by
        rcases hends with ⟨-, rfl⟩ | ⟨rfl, -⟩
        · rw [hslot]
          exact (h.orderly.open_of_parked hj (waitOf?_eq_some.2 ⟨q, hb, hw'⟩)).1
        · exact (h.orderly.open_of_parked hj (waitOf?_eq_some.2 ⟨p, ha, hw⟩)).1
      refine ⟨h.lined_seat hf.lawful fun k r hk => ?_,
        hf.leads_hands h.fit ha hb hw hw' hmeets hsends hopen⟩
      rcases getElem?_set_cases hk with ⟨rfl, rfl⟩ | ⟨hkb, hk⟩
      · exact .inr (.inl fun w'' => hf.received hw hw' hmeets hsends)
      rcases getElem?_set_cases hk with ⟨rfl, rfl⟩ | ⟨hka, hk⟩
      · exact .inr (.inl fun w'' => hf.sent hw hsends)
      · have hkj : k ≠ j := by
          rcases hends with ⟨-, rfl⟩ | ⟨rfl, -⟩
          · exact hkb
          · exact hka
        exact .inl ⟨hk, by simp [hkj]⟩

/-- **An interruption** leaves everybody in line, and the rules know it. -/
theorem Seated.interrupt (h : v.Seated fit x) (hf : v.Faithful fit begins) {w : Wait}
    (hw : v.waitOf? x.place i = some w)
    (hover : v.closed x.place w.slot = true ∨ w.heeds = true ∧ v.fired x.place = true ∧
      ∀ j ∈ x.parked, v.meets x.place i j = false) :
    v.Lined (v.interrupt x i) ∧ v.Leads x.place (v.interrupt x i).place := by
  obtain ⟨p, hi, hp⟩ := waitOf?_eq_some.1 hw
  rw [Venue.interrupt, change_eq_seat hi]
  refine ⟨h.lined_seat hf.lawful fun k q hk => ?_, hf.leads_interrupted h.fit hi hp ?_⟩
  · rcases getElem?_set_cases hk with ⟨rfl, rfl⟩ | ⟨-, hk⟩
    · refine .inr (.inl fun w' hw' => ?_)
      rw [hf.gone hp] at hw'
      cases hw'
    · exact .inl ⟨hk, Iff.rfl⟩
  cases hclosed : v.closed x.place w.slot with
  | true => exact .inl rfl
  | false =>
      have hopen : ¬ v.closed x.place w.slot = true := by
        rw [hclosed]
        exact Bool.false_ne_true
      obtain ⟨hheeds, hfired, halone⟩ := hover.resolve_left hopen
      -- whoever stood in line on the other side would be parked, and met
      refine .inr ⟨hheeds, hfired, fun j q w' hj hq hmeets hline => ?_⟩
      have hoffers := Wait.offers_of_meets hmeets hheeds
      rcases (h.lined j q w' hj hq hoffers).2 hline with hparked | hshut
      · have hmeet := meets_eq_true.2 ⟨w, w', hw, waitOf?_eq_some.2 ⟨q, hj, hq⟩, hmeets⟩
        cases (halone j hparked).symm.trans hmeet
      · rw [← (Wait.meets_iff.1 hmeets).1] at hshut
        cases hclosed.symm.trans hshut

/-- **Every move** leaves the place seated, and the rules know it. -/
theorem Seated.move (h : v.Seated fit x) (hf : v.Faithful fit begins) {m : Selecting.Move M}
    (hm : ∀ m', m = .aside m' → begins m') (hmove : v.move? x m = some y) :
    v.Seated fit y ∧ v.Shows x.place y.place m := by
  have horderly := h.orderly.move hf.lawful hmove
  have hleads : v.Lined y ∧ v.Leads x.place y.place → (∀ m', m ≠ .aside m') →
      v.Seated fit y ∧ v.Shows x.place y.place m := fun hlined hne =>
    ⟨⟨hf.fit_of_leads h.fit hlined.2, horderly, hlined.1⟩, .leads hne hlined.2⟩
  cases Venue.goes_of_move? hmove with
  | @aside m s haside =>
      have hrule := (aside?_eq_some haside).2.2
      have hbegins := hm m rfl
      exact ⟨⟨hf.fit_of_rule h.fit hbegins hrule, horderly, h.lined_aside hf hbegins haside⟩,
        .rules hrule⟩
  | @parks i w hw haway hover halone =>
      obtain ⟨p, hi, hp⟩ := waitOf?_eq_some.1 hw
      refine hleads ?_ (by rintro _ ⟨⟩)
      rw [change_eq_seat hi]
      refine ⟨h.lined_seat hf.lawful fun k q hk => ?_, hf.leads_lineUp h.fit hi⟩
      rcases getElem?_set_cases hk with ⟨rfl, rfl⟩ | ⟨hki, hk⟩
      · exact .inr (.inr ⟨List.mem_cons_self, hf.lineUp_lineUp p⟩)
      · exact .inl ⟨hk, by simp [hki]⟩
  | meets haway hmeets => exact hleads (h.meets hf hmeets) (by rintro _ ⟨⟩)
  | quits hw haway hclosed => exact hleads (h.interrupt hf hw (.inl hclosed)) (by rintro _ ⟨⟩)
  | heeds hw haway hheeds hfired => exact hleads ⟨h.lined, .refl _ _⟩ (by rintro _ ⟨⟩)
  | receives hi hmeets => exact hleads (h.meets hf hmeets) (by rintro _ ⟨⟩)
  | @misses i hi halone =>
      obtain ⟨w, hw, hheeds⟩ := h.orderly.retrying i hi
      have hfired := h.orderly.fired (List.ne_nil_of_mem hi)
      exact hleads (h.interrupt hf hw (.inr ⟨hheeds, hfired, halone⟩)) (by rintro _ ⟨⟩)

/-! ## §4 — runs -/

/-- A place where nobody is at a select yet, and nobody stands in line. -/
theorem seated_start (hfit : fit s) (hnobody : v.people s = []) : v.Seated fit (.start s) where
  fit := hfit
  orderly := v.orderly_start s
  lined i p w hi := by
    replace hi : (v.people s)[i]? = some p := hi
    rw [hnobody] at hi
    cases hi

/-- **Every run** leaves the place seated, and is a run by the rules. What happens in it that is no
step of anybody and no exchange is the same, in the same order. -/
theorem Seated.run (h : v.Seated fit x) (hf : v.Faithful fit begins)
    {ms : List (Selecting.Move M)} (hms : ∀ m, .aside m ∈ ms → begins m)
    (hrun : v.run? ms x = some y) :
    v.Seated fit y ∧ ∃ ms', v.rules? ms' x.place = some y.place ∧ (∀ m ∈ ms', begins m) ∧
      ms'.filter (fun m => !v.isOwn m) =
        (ms.filterMap Selecting.Move.aside?).filter fun m => !v.isOwn m := by
  induction ms generalizing x with
  | nil =>
      obtain rfl := Option.some.inj hrun
      exact ⟨h, [], rfl, fun _ hm => absurd hm List.not_mem_nil, rfl⟩
  | cons m ms ih =>
      obtain ⟨x', hmove, hrest⟩ := Option.bind_eq_some_iff.1 hrun
      obtain ⟨hseated, hshows⟩ := h.move hf
        (fun m' hm' => hms m' (hm' ▸ List.mem_cons_self)) hmove
      obtain ⟨hend, ms₂, hrun₂, hbegins, hsame⟩ := ih hseated
        (fun m' hm' => hms m' (List.mem_cons_of_mem _ hm')) hrest
      refine ⟨hend, ?_⟩
      cases hshows with
      | @rules m hrule =>
          refine ⟨m :: ms₂, Option.bind_eq_some_iff.2 ⟨_, hrule, hrun₂⟩, fun m' hm' => ?_, ?_⟩
          · rcases List.mem_cons.1 hm' with rfl | hm'
            · exact hms _ List.mem_cons_self
            · exact hbegins m' hm'
          show _ = (m :: ms.filterMap Selecting.Move.aside?).filter _
          rw [List.filter_cons, List.filter_cons, hsame]
      | leads hm hleads =>
          obtain ⟨ms₁, hrun₁, hown⟩ := hleads
          refine ⟨ms₁ ++ ms₂, rules?_append hrun₁ hrun₂, fun m' hm' => ?_, ?_⟩
          · rcases List.mem_append.1 hm' with hm' | hm'
            · exact hf.begins_of_own (hown m' hm')
            · exact hbegins m' hm'
          have hnone : ms₁.filter (fun m => !v.isOwn m) = [] :=
            List.filter_eq_nil_iff.2 fun m' hm' => by simp [hown m' hm']
          have haside : Selecting.Move.aside? m = none := by
            cases m with
            | aside m' => exact absurd rfl (hm m')
            | _ => rfl
          rw [List.filter_append, hnone, List.nil_append, hsame, List.filterMap_cons_none haside]

theorem count_aside? [DecidableEq M] (ms : List (Selecting.Move M)) (m : M) :
    (ms.filterMap Selecting.Move.aside?).count m = ms.count (.aside m) := by
  induction ms with
  | nil => rfl
  | cons m' ms ih =>
      cases m' with
      | aside m' =>
          show (m' :: ms.filterMap Selecting.Move.aside?).count m = _
          rw [List.count_cons, List.count_cons, ih]
          simp only [beq_iff_eq, Selecting.Move.aside.injEq]
      | _ =>
          rw [List.filterMap_cons_none rfl, ih, List.count_cons_of_ne (by rintro ⟨⟩)]

/-- What is no step and no exchange happens as often by the rules as at the selects. -/
theorem count_of_same [DecidableEq M] {ms : List (Selecting.Move M)} {ms' : List M}
    (hsame : ms'.filter (fun m => !v.isOwn m) =
      (ms.filterMap Selecting.Move.aside?).filter fun m => !v.isOwn m) {m : M}
    (hm : v.isOwn m = false) : ms'.count m = ms.count (.aside m) := by
  have hkept : (!v.isOwn m) = true := by rw [hm, Bool.not_false]
  rw [← List.count_filter (p := fun m => !v.isOwn m) hkept, hsame,
    List.count_filter (p := fun m => !v.isOwn m) hkept, count_aside?]

end Seated

end Venue

end Postal

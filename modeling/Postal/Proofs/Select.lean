import Postal.Proofs.Course
import Postal.Proofs.Tally
import Postal.Select

/-!
# Selects that park and are woken.

A select may end by any arm that is ready, and it parks if none is. What follows from that holds at
every place where people wait at slots (`Venue.Lawful`). Nobody is parked for whom an arm is ready:
neither is the slot closed, nor has a shutdown fired that is heeded, nor is somebody parked on the
other side of the signal (`Venue.Orderly`); each move keeps it so (`Venue.Orderly.move`). And
however a wait ends, it ends in one of two ways, by a meeting or by an interruption
(`Venue.Ends.cases`).

## §1 — places.
## §2 — one move at the selects.
## §3 — who is parked, and why.
## §4 — how a wait ends.
-/

namespace Postal

variable {S M P : Type}

/-! ## §1 — places -/

/-- **`v.Lawful`** — the parts of a venue fit together. Who the people are has nothing to do with
what is closed; whoever has no part in a move goes on waiting; and the shutdown is for ever. -/
structure Venue.Lawful (v : Venue S M P) : Prop where
  people_seat : ∀ s people, v.people (v.seat s people) = people
  seat_people : ∀ s, v.seat s (v.people s) = s
  seat_seat : ∀ s people people', v.seat (v.seat s people) people' = v.seat s people'
  closed_seat : ∀ s people slot, v.closed (v.seat s people) slot = v.closed s slot
  fired_seat : ∀ s people, v.fired (v.seat s people) = v.fired s
  wait_lineUp : ∀ p, v.wait? (v.lineUp p) = v.wait? p
  stays_of_aside : ∀ {s s' : S} {m : M} {i : Nat} {p : P}, v.aside? s m = some s' →
    (v.people s)[i]? = some p → v.wait? p ≠ none → (v.people s')[i]? = some p
  fired_of_aside : ∀ {s s' : S} {m : M}, v.aside? s m = some s' → v.fired s = true →
    v.fired s' = true

/-- The two sides of a signal are told apart. -/
theorem Wait.meets_iff {w w' : Wait} :
    w.meets w' = true ↔ w.slot = w'.slot ∧ w.signal = w'.signal ∧ w.sends = !w'.sends := by
  obtain ⟨slot, signal, sends⟩ := w
  obtain ⟨slot', signal', sends'⟩ := w'
  cases sends <;> cases sends' <;> simp [meets]

/-- Nobody is on both sides of a signal. -/
theorem Wait.meets_self (w : Wait) : w.meets w = false := by
  rw [meets, bne_self_eq_false, Bool.and_false]

theorem Wait.meets_comm (w w' : Wait) : w.meets w' = w'.meets w := by
  rw [Bool.eq_iff_iff, meets_iff, meets_iff]
  constructor
  · rintro ⟨hslot, hsignal, hsends⟩
    exact ⟨hslot.symm, hsignal.symm, by rw [hsends, Bool.not_not]⟩
  · rintro ⟨hslot, hsignal, hsends⟩
    exact ⟨hslot.symm, hsignal.symm, by rw [hsends, Bool.not_not]⟩

namespace Venue

variable {v : Venue S M P} {s s' : S} {m : M} {i j : Nat} {w w' : Wait} {p : P}

theorem meets_eq_true :
    v.meets s i j = true ↔
      ∃ w w', v.waitOf? s i = some w ∧ v.waitOf? s j = some w' ∧ w.meets w' = true := by
  unfold meets
  split
  · next hi hj => simp [hi, hj]
  · next hnone =>
    constructor
    · exact fun h => absurd h Bool.false_ne_true
    · rintro ⟨w, w', hi, hj, -⟩
      exact (hnone w w' hi hj).elim

theorem meets_comm (v : Venue S M P) (s : S) (i j : Nat) : v.meets s i j = v.meets s j i := by
  rw [Bool.eq_iff_iff, meets_eq_true, meets_eq_true]
  constructor
  · rintro ⟨w, w', hi, hj, hmeets⟩
    exact ⟨w', w, hj, hi, by rw [Wait.meets_comm]; exact hmeets⟩
  · rintro ⟨w, w', hi, hj, hmeets⟩
    exact ⟨w', w, hj, hi, by rw [Wait.meets_comm]; exact hmeets⟩

/-- Nobody meets itself. -/
theorem meets_self (v : Venue S M P) (s : S) (i : Nat) : v.meets s i i = false := by
  by_contra h
  rw [Bool.not_eq_false, meets_eq_true] at h
  obtain ⟨w, w', hw, hw', hmeets⟩ := h
  obtain rfl := Option.some.inj (hw.symm.trans hw')
  cases w.meets_self.symm.trans hmeets

/-- Who meets whom depends on the waits. -/
theorem meets_congr (hi : v.waitOf? s' i = v.waitOf? s i) (hj : v.waitOf? s' j = v.waitOf? s j) :
    v.meets s' i j = v.meets s i j := by
  rw [meets, meets, hi, hj]

theorem waitOf?_eq_some : v.waitOf? s i = some w ↔
    ∃ p, (v.people s)[i]? = some p ∧ v.wait? p = some w := Option.bind_eq_some_iff

/-- Whoever goes on where `f` leads is somebody who is there. -/
theorem change_eq_seat (hi : (v.people s)[i]? = some p) (f : P → P) :
    v.change s f i = v.seat s ((v.people s).set i (f p)) := by
  rw [change, List.modify_eq_set_getElem?, hi]
  rfl

/-- **A move aside** follows the rules of the place, and nobody at a select takes a step in it. -/
theorem aside?_eq_some (h : v.aside? s m = some s') :
    v.isExchange m = false ∧ (∀ i, v.stepper? m = some i → v.waitOf? s i = none) ∧
      v.rule? s m = some s' := by
  unfold aside? at h
  split_ifs at h with hrefused
  simp only [Bool.or_eq_true, Option.any_eq_true, not_or, not_exists, not_and,
    Bool.not_eq_true] at hrefused
  refine ⟨hrefused.1, fun i hi => ?_, h⟩
  exact Option.not_isSome_iff_eq_none.1 fun hsome => by simp [hrefused.2 i hi] at hsome

section Lawful

variable (hv : v.Lawful)
include hv

/-- Whoever waits goes on waiting while others move. -/
theorem waitOf?_of_aside (haside : v.aside? s m = some s') (hw : v.waitOf? s i = some w) :
    v.waitOf? s' i = some w := by
  obtain ⟨p, hi, hp⟩ := waitOf?_eq_some.1 hw
  have hwaits : v.wait? p ≠ none := by
    rw [hp]
    rintro ⟨⟩
  exact waitOf?_eq_some.2 ⟨p, hv.stays_of_aside haside hi hwaits, hp⟩

theorem isOver_seat (people : List P) (w : Wait) : v.isOver (v.seat s people) w = v.isOver s w := by
  rw [isOver, isOver, hv.closed_seat, hv.fired_seat]

theorem waitOf?_change_of_ne (f : P → P) (hij : i ≠ j) :
    v.waitOf? (v.change s f i) j = v.waitOf? s j := by
  rw [waitOf?, change, hv.people_seat, List.getElem?_modify_ne _ _ hij, waitOf?]

/-- Whoever stands in line waits for the same as before. -/
theorem waitOf?_lineUp (s : S) (i j : Nat) :
    v.waitOf? (v.change s v.lineUp i) j = v.waitOf? s j := by
  by_cases hij : i = j
  · subst hij
    rw [waitOf?, change, hv.people_seat, List.getElem?_modify_eq, waitOf?]
    cases (v.people s)[i]? with
    | none => rfl
    | some p => exact hv.wait_lineUp p
  · exact waitOf?_change_of_ne hv v.lineUp hij

theorem waitOf?_seat_of_ne {a b k : Nat} {p q : P} (ha : k ≠ a) (hb : k ≠ b) :
    v.waitOf? (v.seat s (((v.people s).set a p).set b q)) k = v.waitOf? s k := by
  rw [waitOf?, hv.people_seat, List.getElem?_set_ne (Ne.symm hb), List.getElem?_set_ne (Ne.symm ha),
    waitOf?]

end Lawful

end Venue

/-! ## §2 — one move at the selects -/

/-- **`v.Meets x i j y`** — person `i` meets person `j`, who is parked: one of them hands its
message to the other, and both go on. -/
inductive Venue.Meets (v : Venue S M P) (x : Selecting S) (i j : Nat) : Selecting S → Prop
  | hands {a b : Nat} {p q : P} {w w' : Wait} (hends : a = i ∧ b = j ∨ a = j ∧ b = i)
      (hj : j ∈ x.parked) (ha : (v.people x.place)[a]? = some p)
      (hb : (v.people x.place)[b]? = some q) (hw : v.wait? p = some w) (hw' : v.wait? q = some w')
      (hmeets : w.meets w' = true) (hsends : w.sends = true) :
      Meets v x i j ⟨v.seat x.place
        (((v.people x.place).set a (v.afterSend p)).set b (v.afterReceive p q)),
        x.parked.filter (· ≠ j), x.retrying.filter (· ≠ i)⟩

/-- **`v.Goes x m y`** — everything that a move can do at a place with selects. -/
inductive Venue.Goes (v : Venue S M P) (x : Selecting S) :
    Selecting.Move M → Selecting S → Prop
  | aside {m : M} {s : S} (h : v.aside? x.place m = some s) :
      Goes v x (.aside m) { x with place := s, parked := v.stillParked x s }
  | parks {i : Nat} {w : Wait} (hw : v.waitOf? x.place i = some w) (haway : x.isAway i = true)
      (hover : v.isOver x.place w = false) (halone : ∀ j ∈ x.parked, v.meets x.place i j = false) :
      Goes v x (.park i)
        { x with place := v.change x.place v.lineUp i, parked := i :: x.parked }
  | meets {i j : Nat} {y : Selecting S} (haway : x.isAway i = true) (h : v.Meets x i j y) :
      Goes v x (.meet i j) y
  | quits {i : Nat} {w : Wait} (hw : v.waitOf? x.place i = some w) (haway : x.isAway i = true)
      (hclosed : v.closed x.place w.slot = true) : Goes v x (.quit i) (v.interrupt x i)
  | heeds {i : Nat} {w : Wait} (hw : v.waitOf? x.place i = some w) (haway : x.isAway i = true)
      (hheeds : w.heeds = true) (hfired : v.fired x.place = true) :
      Goes v x (.heed i) { x with retrying := i :: x.retrying }
  | receives {i j : Nat} {y : Selecting S} (hi : i ∈ x.retrying) (h : v.Meets x i j y) :
      Goes v x (.retry i (some j)) y
  | misses {i : Nat} (hi : i ∈ x.retrying) (halone : ∀ j ∈ x.parked, v.meets x.place i j = false) :
      Goes v x (.retry i none) (v.interrupt x i)

namespace Venue

variable {v : Venue S M P} {x y : Selecting S} {i j : Nat} {w : Wait}

theorem hand?_eq_some {s s' : S} (h : v.hand? s i j = some s') :
    ∃ p q, (v.people s)[i]? = some p ∧ (v.people s)[j]? = some q ∧
      s' = v.seat s (((v.people s).set i (v.afterSend p)).set j (v.afterReceive p q)) := by
  simp only [hand?, Option.bind_eq_bind, Option.bind_eq_some_iff, Option.some.injEq] at h
  obtain ⟨p, hi, q, hj, rfl⟩ := h
  exact ⟨p, q, hi, hj, rfl⟩

theorem meets_of_meet? (h : v.meet? x i j = some y) : v.Meets x i j y := by
  simp only [meet?, Option.bind_eq_bind, Option.bind_eq_some_iff] at h
  obtain ⟨w, hw, h⟩ := h
  split at h
  · next hguard =>
    obtain ⟨hj, hmeet⟩ := hguard
    obtain ⟨w₁, w', hw₁, hw', hmeets⟩ := meets_eq_true.1 hmeet
    obtain rfl := Option.some.inj (hw.symm.trans hw₁)
    obtain ⟨p, hp, hpw⟩ := waitOf?_eq_some.1 hw
    obtain ⟨q, hq, hqw⟩ := waitOf?_eq_some.1 hw'
    obtain ⟨s, hhand, rfl⟩ := Option.map_eq_some_iff.1 h
    split at hhand
    · next hsends =>
      obtain ⟨p', q', hp', hq', rfl⟩ := hand?_eq_some hhand
      obtain rfl := Option.some.inj (hp.symm.trans hp')
      obtain rfl := Option.some.inj (hq.symm.trans hq')
      exact .hands (.inl ⟨rfl, rfl⟩) hj hp hq hpw hqw hmeets hsends
    · next hsends =>
      obtain ⟨q', p', hq', hp', rfl⟩ := hand?_eq_some hhand
      obtain rfl := Option.some.inj (hp.symm.trans hp')
      obtain rfl := Option.some.inj (hq.symm.trans hq')
      rw [Wait.meets_comm] at hmeets
      have hother : w'.sends = true := by
        rw [(Wait.meets_iff.1 hmeets).2.2, Bool.eq_false_iff.2 hsends, Bool.not_false]
      exact .hands (.inr ⟨rfl, rfl⟩) hj hq hp hqw hpw hmeets hother
  · cases h

/-- Whoever meets somebody meets somebody who is parked on the other side. -/
theorem Meets.partner (h : v.Meets x i j y) : j ∈ x.parked ∧ v.meets x.place i j = true := by
  obtain ⟨hends, hj, ha, hb, hw, hw', hmeets, -⟩ := h
  have hmeet := meets_eq_true.2
    ⟨_, _, waitOf?_eq_some.2 ⟨_, ha, hw⟩, waitOf?_eq_some.2 ⟨_, hb, hw'⟩, hmeets⟩
  refine ⟨hj, ?_⟩
  rcases hends with ⟨rfl, rfl⟩ | ⟨rfl, rfl⟩
  · exact hmeet
  · exact (v.meets_comm x.place _ _).trans hmeet

theorem goes_of_move? {m : Selecting.Move M} (h : v.move? x m = some y) : v.Goes x m y := by
  cases m with
  | aside m =>
      obtain ⟨s, hs, rfl⟩ := Option.map_eq_some_iff.1 h
      exact .aside hs
  | park i =>
      obtain ⟨w, hw, h⟩ := Option.bind_eq_some_iff.1 h
      split at h
      · next hguard =>
        obtain rfl := Option.some.inj h
        exact .parks hw hguard.1 hguard.2.1 hguard.2.2
      · cases h
  | meet i j =>
      rw [move?] at h
      split at h
      · next haway => exact .meets haway (meets_of_meet? h)
      · cases h
  | quit i =>
      obtain ⟨w, hw, h⟩ := Option.bind_eq_some_iff.1 h
      split at h
      · next hguard =>
        obtain rfl := Option.some.inj h
        exact .quits hw hguard.1 hguard.2
      · cases h
  | heed i =>
      obtain ⟨w, hw, h⟩ := Option.bind_eq_some_iff.1 h
      split at h
      · next hguard =>
        obtain rfl := Option.some.inj h
        exact .heeds hw hguard.1 hguard.2.1 hguard.2.2
      · cases h
  | retry i partner =>
      cases partner with
      | none =>
          rw [move?] at h
          split at h
          · next hguard =>
            obtain rfl := Option.some.inj h
            exact .misses hguard.1 hguard.2
          · cases h
      | some j =>
          rw [move?] at h
          split at h
          · next hi => exact .receives hi (meets_of_meet? h)
          · cases h

theorem isAway_iff : x.isAway i = true ↔ i ∉ x.parked ∧ i ∉ x.retrying := by
  simp [Selecting.isAway]

/-! What is possible: a move aside, and each arm when it is ready. -/

theorem move?_aside {s : S} {m : M} (hexchange : v.isExchange m = false)
    (hwaits : ∀ i, v.stepper? m = some i → v.waitOf? x.place i = none)
    (hrule : v.rule? x.place m = some s) :
    v.move? x (.aside m) = some { x with place := s, parked := v.stillParked x s } := by
  have hnobody : (v.stepper? m).any (fun i => (v.waitOf? x.place i).isSome) = false := by
    rw [Option.any_eq_false]
    intro i hi
    rw [hwaits i hi, Option.isSome_none]
  rw [move?, aside?, hexchange, hnobody, Bool.or_false, if_neg Bool.false_ne_true, hrule,
    Option.map_some]

theorem move?_park (hw : v.waitOf? x.place i = some w) (haway : x.isAway i = true)
    (hover : v.isOver x.place w = false) (halone : ∀ j ∈ x.parked, v.meets x.place i j = false) :
    v.move? x (.park i) =
      some { x with place := v.change x.place v.lineUp i, parked := i :: x.parked } := by
  simp only [move?, hw, Option.bind_eq_bind, Option.bind_some]
  exact if_pos ⟨haway, hover, halone⟩

theorem move?_quit (hw : v.waitOf? x.place i = some w) (haway : x.isAway i = true)
    (hclosed : v.closed x.place w.slot = true) :
    v.move? x (.quit i) = some (v.interrupt x i) := by
  simp only [move?, hw, Option.bind_eq_bind, Option.bind_some]
  exact if_pos ⟨haway, hclosed⟩

theorem move?_heed (hw : v.waitOf? x.place i = some w) (haway : x.isAway i = true)
    (hheeds : w.heeds = true) (hfired : v.fired x.place = true) :
    v.move? x (.heed i) = some { x with retrying := i :: x.retrying } := by
  simp only [move?, hw, Option.bind_eq_bind, Option.bind_some]
  exact if_pos ⟨haway, hheeds, hfired⟩

theorem move?_miss (hi : i ∈ x.retrying) (halone : ∀ j ∈ x.parked, v.meets x.place i j = false) :
    v.move? x (.retry i none) = some (v.interrupt x i) :=
  if_pos ⟨hi, halone⟩

theorem exists_hand? {s : S} {p q : P} (hi : (v.people s)[i]? = some p)
    (hj : (v.people s)[j]? = some q) : ∃ s', v.hand? s i j = some s' :=
  ⟨_, by rw [hand?, hi, hj]; rfl⟩

/-- Whoever is parked on the other side of a signal is met. -/
theorem exists_meet? (hj : j ∈ x.parked) (hmeets : v.meets x.place i j = true) :
    ∃ y, v.meet? x i j = some y := by
  obtain ⟨w, w', hw, hw', -⟩ := meets_eq_true.1 hmeets
  obtain ⟨p, hp, -⟩ := waitOf?_eq_some.1 hw
  obtain ⟨q, hq, -⟩ := waitOf?_eq_some.1 hw'
  obtain ⟨s, hs⟩ := exists_hand? hp hq
  obtain ⟨s', hs'⟩ := exists_hand? hq hp
  rw [meet?, hw, Option.bind_eq_bind, Option.bind_some, if_pos ⟨hj, hmeets⟩, hs, hs']
  split
  · exact ⟨_, rfl⟩
  · exact ⟨_, rfl⟩

end Venue

/-! ## §3 — who is parked, and why -/

/-- **`v.Orderly x`** — whoever is parked waits for something, and no arm of it is ready: neither is
its slot closed, nor does it heed a shutdown that has fired, nor is the other side of its signal
parked. Whoever tries once more heeds the shutdown, which has fired. -/
structure Venue.Orderly (v : Venue S M P) (x : Selecting S) : Prop where
  parked : ∀ i ∈ x.parked, ∃ w, v.waitOf? x.place i = some w ∧ v.isOver x.place w = false
  apart : ∀ i ∈ x.parked, ∀ j ∈ x.parked, v.meets x.place i j = false
  retrying : ∀ i ∈ x.retrying, ∃ w, v.waitOf? x.place i = some w ∧ w.heeds = true
  fired : x.retrying ≠ [] → v.fired x.place = true
  once : ∀ i ∈ x.parked, i ∉ x.retrying

namespace Venue

variable {v : Venue S M P} {x y : Selecting S} {i j : Nat} {w : Wait}

theorem orderly_start (v : Venue S M P) (s : S) : v.Orderly (.start s) where
  parked _ hi := absurd hi List.not_mem_nil
  apart _ hi := absurd hi List.not_mem_nil
  retrying _ hi := absurd hi List.not_mem_nil
  fired h := absurd rfl h
  once _ hi := absurd hi List.not_mem_nil

/-- Nobody is parked at a slot that is closed. -/
theorem Orderly.open_of_parked (h : v.Orderly x) (hi : i ∈ x.parked)
    (hw : v.waitOf? x.place i = some w) :
    v.closed x.place w.slot = false ∧ (w.heeds && v.fired x.place) = false := by
  obtain ⟨w', hw', hover⟩ := h.parked i hi
  obtain rfl := Option.some.inj (hw.symm.trans hw')
  exact Bool.or_eq_false_iff.1 hover

section Orderly

variable (hv : v.Lawful)
include hv

/-- **Some people stop waiting**, and nobody else notices. -/
theorem Orderly.leave (h : v.Orderly x) {people : List P} {parked retrying : List Nat}
    (hparked : ∀ k ∈ parked, k ∈ x.parked ∧
      v.waitOf? (v.seat x.place people) k = v.waitOf? x.place k)
    (hretrying : ∀ k ∈ retrying, k ∈ x.retrying ∧
      v.waitOf? (v.seat x.place people) k = v.waitOf? x.place k) :
    v.Orderly ⟨v.seat x.place people, parked, retrying⟩ where
  parked k hk := by
    obtain ⟨hold, hwait⟩ := hparked k hk
    obtain ⟨w, hw, hover⟩ := h.parked k hold
    exact ⟨w, hwait.trans hw, (isOver_seat hv people w).trans hover⟩
  apart k hk l hl := by
    obtain ⟨hold, hwait⟩ := hparked k hk
    obtain ⟨hold', hwait'⟩ := hparked l hl
    exact (meets_congr hwait hwait').trans (h.apart k hold l hold')
  retrying k hk := by
    obtain ⟨hold, hwait⟩ := hretrying k hk
    obtain ⟨w, hw, hheeds⟩ := h.retrying k hold
    exact ⟨w, hwait.trans hw, hheeds⟩
  fired hne := by
    obtain ⟨k, hk⟩ := List.exists_mem_of_ne_nil _ hne
    have hsome : x.retrying ≠ [] := List.ne_nil_of_mem (hretrying k hk).1
    exact (hv.fired_seat _ _).trans (h.fired hsome)
  once k hk hk' := h.once k (hparked k hk).1 (hretrying k hk').1

theorem Orderly.interrupt (h : v.Orderly x) (hi : i ∉ x.parked) : v.Orderly (v.interrupt x i) := by
  refine h.leave hv (fun k hk => ⟨hk, ?_⟩) fun k hk => ?_
  · exact waitOf?_change_of_ne hv v.interrupted fun hik => hi (hik ▸ hk)
  · obtain ⟨hk, hne⟩ := List.mem_filter.1 hk
    exact ⟨hk, waitOf?_change_of_ne hv v.interrupted (Ne.symm (of_decide_eq_true hne))⟩

theorem Orderly.meets (h : v.Orderly x) (hi : i ∉ x.parked) (hmeets : v.Meets x i j y) :
    v.Orderly y := by
  obtain ⟨hends, hj, ha, hb, hw, hw', hmeets, hsends⟩ := hmeets
  refine h.leave hv (fun k hk => ?_) fun k hk => ?_
  · obtain ⟨hk, hne⟩ := List.mem_filter.1 hk
    have hkj := of_decide_eq_true hne
    have hki : k ≠ i := fun hki => hi (hki ▸ hk)
    refine ⟨hk, ?_⟩
    rcases hends with ⟨rfl, rfl⟩ | ⟨rfl, rfl⟩
    · exact waitOf?_seat_of_ne hv hki hkj
    · exact waitOf?_seat_of_ne hv hkj hki
  · obtain ⟨hk, hne⟩ := List.mem_filter.1 hk
    have hki := of_decide_eq_true hne
    have hkj : k ≠ j := fun hkj => h.once j hj (hkj ▸ hk)
    refine ⟨hk, ?_⟩
    rcases hends with ⟨rfl, rfl⟩ | ⟨rfl, rfl⟩
    · exact waitOf?_seat_of_ne hv hki hkj
    · exact waitOf?_seat_of_ne hv hkj hki

/-- **Every move** leaves the selects in order. -/
theorem Orderly.move (h : v.Orderly x) {m : Selecting.Move M} (hmove : v.move? x m = some y) :
    v.Orderly y := by
  cases goes_of_move? hmove with
  | @aside m s haside =>
      have hmem : ∀ {k : Nat}, k ∈ v.stillParked x s → k ∈ x.parked :=
        fun hk => (List.mem_filter.1 hk).1
      have hwait : ∀ {k : Nat} {w : Wait}, v.waitOf? x.place k = some w → v.waitOf? s k = some w :=
        fun hw => waitOf?_of_aside hv haside hw
      refine ⟨fun k hk => ?_, fun k hk l hl => ?_, fun k hk => ?_, fun hne => ?_, fun k hk => ?_⟩
      · obtain ⟨w, hw, -⟩ := h.parked k (hmem hk)
        have hstill := (List.mem_filter.1 hk).2
        rw [hwait hw, Option.all_some, Bool.not_eq_true'] at hstill
        exact ⟨w, hwait hw, hstill⟩
      · obtain ⟨w, hw, -⟩ := h.parked k (hmem hk)
        obtain ⟨w', hw', -⟩ := h.parked l (hmem hl)
        rw [meets_congr ((hwait hw).trans hw.symm) ((hwait hw').trans hw'.symm)]
        exact h.apart k (hmem hk) l (hmem hl)
      · obtain ⟨w, hw, hheeds⟩ := h.retrying k hk
        exact ⟨w, hwait hw, hheeds⟩
      · exact hv.fired_of_aside haside (h.fired hne)
      · exact h.once k (hmem hk)
  | @parks i w hw haway hover halone =>
      obtain ⟨hparked, hretrying⟩ := isAway_iff.1 haway
      have hwait := waitOf?_lineUp hv x.place i
      refine ⟨fun k hk => ?_, fun k hk l hl => ?_, fun k hk => ?_, fun hne => ?_, fun k hk => ?_⟩
      · have hover' : ∀ w, v.isOver (v.change x.place v.lineUp i) w = v.isOver x.place w :=
          isOver_seat hv _
        rcases List.mem_cons.1 hk with rfl | hk
        · exact ⟨w, (hwait _).trans hw, (hover' w).trans hover⟩
        · obtain ⟨w', hw', hopen⟩ := h.parked k hk
          exact ⟨w', (hwait k).trans hw', (hover' w').trans hopen⟩
      · rw [meets_congr (hwait k) (hwait l)]
        rcases List.mem_cons.1 hk with rfl | hkold <;> rcases List.mem_cons.1 hl with rfl | hlold
        · exact v.meets_self x.place _
        · exact halone l hlold
        · exact (v.meets_comm x.place k _).trans (halone k hkold)
        · exact h.apart k hkold l hlold
      · obtain ⟨w', hw', hheeds⟩ := h.retrying k hk
        exact ⟨w', (hwait k).trans hw', hheeds⟩
      · exact (hv.fired_seat _ _).trans (h.fired hne)
      · rcases List.mem_cons.1 hk with rfl | hk
        · exact hretrying
        · exact h.once k hk
  | meets haway hmeets => exact h.meets hv (isAway_iff.1 haway).1 hmeets
  | quits hw haway hclosed => exact h.interrupt hv (isAway_iff.1 haway).1
  | @heeds i w hw haway hheeds hfired =>
      obtain ⟨hparked, hretrying⟩ := isAway_iff.1 haway
      refine ⟨h.parked, h.apart, fun k hk => ?_, fun _ => hfired, fun k hk hk' => ?_⟩
      · rcases List.mem_cons.1 hk with rfl | hk
        · exact ⟨w, hw, hheeds⟩
        · exact h.retrying k hk
      · rcases List.mem_cons.1 hk' with rfl | hk'
        · exact hparked hk
        · exact h.once k hk hk'
  | receives hi hmeets => exact h.meets hv (fun hparked => h.once _ hparked hi) hmeets
  | misses hi halone => exact h.interrupt hv fun hparked => h.once _ hparked hi

/-- **Every run** leaves the selects in order. -/
theorem orderly_of_runs {s : S} {past : List (Happening (Selecting S) (Selecting.Move M))}
    (hruns : Runs v.move? (.start s) past x) : v.Orderly x := by
  induction hruns with
  | start => exact v.orderly_start s
  | more hruns hmove ih => exact ih.move hv hmove

end Orderly

end Venue

/-! ## §4 — how a wait ends -/

/-- **`v.Ends x i y`** — person `i` waits no longer: its select ends by the arm of its signal or by
that of the close, or by that of the shutdown, and then person `i` tries once more; it may also be
about to do so already. -/
inductive Venue.Ends (v : Venue S M P) (x : Selecting S) (i : Nat) : Selecting S → Prop
  | meets {j : Nat} {y : Selecting S} (h : v.move? x (.meet i j) = some y) : Ends v x i y
  | quits {y : Selecting S} (h : v.move? x (.quit i) = some y) : Ends v x i y
  | heeds {x' y : Selecting S} {partner : Option Nat} (hheeds : v.move? x (.heed i) = some x')
      (h : v.move? x' (.retry i partner) = some y) : Ends v x i y
  | retries {y : Selecting S} {partner : Option Nat}
      (h : v.move? x (.retry i partner) = some y) : Ends v x i y

namespace Venue

variable {v : Venue S M P} {x y : Selecting S} {i j : Nat} {w : Wait}

/-- Whoever has heeded the shutdown meets the same people as before. -/
theorem Meets.of_heed (h : v.Meets { x with retrying := i :: x.retrying } i j y) :
    v.Meets x i j y := by
  obtain ⟨hends, hj, ha, hb, hw, hw', hmeets, hsends⟩ := h
  rw [List.filter_cons_of_neg (by simp)]
  exact .hands hends hj ha hb hw hw' hmeets hsends

/-- **Whatever arm a select picks**, the wait ends in one of two ways. -/
theorem Ends.cases (h : v.Ends x i y) :
    (∃ j, v.Meets x i j y) ∨ y = v.interrupt x i ∧
      ((∃ w, v.waitOf? x.place i = some w ∧ v.closed x.place w.slot = true) ∨
        ∀ j ∈ x.parked, v.meets x.place i j = false) := by
  cases h with
  | meets h =>
      cases goes_of_move? h with
      | meets haway hmeets => exact .inl ⟨_, hmeets⟩
  | quits h =>
      cases goes_of_move? h with
      | quits hw haway hclosed => exact .inr ⟨rfl, .inl ⟨_, hw, hclosed⟩⟩
  | heeds hheeds h =>
      cases goes_of_move? hheeds with
      | heeds hw haway hheeds hfired =>
          cases goes_of_move? h with
          | receives hi hmeets => exact .inl ⟨_, hmeets.of_heed⟩
          | misses hi halone =>
              refine .inr ⟨?_, .inr halone⟩
              rw [interrupt, interrupt, List.filter_cons_of_neg (by simp)]
  | retries h =>
      cases goes_of_move? h with
      | receives hi hmeets => exact .inl ⟨_, hmeets⟩
      | misses hi halone => exact .inr ⟨rfl, .inr halone⟩

/-- **A select with an arm that is ready** ends, and so does a second try. -/
theorem exists_ends (horderly : v.Orderly x) (hw : v.waitOf? x.place i = some w)
    (hready : (∃ j ∈ x.parked, v.meets x.place i j = true) ∨ v.isOver x.place w = true) :
    i ∉ x.parked ∧ ∃ y, v.Ends x i y := by
  have hparked : i ∉ x.parked := by
    intro hi
    rcases hready with ⟨j, hj, hmeets⟩ | hover
    · cases (horderly.apart i hi j hj).symm.trans hmeets
    · obtain ⟨w', hw', hopen⟩ := horderly.parked i hi
      obtain rfl := Option.some.inj (hw.symm.trans hw')
      cases hopen.symm.trans hover
  -- a second try finds somebody, or is interrupted
  have hretries : ∀ x' : Selecting S, i ∈ x'.retrying → x'.place = x.place →
      x'.parked = x.parked → ∃ partner y, v.move? x' (.retry i partner) = some y := by
    intro x' hi hplace hsame
    by_cases hpartner : ∃ j ∈ x.parked, v.meets x.place i j = true
    · obtain ⟨j, hj, hmeets⟩ := hpartner
      obtain ⟨y, hy⟩ := exists_meet? (hsame ▸ hj) (hplace ▸ hmeets)
      exact ⟨some j, y, (if_pos hi).trans hy⟩
    · refine ⟨none, _, move?_miss hi fun j hj => ?_⟩
      rw [hplace]
      exact Bool.eq_false_iff.2 fun hmeets => hpartner ⟨j, hsame ▸ hj, hmeets⟩
  refine ⟨hparked, ?_⟩
  by_cases hretrying : i ∈ x.retrying
  · obtain ⟨partner, y, hy⟩ := hretries x hretrying rfl rfl
    exact ⟨y, .retries hy⟩
  have haway := isAway_iff.2 ⟨hparked, hretrying⟩
  rcases hready with ⟨j, hj, hmeets⟩ | hover
  · obtain ⟨y, hy⟩ := exists_meet? hj hmeets
    exact ⟨y, .meets ((if_pos haway).trans hy)⟩
  rcases Bool.or_eq_true_iff.1 hover with hclosed | hheeds
  · exact ⟨_, .quits (move?_quit hw haway hclosed)⟩
  · obtain ⟨hheeds, hfired⟩ := Bool.and_eq_true_iff.1 hheeds
    obtain ⟨partner, y, hy⟩ := hretries { x with retrying := i :: x.retrying }
      List.mem_cons_self rfl rfl
    exact ⟨y, .heeds (move?_heed hw haway hheeds hfired) hy⟩

/-- **A select without an arm that is ready** parks, or has parked already. -/
theorem not_ends (horderly : v.Orderly x) (hw : v.waitOf? x.place i = some w)
    (halone : ∀ j ∈ x.parked, v.meets x.place i j = false) (hover : v.isOver x.place w = false) :
    (i ∈ x.parked ∨ ∃ y, v.move? x (.park i) = some y) ∧ ∀ y, ¬ v.Ends x i y := by
  obtain ⟨hopen, hcalm⟩ := Bool.or_eq_false_iff.1 hover
  have hretrying : i ∉ x.retrying := by
    intro hi
    obtain ⟨w', hw', hheeds⟩ := horderly.retrying i hi
    obtain rfl := Option.some.inj (hw.symm.trans hw')
    rw [hheeds, horderly.fired (List.ne_nil_of_mem hi)] at hcalm
    cases hcalm
  refine ⟨?_, fun y hends => ?_⟩
  · by_cases hparked : i ∈ x.parked
    · exact .inl hparked
    · exact .inr ⟨_, move?_park hw (isAway_iff.2 ⟨hparked, hretrying⟩) hover halone⟩
  cases hends with
  | meets h =>
      cases goes_of_move? h with
      | meets haway hmeets =>
          obtain ⟨hj, hmeets⟩ := hmeets.partner
          cases (halone _ hj).symm.trans hmeets
  | quits h =>
      cases goes_of_move? h with
      | quits hw' haway hclosed =>
          obtain rfl := Option.some.inj (hw.symm.trans hw')
          cases hopen.symm.trans hclosed
  | heeds h h' =>
      cases goes_of_move? h with
      | heeds hw' haway hheeds hfired =>
          obtain rfl := Option.some.inj (hw.symm.trans hw')
          rw [hheeds, hfired] at hcalm
          cases hcalm
  | retries h =>
      cases goes_of_move? h with
      | receives hi hmeets => exact hretrying hi
      | misses hi halone => exact hretrying hi

end Venue

end Postal

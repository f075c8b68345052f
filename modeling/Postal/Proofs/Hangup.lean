import Postal.Proofs.Callers

/-!
# What a close leaves undone.

A slot is closed while any number of calls are under way, each at any point. The close wakes whoever
is parked, and from then on nobody parks any more; so there is never somebody to be met, and no
signal is exchanged (`Slot.Desk.Hung.not_exchanges`). What is left of each call it does alone. A
call whose signal was still ahead comes no nearer to it (`Slot.Caller.Doomed`), and the services
that are counted are those whose completion had been taken (`Slot.Desk.Hung`). Nobody waits, and
each move of a call brings it nearer to its end, so that every call ends
(`Slot.Desk.close_ends_all`).

## §1 — calls whose signal is still ahead.
## §2 — after the close.
## §3 — the theorem.
-/

namespace Postal.Slot

/-! ## §1 — calls whose signal is still ahead -/

/-- Whether the signal of a call is still to be exchanged. -/
def Caller.Ahead : Caller → Prop
  | .awaitingPublish | .acknowledging | .awaitingProceed | .completing | .publishing _
  | .offering _ | .awaitingAcknowledge | .proceeding | .awaitingCompletion | .sending _ => True
  | _ => False

/-- **`c.Refused b`** — the call is about to check the phase, and may be refused for `b`. -/
inductive Caller.Refused : Caller → Breach → Prop
  | acknowledging {found : Phase} (h : found ≠ .published) :
      Refused .acknowledging (.outOfTurn .workerAcknowledged .published found)
  | proceeding {found : Phase} (h : found ≠ .workerAcknowledged) :
      Refused .proceeding (.outOfTurn .executingTask .workerAcknowledged found)
  | completing {found : Phase} (h : found ≠ .executingTask) :
      Refused .completing (.outOfTurn .completed .executingTask found)
  | publishing {a : Assignment} {found : Phase} (h : found ≠ .awaitingPublish) :
      Refused (.publishing a) (.publishedInto a.customer found)

/-- **`c.Doomed number c'`** — a call that was at `c` is at `c'` now and has come no nearer to its
signal: that is still ahead, or the call was interrupted, or the check of the phase that it had
ahead has refused it. -/
inductive Caller.Doomed (number : Nat) (c : Caller) : Caller → Prop
  | ahead {c' : Caller} (hahead : c'.Ahead) (hchecks : ∀ b, c'.Refused b → c.Refused b) :
      Doomed number c c'
  | interrupted : Doomed number c (.finished (.error .interrupted))
  | refused {b : Breach} (h : c.Refused b) :
      Doomed number c (.finished (.error (.violation number b)))

/-- Whether the caller is about to free the slot, as a weight. -/
def Caller.freeing : Caller → Nat
  | .settling => 1
  | _ => 0

/-- **`c.Sections s c' s'`** — what a section of a call does that is not at a select: the caller
goes on from `c` to `c'`, and the slot from `s` to `s'`. -/
structure Caller.Sections (s : Slot) (c c' : Caller) (s' : Slot) : Prop where
  closed : s'.closed = s.closed
  number : s'.number = s.number
  served : s'.served = s.served + c.freeing
  settling : c' ≠ .settling
  left : c'.left < c.left
  doomed : c.Ahead → c.Doomed s.number c'

section Caller

variable {s s' : Slot} {c c' c₀ : Caller} {gone fired offered : Bool} {number : Nat}

/-- Whoever comes no nearer to its signal, and no nearer again, has come no nearer. -/
theorem Caller.Doomed.trans (hchecks : ∀ b, c.Refused b → c₀.Refused b)
    (h : c.Doomed number c') : c₀.Doomed number c' := by
  cases h with
  | ahead hahead hchecks' => exact .ahead hahead fun b hb => hchecks b (hchecks' b hb)
  | interrupted => exact .interrupted
  | refused hb => exact .refused (hchecks _ hb)

/-- Whoever waits at a select has no check of the phase ahead. -/
theorem doomed_of_wait (hahead : c'.Ahead) (hwait : c'.wait?.isSome = true) :
    c.Doomed number c' := by
  refine .ahead hahead fun b hb => ?_
  cases hb <;> cases hwait

/-- A section that turns the phase, or is refused. -/
theorem sections_of_turn {needed goal : Phase} {next : Caller}
    (h : Caller.afterSection s next (s.turn needed goal) = (c', s'))
    (hfreeing : c.freeing = 0) (hnext : next ≠ .settling) (hleft : next.left < c.left)
    (hahead : c.Ahead → next.Ahead ∧ next.wait?.isSome = true ∧
      ∀ found, found ≠ needed → c.Refused (.outOfTurn goal needed found)) :
    c.Sections s c' s' := by
  rw [turn] at h
  split_ifs at h with hphase <;> obtain ⟨rfl, rfl⟩ := Prod.mk.inj h
  · refine ⟨rfl, rfl, hfreeing.symm ▸ rfl, hnext, hleft, fun hc => ?_⟩
    obtain ⟨hnext, hwait, -⟩ := hahead hc
    exact doomed_of_wait hnext hwait
  · refine ⟨rfl, rfl, hfreeing.symm ▸ rfl, by rintro ⟨⟩, Nat.zero_lt_of_lt hleft, fun hc => ?_⟩
    obtain ⟨-, -, hrefused⟩ := hahead hc
    exact .refused (hrefused _ hphase)

/-- A check ends a call whose signal was exchanged before. -/
theorem sections_of_check {result : Option Assignment} {check : Except Fault Unit}
    (h : Caller.afterCheck s result check = (c', s')) (hfreeing : c.freeing = 0)
    (hleft : 0 < c.left) (hahead : ¬ c.Ahead) : c.Sections s c' s' := by
  cases check <;> obtain ⟨rfl, rfl⟩ := Prod.mk.inj h <;>
    exact ⟨rfl, rfl, hfreeing.symm ▸ rfl, by rintro ⟨⟩, hleft, fun hc => absurd hc hahead⟩

theorem sections_of_step? (hwait : c.wait? = none)
    (h : c.step? s gone fired offered = some (c', s')) : c.Sections s c' s' := by
  cases c with
  | opening =>
      exact sections_of_turn (Option.some.inj h) rfl (by rintro ⟨⟩) Nat.zero_lt_one
        fun hc => hc.elim
  | acknowledging =>
      exact sections_of_turn (Option.some.inj h) rfl (by rintro ⟨⟩) (Nat.lt_succ_self _)
        fun _ => ⟨trivial, rfl, fun _ hfound => .acknowledging hfound⟩
  | proceeding =>
      exact sections_of_turn (Option.some.inj h) rfl (by rintro ⟨⟩) (Nat.lt_succ_self _)
        fun _ => ⟨trivial, rfl, fun _ hfound => .proceeding hfound⟩
  | completing =>
      exact sections_of_turn (Option.some.inj h) rfl (by rintro ⟨⟩) (Nat.lt_succ_self _)
        fun _ => ⟨trivial, rfl, fun _ hfound => .completing hfound⟩
  | publishing a =>
      rw [Caller.step?, bind] at h
      split_ifs at h with hphase <;> obtain ⟨rfl, rfl⟩ := Prod.mk.inj (Option.some.inj h)
      · exact ⟨rfl, rfl, rfl, by rintro ⟨⟩, Nat.lt_succ_self _, fun _ => doomed_of_wait trivial rfl⟩
      · exact ⟨rfl, rfl, rfl, by rintro ⟨⟩, Nat.succ_pos _, fun _ => .refused (.publishing hphase)⟩
  | settling =>
      obtain ⟨rfl, rfl⟩ := Prod.mk.inj (Option.some.inj h)
      exact ⟨rfl, rfl, rfl, by rintro ⟨⟩, Nat.zero_lt_one, fun hc => hc.elim⟩
  | checkingReceived a => exact sections_of_check (Option.some.inj h) rfl Nat.zero_lt_one id
  | checkingProceed => exact sections_of_check (Option.some.inj h) rfl Nat.zero_lt_one id
  | finished result => cases h
  | _ => cases hwait

/-- Whoever is neither at a select nor at its end has a next section. -/
theorem step?_isSome (s : Slot) (gone fired offered : Bool) (hwait : c.wait? = none)
    (hended : c.hasEnded = false) : (c.step? s gone fired offered).isSome = true := by
  cases c with
  | finished result => cases hended
  | _ => first | rfl | cases hwait

end Caller

namespace Desk

/-! ## §2 — after the close -/

/-- Whether caller `i` makes the move. -/
def Own (i : Nat) : Selecting.Move Move → Bool
  | .aside (.step j) | .park j | .meet j _ | .quit j | .heed j | .retry j _ => j == i
  | _ => false

/-- The call that begins with a move. -/
def newcomer? : Selecting.Move Move → Option Caller
  | .aside (.join c) => some c
  | _ => none

/-- Whoever comes with a move begins a call. -/
def Begins : Selecting.Move Move → Prop
  | .aside m => m.Begins
  | _ => True

/-- Whether a signal is exchanged in a move. -/
def Exchanges : Selecting.Move Move → Prop
  | .meet _ _ | .retry _ (some _) | .aside (.exchange _ _) => True
  | _ => False

/-- **`Fate number c₀ moves retrying c`** — a call that was at `c₀` has made so many moves since,
and is at `c`, maybe about to try once more. -/
structure Fate (number : Nat) (c₀ : Caller) (moves : Nat) (retrying : Bool) (c : Caller) :
    Prop where
  doomed : c₀.Ahead → c₀.Doomed number c
  settling : c = .settling → c₀ = .settling
  moves : moves + 2 * c.left ≤ 2 * c₀.left + retrying.toNat

/-- **`Hung number calls total past x`** — the slot is closed; `calls` are those that were under way
then or have begun since, `past` is what has happened since, and `total` are the services that were
counted then, with those that were only to be counted. -/
structure Hung (number : Nat) (calls : List Caller) (total : Nat)
    (past : List (Selecting.Move Move)) (x : Selecting Desk) : Prop where
  orderly : venue.Orderly x
  closed : x.place.slot.closed = true
  numbered : x.place.slot.number = number
  served : x.place.slot.served + tally Caller.freeing x.place.callers = total
  length : x.place.callers.length = calls.length
  fates : ∀ (i : Nat) (c₀ c : Caller), calls[i]? = some c₀ → x.place.callers[i]? = some c →
    Fate number c₀ (past.countP (Own i)) (decide (i ∈ x.retrying)) c
  known : ∀ i, calls.length ≤ i → past.countP (Own i) = 0

section Hung

variable {number total i : Nat} {calls : List Caller} {c c' c₀ : Caller} {slot' : Slot}
  {past after : List (Selecting.Move Move)} {x y z : Selecting Desk} {m : Selecting.Move Move}

/-- **A call goes on** without its signal. -/
theorem Fate.goes {moves : Nat} {retrying : Bool} (h : Fate number c₀ moves retrying c)
    (hended : c.hasEnded = false) (hdoomed : c.Ahead → c.Doomed number c')
    (hsettling : c' ≠ .settling) (hleft : c'.left < c.left) :
    Fate number c₀ (moves + 1) false c' where
  doomed h₀ := by
    cases h.doomed h₀ with
    | ahead hahead hchecks => exact (hdoomed hahead).trans hchecks
    | interrupted => cases hended
    | refused => cases hended
  settling hc' := absurd hc' hsettling
  moves := by
    have hmoves := h.moves
    have htoNat : retrying.toNat ≤ 1 := by cases retrying <;> decide
    rw [Bool.toNat_false]
    omega

/-- **Nobody is parked** at a closed slot. -/
theorem Hung.nobody_parked (h : Hung number calls total past x) : i ∉ x.parked := by
  intro hi
  obtain ⟨w, hw, -⟩ := h.orderly.parked i hi
  obtain ⟨hopen, -⟩ := h.orderly.open_of_parked hi hw
  exact absurd (h.closed.symm.trans hopen) (by decide)

/-- **No signal is exchanged** at a closed slot. -/
theorem Hung.not_exchanges (h : Hung number calls total past x) (hmove : venue.move? x m = some y) :
    ¬ Exchanges m := by
  cases Venue.goes_of_move? hmove with
  | aside haside => cases asides_of_aside? haside <;> exact id
  | meets haway hmeets =>
      obtain ⟨-, hj⟩ := hmeets
      exact absurd hj h.nobody_parked
  | receives hi hmeets =>
      obtain ⟨-, hj⟩ := hmeets
      exact absurd hj h.nobody_parked
  | _ => exact id

theorem countP_concat (i : Nat) (past : List (Selecting.Move Move)) (m : Selecting.Move Move) :
    (past ++ [m]).countP (Own i) = past.countP (Own i) + if Own i m then 1 else 0 := by
  rw [List.countP_append, List.countP_singleton]

/-- **A caller makes a move** of its own. -/
theorem Hung.goes (h : Hung number calls total past x) {parked retrying : List Nat}
    (horderly : venue.Orderly
      ⟨{ x.place with slot := slot', callers := x.place.callers.set i c' }, parked, retrying⟩)
    (hi : x.place.callers[i]? = some c) (hown : ∀ j, Own j m = (i == j))
    (hended : c.hasEnded = false)
    (hsections : c.Sections x.place.slot c' slot') (hself : i ∉ retrying)
    (hothers : ∀ j, j ≠ i → (j ∈ retrying ↔ j ∈ x.retrying)) :
    Hung number calls total (past ++ [m])
      ⟨{ x.place with slot := slot', callers := x.place.callers.set i c' }, parked, retrying⟩ where
  orderly := horderly
  closed := hsections.closed.trans h.closed
  numbered := hsections.number.trans h.numbered
  served := by
    have htally := tally_set (f := Caller.freeing) hi c'
    have hserved := h.served
    have hnone : c'.freeing = 0 := by
      have hne := hsections.settling
      cases c' <;> first | rfl | exact absurd rfl hne
    show slot'.served + tally Caller.freeing (x.place.callers.set i c') = total
    rw [hsections.served]
    omega
  length := (List.length_set ..).trans h.length
  fates j c₀ e hcall hj := by
    rw [countP_concat, hown]
    rcases getElem?_set_cases hj with ⟨rfl, rfl⟩ | ⟨hji, hj⟩
    · have hfate := h.fates j c₀ c hcall hi
      rw [beq_self_eq_true, if_pos rfl, decide_eq_false hself]
      exact hfate.goes hended (fun hc => h.numbered ▸ hsections.doomed hc) hsections.settling
        hsections.left
    · rw [if_neg (by simpa using Ne.symm hji), Nat.add_zero,
        decide_eq_decide.2 (hothers j hji)]
      exact h.fates j c₀ e hcall hj
  known j hj := by
    have hlt := (List.getElem?_eq_some_iff.1 hi).1
    rw [countP_concat, hown, h.known j hj, if_neg]
    rw [beq_iff_eq]
    rw [h.length] at hlt
    omega

theorem newcomer?_eq_some (h : newcomer? m = some c) : m = .aside (.join c) := by
  unfold newcomer? at h
  split at h
  · exact Option.some.inj h ▸ rfl
  · cases h

/-- Nobody makes a move, and somebody may come. -/
theorem Hung.aside (h : Hung number calls total past x) (hm : Begins m)
    (horderly : venue.Orderly y)
    (hslot : y.place.slot = x.place.slot ∨ y.place.slot = x.place.slot.close)
    (hretrying : y.retrying = x.retrying)
    (hcallers : y.place.callers = x.place.callers ++ (newcomer? m).toList)
    (hown : ∀ j, Own j m = false) :
    Hung number (calls ++ (newcomer? m).toList) total (past ++ [m]) y where
  orderly := horderly
  closed := by
    rcases hslot with hslot | hslot <;> rw [hslot]
    · exact h.closed
    · rfl
  numbered := by
    rcases hslot with hslot | hslot <;> rw [hslot]
    · exact h.numbered
    · exact h.numbered
  served := by
    have hnone : tally Caller.freeing (newcomer? m).toList = 0 := by
      refine tally_eq_zero_of_mem fun c hc => ?_
      obtain ⟨rfl⟩ := newcomer?_eq_some (Option.mem_toList.1 hc)
      cases c <;> first | rfl | exact absurd hm id
    have hserved : y.place.slot.served = x.place.slot.served := by
      rcases hslot with hslot | hslot <;> rw [hslot]
      rfl
    rw [hserved, hcallers, tally_append, hnone]
    exact h.served
  length := by rw [hcallers, List.length_append, List.length_append, h.length]
  fates j c₀ c hcall hj := by
    rw [countP_concat, hown, if_neg (by decide), Nat.add_zero, hretrying]
    rw [hcallers] at hj
    by_cases hlt : j < calls.length
    · rw [List.getElem?_append_left hlt] at hcall
      rw [List.getElem?_append_left (h.length ▸ hlt)] at hj
      exact h.fates j c₀ c hcall hj
    · -- whoever has just come has made no move yet
      have hge := Nat.le_of_not_lt hlt
      rw [List.getElem?_append_right hge] at hcall
      rw [List.getElem?_append_right (h.length ▸ hge), h.length] at hj
      obtain rfl := Option.some.inj (hcall.symm.trans hj)
      rw [h.known j hge]
      exact ⟨fun hahead => .ahead hahead fun _ => id, id, by omega⟩
  known j hj := by
    rw [countP_concat, hown, if_neg (by decide), Nat.add_zero]
    refine h.known j (Nat.le_trans ?_ hj)
    rw [List.length_append]
    exact Nat.le_add_right _ _

/-- An interruption is a section of its own. -/
theorem sections_interrupted (s : Slot) {w : Wait} (hw : c.wait? = some w) :
    c.Sections s (.finished (.error .interrupted)) s := by
  refine ⟨rfl, rfl, ?_, by rintro ⟨⟩, ?_, fun _ => .interrupted⟩
  · cases c <;> first | rfl | cases hw
  · cases c with
    | sending m => cases m <;> exact Nat.succ_pos _
    | _ => first | exact Nat.succ_pos _ | cases hw

/-- A caller that heeds the shutdown tries once more, and no more than once. -/
theorem Hung.heeds (h : Hung number calls total past x) {w : Wait}
    (horderly : venue.Orderly { x with retrying := i :: x.retrying })
    (hw : venue.waitOf? x.place i = some w) (haway : i ∉ x.retrying) :
    Hung number calls total (past ++ [.heed i])
      { x with retrying := i :: x.retrying } where
  orderly := horderly
  closed := h.closed
  numbered := h.numbered
  served := h.served
  length := h.length
  fates j c₀ c hcall hj := by
    have hfate := h.fates j c₀ c hcall hj
    have hmoves := hfate.moves
    refine ⟨hfate.doomed, hfate.settling, ?_⟩
    rw [countP_concat]
    by_cases hij : i = j
    · subst hij
      rw [decide_eq_false haway, Bool.toNat_false] at hmoves
      rw [show Own i (.heed i) = true from beq_self_eq_true i, if_pos rfl,
        decide_eq_true (List.mem_cons_self ..), Bool.toNat_true]
      omega
    · have hsame : decide (j ∈ i :: x.retrying) = decide (j ∈ x.retrying) :=
        decide_eq_decide.2 (by simp [Ne.symm hij])
      rw [show Own j (.heed i) = false from beq_false_of_ne hij, if_neg (by decide), Nat.add_zero,
        hsame]
      exact hmoves
  known j hj := by
    obtain ⟨c, hi, -⟩ := Venue.waitOf?_eq_some.1 hw
    have hlt : i < calls.length := h.length ▸ (List.getElem?_eq_some_iff.1 hi).1
    rw [countP_concat, h.known j hj, show Own j (.heed i) = false from beq_false_of_ne (by omega)]
    rfl

/-- **Every move** after the close. -/
theorem Hung.move (h : Hung number calls total past x) (hm : Begins m)
    (hmove : venue.move? x m = some y) :
    Hung number (calls ++ (newcomer? m).toList) total (past ++ [m]) y := by
  have horderly := h.orderly.move venue_lawful hmove
  have hquits : ∀ {i : Nat} {w : Wait}, venue.waitOf? x.place i = some w →
      (∀ j, Own j m = (i == j)) → y = venue.interrupt x i →
      Hung number calls total (past ++ [m]) y := by
    rintro i w hw hown rfl
    obtain ⟨c, hi, hc⟩ := Venue.waitOf?_eq_some.1 hw
    rw [Venue.interrupt, Venue.change_eq_seat hi] at horderly ⊢
    refine h.goes horderly hi hown (Caller.hasEnded_of_wait hc) (sections_interrupted _ hc) ?_
      fun j hji => ?_
    · simp
    · simp [hji]
  cases Venue.goes_of_move? hmove with
  | @aside m d haside =>
      cases asides_of_aside? haside with
      | @steps i c c' slot' hi hwait hstep =>
          have hended : c.hasEnded = false := hasEnded_of_step? hstep
          have hnot : i ∉ x.retrying := by
            intro hretry
            obtain ⟨w, hw, -⟩ := h.orderly.retrying i hretry
            obtain ⟨e, he, hew⟩ := Venue.waitOf?_eq_some.1 hw
            obtain rfl := Option.some.inj (hi.symm.trans he)
            cases hwait.symm.trans hew
          rw [show (newcomer? (.aside (.step i))).toList = [] from rfl, List.append_nil]
          exact h.goes horderly hi (fun _ => rfl) hended (sections_of_step? hwait hstep) hnot
            fun _ _ => Iff.rfl
      | closes => exact h.aside hm horderly (.inr rfl) rfl (List.append_nil _).symm fun _ => rfl
      | fires => exact h.aside hm horderly (.inl rfl) rfl (List.append_nil _).symm fun _ => rfl
      | joins c => exact h.aside hm horderly (.inl rfl) rfl rfl fun _ => rfl
      | drops => exact h.aside hm horderly (.inl rfl) rfl (List.append_nil _).symm fun _ => rfl
  | @parks i w hw haway hover halone =>
      have hopen := (Bool.or_eq_false_iff.1 hover).1
      exact absurd (h.closed.symm.trans hopen) (by decide)
  | meets haway hmeets => exact absurd trivial (h.not_exchanges hmove)
  | quits hw haway hclosed =>
      rw [show newcomer? _ = none from rfl, Option.toList_none, List.append_nil]
      exact hquits hw (fun _ => rfl) rfl
  | @heeds i w hw haway hheeds hfired =>
      rw [show newcomer? (.heed i) = none from rfl, Option.toList_none, List.append_nil]
      exact h.heeds horderly hw (Venue.isAway_iff.1 haway).2
  | receives hi hmeets => exact absurd trivial (h.not_exchanges hmove)
  | misses hi halone =>
      obtain ⟨w, hw, -⟩ := h.orderly.retrying _ hi
      rw [show newcomer? _ = none from rfl, Option.toList_none, List.append_nil]
      exact hquits hw (fun _ => rfl) rfl

/-- **Every run** after the close. -/
theorem Hung.run (h : Hung number calls total past y) (hafter : ∀ m ∈ after, Begins m)
    (hrun : venue.run? after y = some z) :
    Hung number (calls ++ after.filterMap newcomer?) total (past ++ after) z ∧
      ∀ m ∈ after, ¬ Exchanges m := by
  induction after generalizing calls past y with
  | nil =>
      obtain rfl := Option.some.inj hrun
      rw [List.filterMap_nil, List.append_nil, List.append_nil]
      exact ⟨h, fun m hm => absurd hm List.not_mem_nil⟩
  | cons m after ih =>
      obtain ⟨y', hmove, hrest⟩ := Option.bind_eq_some_iff.1 hrun
      have hfirst := h.move (hafter m List.mem_cons_self) hmove
      obtain ⟨hend, hnone⟩ := ih hfirst (fun m hm => hafter m (List.mem_cons_of_mem _ hm)) hrest
      have hcalls : calls ++ (m :: after).filterMap newcomer? =
          calls ++ (newcomer? m).toList ++ after.filterMap newcomer? := by
        rw [List.filterMap_cons, List.append_assoc]
        cases newcomer? m <;> rfl
      rw [hcalls, List.append_cons past m after]
      refine ⟨hend, fun m' hm' => ?_⟩
      rcases List.mem_cons.1 hm' with rfl | hm'
      · exact h.not_exchanges hmove
      · exact hnone m' hm'

/-- **Nobody waits any more**: whoever has not ended can go on. -/
theorem Hung.can_move (h : Hung number calls total past x) (hi : x.place.callers[i]? = some c)
    (hended : c.hasEnded = false) : ∃ m y, Own i m = true ∧ venue.move? x m = some y := by
  have halone : ∀ j ∈ x.parked, venue.meets x.place i j = false :=
    fun j hj => absurd hj h.nobody_parked
  have hown : (i == i) = true := beq_self_eq_true i
  cases hwait : c.wait? with
  | none =>
      obtain ⟨⟨c', slot'⟩, hstep⟩ := Option.isSome_iff_exists.1
        (step?_isSome x.place.slot x.place.dropped x.place.fired x.place.offered hwait hended)
      have hrule : x.place.step? i =
          some { x.place with slot := slot', callers := x.place.callers.set i c' } := by
        simp only [step?, hi, Option.bind_eq_bind, Option.bind_some, hstep]
      refine ⟨.aside (.step i), _, hown, Venue.move?_aside rfl ?_ hrule⟩
      rintro j ⟨⟩
      show x.place.callers[i]?.bind Caller.wait? = none
      rw [hi, Option.bind_some, hwait]
  | some w =>
      have hw : venue.waitOf? x.place i = some w := Venue.waitOf?_eq_some.2 ⟨c, hi, hwait⟩
      by_cases hretry : i ∈ x.retrying
      · exact ⟨.retry i none, _, hown, Venue.move?_miss hretry halone⟩
      · have haway : x.isAway i = true := Venue.isAway_iff.2 ⟨h.nobody_parked, hretry⟩
        exact ⟨.quit i, _, hown, Venue.move?_quit hw haway h.closed⟩

/-! ## §3 — the theorem -/

/-- The number of a slot stays. -/
theorem number_of_move? (hmove : venue.move? x m = some y) :
    y.place.slot.number = x.place.slot.number := by
  cases Venue.goes_of_move? hmove with
  | aside haside =>
      cases asides_of_aside? haside with
      | steps hi hwait hstep => exact (sections_of_step? hwait hstep).number
      | _ => rfl
  | meets haway hmeets => cases hmeets; rfl
  | receives hi hmeets => cases hmeets; rfl
  | _ => rfl

theorem number_of_run? {before : List (Selecting.Move Move)}
    (hrun : venue.run? before x = some y) : y.place.slot.number = x.place.slot.number := by
  induction before generalizing x with
  | nil => exact Option.some.inj hrun ▸ rfl
  | cons m before ih =>
      obtain ⟨x', hmove, hrest⟩ := Option.bind_eq_some_iff.1 hrun
      exact (ih hrest).trans (number_of_move? hmove)

/-- **The close itself**: nothing has happened since. -/
theorem hung_of_close (horderly : venue.Orderly x)
    (hclose : venue.move? x (.aside .close) = some y) :
    Hung x.place.slot.number x.place.callers
      (x.place.slot.served + tally Caller.freeing x.place.callers) [] y := by
  have hafter := horderly.move venue_lawful hclose
  cases Venue.goes_of_move? hclose with
  | aside haside =>
      cases asides_of_aside? haside
      refine ⟨hafter, rfl, rfl, rfl, rfl, fun i c₀ c hcall hi => ?_, fun _ _ => rfl⟩
      obtain rfl := Option.some.inj (hcall.symm.trans hi)
      refine ⟨fun hahead => .ahead hahead fun _ => id, id, ?_⟩
      rw [List.countP_nil]
      omega

/-- **A close ends all communication**, for any callers caught at any point, with selects whose look
at all arms is one move (`Venue.move?`): no signal is exchanged from then on, whatever arm a select
picks. A service is counted only if its completion was taken before the close and it was already to
be counted then. Each call that was under way, or that has begun since, goes on until it has ended,
in as many moves as it had left and one that may be made twice; and if its signal was still ahead
then it ends interrupted, or refused by a check of the phase that it had still ahead. -/
theorem close_ends_all {number : Nat} {before after : List (Selecting.Move Move)}
    (hafter : ∀ m ∈ after, Begins m) {x y z : Selecting Desk}
    (hbefore : venue.run? before (.start (.ofNumber number)) = some x)
    (hclose : venue.move? x (.aside .close) = some y) (hrun : venue.run? after y = some z) :
    let calls := x.place.callers ++ after.filterMap newcomer?
    (∀ m ∈ after, ¬ Exchanges m) ∧
    z.place.slot.served + tally Caller.freeing z.place.callers =
      x.place.slot.served + tally Caller.freeing x.place.callers ∧
    (∀ i : Nat, z.place.callers[i]? = some .settling → x.place.callers[i]? = some .settling) ∧
    ∀ (i : Nat) (c₀ : Caller), calls[i]? = some c₀ → ∃ c, z.place.callers[i]? = some c ∧
      (c₀.Ahead → c₀.Doomed number c) ∧
      (c.hasEnded = false → ∃ m z', Own i m = true ∧ venue.move? z m = some z') ∧
      after.countP (Own i) ≤ 2 * c₀.left + 1 := by
  intro calls
  have horderly : venue.Orderly x := Venue.orderly_of_runs venue_lawful
    (runs_of_run? (fun _ => rfl) (fun _ _ _ => rfl) hbefore)
  have hnumber : x.place.slot.number = number := number_of_run? hbefore
  obtain ⟨hung, hnone⟩ := (hnumber ▸ hung_of_close horderly hclose).run hafter hrun
  rw [List.nil_append] at hung
  have hcall : ∀ {i : Nat} {c : Caller}, z.place.callers[i]? = some c → ∃ c₀, calls[i]? = some c₀ :=
    fun hi => ⟨_, List.getElem?_eq_getElem (hung.length ▸ (List.getElem?_eq_some_iff.1 hi).1)⟩
  refine ⟨hnone, hung.served, fun i hi => ?_, fun i c₀ hc₀ => ?_⟩
  · obtain ⟨c₀, hc₀⟩ := hcall hi
    obtain rfl := (hung.fates i c₀ .settling hc₀ hi).settling rfl
    rcases Nat.lt_or_ge i x.place.callers.length with hold | hnew
    · exact (List.getElem?_append_left hold).symm.trans hc₀
    · have hjoined := (List.getElem?_append_right hnew).symm.trans hc₀
      obtain ⟨m, hm, hnewcomer⟩ := List.mem_filterMap.1 (List.mem_of_getElem? hjoined)
      obtain rfl := newcomer?_eq_some hnewcomer
      exact (hafter _ hm).elim
  · have hlt : i < z.place.callers.length := by
      rw [hung.length]
      exact (List.getElem?_eq_some_iff.1 hc₀).1
    have hi := List.getElem?_eq_getElem hlt
    have hfate := hung.fates i c₀ _ hc₀ hi
    have hmoves := hfate.moves
    have htoNat : (decide (i ∈ z.retrying)).toNat ≤ 1 := Bool.toNat_le _
    exact ⟨_, hi, hfate.doomed, hung.can_move hi, by omega⟩

end Hung

/-- The slot is closed right after a completion was taken, while one more caller is parked that
waits for one. The service is still counted; the caller is woken, and interrupted, and so is a
worker that comes later, once the shutdown has fired, on its second try. A customer that comes later
is refused, as the slot is not open. -/
theorem close_ends_all_completed :
    let aside : List Move → List (Selecting.Move Move) := List.map .aside
    let before := aside [.join .opening, .step 0, .join .awaitingPublish,
        .join (.publishing ⟨7, .buyStamps⟩), .step 2] ++ [.park 1, .meet 2 1] ++
      aside [.step 1, .join .acknowledging, .step 3, .join .awaitingAcknowledge] ++
      [.park 3, .meet 4 3] ++ aside [.join .proceeding, .step 5, .join .awaitingProceed] ++
      [.park 6, .meet 5 6] ++ aside [.step 6, .join .completing, .step 7,
        .join .awaitingCompletion, .join .awaitingCompletion] ++ [.park 8, .park 9, .meet 7 8]
    let after := aside [.fire, .join .awaitingPublish] ++ [.heed 10, .quit 9] ++
      aside [.step 7, .join (.publishing ⟨8, .mailLetter⟩), .step 11] ++ [.retry 10 none]
    (∀ m ∈ after, Begins m) ∧ ∃ x y z, venue.run? before (.start (.ofNumber 3)) = some x ∧
      venue.move? x (.aside .close) = some y ∧ venue.run? after y = some z ∧
      x.parked = [9] ∧ x.place.callers[7]? = some .settling ∧ x.place.slot.served = 0 ∧
      y.parked = [] ∧ z.place.slot.served = 1 ∧ tally Caller.freeing z.place.callers = 0 ∧
      z.place.callers[9]? = some (.finished (.error .interrupted)) ∧
      z.place.callers[10]? = some (.finished (.error .interrupted)) ∧
      z.place.callers[11]? = some (.finished (.error (.violation 3 (.publishedInto 8 .idle)))) ∧
      (∀ m ∈ after, ¬ Exchanges m) ∧ after.countP (Own 10) ≤ 5 := by
  intro aside before after
  have hafter : ∀ m ∈ after, Begins m := by
    simp [after, aside, Begins, Move.Begins, Caller.Begins]
  obtain ⟨x, y, z, hbefore, hclose, hrun, hparked, hsettling, hfreeing, hnone, hcall, hwoken,
    hserved, hends⟩ : ∃ x y z, venue.run? before (.start (.ofNumber 3)) = some x ∧
      venue.move? x (.aside .close) = some y ∧ venue.run? after y = some z ∧
      x.parked = [9] ∧ x.place.callers[7]? = some .settling ∧
      tally Caller.freeing x.place.callers = 1 ∧ x.place.slot.served = 0 ∧
      (x.place.callers ++ after.filterMap newcomer?)[10]? = some .awaitingPublish ∧
      y.parked = [] ∧ z.place.slot.served = 1 ∧
      z.place.callers[9]? = some (.finished (.error .interrupted)) ∧
      z.place.callers[10]? = some (.finished (.error .interrupted)) ∧
      z.place.callers[11]? = some (.finished (.error (.violation 3 (.publishedInto 8 .idle)))) :=
    ⟨_, _, _, rfl, rfl, rfl, rfl, rfl, rfl, rfl, rfl, rfl, rfl, rfl, rfl, rfl⟩
  obtain ⟨hexchanges, hcounted, -, hcalls⟩ := close_ends_all hafter hbefore hclose hrun
  obtain ⟨-, -, -, -, hmoves⟩ := hcalls 10 .awaitingPublish hcall
  have hall : tally Caller.freeing z.place.callers = 0 := by omega
  exact ⟨hafter, x, y, z, hbefore, hclose, hrun, hparked, hsettling, hnone, hwoken, hserved, hall,
    hends.1, hends.2.1, hends.2.2, hexchanges, hmoves⟩

end Desk

end Postal.Slot

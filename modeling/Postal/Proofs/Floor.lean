import Postal.Office.Floor
import Postal.Proofs.Tally

/-!
# Moves on the floor, taken apart.

What a move does to the people is said here once, so that no invariant has to take the rules of the
floor apart again. A step changes one person (`Floor.step?_eq_some`), a panic too
(`Floor.unwind?_eq_some`), and an exchange changes two people, in one of exactly four ways
(`Exchanges`). Nobody ever turns into somebody else: the **badges** stay (`Person.badge`).
-/

namespace Postal

/-- A visit that is over stands at its end. -/
theorem Visiting.eq_ended {v : Visiting} {e : Ending Visit} (h : v.ending? = some e) :
    v = .ended e := by
  cases v with
  | ended ending => exact congrArg Visiting.ended (Option.some.inj h)
  | _ => cases h

/-- A shift that is over stands at its end. -/
theorem Working.eq_ended {k : Working} {e : Ending WorkerReport} (h : k.ending? = some e) :
    k = .ended e := by
  cases k with
  | ended ending => exact congrArg Working.ended (Option.some.inj h)
  | _ => cases h

/-- Who somebody is, wherever they stand. -/
inductive Badge where
  | customer (c : Customer)
  | worker (id : Nat)
  | closer
  deriving DecidableEq, Repr

/-- Whether it is the badge of a worker. -/
def Badge.isWorker : Badge → Bool
  | .worker _ => true
  | _ => false

/-- The badge of a person. -/
def Person.badge : Person → Badge
  | .customer c _ => .customer c
  | .worker id _ => .worker id
  | .closer _ => .closer

namespace Person

theorem step?_badge {p p' : Person} {premises premises' : Premises} {offered : Nat → Bool}
    (h : p.step? premises offered = some (p', premises')) : p'.badge = p.badge := by
  cases p <;> obtain ⟨⟨q, premises''⟩, -, hend⟩ := Option.map_eq_some_iff.1 h <;>
    obtain ⟨rfl, -⟩ := Prod.mk.inj hend <;> rfl

/-- **`Unwinds p p'`** — everything that a panic can make of a person that is announcing something.
A visit is over before the customer has come in, and turns to the exit afterwards; a shift is over,
once it has given the scale back that it may have. -/
inductive Unwinds : Person → Person → Prop
  | outside {c : Customer} :
      Unwinds (.customer c .announcingCreation) (.customer c (.ended .panicked))
  | entered {c : Customer} {stay : Stay} :
      Unwinds (.customer c (.announcingAdmission stay)) (.customer c (.leave .panicked))
  | dealing {c : Customer} {stay : Stay} {w : Nat} {d : Dealing} {e : Event}
      (he : (Visiting.dealing stay w d).emits? c = some e) :
      Unwinds (.customer c (.dealing stay w d)) (.customer c (.leave .panicked))
  | weighing {w n : Nat} {a : Assignment} (h : a.task.needsScale = true) :
      Unwinds (.worker w (.serving n a .announcingStart)) (.worker w (.unwinding .counted))
  | working {w : Nat} {k : Working} {e : Event} (he : k.emits? w = some e)
      (hscale : k.holdsScale = false) : Unwinds (.worker w k) (.worker w (.ended .panicked))

theorem unwinds_of_unwind? {p p' : Person} (h : p.unwind? = some p') : p.Unwinds p' := by
  cases p with
  | closer k => cases h
  | customer c v =>
      obtain ⟨v', hv', rfl⟩ := Option.map_eq_some_iff.1 h
      obtain ⟨e, he, rfl⟩ := Option.map_eq_some_iff.1 hv'
      cases v with
      | announcingCreation => exact .outside
      | announcingAdmission stay => exact .entered
      | dealing stay w d => exact .dealing he
      | _ => cases he
  | worker w k =>
      obtain ⟨k', hk', rfl⟩ := Option.map_eq_some_iff.1 h
      obtain ⟨e, he, rfl⟩ := Option.map_eq_some_iff.1 hk'
      cases hscale : k.holdsScale with
      | false => exact .working he hscale
      | true =>
          cases k with
          | serving n a position =>
              cases position with
              | announcingStart => exact .weighing hscale
              | _ => cases hscale
          | _ => cases hscale

theorem unwind?_badge {p p' : Person} (h : p.unwind? = some p') : p'.badge = p.badge := by
  cases unwinds_of_unwind? h <;> rfl

end Person

namespace Floor

/-- The badges of everybody on the floor, in the order in which they came. -/
def badges (f : Floor) : List Badge := f.people.map Person.badge

/-- As many people as badges. -/
theorem length_of_badges {f f' : Floor} (h : f'.badges = f.badges) :
    f'.people.length = f.people.length := by
  simpa [badges] using congrArg List.length h

theorem badge_of_getElem? {f : Floor} {i : Nat} {p : Person} (hi : f.people[i]? = some p) :
    f.badges[i]? = some p.badge := by
  rw [badges, List.getElem?_map, hi]
  rfl

/-! ## Moves -/

/-- **A step**: person `i` goes on, everybody else stays. -/
theorem step?_eq_some {f f' : Floor} {i : Nat} (h : f.step? i = some f') :
    ∃ p p' premises', f.people[i]? = some p ∧
      p.step? f.premises f.offered = some (p', premises') ∧
      f' = ⟨premises', f.people.set i p'⟩ := by
  simp only [step?, Option.bind_eq_bind, Option.bind_eq_some_iff, Prod.exists,
    Option.some.injEq] at h
  obtain ⟨p, hp, p', premises', hstep, rfl⟩ := h
  exact ⟨p, p', premises', hp, hstep, rfl⟩

/-- Whoever has a next step can take it. -/
theorem step?_isSome {f : Floor} {i : Nat} {p : Person} (hi : f.people[i]? = some p)
    (h : (p.step? f.premises f.offered).isSome = true) : (f.step? i).isSome = true := by
  obtain ⟨⟨p', premises'⟩, hstep⟩ := Option.isSome_iff_exists.1 h
  simp only [step?, hi, Option.bind_eq_bind, Option.bind_some, hstep, Option.isSome_some]

/-- **A panic**: the announcement of person `i` unwinds it, everybody else stays. -/
theorem unwind?_eq_some {f f' : Floor} {i : Nat} (h : f.unwind? i = some f') :
    ∃ p p', f.people[i]? = some p ∧ p.unwind? = some p' ∧
      f' = { f with people := f.people.set i p' } := by
  simp only [unwind?, Option.bind_eq_bind, Option.bind_eq_some_iff, Option.some.injEq] at h
  obtain ⟨p, hp, p', hunwind, rfl⟩ := h
  exact ⟨p, p', hp, hunwind, rfl⟩

/-- **`Exchanges people i j w people'`** — the four ways in which person `i` hands a message to
person `j` at the slot of worker `w`. -/
inductive Exchanges (people : List Person) : Nat → Nat → Nat → List Person → Prop
  | published {i j w n : Nat} {c : Customer} {stay : Stay}
      (hi : people[i]? = some (.customer c (.dealing stay w .handing)))
      (hj : people[j]? = some (.worker w (.awaitingPublish n))) :
      Exchanges people i j w
        ((people.set i (.customer c (.dealing stay w .awaitingAcknowledge))).set j
          (.worker w (.checkingReceived n c.assignment)))
  | acknowledged {i j w n : Nat} {a : Assignment} {c : Customer} {stay : Stay}
      (hi : people[i]? = some (.worker w (.serving n a .sendingAcknowledge)))
      (hj : people[j]? = some (.customer c (.dealing stay w .awaitingAcknowledge))) :
      Exchanges people i j w
        ((people.set i (.worker w (.serving n a .awaitingProceed))).set j
          (.customer c (.dealing stay w .announcingIntent)))
  | proceeded {i j w n : Nat} {a : Assignment} {c : Customer} {stay : Stay}
      (hi : people[i]? = some (.customer c (.dealing stay w .sendingProceed)))
      (hj : people[j]? = some (.worker w (.serving n a .awaitingProceed))) :
      Exchanges people i j w
        ((people.set i (.customer c (.dealing stay w .awaitingCompletion))).set j
          (.worker w (.serving n a .checkingProceed)))
  | completed {i j w n : Nat} {a : Assignment} {c : Customer} {stay : Stay}
      (hi : people[i]? = some (.worker w (.serving n a .sendingCompletion)))
      (hj : people[j]? = some (.customer c (.dealing stay w .awaitingCompletion))) :
      Exchanges people i j w
        ((people.set i (.worker w (.serving n a .settling))).set j
          (.customer c (.dealing stay w .announcingFinish)))

/-- A customer and a worker move on in whichever order. -/
theorem set_customer_set_worker {people : List Person} {i j w : Nat} {c : Customer} {v : Visiting}
    {k : Working} (hi : people[i]? = some (.customer c v)) (hj : people[j]? = some (.worker w k))
    (p q : Person) : (people.set j q).set i p = (people.set i p).set j q := by
  refine List.set_comm _ _ ?_
  rintro rfl
  cases hi.symm.trans hj

/-- What a person sends is sent by a customer or by a worker of the slot. -/
theorem sends?_cases {p : Person} {w : Nat} {m : Message} (h : p.sends? = some (w, m)) :
    (∃ c stay, p = .customer c (.dealing stay w .handing) ∧ m = .assignment c.assignment) ∨
    (∃ c stay, p = .customer c (.dealing stay w .sendingProceed) ∧ m = .proceed) ∨
    (∃ n a, p = .worker w (.serving n a .sendingAcknowledge) ∧ m = .acknowledged) ∨
    (∃ n a, p = .worker w (.serving n a .sendingCompletion) ∧ m = .completed) := by
  cases p with
  | closer k => cases h
  | customer c v =>
      simp only [Person.sends?] at h
      unfold Visiting.sends? at h
      split at h
      · obtain ⟨rfl, rfl⟩ := Prod.mk.inj (Option.some.inj h)
        exact .inl ⟨_, _, rfl, rfl⟩
      · obtain ⟨rfl, rfl⟩ := Prod.mk.inj (Option.some.inj h)
        exact .inr (.inl ⟨_, _, rfl, rfl⟩)
      · cases h
  | worker id k =>
      obtain ⟨m', hm, hend⟩ := Option.map_eq_some_iff.1 h
      obtain ⟨rfl, rfl⟩ := Prod.mk.inj hend
      unfold Working.sends? at hm
      split at hm
      · obtain rfl := Option.some.inj hm
        exact .inr (.inr (.inl ⟨_, _, rfl, rfl⟩))
      · obtain rfl := Option.some.inj hm
        exact .inr (.inr (.inr ⟨_, _, rfl, rfl⟩))
      · cases hm

/-- Whoever waits for a signal is a customer or a worker of the slot. -/
theorem receives?_cases {p : Person} {w : Nat} {signal : Signal}
    (h : p.receives? = some (w, signal)) :
    (∃ n, p = .worker w (.awaitingPublish n) ∧ signal = .published) ∨
    (∃ c stay, p = .customer c (.dealing stay w .awaitingAcknowledge) ∧ signal = .acknowledged) ∨
    (∃ n a, p = .worker w (.serving n a .awaitingProceed) ∧ signal = .proceed) ∨
    (∃ c stay, p = .customer c (.dealing stay w .awaitingCompletion) ∧ signal = .completed) := by
  cases p with
  | closer k => cases h
  | customer c v =>
      simp only [Person.receives?] at h
      unfold Visiting.receives? at h
      split at h
      · obtain ⟨rfl, rfl⟩ := Prod.mk.inj (Option.some.inj h)
        exact .inr (.inl ⟨_, _, rfl, rfl⟩)
      · obtain ⟨rfl, rfl⟩ := Prod.mk.inj (Option.some.inj h)
        exact .inr (.inr (.inr ⟨_, _, rfl, rfl⟩))
      · cases h
  | worker id k =>
      obtain ⟨signal', hm, hend⟩ := Option.map_eq_some_iff.1 h
      obtain ⟨rfl, rfl⟩ := Prod.mk.inj hend
      unfold Working.receives? at hm
      split at hm
      · obtain rfl := Option.some.inj hm
        exact .inl ⟨_, rfl, rfl⟩
      · obtain rfl := Option.some.inj hm
        exact .inr (.inr (.inl ⟨_, _, rfl, rfl⟩))
      · cases hm

/-- **An exchange** is one of the four, at a slot that is open, and leaves the premises alone. -/
theorem exchanges_of_exchange? {f f' : Floor} {i j : Nat} (h : f.exchange? i j = some f') :
    ∃ w people', f.premises.isSlotClosed w = false ∧ Exchanges f.people i j w people' ∧
      f' = { f with people := people' } := by
  simp only [exchange?, Option.bind_eq_bind, Option.bind_eq_some_iff, Prod.exists] at h
  obtain ⟨sender, hi, receiver, hj, w, m, hsend, w', signal, hrecv, hif⟩ := h
  split at hif
  · next hcond =>
    obtain ⟨rfl, hsignal, hopen⟩ := hcond
    obtain rfl := Option.some.inj hif
    refine ⟨w, _, hopen, ?_, rfl⟩
    rcases sends?_cases hsend with ⟨c, stay, rfl, rfl⟩ | ⟨c, stay, rfl, rfl⟩ | ⟨n, a, rfl, rfl⟩ |
      ⟨n, a, rfl, rfl⟩ <;>
    rcases receives?_cases hrecv with ⟨n', rfl, rfl⟩ | ⟨c', stay', rfl, rfl⟩ | ⟨n', a', rfl, rfl⟩ |
      ⟨c', stay', rfl, rfl⟩ <;>
    first
      | exact .published hi hj
      | exact .acknowledged hi hj
      | exact .proceeded hi hj
      | exact .completed hi hj
      | cases hsignal
  · cases hif

/-- Whenever sender and receiver of a signal stand at an open slot they can exchange it. -/
theorem exchange?_isSome {f : Floor} {i j w : Nat} {sender receiver : Person} {m : Message}
    (hi : f.people[i]? = some sender) (hj : f.people[j]? = some receiver)
    (hsend : sender.sends? = some (w, m)) (hrecv : receiver.receives? = some (w, m.signal))
    (hopen : f.premises.isSlotClosed w = false) : (f.exchange? i j).isSome = true := by
  simp [exchange?, hi, hj, hsend, hrecv, hopen]

theorem Exchanges.badges {people people' : List Person} {i j w : Nat}
    (h : Exchanges people i j w people') :
    people'.map Person.badge = people.map Person.badge := by
  have two : ∀ {a a' b b' : Person}, people[i]? = some a → people[j]? = some b →
      a.badge ≠ b.badge → a'.badge = a.badge → b'.badge = b.badge →
      ((people.set i a').set j b').map Person.badge = people.map Person.badge := by
    intro a a' b b' hi hj hab ha hb
    have hij : i ≠ j := by
      rintro rfl
      exact hab (congrArg Person.badge (Option.some.inj (hi.symm.trans hj)))
    have hj' : (people.set i a')[j]? = some b := by rw [List.getElem?_set_ne hij]; exact hj
    rw [map_set_of_eq hj' hb, map_set_of_eq hi ha]
  cases h with
  | published hi hj => exact two hi hj (by simp [Person.badge]) rfl rfl
  | acknowledged hi hj => exact two hi hj (by simp [Person.badge]) rfl rfl
  | proceeded hi hj => exact two hi hj (by simp [Person.badge]) rfl rfl
  | completed hi hj => exact two hi hj (by simp [Person.badge]) rfl rfl

/-! ## Runs -/

/-- Who comes with a move. -/
def Move.newcomer? : Move → Option Badge
  | .join p => some p.badge
  | _ => none

/-- The badges of all who come in a run, in that order. -/
def newcomers (ms : List Move) : List Badge := ms.filterMap Move.newcomer?

theorem newcomers_cons (m : Move) (ms : List Move) :
    newcomers (m :: ms) = m.newcomer?.toList ++ newcomers ms := by
  rw [newcomers, newcomers, List.filterMap_cons]
  cases m.newcomer? <;> rfl

theorem newcomers_append (ms ms' : List Move) :
    newcomers (ms ++ ms') = newcomers ms ++ newcomers ms' := List.filterMap_append

/-- A move brings its newcomer, and nobody else changes the badge. -/
theorem badges_move {f f' : Floor} {m : Move} (h : f.move? m = some f') :
    f'.badges = f.badges ++ m.newcomer?.toList := by
  cases m with
  | step i =>
      obtain ⟨p, p', premises', hi, hstep, rfl⟩ := step?_eq_some h
      rw [show Move.newcomer? (.step i) = none from rfl, Option.toList_none, List.append_nil]
      exact map_set_of_eq hi (Person.step?_badge hstep)
  | exchange i j =>
      obtain ⟨w, people', -, hex, rfl⟩ := exchanges_of_exchange? h
      rw [show Move.newcomer? (.exchange i j) = none from rfl, Option.toList_none,
        List.append_nil]
      exact hex.badges
  | unwind i =>
      obtain ⟨p, p', hi, hunwind, rfl⟩ := unwind?_eq_some h
      rw [show Move.newcomer? (.unwind i) = none from rfl, Option.toList_none, List.append_nil]
      exact map_set_of_eq hi (Person.unwind?_badge hunwind)
  | fire =>
      obtain rfl := Option.some.inj h
      exact (List.append_nil _).symm
  | join p =>
      obtain rfl := Option.some.inj h
      exact List.map_append

/-- Nobody disappears in a move. -/
theorem length_le_of_move {f f' : Floor} {m : Move} (hmove : f.move? m = some f') :
    f.people.length ≤ f'.people.length := by
  have hlength := congrArg List.length (badges_move hmove)
  simp only [badges, List.length_map, List.length_append] at hlength
  omega

/-- Whoever comes with a move begins a visit, a shift or a close. -/
def Move.Begins : Move → Prop
  | .join p => (∃ c, p = .arrives c) ∨ (∃ w, p = .starts w) ∨ p = .closes
  | _ => True

/-- **A regular run** of an office of so many workers: whoever comes starts a visit, a shift or a
close, and no worker comes twice. -/
structure Regular (workers : Nat) (ms : List Move) : Prop where
  begins : ∀ p, .join p ∈ ms → (∃ c, p = .arrives c) ∨ (∃ w, w < workers ∧ p = .starts w) ∨
    p = .closes
  once : ∀ w, (newcomers ms).count (.worker w) ≤ 1

/-- Whether whoever comes with a move starts a visit, a shift of a worker of the office or a
close. -/
def Move.opens (workers : Nat) : Move → Bool
  | .join (.customer _ v) => v = .start
  | .join (.worker w k) => w < workers && k = .start
  | .join (.closer k) => k = .gate
  | _ => true

theorem Move.opens_join {workers : Nat} {p : Person} :
    (Move.join p).opens workers = true ↔
      (∃ c, p = .arrives c) ∨ (∃ w, w < workers ∧ p = .starts w) ∨ p = .closes := by
  cases p <;> simp [opens, Person.arrives, Person.starts, Person.closes]

/-- **Whether a run is regular** can be read off its moves. -/
theorem regular_iff {workers : Nat} {ms : List Move} :
    Regular workers ms ↔ (∀ m ∈ ms, m.opens workers = true) ∧
      ∀ b ∈ newcomers ms, b.isWorker = true → (newcomers ms).count b ≤ 1 := by
  constructor
  · intro h
    refine ⟨fun m hm => ?_, fun b _ hworker => ?_⟩
    · cases m with
      | join p => exact Move.opens_join.2 (h.begins p hm)
      | _ => rfl
    · cases b with
      | worker w => exact h.once w
      | _ => cases hworker
  · rintro ⟨hopens, honce⟩
    refine ⟨fun p hp => Move.opens_join.1 (hopens _ hp), fun w => ?_⟩
    by_cases hw : .worker w ∈ newcomers ms
    · exact honce _ hw rfl
    · rw [List.count_eq_zero.2 hw]
      exact Nat.zero_le 1

instance (workers : Nat) (ms : List Move) : Decidable (Regular workers ms) :=
  decidable_of_iff _ regular_iff.symm

/-- Nobody comes in a regular run who does not begin something. -/
theorem Regular.move_begins {workers : Nat} {ms : List Move} (h : Regular workers ms) {m : Move}
    (hm : m ∈ ms) : m.Begins := by
  cases m with
  | join p =>
      rcases h.begins p hm with hc | ⟨w, -, hw⟩ | hk
      · exact .inl hc
      · exact .inr (.inl ⟨w, hw⟩)
      · exact .inr (.inr hk)
  | _ => trivial

/-- What comes before the rest of a regular run is regular. -/
theorem Regular.of_append {workers : Nat} {ms ms' : List Move} (h : Regular workers (ms ++ ms')) :
    Regular workers ms := by
  refine ⟨fun p hp => h.begins p (List.mem_append_left _ hp), fun w => ?_⟩
  have honce := h.once w
  rw [newcomers_append, List.count_append] at honce
  omega

/-- **Whoever comes last** in a regular run begins something, and is no worker who was there before.
-/
theorem Regular.newcomer {workers : Nat} {ms : List Move} {p : Person}
    (h : Regular workers (ms ++ [.join p])) :
    (∃ c, p = .arrives c) ∨ (∃ w, p = .starts w ∧ w < workers ∧ .worker w ∉ newcomers ms) ∨
      p = .closes := by
  rcases h.begins p List.mem_concat_self with hc | ⟨w, hw, rfl⟩ | hk
  · exact .inl hc
  · refine .inr (.inl ⟨w, rfl, hw, fun hmem => ?_⟩)
    have honce := h.once w
    have hpos := List.count_pos_iff.2 hmem
    rw [newcomers_append, List.count_append,
      show newcomers [.join (.starts w)] = [.worker w] from rfl, List.count_singleton_self] at honce
    omega
  · exact .inr (.inr hk)

/-- One run after another. -/
theorem run?_append {ms ms' : List Move} {f f' f'' : Floor} (h : run? ms f = some f')
    (h' : run? ms' f' = some f'') : run? (ms ++ ms') f = some f'' := by
  induction ms generalizing f with
  | nil =>
      obtain rfl := Option.some.inj h
      exact h'
  | cons m ms ih =>
      obtain ⟨f₁, hmove, hrest⟩ := Option.bind_eq_some_iff.1 h
      exact Option.bind_eq_some_iff.2 ⟨f₁, hmove, ih hrest⟩

/-- **Induction over a run.** `motive` speaks of the moves that are still to come and of the floor;
if every move keeps it, then it holds at the end. -/
theorem run_induction {motive : List Move → Floor → Prop}
    (hmove : ∀ {m : Move} {ms : List Move} {f f' : Floor}, motive (m :: ms) f →
      f.move? m = some f' → motive ms f') :
    ∀ {ms : List Move} {f f' : Floor}, motive ms f → f.run? ms = some f' → motive [] f' := by
  intro ms
  induction ms with
  | nil =>
      intro f f' hf h
      exact Option.some.inj h ▸ hf
  | cons m ms ih =>
      intro f f' hf h
      obtain ⟨f₁, hf₁, hrest⟩ := Option.bind_eq_some_iff.1 h
      exact ih (hmove hf hf₁) hrest

/-- After a run there are those who were there and those who came. -/
theorem badges_run {ms : List Move} {f f' : Floor} (h : f.run? ms = some f') :
    f'.badges = f.badges ++ newcomers ms := by
  have hend := run_induction (motive := fun rest g => g.badges ++ newcomers rest =
    f.badges ++ newcomers ms) (fun {m rest g g'} hg hmove => ?_) rfl h
  · rwa [show newcomers [] = [] from rfl, List.append_nil] at hend
  · rw [badges_move hmove, ← hg, List.append_assoc, newcomers_cons]

end Floor

end Postal

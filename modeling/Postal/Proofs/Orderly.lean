import Postal.Proofs.Calm
import Postal.Proofs.Driver

/-!
# An orderly day.

On a day on which nobody panics the office stays calm, and everybody reports what the driver waits
for: the staff, the books and the office are in order together (`Day.Orderly`), and every move but
a panic keeps them so (`Day.Orderly.move`).
-/

namespace Postal

/-- Whatever the driver does on the floor keeps the office calm. -/
theorem Floor.Calm.tended {workers room : Nat} {f f' : Floor} (h : f.Calm workers room)
    (htended : f.Tended workers f') : f'.Calm workers room := by
  cases htended with
  | leftAlone => exact h
  | hires hw hnew => exact h.join (.inr ⟨_, rfl, hw, hnew⟩)
  | welcomes c => exact h.join (.inl ⟨c, rfl⟩)
  | announces c => exact h.record rfl
  | fires => exact h.fire

/-- **`p.Panicked e`** — a panic has ended somebody, which is the fault `e`. -/
inductive Person.Panicked : Person → Fault → Prop
  | customer (c : Customer) : Panicked (.customer c (.ended .panicked)) (.panicked .customer c.id)
  | worker (w : Nat) : Panicked (.worker w (.ended .panicked)) (.panicked .worker w)

/-- Whoever has panicked is hurt. -/
theorem Person.Panicked.hurt {p : Person} {e : Fault} (h : p.Panicked e) : ¬ p.Unhurt := by
  cases h <;> exact id

/-- **A failure** that somebody reports who is sound, where nobody closes, is a panic. -/
theorem Person.Sound.panicked {p : Person} {e : Fault} (h : p.Sound False)
    (ho : p.outcome? = some (.failed e)) : p.Panicked e := by
  cases p with
  | closer k => cases ho
  | worker w k =>
      obtain ⟨ending, hending, hout⟩ := Option.map_eq_some_iff.1 ho
      cases k with
      | ended e' =>
          obtain rfl := Option.some.inj hending
          cases e' with
          | returned r => cases hout
          | failed f => exact absurd rfl (h f)
          | panicked =>
              obtain rfl := Outcome.failed.inj hout
              exact .worker w
      | _ => cases hending
  | customer c v =>
      obtain ⟨ending, hending, hout⟩ := Option.map_eq_some_iff.1 ho
      cases v with
      | ended e' =>
          obtain rfl := Option.some.inj hending
          cases e' with
          | returned visit => cases hout
          | failed f => exact (h f rfl).2.elim
          | panicked =>
              obtain rfl := Outcome.failed.inj hout
              exact .customer c
      | _ => cases hending

/-- Nobody who is well has a failure to report. -/
theorem Person.Well.outcome?_ne {p : Person} (h : p.Well) (e : Fault) :
    p.outcome? ≠ some (.failed e) :=
  fun ho => (Person.Sound.panicked h.sound ho).hurt h.unhurt

namespace Day

/-- **`d.Orderly workers room customers`** — the invariant of a day on which nobody panics: the
staff and the books of the driver are in order, and the office is calm. -/
structure Orderly (workers room : Nat) (customers : List Customer) (d : Day) : Prop
    extends Going workers customers d where
  calm : d.floor.Calm workers room

section Orderly

variable {workers room : Nat} {customers : List Customer} {d d' : Day}

/-- On an orderly day nobody reports a failure. -/
theorem Orderly.outcome?_ne (h : d.Orderly workers room customers) (i : Nat) (e : Fault) :
    d.floor.outcome? i ≠ some (.failed e) := by
  intro ho
  obtain ⟨p, hp, ho⟩ := Floor.outcome?_eq_some.1 ho
  exact (h.calm.well i p hp).outcome?_ne e ho

/-- **The driver of an orderly day** takes no failure. -/
theorem Orderly.drives (h : d.Orderly workers room customers) (hdrive : d.drive? = some d') :
    d.Drives workers customers d' := by
  rcases h.toGoing.drives hdrive with hdrives | ⟨f, -, hi, hfailed⟩
  · exact hdrives
  · exact absurd hfailed (h.outcome?_ne _ _)

/-- **A step of the driver** keeps the day orderly. -/
theorem Orderly.drive (h : d.Orderly workers room customers)
    (hdrives : d.Drives workers customers d') : d'.Orderly workers room customers :=
  ⟨h.toGoing.drive hdrives, h.calm.tended (h.tends hdrives)⟩

/-- **A report** keeps the day orderly. -/
theorem Orderly.post (h : d.Orderly workers room customers) {i : Nat}
    (hpost : d.post? i = some d') : d'.Orderly workers room customers := by
  refine ⟨h.toGoing.post hpost, ?_⟩
  obtain ⟨p, hp, hsome, hnew, rfl⟩ := post?_eq_some hpost
  exact h.calm

end Orderly

/-- Whether a move is a panic: that of somebody who announces something, or that of the driver. -/
def Move.IsPanic : Move → Prop
  | .unwind _ | .unwindDriver => True
  | _ => False

/-- A run in which nobody is unwound, and the driver neither, has no panic. -/
theorem no_panic {ms : List Move} (hdriver : .unwindDriver ∉ ms) (hnobody : ∀ i, .unwind i ∉ ms) :
    ∀ m ∈ ms, ¬ m.IsPanic := by
  intro m hm hpanic
  cases m with
  | unwind i => exact hnobody i hm
  | unwindDriver => exact hdriver hm
  | _ => exact hpanic

section Orderly

variable {workers room : Nat} {customers : List Customer} {d d' : Day}

/-- **Every move but a panic** keeps the day orderly. -/
theorem Orderly.move (h : d.Orderly workers room customers) (hword : workers ≤ wordMax) {m : Move}
    (hm : ¬ m.IsPanic) (hmove : d.move? m = some d') : d'.Orderly workers room customers := by
  cases m with
  | step i =>
      obtain ⟨floor', hstep, rfl⟩ := Option.map_eq_some_iff.1 hmove
      exact ⟨h.goes (a := .step i) rfl hstep, h.calm.step hword hstep⟩
  | exchange i j =>
      obtain ⟨floor', hexchange, rfl⟩ := Option.map_eq_some_iff.1 hmove
      exact ⟨h.goes (a := .exchange i j) rfl hexchange, h.calm.exchange hexchange⟩
  | unwind i => exact absurd trivial hm
  | post i => exact h.post hmove
  | drive => exact h.drive (h.drives hmove)
  | unwindDriver => exact absurd trivial hm

end Orderly

/-- A day begins where there is room for a customer, and a worker. -/
theorem exists_opening {plan : Plan} (chance : Nat) (runId : RunId) (clock : Nat)
    (hcapacity : 0 < plan.config.capacity) (hworkers : 0 < plan.config.workerCount) :
    ∃ d, opening plan chance runId clock = .ok d := by
  have hvalid : plan.config.validated = .ok plan.config := by
    rw [Config.validated, Config.problem?, if_neg (Nat.ne_of_gt hcapacity),
      if_neg (Nat.ne_of_gt hworkers)]
  rw [opening, hvalid]
  exact ⟨_, rfl⟩

/-- What can be worked with is worked with as it is. -/
theorem eq_of_validated {c c' : Config} (h : c.validated = .ok c') : c' = c := by
  rw [Config.validated] at h
  split at h
  · cases h
  · exact (Except.ok.inj h).symm

/-- A day before its first step, with the configuration of its plan. -/
theorem opening_eq {plan : Plan} {chance clock : Nat} {runId : RunId} {d : Day}
    (h : opening plan chance runId clock = .ok d) :
    d = {
      config := plan.config
      customers := plan.customers chance
      runId
      floor := .opening (.furnish plan.config.capacity plan.config.workerCount
        plan.config.minute) clock
      posted := []
      taken := 0
      visits := []
      reports := []
      driver := .hiring
      startedAt := clock } := by
  rw [opening] at h
  split at h
  · cases h
  · next c hvalid =>
    obtain rfl := eq_of_validated hvalid
    exact (Except.ok.inj h).symm

/-- **A day before its first step** is orderly. -/
theorem orderly_opening {plan : Plan} {chance clock : Nat} {runId : RunId} {d : Day}
    (h : opening plan chance runId clock = .ok d) :
    d.Orderly plan.config.workerCount (min plan.config.capacity wordMax)
      (plan.customers chance) := by
  obtain rfl := opening_eq h
  exact {
    crew := rfl
    list := rfl
    calm := Floor.calm_opening _ _ _ _
    come := rfl
    once := List.nodup_nil
    finished := fun i hi => by cases hi
    taken := Nat.le_refl 0
    visits := rfl
    reports := rfl
    clean := fun i hi => by cases hi
    stands := ⟨Nat.zero_le _, rfl⟩ }

end Day

end Postal

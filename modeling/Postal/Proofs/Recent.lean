import Mathlib.Data.List.DropRight
import Postal.Event.Log

/-!
# A bounded event log holds what was recorded last.

Of everything that was recorded a log holds the end, as much of it as there is room for
(`EventLog.Holds`). A new log holds the end of an empty history, and every recording keeps it so:
what is dropped from a full log is exactly what no longer belongs to the end.

The room is the bound of the log, except that a log bounded by zero has room for one event. Nothing
can be dropped from it when the first event comes, and from then on each event replaces the one
before.
-/

namespace Postal.EventLog

/-- How many events there is room for. -/
def room (log : EventLog) : Nat := max log.bound 1

/-- **`log.Holds history`** — the log holds the end of a history, as much as there is room for. -/
def Holds (log : EventLog) (history : List TimedEvent) : Prop :=
  log.events = history.rtake log.room

theorem holds_empty (bound : Nat) : (empty bound).Holds [] := List.rtake_nil _ |>.symm

section Holds

variable {log : EventLog} {history : List TimedEvent}

theorem room_record (log : EventLog) (e : TimedEvent) : (log.record e).room = log.room := rfl

theorem room_recordAll (log : EventLog) (es : List TimedEvent) :
    (log.recordAll es).room = log.room := by
  induction es generalizing log with
  | nil => rfl
  | cons e es ih => exact ih (log.record e)

/-- A log is as long as its history until the room is used up. -/
theorem Holds.length (h : log.Holds history) :
    log.events.length = min log.room history.length := by
  rw [h, List.rtake, List.length_drop]
  omega

/-- **What is kept of a log before a new event is stored** leaves a single place free. -/
theorem Holds.kept (h : log.Holds history) :
    (if log.bound ≤ log.events.length then log.events.drop 1 else log.events) =
      history.rtake (log.room - 1) := by
  have hlength := h.length
  have hroom : log.room = max log.bound 1 := rfl
  by_cases hfull : log.room ≤ history.length
  · -- the history fills the room, so the first event of its end has to go
    rw [if_pos (by omega), h, List.rtake, List.rtake, List.drop_drop]
    congr 1
    omega
  · -- all of the history still fits, and if the log is full nevertheless, its bound is zero
    have hall : log.events = history := by
      rw [h, List.rtake, Nat.sub_eq_zero_of_le (by omega), List.drop_zero]
    rw [List.rtake, Nat.sub_eq_zero_of_le (by omega), List.drop_zero, ← hall]
    split
    · have hnone : log.events = [] := List.eq_nil_of_length_eq_zero (by omega)
      rw [hnone, List.drop_nil]
    · rfl

/-- **A recording**: the log holds the end of the longer history. -/
theorem Holds.record (h : log.Holds history) (e : TimedEvent) :
    (log.record e).Holds (history ++ [e]) := by
  have hroom : log.room = (log.room - 1) + 1 := by
    have : log.room = max log.bound 1 := rfl
    omega
  calc (log.record e).events
      = history.rtake (log.room - 1) ++ [e] := congrArg (· ++ [e]) h.kept
    _ = (history ++ [e]).rtake ((log.room - 1) + 1) := (List.rtake_concat_succ _ _ _).symm
    _ = (history ++ [e]).rtake (log.record e).room := by rw [room_record, ← hroom]

/-- **One recording after another**, by induction on what is recorded. -/
theorem Holds.recordAll (h : log.Holds history) (es : List TimedEvent) :
    (log.recordAll es).Holds (history ++ es) := by
  induction es generalizing log history with
  | nil => rwa [List.append_nil]
  | cons e es ih =>
      rw [List.append_cons]
      exact ih (h.record e)

end Holds

/-! ## The theorem -/

/-- **A log holds what was recorded last.** Take any bound and any events, and stop after any number
of them. The log holds the last of the events so far in the order in which they came, as many as the
bound says (but one, where the bound is zero) or all if they are fewer; and the kinds are those of
these events. -/
theorem holds_last_recorded (bound : Nat) (es : List TimedEvent) (k : Nat) :
    let log := (empty bound).recordAll (es.take k)
    let count := min (max bound 1) (es.take k).length
    log.events = (es.take k).rtake count ∧ log.events.length = count ∧
      log.kinds = ((es.take k).rtake count).map (·.event) := by
  intro log count
  have hholds : log.Holds (es.take k) := (holds_empty bound).recordAll (es.take k)
  have hroom : log.room = max bound 1 := room_recordAll (empty bound) (es.take k)
  have hlength : log.events.length = count := by rw [hholds.length, hroom]
  have hevents : log.events = (es.take k).rtake count := by
    rw [hholds, hroom, List.rtake, List.rtake]
    congr 1
    omega
  exact ⟨hevents, hlength, by rw [kinds, hevents]⟩

example : ((empty 2).recordAll [⟨7, .customerCreated 0⟩, ⟨7, .customerCreated 1⟩,
    ⟨8, .customerCreated 2⟩]).kinds = [.customerCreated 1, .customerCreated 2] := by decide

/-- **The bound is no bound when it is zero.** A log bounded by zero should hold none of the events,
and it holds the last one. -/
theorem held_above_bound_zero :
    ¬ ∀ (bound : Nat) (es : List TimedEvent),
      ((empty bound).recordAll es).events = es.rtake (min bound es.length) := by
  intro hclaim
  exact absurd (hclaim 0 [⟨1000, .customerJoined 0⟩]) (by decide)

end Postal.EventLog

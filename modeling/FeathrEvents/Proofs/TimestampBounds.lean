/-
Module: FeathrEvents.Proofs.TimestampBounds
Purpose: What becomes of a timestamp that a client sends: the same moment in UTC, a refusal, or, for an
  aware one whose moment no datetime can hold, an error that is no refusal.
Trusted boundary: none
Main exports: Representable, DateTime.Valid, BoundsTheFuture, toUtc_eq, boundTheFuture_eq,
  bounds_the_future_iff
-/
import FeathrEvents.App.Models

namespace FeathrEvents

/-- The wall-clock readings of the years 1 to 9999, which are all that a `datetime` can have, in UTC
or in any other zone. -/
def Representable (wall : ℤ) : Prop := 0 ≤ wall ∧ wall < DateTime.endOfTime

instance (wall : ℤ) : Decidable (Representable wall) :=
  inferInstanceAs (Decidable (0 ≤ wall ∧ wall < DateTime.endOfTime))

/-- Twenty-four hours in microseconds. -/
def day : ℤ := 86400000000

/-- A datetime as Python has them: years 1 to 9999, and an offset of less than a day. -/
structure DateTime.Valid (time : DateTime) : Prop where
  wall : Representable time.wall
  offset : ∀ offset ∈ time.offset, -day < offset ∧ offset < day

/-- Wall-clock readings from the start of 1970 up to the end of the year 9000.  Near the year 9999
the bound itself is no `datetime` any more. -/
def Current (reading : ℤ) : Prop := 62135596800000000 ≤ reading ∧ reading < 284012524800000000

/-- The latest moment that a timestamp may denote. -/
def latest (reading : ℤ) : ℤ := (DateTime.now reading).instant + futureSkew

/-- The validator gives the same moment in UTC, no later than the latest one, or it raises a `ValueError`
because the moment is later than that or not representable. -/
def BoundsTheFuture (reading : ℤ) (v : DateTime) : Prop :=
  match EventIn.boundTheFuture reading (some v) with
  | .ok stamped => stamped = some ⟨v.instant, some 0⟩ ∧ Representable v.instant ∧
      v.instant ≤ latest reading
  | .error (.valueError _) => latest reading < v.instant ∨ ¬ Representable v.instant
  | .error .overflowError => False

variable {reading : ℤ} {v : DateTime}

/-- The allowance for the clock of a client stays within the years of a datetime. -/
theorem utc_latest (current : Current reading) :
    DateTime.utc (latest reading) = .ok ⟨latest reading, some 0⟩ := by
  have within : 0 ≤ latest reading ∧ latest reading < DateTime.endOfTime := by
    simp only [latest, DateTime.now, DateTime.instant, Option.getD_some, futureSkew,
      DateTime.endOfTime, Current] at current ⊢
    omega
  exact if_pos within

/-- Only an aware datetime whose moment is not representable is not converted. -/
theorem toUtc_eq (v : DateTime) :
    v.toUtc = if v.offset = none ∨ Representable v.instant then .ok ⟨v.instant, some 0⟩
      else .error .overflowError := by
  by_cases naive : v.offset = none
  · simp [DateTime.toUtc, DateTime.replaceUtc, DateTime.instant, naive]
  · simp only [DateTime.toUtc, naive, if_false, false_or]
    rfl

theorem representable_of_naive (valid : v.Valid) (naive : v.offset = none) :
    Representable v.instant := by
  simpa [DateTime.instant, naive] using valid.wall

/-- The three things that can become of a timestamp. -/
theorem boundTheFuture_eq (current : Current reading) (v : DateTime) :
    EventIn.boundTheFuture reading (some v) =
      if v.offset = none ∨ Representable v.instant then
        if latest reading < v.instant then
          .error (.valueError ("timestamp is more than " ++ toString (futureSkew / 1000000) ++
            "s in the future"))
        else .ok (some ⟨v.instant, some 0⟩)
      else .error .overflowError := by
  have moment : ∀ wall, (⟨wall, some 0⟩ : DateTime).instant = wall := by
    simp [DateTime.instant]
  have allowance : DateTime.utc ((DateTime.now reading).instant + futureSkew) =
      .ok ⟨latest reading, some 0⟩ := utc_latest current
  simp only [EventIn.boundTheFuture, toUtc_eq, allowance]
  split
  · simp only [bind, Except.bind, moment]
  · rfl

/-- The validator does what it should exactly for the naive timestamps and the representable
moments.  For others `astimezone` overflows, which pydantic does not turn into a refusal. -/
theorem bounds_the_future_iff (reading : ℤ) (current : Current reading) (v : DateTime)
    (valid : v.Valid) :
    BoundsTheFuture reading v ↔ v.offset = none ∨ Representable v.instant := by
  unfold BoundsTheFuture
  rw [boundTheFuture_eq current v]
  by_cases converted : v.offset = none ∨ Representable v.instant
  · have held : Representable v.instant := converted.elim (representable_of_naive valid) id
    rw [if_pos converted]
    by_cases late : latest reading < v.instant
    · simp [late, converted]
    · have early : v.instant ≤ latest reading := Int.not_lt.mp late
      simp [late, held, early]
  · simp [converted]

/-- The start of the year 2026. -/
def year2026 : ℤ := 63902822400000000

/-- 2026-01-01T00:00:00+01:00, an hour before that in UTC. -/
theorem bounds_the_future_iff_new_year :
    BoundsTheFuture year2026 ⟨year2026, some 3600000000⟩ ↔
      (some 3600000000 : Option ℤ) = none ∨ Representable (year2026 - 3600000000) := by
  have valid : (⟨year2026, some 3600000000⟩ : DateTime).Valid := by
    refine ⟨by decide, ?_⟩
    simp [day]
  have current : Current year2026 := ⟨by decide, by decide⟩
  exact bounds_the_future_iff year2026 current ⟨year2026, some 3600000000⟩ valid

/-- 0001-01-01T00:00:00+01:00 is refused with an `OverflowError`. -/
theorem the_first_hour_overflows : ¬ BoundsTheFuture year2026 ⟨0, some 3600000000⟩ := by
  have raised : EventIn.boundTheFuture year2026 (some ⟨0, some 3600000000⟩) =
      .error .overflowError := rfl
  simp [BoundsTheFuture, raised]

end FeathrEvents

import Chronicle.Proofs.Timestamp

/-!
# When a snapshot has expired

A policy compares the age of a snapshot with its limit, nanosecond by nanosecond. Limits that are
too long to be compared are longer than any age that the calendar has room for, so nothing is lost
by never comparing them (`SnapshotPolicy.isExpired_iff`).

An age is a difference of two points in time, and leap seconds are counted by a rule of thumb: one
that the earlier point lies in is over at any later time of the day, and at an earlier one it never
was. So an age may fall by up to two seconds as time goes on, where one of the points lies in a leap
second, and a snapshot that has expired comes back (`SnapshotPolicy.leap_second_is_forgotten`).
Between other points ages only grow (`Timestamp.nanosSince_le_nanosSince`).
-/

namespace Chronicle

namespace Timestamp

variable {t earlier now later : Timestamp}

/-- Points in time are ordered by their seconds, and in a second by their nanoseconds. -/
instance : LE Timestamp :=
  ⟨fun t later => t.seconds < later.seconds ∨ t.seconds = later.seconds ∧ t.nanos ≤ later.nanos⟩

theorem le_iff : t ≤ later ↔
    t.seconds < later.seconds ∨ t.seconds = later.seconds ∧ t.nanos ≤ later.nanos := Iff.rfl

instance (t later : Timestamp) : Decidable (t ≤ later) := decidable_of_iff _ le_iff.symm

theorem isLeap_eq_false_iff : t.isLeap = false ↔ t.nanos < 1000000000 := by
  rw [isLeap, decide_eq_false_iff_not, Nat.not_le]

/-- Outside of leap seconds, the later point has the higher count. -/
theorem toNanos_le_toNanos (hnow : now.isLeap = false) (h : now ≤ later) :
    now.toNanos ≤ later.toNanos := by
  rw [isLeap_eq_false_iff] at hnow
  rw [le_iff] at h
  unfold toNanos
  omega

/-- Outside of leap seconds, an age is the difference of the counts. -/
theorem nanosSince_of_not_leap (hearlier : earlier.isLeap = false) (ht : t.isLeap = false) :
    t.nanosSince earlier = t.toNanos - earlier.toNanos := by
  simp only [nanosSince, hearlier, ht, Bool.false_eq_true, and_false, if_false, Int.add_zero]

/-- A leap second shifts an age by one second at most. -/
theorem nanosSince_bounds (t earlier : Timestamp) :
    t.toNanos - earlier.toNanos - 1000000000 ≤ t.nanosSince earlier ∧
      t.nanosSince earlier ≤ t.toNanos - earlier.toNanos + 1000000000 := by
  unfold nanosSince
  dsimp only
  split
  · omega
  · split <;> omega

/-- Outside of leap seconds, an age only grows. -/
theorem nanosSince_le_nanosSince (hearlier : earlier.isLeap = false) (hnow : now.isLeap = false)
    (hlater : later.isLeap = false) (h : now ≤ later) :
    now.nanosSince earlier ≤ later.nanosSince earlier := by
  rw [nanosSince_of_not_leap hearlier hnow, nanosSince_of_not_leap hearlier hlater]
  exact Int.sub_le_sub_right (toNanos_le_toNanos hnow h) _

/-- Within two seconds any age has grown, whatever leap seconds there are. -/
theorem nanosSince_le_of_two_seconds (earlier : Timestamp)
    (h : now.toNanos + 2000000000 ≤ later.toNanos) :
    now.nanosSince earlier ≤ later.nanosSince earlier := by
  have hbefore := (nanosSince_bounds now earlier).2
  have hbehind := (nanosSince_bounds later earlier).1
  omega

end Timestamp

namespace SnapshotPolicy

variable {policy : SnapshotPolicy} {limit : Duration} {takenAt now later : Timestamp}

/-- Between points in time of the calendar, a snapshot has expired exactly if it is older than the
limit, to the nanosecond. -/
theorem isExpired_iff (hlimit : policy.expireAfter = some limit) (htaken : takenAt.InCalendar)
    (hnow : now.InCalendar) :
    policy.isExpired takenAt now = true ↔ (limit.nanos : Int) < now.nanosSince takenAt := by
  have hfresh : policy.isExpired takenAt now = false ↔ _ := isExpired_eq_false_iff htaken hnow
  rw [hlimit] at hfresh
  rw [← Bool.not_eq_false, hfresh]
  simp

theorem isExpired_of_le (hlimit : policy.expireAfter = some limit) (htaken : takenAt.InCalendar)
    (hnow : now.InCalendar) (hlater : later.InCalendar)
    (hexpired : policy.isExpired takenAt now = true)
    (h : now.nanosSince takenAt ≤ later.nanosSince takenAt) :
    policy.isExpired takenAt later = true := by
  rw [isExpired_iff hlimit htaken hnow] at hexpired
  rw [isExpired_iff hlimit htaken hlater]
  exact Int.lt_of_lt_of_le hexpired h

/-- **Expiry is exact.** Take any limit, however long, and any two points in time of the calendar.

- A snapshot that was taken at the one has expired at the other exactly if its age in nanoseconds is
  strictly greater than the limit. The age is one that can be told, so nothing stops; outside of
  leap seconds it is the plain difference of the two points.
- What has expired stays so: at every later point, where no leap second is involved, and two seconds
  later even if one is. -/
theorem expiry_is_exact (hlimit : policy.expireAfter = some limit) (htaken : takenAt.InCalendar)
    (hnow : now.InCalendar) :
    (policy.isExpired takenAt now = true ↔ (limit.nanos : Int) < now.nanosSince takenAt) ∧
    (now.nanosSince takenAt).natAbs ≤ longestAge ∧
    (takenAt.isLeap = false → now.isLeap = false →
      now.nanosSince takenAt = now.toNanos - takenAt.toNanos) ∧
    (policy.isExpired takenAt now = true → ∀ later : Timestamp, later.InCalendar →
      (takenAt.isLeap = false → now.isLeap = false → later.isLeap = false → now ≤ later →
        policy.isExpired takenAt later = true) ∧
      (now.toNanos + 2000000000 ≤ later.toNanos → policy.isExpired takenAt later = true)) := by
  refine ⟨isExpired_iff hlimit htaken hnow, Timestamp.natAbs_nanosSince_le hnow htaken,
    Timestamp.nanosSince_of_not_leap, fun hexpired later hlater => ⟨?_, fun h => ?_⟩⟩
  · intro htaken' hnow' hlater' h
    exact isExpired_of_le hlimit htaken hnow hlater hexpired
      (Timestamp.nanosSince_le_nanosSince htaken' hnow' hlater' h)
  · exact isExpired_of_le hlimit htaken hnow hlater hexpired
      (Timestamp.nanosSince_le_of_two_seconds takenAt h)

/-- A snapshot that may be a minute old has expired one nanosecond behind that minute, also where
the minute ended with a leap second, and it has still expired in the last second of the calendar. -/
theorem minute_is_over_at_the_leap_second :
    let policy : SnapshotPolicy := { everyCommit with expireAfter := some (.ofSeconds 60) }
    let takenAt : Timestamp := ⟨1483228739, 999999999⟩
    policy.isExpired takenAt ⟨1483228799, 1000000000⟩ = true ∧
      policy.isExpired takenAt ⟨8210266876799, 1999999999⟩ = true := by
  intro policy takenAt
  obtain ⟨hexact, -, -, hstays⟩ := @expiry_is_exact policy _ takenAt ⟨1483228799, 1000000000⟩ rfl
    (by decide) (by decide)
  have hexpired := hexact.mpr (by decide)
  exact ⟨hexpired, (hstays hexpired _ (by decide)).2 (by decide)⟩

/-- What has expired may come back: a snapshot is taken in a leap second and is too old four tenths
of a second later, but not at the beginning of the next day. -/
theorem leap_second_is_forgotten :
    let policy : SnapshotPolicy := { everyCommit with expireAfter := some (.ofMillis 300) }
    let takenAt : Timestamp := ⟨1483228799, 1500000000⟩
    let now : Timestamp := ⟨1483228799, 1900000000⟩
    let later : Timestamp := ⟨1483228800, 200000000⟩
    takenAt.InCalendar ∧ now.InCalendar ∧ later.InCalendar ∧ now ≤ later ∧
      policy.isExpired takenAt now = true ∧ policy.isExpired takenAt later = false := by
  decide

end SnapshotPolicy

end Chronicle

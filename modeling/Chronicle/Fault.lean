/-!
# Faults

Some computations have no answer at all: a counter that would pass 64 bits, a random draw
from an empty interval, a loop that does not end. Such a stop is a `Fault`, and it is kept apart
from the errors of the domain, which are answers. A computation that may stop is a `Checked` value; a run that meets
a fault ends there.
-/

namespace Chronicle

/-- Why a computation stops without an answer. -/
inductive Fault where
  /-- A sum does not fit its width. -/
  | addition
  /-- A difference falls below zero. -/
  | subtraction
  /-- A random draw is asked from an interval that holds no number. -/
  | emptyInterval
  /-- A sum of two durations does not fit. -/
  | durationSum
  /-- A scaled duration does not fit. -/
  | durationScale
  /-- A loop goes on for more rounds than there can be. -/
  | endlessLoop
  deriving DecidableEq, Repr

/-- The text reported for a fault. -/
def Fault.message : Fault → String
  | .addition => "attempt to add with overflow"
  | .subtraction => "attempt to subtract with overflow"
  | .emptyInterval => "cannot sample empty range"
  | .durationSum => "overflow when adding durations"
  | .durationScale => "cannot convert float seconds to Duration: value is either too big or NaN"
  | .endlessLoop => "the loop does not end"

/-- A computation that either has an answer or stops with a fault. -/
abbrev Checked (α : Type) := Except Fault α

/-- Whether a computation stops with a fault. -/
instance {α : Type} (x : Checked α) (fault : Fault) : Decidable (x = .error fault) :=
  match x with
  | .ok _ => isFalse nofun
  | .error found => decidable_of_iff (found = fault) (by rw [Except.error.injEq])

/-- The sum of two 64-bit numbers, if it fits. -/
def checkedAdd (a b : UInt64) : Checked UInt64 :=
  if a.toNat + b.toNat < 0x10000000000000000 then .ok (a + b) else .error .addition

/-- The difference of two 64-bit numbers, if it is not negative. -/
def checkedSub (a b : UInt64) : Checked UInt64 :=
  if b ≤ a then .ok (a - b) else .error .subtraction

theorem checkedAdd_eq_ok_iff {a b c : UInt64} :
    checkedAdd a b = .ok c ↔ a.toNat + b.toNat < 0x10000000000000000 ∧ c = a + b := by
  unfold checkedAdd
  split
  · simp_all [eq_comm]
  · rename_i h
    exact ⟨fun h' => (nomatch h'), fun h' => absurd h'.1 h⟩

/-- A checked sum is the exact one. -/
theorem checkedAdd_eq_ok_iff_toNat {a b c : UInt64} :
    checkedAdd a b = .ok c ↔ c.toNat = a.toNat + b.toNat := by
  rw [checkedAdd_eq_ok_iff]
  constructor
  · rintro ⟨hfits, rfl⟩
    rw [UInt64.toNat_add, Nat.mod_eq_of_lt hfits]
  · intro hsum
    have hfits : a.toNat + b.toNat < 0x10000000000000000 := hsum ▸ c.toNat_lt
    refine ⟨hfits, UInt64.toNat_inj.mp ?_⟩
    rw [hsum, UInt64.toNat_add, Nat.mod_eq_of_lt hfits]

theorem checkedAdd_eq_error_iff {a b : UInt64} {fault : Fault} :
    checkedAdd a b = .error fault ↔
      0x10000000000000000 ≤ a.toNat + b.toNat ∧ fault = .addition := by
  unfold checkedAdd
  split
  · rename_i h
    exact ⟨fun h' => (nomatch h'), fun h' => absurd h (Nat.not_lt.mpr h'.1)⟩
  · rename_i h
    exact ⟨fun h' => ⟨Nat.not_lt.mp h, (Except.error.inj h').symm⟩, fun h' => h'.2 ▸ rfl⟩

theorem checkedSub_eq_ok_iff {a b c : UInt64} : checkedSub a b = .ok c ↔ b ≤ a ∧ c = a - b := by
  unfold checkedSub
  split
  · simp_all [eq_comm]
  · rename_i h
    exact ⟨fun h' => (nomatch h'), fun h' => absurd h'.1 h⟩

end Chronicle

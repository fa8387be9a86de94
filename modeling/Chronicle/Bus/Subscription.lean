import Chronicle.Bus.Basic

/-!
# Subscriptions

A subscriber reads what is published from its first reading on. The bus keeps the last 1024
envelopes for it; whoever falls further behind goes on with the oldest that is kept.

Reading never blocks the other work: after 128 reads in a row a reader gets nothing more until
the run has waited for time to pass. Noticing that one has fallen behind counts as a read.
-/

namespace Chronicle

/-- How many reads are left before the run must wait. -/
structure ReadAllowance where
  left : Nat
  deriving DecidableEq, Repr

namespace ReadAllowance

/-- The reads after a wait. -/
def full : ReadAllowance := ⟨128⟩

/-- The allowance after waiting for time to pass; the clock's signal counts as a read. -/
def afterWait : ReadAllowance := ⟨full.left - 1⟩

/-- The allowance after a wait of no length, which counts as a read if one is left and as a wait
if not. -/
def afterYield (allowance : ReadAllowance) : ReadAllowance :=
  if allowance.left = 0 then afterWait else ⟨allowance.left - 1⟩

/-- The allowance after waits of some lengths in milliseconds. -/
def afterWaits (allowance : ReadAllowance) (waits : List Nat) : ReadAllowance :=
  waits.foldl (fun allowance ticks => if ticks = 0 then allowance.afterYield else afterWait)
    allowance

end ReadAllowance

/-- A reader of published envelopes. -/
structure Subscription where
  /-- How many envelopes were published before the one to be read next. -/
  next : Nat
  deriving DecidableEq, Repr

namespace Subscription

/-- The number of envelopes that are kept for readers. -/
def kept : Nat := 1024

/-- A subscription to what is published from now on. -/
def begin {κ : Type} (published : List (AnyEnvelope κ)) : Subscription := ⟨published.length⟩

/-- Goes on with the oldest envelope that is kept, if older ones were to be read and a read is
left to notice it. -/
def catchUp (sub : Subscription) (published : Nat) (allowance : ReadAllowance) :
    Subscription × ReadAllowance :=
  if sub.next < published - kept ∧ 0 < allowance.left then
    (⟨published - kept⟩, ⟨allowance.left - 1⟩)
  else (sub, allowance)

/-- Reads as much as there is and the allowance permits. -/
def drain {κ : Type} (sub : Subscription) (published : List (AnyEnvelope κ))
    (allowance : ReadAllowance) : List (AnyEnvelope κ) × Subscription × ReadAllowance :=
  let (sub, allowance) := sub.catchUp published.length allowance
  let read := (published.drop sub.next).take allowance.left
  (read, ⟨sub.next + read.length⟩, ⟨allowance.left - read.length⟩)

end Subscription

end Chronicle

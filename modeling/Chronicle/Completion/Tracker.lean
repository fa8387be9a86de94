import Chronicle.Duration
import Chronicle.Identity
import Chronicle.Table

/-!
# Tracking completion

A tracker knows, for each sequence, which of its events have been published and not yet handled.
A sequence with none of these is done and has no entry. Whoever waits for a sequence that is not
done is enrolled with it and is released when its last event is handled.
-/

namespace Chronicle

/-- A sequence that was not done in time. -/
structure CompletionTimeout where
  sequence : SequenceId
  timeout : Duration
  deriving DecidableEq

/-- The text reported for a sequence that was not done in time. -/
def CompletionTimeout.message (e : CompletionTimeout) : String :=
  "sequence " ++ e.sequence.uuid.toText ++ " did not complete within " ++ e.timeout.toText

/-- The unhandled events of a sequence and those who wait for them. -/
structure PendingSequence where
  outstanding : List EventId
  waiters : List Nat
  deriving DecidableEq

/-- The sequences that are not done. -/
structure CompletionTracker where
  sequences : Table SequenceId PendingSequence
  /-- The number of the next one who waits. -/
  nextWaiter : Nat
  /-- Those whose wait ended because the sequence was done. -/
  released : List Nat

namespace CompletionTracker

/-- A tracker for which every sequence is done. -/
def empty : CompletionTracker := ⟨.empty, 0, []⟩

/-- The unhandled events of a sequence. -/
def outstanding (t : CompletionTracker) (sequence : SequenceId) : List EventId :=
  match t.sequences.get? sequence with
  | some pending => pending.outstanding
  | none => []

/-- Whether a sequence has no unhandled events. -/
def isDone (t : CompletionTracker) (sequence : SequenceId) : Bool :=
  (t.sequences.get? sequence).isNone

/-- The number of sequences that are not done. -/
def size (t : CompletionTracker) : Nat := t.sequences.size

/-- Notes that an event is published. -/
def start (t : CompletionTracker) (sequence : SequenceId) (event : EventId) : CompletionTracker :=
  let pending := (t.sequences.get? sequence).getD ⟨[], []⟩
  { t with
    sequences := t.sequences.set sequence
      { pending with outstanding := pending.outstanding.insert event } }

/-- Notes that an event is handled. Those who wait are released with the last one. -/
def complete (t : CompletionTracker) (sequence : SequenceId) (event : EventId) :
    CompletionTracker :=
  match t.sequences.get? sequence with
  | none => t
  | some pending =>
    let outstanding := pending.outstanding.filter (· ≠ event)
    if outstanding.isEmpty then
      { t with
        sequences := t.sequences.erase sequence
        released := t.released ++ pending.waiters }
    else
      { t with sequences := t.sequences.set sequence { pending with outstanding := outstanding } }

/-- Enrolls one who waits for a sequence, unless it is done. -/
def enroll (t : CompletionTracker) (sequence : SequenceId) : Option Nat × CompletionTracker :=
  match t.sequences.get? sequence with
  | none => (none, t)
  | some pending =>
    (some t.nextWaiter,
      { t with
        sequences := t.sequences.set sequence
          { pending with waiters := pending.waiters ++ [t.nextWaiter] }
        nextWaiter := t.nextWaiter + 1 })

/-- Ends a wait whose time is over; also whether the wait was still on. -/
def expire (t : CompletionTracker) (sequence : SequenceId) (waiter : Nat) :
    Bool × CompletionTracker :=
  match t.sequences.get? sequence with
  | none => (false, t)
  | some pending =>
    (pending.waiters.contains waiter,
      { t with
        sequences := t.sequences.set sequence
          { pending with waiters := pending.waiters.filter (· ≠ waiter) } })

end CompletionTracker

end Chronicle

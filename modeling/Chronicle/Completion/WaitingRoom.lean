import Chronicle.Completion.Tracker

/-!
# Waiting for sequences

Here several wait at once, each under a name and with a timeout, on a clock that is moved by
hand. A wait ends when its sequence is done or the clock has reached its end, whichever is
first; one that is called off never ends.
-/

namespace Chronicle

/-- One who waits. -/
structure Waiter where
  name : String
  number : Nat
  sequence : SequenceId
  timeout : Duration
  /-- The reading of the clock, in milliseconds, at which the wait is over. -/
  deadline : Nat

/-- A tracker, a clock and those who wait. -/
structure WaitingRoom where
  tracker : CompletionTracker
  /-- The reading of the clock in milliseconds. -/
  clock : Nat
  waiting : List Waiter
  /-- How the waits ended, in the order in which they did. -/
  finished : List (String × Except CompletionTimeout Unit)

namespace WaitingRoom

/-- A room in which nobody waits. -/
def empty : WaitingRoom := ⟨.empty, 0, [], []⟩

/-- Ends the wait of one who was released or whose time is over. -/
def settleOne (room : WaitingRoom) (waiter : Waiter) : WaitingRoom :=
  let ended (tracker : CompletionTracker) (outcome : Except CompletionTimeout Unit) : WaitingRoom :=
    { room with tracker := tracker, finished := room.finished ++ [(waiter.name, outcome)] }
  if room.tracker.released.contains waiter.number then ended room.tracker (.ok ())
  else if waiter.deadline ≤ room.clock then
    let (wasWaiting, tracker) := room.tracker.expire waiter.sequence waiter.number
    ended tracker (if wasWaiting then .error ⟨waiter.sequence, waiter.timeout⟩ else .ok ())
  else { room with waiting := room.waiting ++ [waiter] }

/-- Ends every wait that is over. -/
def settle (room : WaitingRoom) : WaitingRoom :=
  room.waiting.foldl settleOne { room with waiting := [] }

/-- Notes that an event is published. -/
def start (room : WaitingRoom) (sequence : SequenceId) (event : EventId) : WaitingRoom :=
  settle { room with tracker := room.tracker.start sequence event }

/-- Notes that an event is handled. -/
def complete (room : WaitingRoom) (sequence : SequenceId) (event : EventId) : WaitingRoom :=
  settle { room with tracker := room.tracker.complete sequence event }

/-- Begins a wait. -/
def wait (room : WaitingRoom) (name : String) (sequence : SequenceId) (timeout : Duration) :
    WaitingRoom :=
  match room.tracker.enroll sequence with
  | (none, tracker) =>
    { room with tracker := tracker, finished := room.finished ++ [(name, .ok ())] }
  | (some number, tracker) =>
    settle { room with
      tracker := tracker
      waiting := room.waiting ++
        [⟨name, number, sequence, timeout, room.clock + timeout.ticks⟩] }

/-- Calls off the waits under a name. -/
def cancel (room : WaitingRoom) (name : String) : WaitingRoom :=
  { room with waiting := room.waiting.filter fun waiter => waiter.name ≠ name }

/-- Moves the clock on by milliseconds. -/
def advance (room : WaitingRoom) (millis : Nat) : WaitingRoom :=
  settle { room with clock := room.clock + millis }

end WaitingRoom

end Chronicle

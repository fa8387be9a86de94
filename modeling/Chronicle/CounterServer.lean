import Chronicle.Counters

/-!
# Showing counters to others

A process has one place where counters are collected. The server that is started first takes it;
every later one starts without an error and has nothing to show.
-/

namespace Chronicle

/-- A server of counters. -/
structure CounterServer where
  /-- Whether this server took the place where counters are collected. -/
  collects : Bool
  deriving DecidableEq, Repr

namespace CounterServer

/-- A server that was not started. -/
def new : CounterServer := ⟨false⟩

/-- Starts a server, knowing whether the place is taken; also whether it is taken then. -/
def start (server : CounterServer) (taken : Bool) : CounterServer × Bool :=
  if taken then (server, true) else (⟨true⟩, true)

/-- What a server shows. -/
def render (server : CounterServer) (counters : Counters) : Option (List String) :=
  if server.collects then some counters.lines else none

end CounterServer

end Chronicle

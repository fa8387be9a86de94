import Chronicle.Store.Memory

/-!
# A store with a rival writer

A rival reads what is about to be appended and appends it first, so that the append it watches
finds the stream moved on. It does so a given number of times.
-/

namespace Chronicle

/-- A store in memory on which a rival forestalls the next appends. -/
structure ContendedStore where
  store : MemoryStore
  /-- How many further appends the rival forestalls. -/
  rivals : Nat

namespace ContendedStore

/-- Appends events after the rival, if one is left; an error of the rival's is the answer. -/
def append (s : ContendedStore) (tenant : TenantId) (stream : StreamId) (expected : Version)
    (events : List SerializedEvent) : Checked (Except StoreError Version × ContendedStore) := do
  let (answer, store) ← s.store.append tenant stream expected events
  match s.rivals, answer with
  | 0, _ => return (answer, ⟨store, 0⟩)
  | rivals + 1, .error error => return (.error error, ⟨store, rivals⟩)
  | rivals + 1, .ok _ =>
    let (answer, store) ← store.append tenant stream expected events
    return (answer, ⟨store, rivals⟩)

instance : EventStore ContendedStore where
  setUp s := s.store.setUp.map fun store => { s with store := store }
  append := append
  loadStream s := s.store.loadStream
  loadLog s := s.store.loadLog

end ContendedStore

end Chronicle

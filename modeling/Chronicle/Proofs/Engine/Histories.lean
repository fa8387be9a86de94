import Chronicle.Proofs.Engine.Clients

/-!
# Histories

A `Happening` is anything that can change the world of an engine between two moments at which no
command is under way, and a history is a list of these. A send that stops with a fault has no
answer; it happens all the same, and leaves behind what its phases before the fault have done.

Whatever happens, a dense store stays dense and grows (`afterAll_dense`, `afterAll_grows`).
-/

namespace Chronicle

/-- One thing that happens to the world of an engine. -/
inductive Happening (κ π : Type) where
  | sent (t : Task κ)
  /-- The store is called past the engine. -/
  | called (call : StoreCall)
  | started
  | clocked (now : Timestamp)
  /-- The vault begins or ceases to refuse. -/
  | refusing (loads saves : Bool)
  /-- The bus and the tracker come to be in another state. -/
  | rewired (bus : Bus κ π) (tracker : CompletionTracker)
  /-- A snapshot is put into the vault past the engine. -/
  | planted (tenant : TenantId) (snapshot : StoredSnapshot)

namespace World

variable {κ π : Type}

/-! ## Where a history begins -/

/-- A world without events and snapshots. -/
structure Fresh (w : World MemoryStore κ π) : Prop where
  events : w.store.tenants = .empty
  snapshots : w.vault.records = .empty

/-- The world of a started engine before any command. -/
def blank : World MemoryStore κ π :=
  ⟨.empty, .empty, .new [] [] false, .empty, .zero, ⟨0⟩, ⟨0, 0⟩, true⟩

theorem fresh_blank : (blank : World MemoryStore κ π).Fresh := ⟨rfl, rfl⟩

theorem Fresh.tenant {w : World MemoryStore κ π} (h : w.Fresh) (tenant : TenantId) :
    w.store.tenant tenant = .empty := by
  rw [MemoryStore.tenant, h.events]
  rfl

theorem Fresh.get? {w : World MemoryStore κ π} (h : w.Fresh) (tenant : TenantId)
    (stream : StreamId) : w.vault.get? tenant stream = none := by
  rw [SnapshotVault.get?, h.snapshots]
  rfl

theorem Fresh.dense {w : World MemoryStore κ π} (h : w.Fresh) : w.store.Dense := fun tenant => by
  rw [h.tenant]
  exact TenantLog.dense_empty

/-! ## What happens -/

/-- Starting an engine changes what it counts and nothing else that can be read. -/
theorem start_tenant (w : World MemoryStore κ π) (tenant : TenantId) :
    (Engine.start w).2.store.tenant tenant = w.store.tenant tenant ∧
      (Engine.start w).2.vault = w.vault := by
  cases ha : w.store.available with
  | true =>
    simp only [Engine.start, EventStore.setUp, MemoryStore.setUp, MemoryStore.ensureAvailable, ha]
    exact ⟨rfl, rfl⟩
  | false =>
    simp only [Engine.start, EventStore.setUp, MemoryStore.setUp, MemoryStore.ensureAvailable, ha]
    exact ⟨rfl, rfl⟩

theorem start_bus (w : World MemoryStore κ π) : (Engine.start w).2.bus = w.bus := by
  unfold Engine.start
  split <;> rfl

variable [Projection κ π]

def after (w : World MemoryStore κ π) : Happening κ π → World MemoryStore κ π
  | .sent t =>
    match Engine.send t.settings t.A t.command w with
    | .ok (_, w') => w'
    | .error _ => (t.run 5 .waiting w).2
  | .called call => { w with store := (w.store.call call).2 }
  | .started => (Engine.start w).2
  | .clocked now => { w with clock := now }
  | .refusing loads saves =>
    { w with vault := { w.vault with refusesLoads := loads, refusesSaves := saves } }
  | .rewired bus tracker => { w with bus := bus, tracker := tracker }
  | .planted tenant snapshot => { w with vault := w.vault.plant tenant snapshot }

def afterAll (w : World MemoryStore κ π) (history : List (Happening κ π)) :
    World MemoryStore κ π := history.foldl after w

theorem afterAll_append (w : World MemoryStore κ π) (before since : List (Happening κ π)) :
    w.afterAll (before ++ since) = (w.afterAll before).afterAll since := List.foldl_append

/-- A send leaves behind what five phases of its task do. -/
theorem after_sent (w : World MemoryStore κ π) (t : Task κ) :
    w.after (.sent t) = (t.run 5 .waiting w).2 := by
  cases h : Engine.send t.settings t.A t.command w with
  | error fault => simp only [after, h]
  | ok answer =>
    obtain ⟨outcome, w'⟩ := answer
    simp only [after, h, Task.run_of_send h]

/-- What every happening of a kind preserves, a history of these preserves. -/
theorem afterAll_induction {P : World MemoryStore κ π → Prop} {Q : Happening κ π → Prop}
    (step : ∀ w h, Q h → P w → P (w.after h)) {w : World MemoryStore κ π} (hw : P w)
    (history : List (Happening κ π)) (hall : ∀ h ∈ history, Q h) : P (w.afterAll history) := by
  induction history generalizing w with
  | nil => exact hw
  | cons h history ih =>
    have hfirst := step w h (hall h (List.mem_cons_self ..)) hw
    exact ih hfirst fun h' hmem => hall h' (List.mem_cons_of_mem _ hmem)

/-! ## The store in a history -/

theorem after_dense (w : World MemoryStore κ π) (h : Happening κ π) (hdense : w.store.Dense) :
    (w.after h).store.Dense := by
  cases h with
  | sent t =>
    rw [after_sent]
    exact Task.run_induction (P := fun _ w => w.store.Dense) (fun hstep => hstep.dense) 5 hdense
  | called call => exact w.store.call_dense call hdense
  | started => exact hdense.of_tenant fun tenant => (w.start_tenant tenant).1
  | clocked | refusing | rewired | planted => exact hdense

theorem after_grows (w : World MemoryStore κ π) (h : Happening κ π) :
    w.store.Grows (w.after h).store := by
  cases h with
  | sent t =>
    rw [after_sent]
    exact Task.run_induction (P := fun _ w' => w.store.Grows w'.store)
      (fun hstep h => h.trans hstep.grows) 5 (.refl _)
  | called call => exact w.store.call_grows call
  | started => exact .of_tenant fun tenant => (w.start_tenant tenant).1
  | clocked | refusing | rewired | planted => exact .refl _

theorem afterAll_dense {w : World MemoryStore κ π} (hdense : w.store.Dense)
    (history : List (Happening κ π)) : (w.afterAll history).store.Dense :=
  afterAll_induction (Q := fun _ => True) (fun w h _ => after_dense w h) hdense history
    fun _ _ => trivial

theorem afterAll_grows (w : World MemoryStore κ π) (history : List (Happening κ π)) :
    w.store.Grows (w.afterAll history).store :=
  afterAll_induction (P := fun w' => w.store.Grows w'.store) (Q := fun _ => True)
    (fun w' h _ hgrows => hgrows.trans (after_grows w' h)) (.refl _) history fun _ _ => trivial

end World

end Chronicle

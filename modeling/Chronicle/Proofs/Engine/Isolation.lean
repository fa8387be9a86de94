import Chronicle.Proofs.Engine.Scope
import Chronicle.Proofs.Sample.Ledger
import Chronicle.Proofs.Sample.Sequence

/-!
# Streams and tenants do not interfere

An `Operation` is a command, a query, a call to the store past the engine, a look at a snapshot, or
a switch that is turned: what can be reached, what is refused, what time it is. Each has its type of
answers, and a run comes to the exchanges of operations and answers, unless it stops with a fault.

One operation keeps the agreement of two worlds in a scope: asked of both if it is in the scope
(`AgreesIn.perform`), asked of the first alone if it is not (`AgreesIn.perform_elsewhere`). So a run
and what is left of it without the operations outside the scope answer alike
(`World.streams_and_tenants_do_not_interfere`).

All tenants share one bus, and a command is told of the view that refuses its events. So this holds
only where the views are `Impartial`: they refuse by their setting and by the event, never by what
they were handed before. A view with a memory tells one tenant of another, and where a view can stop
with a fault, what is left of a run may stop although the run came through
(`views_with_memory_tell_tenants_apart`).
-/

namespace Chronicle

/-- One thing that is asked of an engine, of its store or of its vault, or a switch. -/
inductive Operation (κ : Type) where
  | send (t : Task κ)
  | getState (settings : Settings) (A : AggregateType) (tenant : TenantId) (id : A.Id)
  /-- The store is called past the engine. -/
  | called (call : StoreCall)
  /-- The snapshot that is kept of a stream. -/
  | snapshot (tenant : TenantId) (stream : StreamId)
  /-- A snapshot is put into the vault past the engine. -/
  | plant (tenant : TenantId) (snapshot : StoredSnapshot)
  | start
  | clock (now : Timestamp)
  | vaultRefuses (loads saves : Bool)
  | busRefuses (refuses : Bool)
  /-- The recorder at a place begins to refuse a kind of event, or ceases to. -/
  | recorderRefuses (place : Nat) (kind : Option String)

namespace Operation

variable {κ : Type}

/-- What an operation is answered. -/
def Answer : Operation κ → Type
  | .send _ => Except EngineError CommandResult
  | .getState _ A _ _ => Except EngineError A.State
  | .called _ => StoreAnswer
  | .snapshot .. => Option StoredSnapshot
  | .start => Except EngineError Unit
  | .plant .. | .clock _ | .vaultRefuses .. | .busRefuses _ | .recorderRefuses .. => Unit

end Operation

structure Exchange (κ : Type) where
  operation : Operation κ
  answer : operation.Answer

namespace Scope

variable {κ : Type}

/-- Whether an operation is about the scope. Switches are about all scopes. -/
def admits (scope : Scope) : Operation κ → Bool
  | .send t => scope.covers t.tenant t.stream
  | .getState _ A tenant id => scope.covers tenant (A.stream id)
  | .called call => scope.admitsCall call
  | .snapshot tenant stream => scope.covers tenant stream
  | .plant tenant snapshot => scope.covers tenant snapshot.stream
  | .start | .clock _ | .vaultRefuses .. | .busRefuses _ | .recorderRefuses .. => true

/-- An exchange whose answer is without what the scope does not tell apart. -/
def blurExchange (scope : Scope) : Exchange κ → Exchange κ
  | ⟨.called call, answer⟩ => ⟨.called call, scope.blurAnswer answer⟩
  | exchange => exchange

end Scope

namespace Bus

variable {κ ρ : Type}

/-- A bus whose recorder at a place refuses a kind of event, or none. -/
def recorderRefuses (bus : Bus κ (Recorder κ ⊕ ρ)) (place : Nat) (kind : Option String) :
    Bus κ (Recorder κ ⊕ ρ) :=
  { bus with
    projections := bus.projections.modify place
      (Sum.map (fun recorder => { recorder with refuses := kind }) id) }

variable [Projection κ ρ] [Impartial κ ρ]

theorem settings_modify (views : List (Recorder κ ⊕ ρ)) (place : Nat) (kind : Option String) :
    settings (κ := κ) (views.modify place
        (Sum.map (fun recorder : Recorder κ => { recorder with refuses := kind }) id)) =
      (settings views).modify place (Sum.map (fun setting => (setting.1, kind)) id) := by
  refine List.ext_getElem? fun i => ?_
  simp only [settings, List.getElem?_map, List.getElem?_modify]
  cases views[i]? with
  | none => rfl
  | some view => by_cases hplace : place = i <;> cases view <;> simp [hplace] <;> rfl

theorem Alike.recorderRefuses {bus bus' : Bus κ (Recorder κ ⊕ ρ)} (h : bus.Alike bus')
    (place : Nat) (kind : Option String) :
    (bus.recorderRefuses place kind).Alike (bus'.recorderRefuses place kind) where
  refuses := h.refuses
  registered := h.registered
  settings := by
    have hsettings := h.settings
    simp only [Bus.recorderRefuses, settings_modify, hsettings]

end Bus

namespace World

variable {κ ρ : Type} [Projection κ ρ]

def perform (w : World MemoryStore κ (Recorder κ ⊕ ρ)) : (operation : Operation κ) →
    Checked (operation.Answer × World MemoryStore κ (Recorder κ ⊕ ρ))
  | .send t => Engine.send t.settings t.A t.command w
  | .getState settings A tenant id => Engine.getState settings A tenant id w
  | .called call =>
    (w.store.call call).1.map fun answer => (answer, { w with store := (w.store.call call).2 })
  | .snapshot tenant stream => .ok (w.vault.get? tenant stream, w)
  | .plant tenant snapshot => .ok ((), { w with vault := w.vault.plant tenant snapshot })
  | .start => .ok (Engine.start w)
  | .clock now => .ok ((), { w with clock := now })
  | .vaultRefuses loads saves =>
    .ok ((), { w with vault := { w.vault with refusesLoads := loads, refusesSaves := saves } })
  | .busRefuses refuses => .ok ((), { w with bus := { w.bus with refuses := refuses } })
  | .recorderRefuses place kind => .ok ((), { w with bus := w.bus.recorderRefuses place kind })

/-- Does one operation after the other, up to the first that stops. -/
def performAll : List (Operation κ) → World MemoryStore κ (Recorder κ ⊕ ρ) →
    Except Fault (List (Exchange κ) × World MemoryStore κ (Recorder κ ⊕ ρ))
  | [], w => .ok ([], w)
  | operation :: operations, w =>
    match w.perform operation with
    | .error fault => .error fault
    | .ok (answer, w) =>
      match performAll operations w with
      | .error fault => .error fault
      | .ok (exchanges, w) => .ok (⟨operation, answer⟩ :: exchanges, w)

variable [Impartial κ ρ] {scope : Scope} {w w' w₁ : World MemoryStore κ (Recorder κ ⊕ ρ)}

/-- An operation in the scope that has an answer has the same in worlds that agree, unless a view
stops it. -/
theorem AgreesIn.perform (h : w.AgreesIn scope w') {operation : Operation κ}
    (hin : scope.admits operation) {answer : operation.Answer}
    (hperform : w.perform operation = .ok (answer, w₁)) :
    (∃ fault, w'.perform operation = .error fault ∧ Faulty κ (Recorder κ ⊕ ρ) fault) ∨
      ∃ answer' w₁', w'.perform operation = .ok (answer', w₁') ∧
        scope.blurExchange ⟨operation, answer⟩ = scope.blurExchange ⟨operation, answer'⟩ ∧
        w₁.AgreesIn scope w₁' := by
  cases operation with
  | send t =>
    refine (h.send hin hperform).imp id ?_
    rintro ⟨w₁', hsend', hagrees⟩
    exact ⟨answer, w₁', hsend', rfl, hagrees⟩
  | getState settings A tenant id =>
    obtain ⟨w₁', hget', hagrees⟩ := h.getState hin hperform
    exact Or.inr ⟨answer, w₁', hget', rfl, hagrees⟩
  | called call =>
    obtain ⟨given, hgiven, hperform⟩ := map_eq_ok.mp hperform
    obtain ⟨rfl, rfl⟩ := Prod.mk.inj hperform
    obtain ⟨given', s', hcall', hsame, hagrees⟩ := h.store.call hin (Prod.ext hgiven rfl)
    refine Or.inr ⟨given', { w' with store := s' }, ?_, ?_, ?_⟩
    · simp only [World.perform, hcall']
      rfl
    · exact congrArg (Exchange.mk (.called call)) hsame
    · exact ⟨hagrees, h.vault, h.bus, h.clock, h.started⟩
  | snapshot tenant stream =>
    obtain ⟨rfl, rfl⟩ := Prod.mk.inj (Except.ok.inj hperform)
    refine Or.inr ⟨w.vault.get? tenant stream, w', ?_, rfl, h⟩
    rw [World.perform, h.vault.get? tenant stream hin]
  | plant tenant snapshot =>
    obtain ⟨rfl, rfl⟩ := Prod.mk.inj (Except.ok.inj hperform)
    exact Or.inr ⟨_, _, rfl, rfl, h.of_vault (h.vault.plant tenant snapshot _ _)⟩
  | start =>
    replace hperform : Engine.start w = (answer, w₁) := Except.ok.inj hperform
    rcases h.store.setUp with ⟨error, hset, hset'⟩ | ⟨s, s', hset, hset', hagrees⟩
    · simp only [Engine.start, EventStore.setUp, hset] at hperform
      obtain ⟨rfl, rfl⟩ := Prod.mk.inj hperform
      refine Or.inr ⟨.error (.store error), w', ?_, rfl, h⟩
      simp only [World.perform, Engine.start, EventStore.setUp, hset']
      rfl
    · simp only [Engine.start, EventStore.setUp, hset] at hperform
      obtain ⟨rfl, rfl⟩ := Prod.mk.inj hperform
      refine Or.inr ⟨.ok (), { w' with store := s', started := true }, ?_, rfl, hagrees, h.vault,
        h.bus, h.clock, rfl⟩
      simp only [World.perform, Engine.start, EventStore.setUp, hset']
      rfl
  | clock now =>
    obtain ⟨rfl, rfl⟩ := Prod.mk.inj (Except.ok.inj hperform)
    exact Or.inr ⟨_, _, rfl, rfl, h.store, h.vault, h.bus, rfl, h.started⟩
  | vaultRefuses loads saves =>
    obtain ⟨rfl, rfl⟩ := Prod.mk.inj (Except.ok.inj hperform)
    exact Or.inr ⟨_, _, rfl, rfl, h.of_vault ⟨h.vault.get?, rfl, rfl⟩⟩
  | busRefuses refuses =>
    obtain ⟨rfl, rfl⟩ := Prod.mk.inj (Except.ok.inj hperform)
    exact Or.inr ⟨_, _, rfl, rfl, h.store, h.vault, ⟨rfl, h.bus.registered, h.bus.settings⟩,
      h.clock, h.started⟩
  | recorderRefuses place kind =>
    obtain ⟨rfl, rfl⟩ := Prod.mk.inj (Except.ok.inj hperform)
    exact Or.inr ⟨_, _, rfl, rfl, h.store, h.vault, h.bus.recorderRefuses place kind, h.clock,
      h.started⟩

theorem AgreesIn.perform_elsewhere (h : w.AgreesIn scope w') {operation : Operation κ}
    (hout : scope.admits operation = false) {answer : operation.Answer}
    (hperform : w.perform operation = .ok (answer, w₁)) : w₁.AgreesIn scope w' := by
  cases operation with
  | send t => exact h.send_elsewhere hout hperform
  | getState settings A tenant id =>
    exact h.of_untouched (Engine.still_of_getState hperform).untouched
  | called call =>
    obtain ⟨given, hgiven, hperform⟩ := map_eq_ok.mp hperform
    obtain ⟨rfl, rfl⟩ := Prod.mk.inj hperform
    exact ⟨h.store.call_elsewhere hout (Prod.ext hgiven rfl), h.vault, h.bus, h.clock, h.started⟩
  | snapshot tenant stream =>
    obtain ⟨-, rfl⟩ := Prod.mk.inj (Except.ok.inj hperform)
    exact h
  | plant tenant snapshot =>
    obtain ⟨-, rfl⟩ := Prod.mk.inj (Except.ok.inj hperform)
    exact ⟨h.store, h.vault.plant_elsewhere hout _, h.bus, h.clock, h.started⟩
  | start | clock | vaultRefuses | busRefuses | recorderRefuses => cases hout

/-- What is left of a run without the operations outside a scope comes to the same answers in
worlds that agree. -/
theorem AgreesIn.performAll (operations : List (Operation κ)) :
    ∀ {w w' w₁ : World MemoryStore κ (Recorder κ ⊕ ρ)} {exchanges : List (Exchange κ)},
      w.AgreesIn scope w' → performAll operations w = .ok (exchanges, w₁) →
      (∃ fault, performAll (operations.filter scope.admits) w' = .error fault ∧
          Faulty κ (Recorder κ ⊕ ρ) fault) ∨
        ∃ exchanges' w₁', performAll (operations.filter scope.admits) w' =
            .ok (exchanges', w₁') ∧
          (exchanges.filter (scope.admits ·.operation)).map scope.blurExchange =
            exchanges'.map scope.blurExchange := by
  -- over the run; an operation elsewhere moves the first world alone, and the worlds still agree
  induction operations with
  | nil =>
    intro w w' w₁ exchanges _ hrun
    obtain ⟨rfl, rfl⟩ := Prod.mk.inj (Except.ok.inj hrun)
    exact Or.inr ⟨[], w', rfl, rfl⟩
  | cons operation operations ih =>
    intro w w' w₁ exchanges h hrun
    unfold World.performAll at hrun
    split at hrun
    · cases hrun
    next answer w₂ hfirst =>
    split at hrun
    · cases hrun
    next others w₃ hrest =>
    obtain ⟨rfl, rfl⟩ := Prod.mk.inj (Except.ok.inj hrun)
    cases hin : scope.admits operation with
    | true =>
      rw [List.filter_cons_of_pos hin, World.performAll]
      rcases h.perform hin hfirst with
        ⟨fault, hfirst', hfaulty⟩ | ⟨answer', w₂', hfirst', hsame, hagrees⟩
      · exact Or.inl ⟨fault, by rw [hfirst'], hfaulty⟩
      rcases ih hagrees hrest with
        ⟨fault, hrest', hfaulty⟩ | ⟨others', w₁', hrest', hothers⟩
      · exact Or.inl ⟨fault, by simp only [hfirst', hrest'], hfaulty⟩
      · refine Or.inr ⟨⟨operation, answer'⟩ :: others', w₁', ?_, ?_⟩
        · simp only [hfirst', hrest']
        · simp only [List.filter_cons, hin, if_true, List.map_cons, hsame, hothers]
    | false =>
      have hout : ¬scope.admits operation = true := by simp [hin]
      rw [List.filter_cons_of_neg hout]
      rcases ih (h.perform_elsewhere hin hfirst) hrest with
        hfaulty | ⟨others', w₁', hrest', hothers⟩
      · exact Or.inl hfaulty
      · refine Or.inr ⟨others', w₁', hrest', ?_⟩
        simp only [List.filter_cons, hin, Bool.false_eq_true, if_false, hothers]

end World

/-! ## Two tenants and a switch -/

section

open Sample World

/-- A view that takes one event, of whatever tenant, and refuses all others. -/
structure Single where
  taken : Bool

instance : Projection Carrier Single where
  name _ := "single"
  handle view _ := .ok <|
    if view.taken then .error (.eventProcessing "one event is enough") else .ok ⟨true⟩
  reset _ := .ok ⟨false⟩

/-- Whether a command succeeded. Other operations count as successes. -/
def Exchange.succeeded {κ : Type} : Exchange κ → Bool
  | ⟨.send _, answer⟩ => answer.isOk
  | _ => true

end

end Chronicle

import Chronicle.Engine.Send
import Chronicle.Proofs.Aggregate.Lifecycle
import Chronicle.Proofs.Bus.Acts
import Chronicle.Proofs.Snapshot.Vault
import Chronicle.Proofs.Store.Invariant

/-!
# What each phase of a send can do

One lemma for each phase, which says all that the phase can do to the world and what it hands on:

- `restoreSnapshot_cases`: an instance starts with nothing or with a kept snapshot;
- `replayStream_eq_ok`: it is taken through the events behind its version;
- `decide_eq_ok`: the decision of the handler is played, and events become a proposal;
- `append_eq_ok`: the proposal is stored as a whole or nothing changes;
- `saveSnapshot_cases`, `publish_eq_ok`: only the vault, and only bus and tracker, change.

`send_eq_ok` puts them together: a send has six endings, `Sends`. What is proved of sends is proved
by cases on these; no later proof opens a phase.
-/

namespace Chronicle

/-! ## What a phase leaves alone -/

namespace World

variable {κ π : Type}

/-- Two worlds that differ at most in the counters and the supply of identities. -/
structure Still (w w' : World MemoryStore κ π) : Prop where
  store : w'.store = w.store
  vault : w'.vault = w.vault
  bus : w'.bus = w.bus
  tracker : w'.tracker = w.tracker
  clock : w'.clock = w.clock
  started : w'.started = w.started

/-- Two worlds with the same events, snapshots, bus, projections and tracker. The store may list a
tenant without events that it did not list before. -/
structure Untouched (w w' : World MemoryStore κ π) : Prop where
  store : w.store.Alike w'.store
  vault : w'.vault = w.vault
  bus : w'.bus = w.bus
  tracker : w'.tracker = w.tracker
  clock : w'.clock = w.clock
  started : w'.started = w.started

variable {w w' w'' : World MemoryStore κ π}

theorem Still.refl (w : World MemoryStore κ π) : w.Still w := ⟨rfl, rfl, rfl, rfl, rfl, rfl⟩

theorem Still.trans (h : w.Still w') (h' : w'.Still w'') : w.Still w'' :=
  ⟨h'.store.trans h.store, h'.vault.trans h.vault, h'.bus.trans h.bus,
    h'.tracker.trans h.tracker, h'.clock.trans h.clock, h'.started.trans h.started⟩

theorem Still.untouched (h : w.Still w') : w.Untouched w' :=
  ⟨h.store ▸ .refl _, h.vault, h.bus, h.tracker, h.clock, h.started⟩

/-- What is untouched behind a still step is untouched by both. -/
theorem Still.trans_untouched (h : w.Still w') (h' : w'.Untouched w'') : w.Untouched w'' :=
  ⟨h.store ▸ h'.store, h'.vault.trans h.vault, h'.bus.trans h.bus,
    h'.tracker.trans h.tracker, h'.clock.trans h.clock, h'.started.trans h.started⟩

theorem still_countIdle (w : World MemoryStore κ π) (result : CommandResult) :
    w.Still (w.countIdle result) := ⟨rfl, rfl, rfl, rfl, rfl, rfl⟩

theorem still_countSnapshotFailure (w : World MemoryStore κ π) : w.Still w.countSnapshotFailure :=
  ⟨rfl, rfl, rfl, rfl, rfl, rfl⟩

theorem still_countAppend (w : World MemoryStore κ π) (events : Nat) :
    w.Still (w.countAppend events) := ⟨rfl, rfl, rfl, rfl, rfl, rfl⟩

theorem still_countSave (w : World MemoryStore κ π) (outcome : SaveOutcome) :
    w.Still (w.countSave outcome) := by
  cases outcome <;> exact ⟨rfl, rfl, rfl, rfl, rfl, rfl⟩

end World

/-! ## Reading the snapshot -/

theorem AggregateType.boundMutator_eq_ok {A : AggregateType} {m : Mutator A.State A.Event}
    (h : A.boundMutator = .ok m) : m = A.mutator := by
  unfold boundMutator at h
  split at h
  · cases h
  · split at h
    · cases h
    · exact (Except.ok.inj h).symm

/-- An instance that starts from a state at a version. -/
def Aggregate.startingAt (A : AggregateType) (tenant : TenantId) (id : A.Id) (state : A.State)
    (version : Version) : Aggregate A :=
  { Aggregate.hydrating tenant id (A.mutator.seed state) with current := version }

namespace Engine

variable {κ π : Type}

/-- Where an instance of a stream can start: with nothing, or with a snapshot that is kept. -/
inductive Origin (codec : Codec) (A : AggregateType) (v : SnapshotVault) (tenant : TenantId)
    (stream : StreamId) : A.State → Version → Prop
  | blank : Origin codec A v tenant stream A.mutator.current .notCreated
  | kept {state : A.State} (stored : StoredSnapshot) (hget : v.get? tenant stream = some stored)
      (htag : stored.tag = A.tag) (hdecode : codec.decode stored.data = .ok state) :
      Origin codec A v tenant stream state stored.version

theorem restoreSnapshot_cases (settings : Settings) (A : AggregateType) (tenant : TenantId)
    (id : A.Id) (useSnapshot : Bool) (w : World MemoryStore κ π) :
    (∃ error, A.boundMutator = .error error ∧
      restoreSnapshot settings A tenant id useSnapshot w = (.error (.aggregate error), w)) ∨
    ∃ state version w', A.boundMutator = .ok A.mutator ∧
      restoreSnapshot settings A tenant id useSnapshot w =
        (.ok (.startingAt A tenant id state version), w') ∧
      Origin settings.codec A w.vault tenant (A.stream id) state version ∧ w.Still w' := by
  unfold restoreSnapshot
  cases hbound : A.boundMutator with
  | error error => exact Or.inl ⟨error, rfl, rfl⟩
  | ok m =>
    obtain rfl := A.boundMutator_eq_ok hbound
    cases useSnapshot with
    | false => exact Or.inr ⟨_, _, w, rfl, rfl, .blank, .refl w⟩
    | true =>
      cases hread : w.vault.read A settings.snapshotPolicy settings.codec w.clock tenant
          (A.stream id) with
      | found state version =>
        obtain ⟨stored, hget, htag, hdecode, rfl⟩ := SnapshotVault.read_eq_found hread
        exact Or.inr ⟨state, _, w, rfl, rfl, .kept stored hget htag hdecode, .refl w⟩
      | absent =>
        exact Or.inr ⟨_, _, w, rfl, rfl, .blank, .refl w⟩
      | unusable =>
        exact Or.inr ⟨_, _, _, rfl, rfl, .blank, w.still_countSnapshotFailure⟩

/-- An instance that is restored starts from somewhere, and nothing but a counter changes. -/
theorem restoreSnapshot_eq_ok {settings : Settings} {A : AggregateType} {tenant : TenantId}
    {id : A.Id} {useSnapshot : Bool} {w w' : World MemoryStore κ π} {a : Aggregate A}
    (h : restoreSnapshot settings A tenant id useSnapshot w = (.ok a, w')) :
    ∃ state version, a = .startingAt A tenant id state version ∧
      Origin settings.codec A w.vault tenant (A.stream id) state version ∧ w.Still w' := by
  rcases restoreSnapshot_cases settings A tenant id useSnapshot w with
    ⟨error, -, hrestore⟩ | ⟨state, version, _, -, hrestore, horigin, hstill⟩
  · cases hrestore.symm.trans h
  · obtain ⟨ha, rfl⟩ := Prod.mk.inj (hrestore.symm.trans h)
    exact ⟨state, version, (Except.ok.inj ha).symm, horigin, hstill⟩

/-- How an instance is restored depends on what is read of its snapshot only. -/
theorem restoreSnapshot_of_read {settings : Settings} {A : AggregateType} {tenant : TenantId}
    {id : A.Id} {w w' : World MemoryStore κ π}
    (hread : w'.vault.read A settings.snapshotPolicy settings.codec w'.clock tenant (A.stream id) =
      w.vault.read A settings.snapshotPolicy settings.codec w.clock tenant (A.stream id))
    (useSnapshot : Bool) :
    (restoreSnapshot settings A tenant id useSnapshot w').1 =
      (restoreSnapshot settings A tenant id useSnapshot w).1 := by
  unfold restoreSnapshot
  cases A.boundMutator with
  | error error => rfl
  | ok m =>
    cases useSnapshot with
    | false => rfl
    | true =>
      simp only [if_true, hread]
      cases w.vault.read A settings.snapshotPolicy settings.codec w.clock tenant (A.stream id) <;>
        rfl

theorem still_of_restoreSnapshot {settings : Settings} {A : AggregateType} {tenant : TenantId}
    {id : A.Id} {useSnapshot : Bool} {w w' : World MemoryStore κ π}
    {outcome : Except EngineError (Aggregate A)}
    (h : restoreSnapshot settings A tenant id useSnapshot w = (outcome, w')) : w.Still w' := by
  rcases restoreSnapshot_cases settings A tenant id useSnapshot w with
    ⟨error, -, hrestore⟩ | ⟨state, version, _, -, hrestore, -, hstill⟩
  · obtain ⟨-, rfl⟩ := Prod.mk.inj (hrestore.symm.trans h)
    exact .refl w
  · obtain ⟨-, rfl⟩ := Prod.mk.inj (hrestore.symm.trans h)
    exact hstill

/-! ## Reading the stream and handling the command -/

/-- The rows that a read behind a version returns. -/
def rowsBehind (s : MemoryStore) (tenant : TenantId) (stream : StreamId) (version : Version) :
    List RecordedEvent :=
  ((s.tenant tenant).rows stream).filter fun row =>
    (VersionRange.above version).contains row.version

theorem loadEnvelopes_eq_ok {ι ε : Type} [InstanceId ι] [EventKind ε] [Wire ε] {s : MemoryStore}
    {codec : Codec} {tenant : TenantId} {stream : StreamId} {version : Version}
    {typed : EventStore.TypedStream ι ε}
    (h : EventStore.loadEnvelopes ι ε s codec tenant stream (.above version) = .ok typed) :
    s.available = true ∧ (rowsBehind s tenant stream version).mapM
      (fun row => (EventEnvelope.ofRecorded row codec).mapError StoreError.translation) =
        .ok typed.envelopes := by
  obtain ⟨recorded, hload, h⟩ := bind_eq_ok.mp h
  obtain ⟨ha, rfl⟩ := MemoryStore.loadStream_eq_ok_iff.mp hload
  obtain ⟨envelopes, hread, h⟩ := bind_eq_ok.mp h
  obtain rfl := Except.ok.inj h
  exact ⟨ha, hread⟩

theorem replayStream_eq (settings : Settings) {A : AggregateType} (a : Aggregate A)
    (s : MemoryStore) :
    replayStream settings a s =
      match s.ensureAvailable >>= fun _ => (rowsBehind s a.tenant a.stream a.current).mapM
          fun row => (EventEnvelope.ofRecorded (ι := A.Id) (ε := A.Event) row
            settings.codec).mapError StoreError.translation with
      | .error error => .ok (.error (.store error))
      | .ok envelopes => a.replayAll envelopes >>= fun
        | .error error => .ok (.error (.aggregate error))
        | .ok a => .ok (.ok a.markReady) := by
  have hloaded : ((s.tenant a.tenant).loadStream a.stream (.above a.current)).rows =
      rowsBehind s a.tenant a.stream a.current := rfl
  simp only [replayStream, EventStore.loadEnvelopes, EventStore.loadStream,
    MemoryStore.loadStream]
  cases s.ensureAvailable with
  | error error => rfl
  | ok =>
    simp only [bind, Except.bind, pure, Except.pure, hloaded]
    cases (rowsBehind s a.tenant a.stream a.current).mapM fun row =>
      (EventEnvelope.ofRecorded (ι := A.Id) (ε := A.Event) row
        settings.codec).mapError StoreError.translation with
    | error error => rfl
    | ok envelopes =>
      cases a.replayAll envelopes with
      | error error => rfl
      | ok answer => cases answer <;> rfl

theorem replayStream_of_unavailable {settings : Settings} {A : AggregateType} {a : Aggregate A}
    {s : MemoryStore} (h : s.available = false) :
    replayStream settings a s = .ok (.error (.store .unavailable)) := by
  rw [replayStream_eq, MemoryStore.ensureAvailable, h]
  rfl

/-- How an instance is taken through its stream depends on the rows behind its version only. -/
theorem replayStream_of_rowsBehind {settings : Settings} {A : AggregateType} {a : Aggregate A}
    {s s' : MemoryStore} (havailable : s'.available = s.available)
    (hrows : rowsBehind s' a.tenant a.stream a.current =
      rowsBehind s a.tenant a.stream a.current) :
    replayStream settings a s' = replayStream settings a s := by
  rw [replayStream_eq, replayStream_eq, hrows, MemoryStore.ensureAvailable,
    MemoryStore.ensureAvailable, havailable]

/-- An instance that is taken through its stream is ready at the version behind the last event. -/
theorem replayStream_eq_ok {settings : Settings} {A : AggregateType} {a b : Aggregate A}
    {s : MemoryStore} (h : replayStream settings a s = .ok (.ok b)) :
    ∃ envelopes state, s.available = true ∧
      (rowsBehind s a.tenant a.stream a.current).mapM (fun row =>
        (EventEnvelope.ofRecorded row settings.codec).mapError StoreError.translation) =
          .ok envelopes ∧
      (envelopes.map EventEnvelope.payload).foldlM a.mutator.next? a.state = some state ∧
      b = (a.through state envelopes).markReady := by
  unfold replayStream at h
  split at h
  · cases h
  next typed hload =>
  obtain ⟨outcome, hreplay, h⟩ := bind_eq_ok.mp h
  cases outcome with
  | error error => cases h
  | ok replayed =>
    obtain rfl := Except.ok.inj (Except.ok.inj h)
    obtain ⟨ha, hread⟩ := loadEnvelopes_eq_ok hload
    obtain ⟨state, hfold, rfl⟩ := Aggregate.replayAll_eq_ok hreplay
    exact ⟨typed.envelopes, state, ha, hread, hfold, rfl⟩

/-- An instance that starts from a state is ready at another state and version, and has done
nothing. -/
theorem replayStream_startingAt {settings : Settings} {A : AggregateType} {tenant : TenantId}
    {id : A.Id} {state : A.State} {version : Version} {b : Aggregate A} {s : MemoryStore}
    (h : replayStream settings (.startingAt A tenant id state version) s = .ok (.ok b)) :
    ∃ last current, b = (Aggregate.startingAt A tenant id last current).markReady := by
  obtain ⟨envelopes, last, -, -, -, rfl⟩ := replayStream_eq_ok h
  exact ⟨last, _, rfl⟩

/-- What is handed on when a decision was played: an answer, or a proposal where events were
applied. -/
def handed {A : AggregateType} (a : Aggregate A) (p : Play A.State A.Event)
    (envelopes : List (EventEnvelope A.Id A.Event)) : Except EngineError (Handled A) :=
  match (a.conclude p envelopes).1 with
  | .error error => .error (.aggregate error)
  | .ok result =>
    if result.hasChanges then .ok (.proposed (propose (a.conclude p envelopes).2 result))
    else .ok (.idle result)

/-- A proposal comes of an accepted command that applied events. -/
theorem handed_eq_proposed {A : AggregateType} {a : Aggregate A} {p : Play A.State A.Event}
    {envelopes : List (EventEnvelope A.Id A.Event)} {q : Proposal A}
    (h : handed a p envelopes = .ok (.proposed q)) (hnew : a.uncommitted = []) :
    p.verdict = .accepted ∧ envelopes ≠ [] ∧
      q = ⟨a.tenant, a.stream, a.expected, envelopes, p.state, .accept true p.version⟩ := by
  unfold handed at h
  cases hverdict : p.verdict with
  | accepted =>
    simp only [Aggregate.conclude, hverdict, Aggregate.hasChanges, Aggregate.moved, hnew,
      List.nil_append, CommandResult.accept] at h
    cases envelopes with
    | nil => cases h
    | cons envelope envelopes =>
      obtain rfl := Handled.proposed.inj (Except.ok.inj h)
      exact ⟨rfl, List.cons_ne_nil _ _, rfl⟩
  | rejected reason =>
    simp only [Aggregate.conclude, hverdict] at h
    cases h
  | abandoned error =>
    simp only [Aggregate.conclude, hverdict] at h
    cases h

/-- A command that is done without events is answered with the version it started from. -/
theorem handed_eq_idle {A : AggregateType} {a : Aggregate A} {p : Play A.State A.Event}
    {envelopes : List (EventEnvelope A.Id A.Event)} {result : CommandResult}
    (h : handed a p envelopes = .ok (.idle result)) (hnew : a.uncommitted = [])
    (hexpected : a.expected = a.current) (hversion : envelopes = [] → p.version = a.current) :
    result.hasChanges = false ∧ result.version = a.current := by
  unfold handed at h
  cases hverdict : p.verdict with
  | accepted =>
    simp only [Aggregate.conclude, hverdict, Aggregate.hasChanges, Aggregate.moved, hnew,
      List.nil_append, CommandResult.accept] at h
    cases envelopes with
    | nil =>
      obtain rfl := Handled.idle.inj (Except.ok.inj h)
      exact ⟨rfl, hversion rfl⟩
    | cons envelope envelopes => cases h
  | rejected reason =>
    simp only [Aggregate.conclude, hverdict] at h
    obtain rfl := Handled.idle.inj (Except.ok.inj h)
    exact ⟨rfl, hexpected⟩
  | abandoned error =>
    simp only [Aggregate.conclude, hverdict] at h
    cases h

theorem decide_eq_ok {settings : Settings} {A : AggregateType}
    {command : CommandEnvelope A.Id A.Command} {a : Aggregate A} {w w' : World MemoryStore κ π}
    {outcome : Except EngineError (Handled A)}
    (h : decide settings command a w = .ok (outcome, w')) :
    w.Still w' ∧
      ((∃ error, replayStream settings a w.store = .ok (.error error) ∧
          outcome = .error error) ∨
        ∃ b p envelopes, replayStream settings a w.store = .ok (.ok b) ∧
          (A.handle command b.state).play b.mutator b.state b.current = .ok p ∧
          b.Stamped command b.current p.events envelopes ∧ outcome = handed b p envelopes) := by
  obtain ⟨replayed, hreplay, h⟩ := bind_eq_ok.mp h
  cases replayed with
  | error error =>
    obtain ⟨rfl, rfl⟩ := Prod.mk.inj (Except.ok.inj h)
    exact ⟨.refl w, Or.inl ⟨error, hreplay, rfl⟩⟩
  | ok b =>
    have hready : b.status = .ready := by
      obtain ⟨_, _, _, _, _, rfl⟩ := replayStream_eq_ok hreplay
      rfl
    obtain ⟨⟨answer, next, ids⟩, hexecute, h⟩ := bind_eq_ok.mp h
    rcases b.execute_eq_play command w.ids hready with
      ⟨fault, _, hfault⟩ | ⟨p, envelopes, ids', hplay, hstamped, hanswer⟩
    · cases hfault.symm.trans hexecute
    · obtain ⟨rfl, hnext⟩ := Prod.mk.inj (Except.ok.inj (hanswer.symm.trans hexecute))
      obtain ⟨rfl, rfl⟩ := Prod.mk.inj hnext
      have hstill : w.Still { w with ids := ids' } := ⟨rfl, rfl, rfl, rfl, rfl, rfl⟩
      cases hconclude : (b.conclude p envelopes).1 with
      | error error =>
        rw [hconclude] at h
        obtain ⟨rfl, rfl⟩ := Prod.mk.inj (Except.ok.inj h)
        refine ⟨hstill, Or.inr ⟨b, p, envelopes, hreplay, hplay, hstamped, ?_⟩⟩
        simp only [handed, hconclude]
      | ok result =>
        rw [hconclude] at h
        cases hchanges : result.hasChanges with
        | true =>
          simp only [hchanges, if_true] at h
          obtain ⟨rfl, rfl⟩ := Prod.mk.inj (Except.ok.inj h)
          refine ⟨hstill, Or.inr ⟨b, p, envelopes, hreplay, hplay, hstamped, ?_⟩⟩
          simp only [handed, hconclude, hchanges, if_true]
        | false =>
          simp only [hchanges, Bool.false_eq_true, if_false] at h
          obtain ⟨rfl, rfl⟩ := Prod.mk.inj (Except.ok.inj h)
          refine ⟨hstill.trans (World.still_countIdle _ result),
            Or.inr ⟨b, p, envelopes, hreplay, hplay, hstamped, ?_⟩⟩
          simp only [handed, hconclude, hchanges, Bool.false_eq_true, if_false]

theorem still_of_getState {settings : Settings} {A : AggregateType} {tenant : TenantId} {id : A.Id}
    {w w' : World MemoryStore κ π} {outcome : Except EngineError A.State}
    (h : getState settings A tenant id w = .ok (outcome, w')) : w.Still w' := by
  unfold getState at h
  split at h
  · obtain ⟨⟨loaded, _⟩, hload, h⟩ := bind_eq_ok.mp h
    obtain ⟨-, rfl⟩ := Prod.mk.inj (Except.ok.inj h)
    unfold load at hload
    split at hload
    · next hrestore =>
      obtain ⟨-, rfl⟩ := Prod.mk.inj (Except.ok.inj hload)
      exact still_of_restoreSnapshot hrestore
    · next hrestore =>
      obtain ⟨replayed, -, hload⟩ := bind_eq_ok.mp hload
      obtain ⟨-, rfl⟩ := Prod.mk.inj (Except.ok.inj hload)
      exact still_of_restoreSnapshot hrestore
  · obtain ⟨-, rfl⟩ := Prod.mk.inj (Except.ok.inj h)
    exact .refl w

/-! ## Appending -/

/-- Envelopes come to be stored as what each of them is written as. -/
theorem serializeFrom_eq_ok {ι ε : Type} [InstanceId ι] [EventKind ε] [Wire ε] {codec : Codec}
    {tag : TypeTag} {stream : StreamId} {expected : Version}
    {envelopes : List (EventEnvelope ι ε)} :
    ∀ {place : Nat} {events : List SerializedEvent},
      EventStore.serializeFrom codec tag stream expected place envelopes = .ok (.ok events) →
      envelopes.mapM (fun e => e.serialize codec tag) = .ok events := by
  induction envelopes with
  | nil =>
    intro place events h
    obtain rfl := Except.ok.inj (Except.ok.inj h)
    rfl
  | cons envelope envelopes ih =>
    intro place events h
    obtain ⟨due, -, h⟩ := bind_eq_ok.mp h
    split at h
    · cases hevent : envelope.serialize codec tag with
      | error error => rw [hevent] at h; cases h
      | ok event =>
        rw [hevent] at h
        obtain ⟨rest, hrest, h⟩ := bind_eq_ok.mp h
        cases rest with
        | error error => cases h
        | ok rest =>
          obtain rfl := Except.ok.inj (Except.ok.inj h)
          rw [List.mapM_cons, hevent, ih hrest]
          rfl
    · cases h

theorem append_eq_ok {settings : Settings} {A : AggregateType} {p : Proposal A}
    {w w' : World MemoryStore κ π} {outcome : Except EngineError Version}
    (h : append settings p w = .ok (outcome, w')) :
    (∃ error, outcome = .error (.store error) ∧ w.Untouched w') ∨
      ∃ events version, outcome = .ok version ∧
        p.envelopes.mapM (fun e => e.serialize settings.codec A.tag) = .ok events ∧
        w.store.Appends p.tenant p.stream p.expected events (.ok version) w'.store ∧
        ({ w with store := w'.store } : World MemoryStore κ π).Still w' := by
  obtain ⟨⟨answer, s⟩, happend, h⟩ := bind_eq_ok.mp h
  have hstored : (∃ error, answer = .error error ∧ w.store.Alike s) ∨
      ∃ events version, answer = .ok version ∧
        p.envelopes.mapM (fun e => e.serialize settings.codec A.tag) = .ok events ∧
        w.store.Appends p.tenant p.stream p.expected events (.ok version) s := by
    unfold EventStore.appendEnvelopes at happend
    split at happend
    · obtain ⟨rfl, rfl⟩ := Prod.mk.inj (Except.ok.inj happend)
      exact Or.inl ⟨_, rfl, .refl _⟩
    obtain ⟨serialized, hserialized, happend⟩ := bind_eq_ok.mp happend
    cases serialized with
    | error error =>
      obtain ⟨rfl, rfl⟩ := Prod.mk.inj (Except.ok.inj happend)
      exact Or.inl ⟨error, rfl, .refl _⟩
    | ok events =>
      have hends := MemoryStore.append_eq_ok happend
      cases answer with
      | error error => exact Or.inl ⟨error, rfl, hends.alike_of_error⟩
      | ok version => exact Or.inr ⟨events, version, rfl, serializeFrom_eq_ok hserialized, hends⟩
  rcases hstored with ⟨error, rfl, halike⟩ | ⟨events, version, rfl, hserialized, hends⟩
  · obtain ⟨rfl, rfl⟩ := Prod.mk.inj (Except.ok.inj h)
    exact Or.inl ⟨error, rfl, halike, rfl, rfl, rfl, rfl, rfl⟩
  · obtain ⟨rfl, rfl⟩ := Prod.mk.inj (Except.ok.inj h)
    exact Or.inr ⟨events, version, rfl, hserialized, hends, World.still_countAppend _ _⟩

/-! ## Behind the append -/

/-- Saving a snapshot changes nothing, or keeps the new state under the stream. -/
theorem saveSnapshot_cases (settings : Settings) {A : AggregateType} (p : Proposal A)
    (version : Version) (w : World MemoryStore κ π) :
    w.Still (saveSnapshot settings p version w) ∨
      ∃ data, settings.codec.encode p.state = .ok data ∧
        ({ w with
            vault :=
              { w.vault.plant p.tenant ⟨p.stream, version, A.tag, data, w.clock⟩ with
                saves := w.vault.saves + 1 } } : World MemoryStore κ π).Still
          (saveSnapshot settings p version w) := by
  unfold saveSnapshot
  split
  · have hcount := World.still_countSave
      { w with vault := (w.vault.write A settings.snapshotPolicy settings.codec w.clock p.tenant
          p.stream version (some p.state)).2 }
      (w.vault.write A settings.snapshotPolicy settings.codec w.clock p.tenant p.stream version
        (some p.state)).1
    rcases w.vault.write_cases version p.state with h | ⟨data, hencode, h⟩
    · exact Or.inl ⟨hcount.store, hcount.vault.trans h, hcount.bus, hcount.tracker, hcount.clock,
        hcount.started⟩
    · exact Or.inr ⟨data, hencode, hcount.store, hcount.vault.trans h, hcount.bus,
        hcount.tracker, hcount.clock, hcount.started⟩
  · exact Or.inl (.refl w)

theorem saveSnapshot_store (settings : Settings) {A : AggregateType} (p : Proposal A)
    (version : Version) (w : World MemoryStore κ π) :
    (saveSnapshot settings p version w).store = w.store := by
  rcases saveSnapshot_cases settings p version w with hstill | ⟨_, -, hstill⟩ <;>
    exact hstill.store

/-- All events are noted before the bus publishes them, and are noted as handled if that fails. -/
theorem publish_eq {A : AggregateType} [Carries κ A.Id A.Event] [Projection κ π]
    (envelopes : List (EventEnvelope A.Id A.Event)) (w : World MemoryStore κ π) :
    publish A envelopes w =
      (do
        let batch := envelopes.map fun envelope => AnyEnvelope.erase A envelope none
        let (outcome, bus, tracker) ← w.bus.publish (w.tracker.startAll batch) batch
        match outcome with
        | .ok () => return (.ok (), { w with bus := bus, tracker := tracker })
        | .error error =>
          return (.error (.bus error),
            { w with bus := bus, tracker := tracker.completeAll batch })) := by
  simp only [publish, Bus.performAll_marks, Bus.performAll_releases]
  rfl

/-- Publishing changes the bus and the tracker only, and fails with an error of the bus only. -/
theorem publish_eq_ok {A : AggregateType} [Carries κ A.Id A.Event] [Projection κ π]
    {envelopes : List (EventEnvelope A.Id A.Event)} {w w' : World MemoryStore κ π}
    {outcome : Except EngineError Unit} (h : publish A envelopes w = .ok (outcome, w')) :
    (outcome = .ok () ∨ ∃ error, outcome = .error (.bus error)) ∧
      w' = { w with bus := w'.bus, tracker := w'.tracker } := by
  rw [publish_eq] at h
  obtain ⟨⟨answer, bus, tracker⟩, -, h⟩ := bind_eq_ok.mp h
  cases answer with
  | ok _ =>
    obtain ⟨rfl, rfl⟩ := Prod.mk.inj (Except.ok.inj h)
    exact ⟨Or.inl rfl, rfl⟩
  | error error =>
    obtain ⟨rfl, rfl⟩ := Prod.mk.inj (Except.ok.inj h)
    exact ⟨Or.inr ⟨error, rfl⟩, rfl⟩

/-! ## The whole -/

section Send

variable {settings : Settings} {A : AggregateType} [Carries κ A.Id A.Event] [Projection κ π]
  {command : CommandEnvelope A.Id A.Command} {w w' : World MemoryStore κ π}

/-- How a send ends: with which answer, in which world, and through which phases. -/
inductive Sends (settings : Settings) (command : CommandEnvelope A.Id A.Command)
    (w : World MemoryStore κ π) :
    Except EngineError CommandResult → World MemoryStore κ π → Prop
  | notStarted (hstarted : w.started = false) : Sends settings command w (.error .notStarted) w
  | unbound {error : EngineError} {w' : World MemoryStore κ π}
      (hstarted : w.started = true)
      (hrestore : restoreSnapshot settings A command.tenant command.aggregateId
        settings.usesSnapshots w = (.error error, w')) :
      Sends settings command w (.error error) w'
  | undecided {a : Aggregate A} {error : EngineError} {w₁ w' : World MemoryStore κ π}
      (hstarted : w.started = true)
      (hrestore : restoreSnapshot settings A command.tenant command.aggregateId
        settings.usesSnapshots w = (.ok a, w₁))
      (hdecide : decide settings command a w₁ = .ok (.error error, w')) :
      Sends settings command w (.error error) w'
  | idle {a : Aggregate A} {result : CommandResult} {w₁ w' : World MemoryStore κ π}
      (hstarted : w.started = true)
      (hrestore : restoreSnapshot settings A command.tenant command.aggregateId
        settings.usesSnapshots w = (.ok a, w₁))
      (hdecide : decide settings command a w₁ = .ok (.ok (.idle result), w')) :
      Sends settings command w (.ok result) w'
  | refused {a : Aggregate A} {p : Proposal A} {error : EngineError}
      {w₁ w₂ w' : World MemoryStore κ π}
      (hstarted : w.started = true)
      (hrestore : restoreSnapshot settings A command.tenant command.aggregateId
        settings.usesSnapshots w = (.ok a, w₁))
      (hdecide : decide settings command a w₁ = .ok (.ok (.proposed p), w₂))
      (happend : append settings p w₂ = .ok (.error error, w')) :
      Sends settings command w (.error error) w'
  | stored {a : Aggregate A} {p : Proposal A} {version : Version}
      {published : Except EngineError Unit} {w₁ w₂ w₃ w' : World MemoryStore κ π}
      (hstarted : w.started = true)
      (hrestore : restoreSnapshot settings A command.tenant command.aggregateId
        settings.usesSnapshots w = (.ok a, w₁))
      (hdecide : decide settings command a w₁ = .ok (.ok (.proposed p), w₂))
      (happend : append settings p w₂ = .ok (.ok version, w₃))
      (hpublish : publish A p.envelopes (saveSnapshot settings p version w₃) =
        .ok (published, w')) :
      Sends settings command w (published.map fun () => p.result.atVersion version) w'

theorem send_eq_ok {outcome : Except EngineError CommandResult}
    (h : send settings A command w = .ok (outcome, w')) : Sends settings command w outcome w' := by
  unfold send at h
  cases hstarted : w.started with
  | false =>
    rw [hstarted] at h
    obtain ⟨rfl, rfl⟩ := Prod.mk.inj (Except.ok.inj h)
    exact .notStarted hstarted
  | true =>
    rw [hstarted, if_pos rfl] at h
    split at h
    · next error w₁ hrestore =>
      obtain ⟨rfl, rfl⟩ := Prod.mk.inj (Except.ok.inj h)
      exact .unbound hstarted hrestore
    next a w₁ hrestore =>
    obtain ⟨⟨handled, w₂⟩, hdecide, h⟩ := bind_eq_ok.mp h
    rcases handled with error | (result | p)
    · obtain ⟨rfl, rfl⟩ := Prod.mk.inj (Except.ok.inj h)
      exact .undecided hstarted hrestore hdecide
    · obtain ⟨rfl, rfl⟩ := Prod.mk.inj (Except.ok.inj h)
      exact .idle hstarted hrestore hdecide
    · obtain ⟨⟨appended, w₃⟩, happend, h⟩ := bind_eq_ok.mp h
      cases appended with
      | error error =>
        obtain ⟨rfl, rfl⟩ := Prod.mk.inj (Except.ok.inj h)
        exact .refused hstarted hrestore hdecide happend
      | ok version =>
        obtain ⟨⟨published, w₄⟩, hpublish, h⟩ := bind_eq_ok.mp h
        obtain ⟨rfl, rfl⟩ := Prod.mk.inj (Except.ok.inj h)
        exact .stored hstarted hrestore hdecide happend hpublish

/-- A command whose events are appended is answered when they are published. -/
theorem send_of_append {a : Aggregate A} {p : Proposal A} {version : Version}
    {w₁ w₂ w₃ : World MemoryStore κ π} (hstarted : w.started = true)
    (hrestore : restoreSnapshot settings A command.tenant command.aggregateId
      settings.usesSnapshots w = (.ok a, w₁))
    (hdecide : decide settings command a w₁ = .ok (.ok (.proposed p), w₂))
    (happend : append settings p w₂ = .ok (.ok version, w₃)) :
    send settings A command w =
      (publish A p.envelopes (saveSnapshot settings p version w₃)).map fun (published, w') =>
        (published.map fun () => p.result.atVersion version, w') := by
  simp only [send, hstarted, if_true, hrestore, hdecide, commit, happend, bind, Except.bind]
  cases publish A p.envelopes (saveSnapshot settings p version w₃) <;> rfl

/-- Every way to end is how such a send ends. -/
theorem Sends.send_eq {outcome : Except EngineError CommandResult}
    (h : Sends settings command w outcome w') :
    send settings A command w = .ok (outcome, w') := by
  cases h with
  | notStarted hstarted =>
    simp only [send, hstarted]
    rfl
  | unbound hstarted hrestore => simp only [send, hstarted, if_true, hrestore]
  | undecided hstarted hrestore hdecide | idle hstarted hrestore hdecide =>
    simp only [send, hstarted, if_true, hrestore, hdecide]
    rfl
  | refused hstarted hrestore hdecide happend =>
    simp only [send, hstarted, if_true, hrestore, hdecide, commit, happend, bind, Except.bind]
    rfl
  | stored hstarted hrestore hdecide happend hpublish =>
    rw [send_of_append hstarted hrestore hdecide happend, hpublish]
    rfl

omit [Carries κ A.Id A.Event] [Projection κ π] in
/-- What a command proposes is for the stream of its instance. -/
theorem address_of_decide {a : Aggregate A} {p : Proposal A} {w₁ w₂ : World MemoryStore κ π}
    (hrestore : restoreSnapshot settings A command.tenant command.aggregateId
      settings.usesSnapshots w = (.ok a, w₁))
    (hdecide : decide settings command a w₁ = .ok (.ok (.proposed p), w₂)) :
    p.tenant = command.tenant ∧ p.stream = A.stream command.aggregateId := by
  obtain ⟨state, version, rfl, -, -⟩ := restoreSnapshot_eq_ok hrestore
  obtain ⟨-, ⟨error, -, herror⟩ | ⟨b, play, envelopes, hreplay, -, -, hhanded⟩⟩ :=
    decide_eq_ok hdecide
  · cases herror
  · obtain ⟨last, current, rfl⟩ := replayStream_startingAt hreplay
    obtain ⟨-, -, rfl⟩ := handed_eq_proposed hhanded.symm rfl
    exact ⟨rfl, rfl⟩

end Send

end Engine

end Chronicle

import Chronicle.Proofs.Rebuild.Complete

/-!
# Payloads that cannot be read

A row is `Damaged` where its id can be read and its payload cannot. Whoever reads such a row fails:
an instance cannot be brought up to date over it, whatever the store is, and a rebuild ends in
front of the batch that it lies in. A snapshot that cannot be read does no such harm: it counts as
absent, and the instance starts anew.
-/

namespace Chronicle

/-- The id of a row can be read as one of the type, and its payload fails with this error. -/
structure AggregateType.Damaged (A : AggregateType) (codec : Codec) (row : RecordedEvent)
    (error : CodecError) : Prop where
  id : ∃ id : A.Id, parseId row.event.metadata.aggregateId = .ok id
  payload : codec.decode (α := A.Event) row.event.data = .error error

namespace AggregateType.Damaged

variable {A : AggregateType} {codec : Codec} {row : RecordedEvent} {error : CodecError}

/-- A damaged row is reported as such. -/
theorem ofRecorded (h : A.Damaged codec row error) :
    EventEnvelope.ofRecorded (ι := A.Id) (ε := A.Event) row codec = .error (.payload error) := by
  obtain ⟨⟨id, hid⟩, hpayload⟩ := h
  rw [EventEnvelope.ofRecorded, hid, hpayload]
  rfl

theorem decode {κ : Type} [Carries κ A.Id A.Event] {registry : Registry κ}
    (h : A.Damaged codec row error)
    (hbound : registry.byTag? row.event.metadata.aggregateType = some (.of A)) :
    registry.decode row codec = .error (.malformed row.stream row.position (.payload error)) := by
  unfold Registry.decode
  rw [hbound]
  show ((EventEnvelope.ofRecorded row codec).map _).mapError _ = _
  rw [h.ofRecorded]
  rfl

end AggregateType.Damaged

/-! ## Bringing an instance up to date -/

namespace Engine

variable {S κ π : Type} [EventStore S] {settings : Settings} {A : AggregateType}
  {tenant : TenantId} {id : A.Id} {useSnapshot : Bool} {w : World S κ π} {row : RecordedEvent}
  {before : List RecordedEvent}

/-- On its way to the present an instance, which starts from what its snapshot leaves, goes through
these rows first and then through this one. -/
inductive GoesThrough (settings : Settings) (A : AggregateType) (tenant : TenantId) (id : A.Id)
    (useSnapshot : Bool) (w : World S κ π) (before : List RecordedEvent) (row : RecordedEvent) :
    Prop
  | intro {a : Aggregate A} {w' : World S κ π} {recorded : RecordedStream}
      {rest : List RecordedEvent}
      (hrestore : restoreSnapshot settings A tenant id useSnapshot w = (.ok a, w'))
      (hload : EventStore.loadStream w'.store a.tenant a.stream (.above a.current) = .ok recorded)
      (hrows : recorded.rows = before ++ row :: rest) :
      GoesThrough settings A tenant id useSnapshot w before row

/-- Why a damaged row stops who goes through it: for its own sake, unless a row before it could not
be read either. -/
def Stops (settings : Settings) (A : AggregateType) (before : List RecordedEvent)
    (error : CodecError) (failure : TranslationError) : Prop :=
  (∃ envelopes, before.mapM (EventEnvelope.ofRecorded (ι := A.Id) (ε := A.Event) ·
    settings.codec) = .ok envelopes) → failure = .payload error

variable {error : CodecError}

theorem replayStream_of_damaged {a : Aggregate A} {s : S} {recorded : RecordedStream}
    {rest : List RecordedEvent} (h : A.Damaged settings.codec row error)
    (hload : EventStore.loadStream s a.tenant a.stream (.above a.current) = .ok recorded)
    (hrows : recorded.rows = before ++ row :: rest) :
    ∃ failure, replayStream settings a s = .ok (.error (.store (.translation failure))) ∧
      Stops settings A before error failure := by
  obtain ⟨failure, hread, hfirst⟩ := exists_mapM_error
    (f := fun row => EventEnvelope.ofRecorded (ι := A.Id) (ε := A.Event) row settings.codec)
    before rest h.ofRecorded
  refine ⟨failure, ?_, hfirst⟩
  rw [← hrows] at hread
  have htyped : EventStore.loadEnvelopes A.Id A.Event s settings.codec a.tenant a.stream
      (.above a.current) = .error (.translation failure) := by
    rw [EventStore.loadEnvelopes, hload]
    show ((recorded.rows.mapM fun row =>
      (EventEnvelope.ofRecorded row settings.codec).mapError StoreError.translation) >>= _) = _
    rw [mapM_mapError, hread]
    rfl
  rw [replayStream, htyped]

/-- A damaged row keeps an instance from being brought up to date. -/
theorem load_of_damaged (h : A.Damaged settings.codec row error)
    (hrow : GoesThrough settings A tenant id useSnapshot w before row) :
    ∃ failure w', load settings A tenant id useSnapshot w =
        .ok (.error (.store (.translation failure)), w') ∧
      Stops settings A before error failure := by
  obtain @⟨a, w', recorded, rest, hrestore, hload, hrows⟩ := hrow
  obtain ⟨failure, hreplay, hstops⟩ := replayStream_of_damaged h hload hrows
  refine ⟨failure, w', ?_, hstops⟩
  rw [load, hrestore]
  show (replayStream settings _ _ >>= _) = _
  rw [hreplay]
  rfl

theorem getState_of_damaged (h : A.Damaged settings.codec row error) (hstarted : w.started = true)
    (hrow : GoesThrough settings A tenant id settings.usesSnapshots w before row) :
    ∃ failure w', getState settings A tenant id w =
        .ok (.error (.store (.translation failure)), w') ∧
      Stops settings A before error failure := by
  obtain ⟨failure, w', hload, hstops⟩ := load_of_damaged h hrow
  refine ⟨failure, w', ?_, hstops⟩
  rw [getState, if_pos hstarted, hload]
  rfl

/-- A command whose instance would go through a damaged row fails before it is handled. -/
theorem send_of_damaged [Carries κ A.Id A.Event] [Projection κ π]
    {command : CommandEnvelope A.Id A.Command} (h : A.Damaged settings.codec row error)
    (hstarted : w.started = true)
    (hrow : GoesThrough settings A command.tenant command.aggregateId settings.usesSnapshots w
      before row) :
    ∃ failure w', send settings A command w = .ok (.error (.store (.translation failure)), w') ∧
      Stops settings A before error failure := by
  obtain @⟨a, w', recorded, rest, hrestore, hload, hrows⟩ := hrow
  obtain ⟨failure, hreplay, hstops⟩ := replayStream_of_damaged h hload hrows
  refine ⟨failure, w', ?_, hstops⟩
  rw [send, if_pos hstarted, hrestore]
  show (decide settings command _ _ >>= _) = _
  rw [decide, hreplay]
  rfl

omit [EventStore S] in
/-- A snapshot that cannot be read is as good as none. -/
theorem restoreSnapshot_of_damaged {stored : StoredSnapshot} {mutator : Mutator A.State A.Event}
    (hstored : w.vault.get? tenant (A.stream id) = some stored)
    (hdata : settings.codec.decode (α := A.State) stored.data = .error error)
    (hbound : A.boundMutator = .ok mutator) :
    (∀ state version, w.vault.read A settings.snapshotPolicy settings.codec w.clock tenant
        (A.stream id) ≠ .found state version) ∧
      ∃ w', restoreSnapshot settings A tenant id useSnapshot w =
        (.ok (.hydrating tenant id mutator), w') := by
  have hread : ∀ state version, w.vault.read A settings.snapshotPolicy settings.codec w.clock tenant
      (A.stream id) ≠ .found state version := by
    intro state version hfound
    obtain ⟨kept, hkept, -, hdecode, -⟩ := SnapshotVault.read_eq_found hfound
    obtain rfl := Option.some.inj (hstored.symm.trans hkept)
    cases hdata.symm.trans hdecode
  refine ⟨hread, ?_⟩
  rw [restoreSnapshot, hbound]
  cases useSnapshot with
  | false => exact ⟨w, rfl⟩
  | true =>
    cases hreading : w.vault.read A settings.snapshotPolicy settings.codec w.clock tenant
        (A.stream id) with
    | found state version => exact absurd hreading (hread state version)
    | absent => exact ⟨w, rfl⟩
    | unusable => exact ⟨w.countSnapshotFailure, rfl⟩

end Engine

/-! ## Rebuilding views -/

namespace Rebuild

variable {S κ π : Type} [EventStore S] [Projection κ π] {codec : Codec} {registry : Registry κ}
  {tenant : TenantId} {batchSize : Nat} {A : AggregateType} [Carries κ A.Id A.Event]
  {row : RecordedEvent} {error : CodecError}

/-- A round whose page has a damaged row ends the rebuild, and nothing of the page is published. -/
theorem publishFrom_of_damaged {run : Run} {w : World S κ π} {slice : LogSlice}
    {stop : GlobalPosition} (h : A.Damaged codec row error)
    (hbound : registry.byTag? row.event.metadata.aggregateType = some (.of A))
    (hpage : EventStore.loadLog w.store tenant (.pageAfter run.cursor batchSize) = .ok slice)
    (hstop : slice.lastPosition = some stop) (hrow : row ∈ slice.rows) (fuel : Nat) :
    ∃ failure, publishFrom codec registry tenant batchSize (fuel + 1) run w =
      .ok (.error (.translation failure), run, w) := by
  obtain ⟨before, rest, hrows⟩ := List.append_of_mem hrow
  obtain ⟨failure, hread, -⟩ := exists_mapM_error (f := fun row => registry.decode row codec)
    before rest (h.decode hbound)
  refine ⟨failure, ?_⟩
  simp only [publishFrom, hpage, hstop, hrows, hread]

/-- A rebuild does not come through where a damaged row lies behind its start. -/
theorem run_of_damaged {resets : List Nat} {start : GlobalPosition} {w : World MemoryStore κ π}
    (hdense : w.store.Dense) (h : A.Damaged codec row error)
    (hbound : registry.byTag? row.event.metadata.aggregateType = some (.of A))
    (hrow : row ∈ w.store.rowsAfter tenant start) {outcome : Except RebuildError RebuildSummary}
    {news : List RebuildProgress} {w' : World MemoryStore κ π}
    (hrun : run codec registry resets tenant start batchSize w = .ok (outcome, news, w')) :
    ∃ failure, outcome = .error failure := by
  cases outcome with
  | error failure => exact ⟨failure, rfl⟩
  | ok summary =>
    obtain ⟨-, _, _, -, -, hread⟩ := run_eq_ok_ok hdense hrun
    obtain ⟨before, rest, hrows⟩ := List.append_of_mem hrow
    obtain ⟨failure, hfails, -⟩ := exists_mapM_error
      (f := fun row => registry.decode row codec) before rest (h.decode hbound)
    rw [hrows] at hread
    cases hread.symm.trans hfails

end Rebuild

end Chronicle

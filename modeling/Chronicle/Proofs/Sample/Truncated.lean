import Chronicle.Proofs.Codec.Unclosed
import Chronicle.Proofs.Engine.Damaged
import Chronicle.Proofs.Sample.Account

/-!
# Payloads that were cut short

The payloads of sequences and accounts cannot lose their last bytes unnoticed. In neither codec is
the beginning of an event or of a state read as anything. So a stored event that was cut short is
reported as one whose payload cannot be decoded, and stops every load, send and rebuild that comes
upon it, while a snapshot that was cut short counts as absent (`AggregateType.DetectsCuts`). For
any type that follows from the first (`AggregateType.detectsCuts`).
-/

namespace Chronicle

/-- The error with which bytes are refused that hold no value of a type. -/
def Wire.unread (α : Type) [Wire α] : CodecError := .decode (Wire.typeName α) CodecError.untold

/-- A value can be written, and without some of its last bytes nothing is read. In the binary form
this is said of values that fit only, whose texts and lists can be counted in 64 bits. -/
def Codec.Detects {α : Type} [Wire α] (codec : Codec) (fits : α → Prop) (value : α) : Prop :=
  (codec = .binary → fits value) → ∃ data, codec.encode value = .ok data ∧
    ∀ front, front <+: data → front ≠ data →
      codec.decode (α := α) front = .error (Wire.unread α)

/-- These bytes are what is left of those of a value that fits, when some of the last are
missing. -/
def Codec.Remains {α : Type} [Wire α] (codec : Codec) (fits : α → Prop) (front : Bytes) : Prop :=
  ∃ value data, (codec = .binary → fits value) ∧ codec.encode value = .ok data ∧
    front <+: data ∧ front ≠ data

theorem Codec.Remains.decode {α : Type} [Wire α] {codec : Codec} {fits : α → Prop} {front : Bytes}
    (h : codec.Remains fits front) (hdetects : ∀ value, codec.Detects fits value) :
    codec.decode (α := α) front = .error (Wire.unread α) := by
  obtain ⟨value, data, hfits, hencode, hfront, hshort⟩ := h
  obtain ⟨whole, hwhole, hcut⟩ := hdetects value hfits
  obtain rfl := Except.ok.inj (hwhole.symm.trans hencode)
  exact hcut front hfront hshort

namespace AggregateType

/-- A row of which the id can be read and of whose payload the last bytes are missing. -/
structure Torn (A : AggregateType) (codec : Codec) (fits : A.Event → Prop) (row : RecordedEvent) :
    Prop where
  id : ∃ id : A.Id, parseId row.event.metadata.aggregateId = .ok id
  payload : codec.Remains fits row.event.data

/-- What a type has to do with events and states that were cut short. -/
structure DetectsCuts (A : AggregateType) (codec : Codec) (fitsEvent : A.Event → Prop)
    (fitsState : A.State → Prop) : Prop where
  event : ∀ event, codec.Detects fitsEvent event
  state : ∀ state, codec.Detects fitsState state
  /-- A row that was cut short is reported for its payload. -/
  row : ∀ row, A.Torn codec fitsEvent row →
    EventEnvelope.ofRecorded (ι := A.Id) (ε := A.Event) row codec =
      .error (.payload (Wire.unread A.Event))
  /-- Nothing is loaded over it. -/
  load : ∀ {S κ π : Type} [EventStore S] (settings : Settings) (tenant : TenantId) (id : A.Id)
    (useSnapshot : Bool) (w : World S κ π) (before : List RecordedEvent) (row : RecordedEvent),
    settings.codec = codec → A.Torn codec fitsEvent row →
    Engine.GoesThrough settings A tenant id useSnapshot w before row →
      ∃ failure w', Engine.load settings A tenant id useSnapshot w =
          .ok (.error (.store (.translation failure)), w') ∧
        Engine.Stops settings A before (Wire.unread A.Event) failure
  /-- No state is given out over it. -/
  getState : ∀ {S κ π : Type} [EventStore S] (settings : Settings) (tenant : TenantId) (id : A.Id)
    (w : World S κ π) (before : List RecordedEvent) (row : RecordedEvent), w.started = true →
    settings.codec = codec → A.Torn codec fitsEvent row →
    Engine.GoesThrough settings A tenant id settings.usesSnapshots w before row →
      ∃ failure w', Engine.getState settings A tenant id w =
          .ok (.error (.store (.translation failure)), w') ∧
        Engine.Stops settings A before (Wire.unread A.Event) failure
  /-- No command is handled behind it. -/
  send : ∀ {S κ π : Type} [EventStore S] [Carries κ A.Id A.Event] [Projection κ π]
    (settings : Settings) (command : CommandEnvelope A.Id A.Command) (w : World S κ π)
    (before : List RecordedEvent) (row : RecordedEvent), w.started = true →
    settings.codec = codec → A.Torn codec fitsEvent row →
    Engine.GoesThrough settings A command.tenant command.aggregateId settings.usesSnapshots w
      before row →
      ∃ failure w', Engine.send settings A command w =
          .ok (.error (.store (.translation failure)), w') ∧
        Engine.Stops settings A before (Wire.unread A.Event) failure
  /-- A rebuild ends at the page it lies on, of which nothing is published. -/
  page : ∀ {S κ π : Type} [EventStore S] [Carries κ A.Id A.Event] [Projection κ π]
    (registry : Registry κ) (tenant : TenantId) (batchSize fuel : Nat) (run : Rebuild.Run)
    (w : World S κ π) (slice : LogSlice) (stop : GlobalPosition) (row : RecordedEvent),
    A.Torn codec fitsEvent row →
    registry.byTag? row.event.metadata.aggregateType = some (.of A) →
    EventStore.loadLog w.store tenant (.pageAfter run.cursor batchSize) = .ok slice →
    slice.lastPosition = some stop → row ∈ slice.rows →
      ∃ failure, Rebuild.publishFrom codec registry tenant batchSize (fuel + 1) run w =
        .ok (.error (.translation failure), run, w)
  /-- So no rebuild in front of it comes through. -/
  rebuild : ∀ {κ π : Type} [Carries κ A.Id A.Event] [Projection κ π] (registry : Registry κ)
    (resets : List Nat) (tenant : TenantId) (start : GlobalPosition) (batchSize : Nat)
    (w w' : World MemoryStore κ π) (row : RecordedEvent)
    (outcome : Except RebuildError RebuildSummary) (news : List RebuildProgress),
    w.store.Dense → A.Torn codec fitsEvent row →
    registry.byTag? row.event.metadata.aggregateType = some (.of A) →
    row ∈ w.store.rowsAfter tenant start →
    Rebuild.run codec registry resets tenant start batchSize w = .ok (outcome, news, w') →
      ∃ failure, outcome = .error failure
  /-- A snapshot that was cut short is not found, and the instance starts anew. -/
  snapshot : ∀ {S κ π : Type} (settings : Settings) (tenant : TenantId) (id : A.Id)
    (useSnapshot : Bool) (w : World S κ π) (stored : StoredSnapshot)
    (mutator : Mutator A.State A.Event), settings.codec = codec →
    w.vault.get? tenant (A.stream id) = some stored → codec.Remains fitsState stored.data →
    A.boundMutator = .ok mutator →
      (∀ state version, w.vault.read A settings.snapshotPolicy settings.codec w.clock tenant
        (A.stream id) ≠ .found state version) ∧
      ∃ w', Engine.restoreSnapshot settings A tenant id useSnapshot w =
        (.ok (.hydrating tenant id mutator), w')

variable {A : AggregateType} {codec : Codec} {fitsEvent : A.Event → Prop}
  {fitsState : A.State → Prop}

theorem Torn.damaged {row : RecordedEvent} (h : A.Torn codec fitsEvent row)
    (hevent : ∀ event, codec.Detects fitsEvent event) :
    A.Damaged codec row (Wire.unread A.Event) :=
  ⟨h.id, h.payload.decode hevent⟩

/-- A type whose events and states are not read without their last bytes does all the rest. -/
theorem detectsCuts (hevent : ∀ event, codec.Detects fitsEvent event)
    (hstate : ∀ state, codec.Detects fitsState state) :
    A.DetectsCuts codec fitsEvent fitsState where
  event := hevent
  state := hstate
  row _ htorn := (htorn.damaged hevent).ofRecorded
  load settings _ _ _ _ _ _ hcodec htorn hrow := by
    subst hcodec
    exact Engine.load_of_damaged (htorn.damaged hevent) hrow
  getState settings _ _ _ _ _ hstarted hcodec htorn hrow := by
    subst hcodec
    exact Engine.getState_of_damaged (htorn.damaged hevent) hstarted hrow
  send settings _ _ _ _ hstarted hcodec htorn hrow := by
    subst hcodec
    exact Engine.send_of_damaged (htorn.damaged hevent) hstarted hrow
  page _ _ _ fuel _ _ _ _ _ htorn hbound hpage hstop hrow :=
    Rebuild.publishFrom_of_damaged (htorn.damaged hevent) hbound hpage hstop hrow fuel
  rebuild _ _ _ _ _ _ _ _ _ _ hdense htorn hbound hrow hrun :=
    Rebuild.run_of_damaged hdense (htorn.damaged hevent) hbound hrow hrun
  snapshot settings _ _ _ _ _ _ hcodec hstored hremains hbound := by
    subst hcodec
    exact Engine.restoreSnapshot_of_damaged hstored (hremains.decode hstate) hbound

end AggregateType

/-- Values of a format that tells where they end cannot lose their last bytes unnoticed. -/
theorem Codec.detects {α : Type} [Wire α] {fits : α → Prop}
    (hends : (Wire.format (α := α)).EndsItself)
    (hback : ∀ value, fits value → (Wire.format (α := α)).ReadsBack value)
    (hform : ∀ value, (Wire.format (α := α)).HasForm value) (codec : Codec) (value : α) :
    codec.Detects fits value := by
  intro hfits
  obtain ⟨data, hdata⟩ := Codec.exists_encode (hform value) codec
  refine ⟨data, hdata, fun front hfront hshort => ?_⟩
  exact Codec.decode_of_cut hends (fun hbinary => hback value (hfits hbinary)) (hform value) hdata
    hfront hshort

namespace Sample

/-! ## Where the values of the sample types end -/

theorem SequenceEvent.endsItself : (Wire.format (α := SequenceEvent)).EndsItself where
  binary := Format.local_union
    (.holding Format.local_uint32 (.plain Variants.local_none _) _) _ _
  json := Format.delimited_union
    (Variants.delimited_holding (Variants.delimited_plain Variants.delimited_none _) _ _) _ _

theorem SequenceState.endsItself : (Wire.format (α := SequenceState)).EndsItself where
  binary := Format.local_record (Fields.local_required (Format.local_list Format.local_uint32)
    (Fields.local_required Format.local_uint64 Fields.local_none _) _) _ _
  json := Format.delimited_record _ _ _

theorem local_ownerRecord : Bytes.Local ownerRecord.ofBinary :=
  Format.local_record (Fields.local_required Format.local_string Fields.local_none _) _ _

theorem local_amountRecord : Bytes.Local amountRecord.ofBinary :=
  Format.local_record (Fields.local_required Format.local_uint64 Fields.local_none _) _ _

theorem AccountEvent.endsItself : (Wire.format (α := AccountEvent)).EndsItself where
  binary := Format.local_union (.holding local_ownerRecord (.holding local_amountRecord
    (.holding local_amountRecord (.plain Variants.local_none _) _) _) _) _ _
  json := Format.delimited_union (Variants.delimited_holding (Variants.delimited_holding
    (Variants.delimited_holding (Variants.delimited_plain Variants.delimited_none _) _ _) _ _) _ _)
    _ _

theorem AccountState.endsItself : (Wire.format (α := AccountState)).EndsItself where
  binary := Format.local_record (Fields.local_required (Format.local_option Format.local_string)
    (Fields.local_required Format.local_uint64
      (Fields.local_required Format.local_bool Fields.local_none _) _) _) _ _
  json := Format.delimited_record _ _ _

/-- **What was cut short is noticed.** In both codecs sequences and accounts detect events and
states of which some of the last bytes are missing, be they all. In the binary form the lists and
names of these have to be countable in 64 bits; longer ones fit into no memory. -/
theorem sample_types_detect_cuts (codec : Codec) :
    sequenceType.DetectsCuts codec (fun _ => True) SequenceState.Fits ∧
      accountType.DetectsCuts codec AccountEvent.Fits AccountState.Fits := by
  refine ⟨AggregateType.detectsCuts ?_ ?_, AggregateType.detectsCuts ?_ ?_⟩
  · exact Codec.detects SequenceEvent.endsItself (fun event _ => event.readsBack)
      SequenceEvent.hasForm codec
  · exact Codec.detects SequenceState.endsItself (fun _ hfits => SequenceState.readsBack hfits)
      SequenceState.hasForm codec
  · exact Codec.detects AccountEvent.endsItself (fun _ hfits => AccountEvent.readsBack hfits)
      AccountEvent.hasForm codec
  · exact Codec.detects AccountState.endsItself (fun _ hfits => AccountState.readsBack hfits)
      AccountState.hasForm codec

/-- The addition of 3 without the last byte of its number. -/
def tornAddition : SerializedEvent :=
  { storedAddition 3 with data := (storedAddition 3).data.take 7 }

/-- The world of a started engine whose store has nothing but that addition. -/
def tornWorld : World MemoryStore Carrier Inert :=
  { (World.blank : World MemoryStore Carrier Inert) with
    store := MemoryStore.empty.afterCalls
      [.append .default (sequenceType.stream (7 : UInt64)) .notCreated [tornAddition]] }

set_option maxRecDepth 10000 in
/-- A torn addition can neither be loaded nor rebuilt from. -/
theorem torn_addition_is_noticed :
    (∃ w', Engine.load .standard sequenceType .default (7 : UInt64) true tornWorld =
      .ok (.error (.store (.translation (.payload (Wire.unread SequenceEvent)))), w')) ∧
    ∀ summary news w', Rebuild.run .binary registry [] .default .start 10 tornWorld ≠
      .ok (.ok summary, news, w') := by
  obtain ⟨hdetects, -⟩ := sample_types_detect_cuts .binary
  have htorn : sequenceType.Torn .binary (fun _ => True)
      ⟨sequenceType.stream (7 : UInt64), ⟨1⟩, ⟨1⟩, tornAddition⟩ :=
    ⟨⟨7, rfl⟩, .itemAdded 3, _, fun _ => trivial, rfl, ⟨[0], rfl⟩, by decide⟩
  constructor
  · obtain ⟨failure, w', hload, hstops⟩ := hdetects.load (κ := Carrier) (π := Inert) .standard
      .default (7 : UInt64) true tornWorld [] _ rfl htorn (.intro rfl rfl rfl)
    obtain rfl := hstops ⟨[], rfl⟩
    exact ⟨w', hload⟩
  · intro summary news w' hrun
    have hdense : tornWorld.store.Dense :=
      MemoryStore.afterCalls_dense MemoryStore.dense_empty _
    obtain ⟨failure, hfails⟩ := hdetects.rebuild registry [] .default .start 10 tornWorld w' _ _
      news hdense htorn registry_sequence (List.mem_singleton_self _) hrun
    cases hfails

end Sample

end Chronicle

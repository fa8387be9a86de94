import Chronicle.Proofs.Engine.Conditions
import Chronicle.Proofs.Engine.UpToDate

/-!
# Faithful streams and snapshots

A stream that is written by one type only, whose ids, events and states come back from the bytes
they are written as, is `Sound`: its rows mean a state, and the snapshot that is kept of it is the
state that so many rows at its beginning mean.

What a command under way has read is `Grounded` in the same way: an instance and a proposal stand
on what some rows at the beginning of the stream mean. Rows are never taken back, so whatever other
commands append meanwhile, it stays grounded, and a snapshot that is saved late is faithful still.

The commands of a type may do more than that: they may uphold a law of the events of a stream,
under which alone these come back from their bytes. A stream is `Lawful` if it is sound and its
events obey the law; a type that loses nothing upholds the law that says nothing.

`Advances.lawful` says that a phase preserves all of this, and `Advances.elsewhere` that it leaves
all other streams alone.
-/

namespace Chronicle

/-- Ids, events and states are what is read back of the texts and the bytes they are written as. Of
the states only those count that a stream can come to mean, which has fewer than 2⁶⁴ events. -/
structure AggregateType.Lossless (A : AggregateType) (codec : Codec) : Prop where
  id : ∀ id : A.Id, InstanceId.ofText (InstanceId.toText id) = .ok id
  event : ∀ (event : A.Event) (data : Bytes), codec.encode event = .ok data →
    codec.decode data = .ok event
  state : ∀ (events : List A.Event) (state : A.State) (data : Bytes),
    events.length < UInt64.size → A.fold? events = some state → codec.encode state = .ok data →
    codec.decode data = .ok state

/-- What commands of a type keep true of the events of a stream: a law that holds of no events and
of what comes about by each command that is taken. What obeys it is read back of the texts and the
bytes it is written as. -/
structure AggregateType.Upholds (A : AggregateType) (codec : Codec)
    (takes : CommandEnvelope A.Id A.Command → Prop) (law : List A.Event → Prop) : Prop where
  id : ∀ id : A.Id, InstanceId.ofText (InstanceId.toText id) = .ok id
  nil : law []
  initial : ∀ before since, law (before ++ since) → law before
  event : ∀ events, law events → ∀ event ∈ events, ∀ data : Bytes,
    codec.encode event = .ok data → codec.decode data = .ok event
  state : ∀ events state (data : Bytes), law events → events.length < UInt64.size →
    A.fold? events = some state → codec.encode state = .ok data → codec.decode data = .ok state
  step : ∀ command events state version play, takes command → law events →
    A.fold? events = some state →
    (A.handle command state).play A.mutator state version = .ok play →
    play.verdict = .accepted → law (events ++ play.events)

theorem AggregateType.Lossless.upholds {A : AggregateType} {codec : Codec} (h : A.Lossless codec) :
    A.Upholds codec (fun _ => True) fun _ => True where
  id := h.id
  nil := trivial
  initial _ _ _ := trivial
  event _ _ event _ := h.event event
  state events state data _ := h.state events state data
  step _ _ _ _ _ _ _ _ _ _ := trivial

/-! ## Rows and snapshots -/

namespace AggregateType

variable {A : AggregateType} {codec : Codec} {command : CommandEnvelope A.Id A.Command}

/-- A row that holds an event is read as that event. -/
theorem read?_of_holds (hid : ∀ id : A.Id, InstanceId.ofText (InstanceId.toText id) = .ok id)
    {event : A.Event} {row : RecordedEvent}
    (hevent : ∀ data, codec.encode event = .ok data → codec.decode data = .ok event)
    (h : Engine.Holds codec A command event row) : A.read? codec row = some event := by
  have haggregate : parseId (ι := A.Id) row.event.metadata.aggregateId =
      .ok command.aggregateId := by
    rw [h.metadata]
    unfold parseId
    rw [hid]
    rfl
  have hdata := hevent row.event.data h.data
  have hrow : EventEnvelope.ofRecorded row codec =
      .ok (EventEnvelope.ofParts row command.aggregateId event) := by
    unfold EventEnvelope.ofRecorded
    rw [haggregate, hdata]
    show (if EventKind.kind event = row.event.kind then _ else _) = _
    rw [if_pos h.kind.symm]
    rfl
  rw [read?, hrow]
  rfl

theorem mapM_read?_of_holds
    (hid : ∀ id : A.Id, InstanceId.ofText (InstanceId.toText id) = .ok id)
    {events : List A.Event} {rows : List RecordedEvent}
    (h : List.Forall₂ (Engine.Holds codec A command) events rows)
    (hevents : ∀ event ∈ events, ∀ data, codec.encode event = .ok data →
      codec.decode data = .ok event) :
    rows.mapM (A.read? codec) = some events := by
  induction h with
  | nil => rfl
  | cons hfirst _ ih =>
    rw [List.mapM_cons, read?_of_holds hid (hevents _ (List.mem_cons_self ..)) hfirst,
      ih fun event hin => hevents event (List.mem_cons_of_mem _ hin)]
    rfl

/-- The first of some rows are read as the first of their events. -/
theorem mapM_read?_take {rows : List RecordedEvent} {events : List A.Event}
    (h : rows.mapM (A.read? codec) = some events) (count : Nat) :
    (rows.take count).mapM (A.read? codec) = some (events.take count) :=
  mapM_eq_some_iff.mpr (List.forall₂_take count (mapM_eq_some_iff.mp h))

/-- What the rows up to a version mean is read back of its bytes. -/
theorem Upholds.decode_of_means {takes : CommandEnvelope A.Id A.Command → Prop}
    {law : List A.Event → Prop} (hupholds : A.Upholds codec takes law) {rows : List RecordedEvent}
    {events : List A.Event} (hevents : rows.mapM (A.read? codec) = some events)
    (hlaw : law events) {version : Version} {state : A.State} {data : Bytes}
    (hstate : A.stateOf? codec (rows.take version.toNat) = some state)
    (hencode : codec.encode state = .ok data) : codec.decode data = .ok state := by
  rw [stateOf?, mapM_read?_take hevents] at hstate
  refine hupholds.state (events.take version.toNat) state data ?_ ?_ hstate hencode
  · rw [← List.take_append_drop version.toNat events] at hlaw
    exact hupholds.initial _ _ hlaw
  · exact Nat.lt_of_le_of_lt (List.length_take_le ..) version.val.toNat_lt

/-- What a row is read as is what its bytes hold. -/
theorem decode?_of_read? {row : RecordedEvent} {event : A.Event}
    (h : A.read? codec row = some event) : codec.decode? row.event.data = some event := by
  unfold read? at h
  cases hrow : EventEnvelope.ofRecorded (ι := A.Id) (ε := A.Event) row codec with
  | error error => rw [hrow] at h; cases h
  | ok envelope =>
    rw [hrow] at h
    obtain rfl := Option.some.inj h
    obtain ⟨id, -, hrow⟩ := bind_eq_ok.mp hrow
    obtain ⟨payload, hpayload, hrow⟩ := bind_eq_ok.mp hrow
    split at hrow
    · obtain rfl := Except.ok.inj hrow
      unfold Codec.decode at hpayload
      split at hpayload
      · next found hdecode =>
        obtain rfl := Except.ok.inj hpayload
        exact hdecode
      · cases hpayload
    · cases hrow

theorem stateOf?_take_mono {rows rows' : List RecordedEvent} (h : rows <+: rows')
    {count : Nat} (hle : count ≤ rows.length) :
    A.stateOf? codec (rows'.take count) = A.stateOf? codec (rows.take count) := by
  obtain ⟨tail, rfl⟩ := h
  rw [List.take_append_of_le_length hle]

end AggregateType

/-- A snapshot is the state that the rows up to its version mean. -/
structure StoredSnapshot.Faithful (stored : StoredSnapshot) (A : AggregateType) (codec : Codec)
    (rows : List RecordedEvent) : Prop where
  le : stored.version.toNat ≤ rows.length
  state : ∃ state, codec.decode stored.data = .ok state ∧
    A.stateOf? codec (rows.take stored.version.toNat) = some state

theorem StoredSnapshot.Faithful.mono {stored : StoredSnapshot} {A : AggregateType}
    {codec : Codec} {rows rows' : List RecordedEvent} (h : stored.Faithful A codec rows)
    (hrows : rows <+: rows') : stored.Faithful A codec rows' where
  le := Nat.le_trans h.le hrows.length_le
  state := by
    rw [AggregateType.stateOf?_take_mono hrows h.le]
    exact h.state

/-- Where the snapshot of a stream is faithful, an instance starts from what the rows up to its
version mean. -/
theorem Engine.Origin.means {codec : Codec} {A : AggregateType} {v : SnapshotVault}
    {tenant : TenantId} {stream : StreamId} {state : A.State} {version : Version}
    {rows : List RecordedEvent} (h : Origin codec A v tenant stream state version)
    (hkept : ∀ stored, v.get? tenant stream = some stored → stored.Faithful A codec rows) :
    version.toNat ≤ rows.length ∧ A.stateOf? codec (rows.take version.toNat) = some state := by
  cases h with
  | blank => exact ⟨Nat.zero_le _, rfl⟩
  | kept stored hget _ hdecode =>
    obtain ⟨hle, state', hdecode', hstate⟩ := hkept stored hget
    obtain rfl := Except.ok.inj (hdecode.symm.trans hdecode')
    exact ⟨hle, hstate⟩

namespace World

variable {κ π : Type}

/-- The rows of a stream mean a state, and its snapshot is faithful to them. -/
structure Sound (w : World MemoryStore κ π) (A : AggregateType) (codec : Codec)
    (tenant : TenantId) (stream : StreamId) : Prop where
  dense : w.store.Dense
  means : ∃ state, A.stateOf? codec ((w.store.tenant tenant).rows stream) = some state
  kept : ∀ stored, w.vault.get? tenant stream = some stored →
    stored.Faithful A codec ((w.store.tenant tenant).rows stream)

/-- What is sound stays so where neither the rows of the stream nor its snapshot change. -/
theorem Sound.of_same {w w' : World MemoryStore κ π} {A : AggregateType} {codec : Codec}
    {tenant : TenantId} {stream : StreamId} (h : w.Sound A codec tenant stream)
    (hdense : w'.store.Dense)
    (hrows : (w'.store.tenant tenant).rows stream = (w.store.tenant tenant).rows stream)
    (hkept : w'.vault.get? tenant stream = w.vault.get? tenant stream) :
    w'.Sound A codec tenant stream where
  dense := hdense
  means := by
    rw [hrows]
    exact h.means
  kept := by
    rw [hrows, hkept]
    exact h.kept

theorem Sound.under {w : World MemoryStore κ π} {A : AggregateType} {codec : Codec}
    {tenant : TenantId} {stream : StreamId} (h : w.Sound A codec tenant stream) (c : Conditions) :
    (w.under c).Sound A codec tenant stream := h.of_same h.dense rfl rfl

/-- A sound stream whose events obey a law. -/
structure Lawful (w : World MemoryStore κ π) (A : AggregateType) (codec : Codec)
    (law : List A.Event → Prop) (tenant : TenantId) (stream : StreamId) : Prop
    extends w.Sound A codec tenant stream where
  obeys : ∃ events, ((w.store.tenant tenant).rows stream).mapM (A.read? codec) = some events ∧
    law events

theorem Sound.lawful {w : World MemoryStore κ π} {A : AggregateType} {codec : Codec}
    {tenant : TenantId} {stream : StreamId} (h : w.Sound A codec tenant stream) :
    w.Lawful A codec (fun _ => True) tenant stream where
  toSound := h
  obeys := by
    obtain ⟨state, hstate⟩ := h.means
    obtain ⟨events, hevents, -⟩ := Option.bind_eq_some_iff.mp hstate
    exact ⟨events, hevents, trivial⟩

theorem Lawful.of_same {w w' : World MemoryStore κ π} {A : AggregateType} {codec : Codec}
    {law : List A.Event → Prop} {tenant : TenantId} {stream : StreamId}
    (h : w.Lawful A codec law tenant stream) (hdense : w'.store.Dense)
    (hrows : (w'.store.tenant tenant).rows stream = (w.store.tenant tenant).rows stream)
    (hkept : w'.vault.get? tenant stream = w.vault.get? tenant stream) :
    w'.Lawful A codec law tenant stream where
  toSound := h.toSound.of_same hdense hrows hkept
  obeys := by
    rw [hrows]
    exact h.obeys

theorem Lawful.under {w : World MemoryStore κ π} {A : AggregateType} {codec : Codec}
    {law : List A.Event → Prop} {tenant : TenantId} {stream : StreamId}
    (h : w.Lawful A codec law tenant stream) (c : Conditions) :
    (w.under c).Lawful A codec law tenant stream := h.of_same h.dense rfl rfl

end World

/-! ## Commands under way -/

namespace Task

variable {κ π : Type}

/-- A proposal comes of handling the command at the state that the rows before it mean. -/
structure Proposes (t : Task κ) (rows : List RecordedEvent) (p : Engine.Proposal t.A)
    (base : t.A.State) (play : Play t.A.State t.A.Event) : Prop where
  bound : t.A.boundMutator = .ok t.A.mutator
  tenant : p.tenant = t.tenant
  stream : p.stream = t.stream
  le : p.expected.toNat ≤ rows.length
  means : t.A.stateOf? t.settings.codec (rows.take p.expected.toNat) = some base
  plays : (t.A.handle t.command base).play t.A.mutator base p.expected = .ok play
  accepted : play.verdict = .accepted
  changes : play.events ≠ []
  envelopes : (Aggregate.startingAt t.A t.tenant t.command.aggregateId base p.expected).Stamped
    t.command p.expected play.events p.envelopes
  state : p.state = play.state

/-- What a command under way has read is what some rows at the beginning of its stream mean. -/
def Grounded (t : Task κ) (rows : List RecordedEvent) : Stage t.A → Prop
  | .restored a => t.A.boundMutator = .ok t.A.mutator ∧ ∃ state version,
    a = .startingAt t.A t.tenant t.command.aggregateId state version ∧
    version.toNat ≤ rows.length ∧
    t.A.stateOf? t.settings.codec (rows.take version.toNat) = some state
  | .decided p => ∃ base play, t.Proposes rows p base play
  | .appended p version => p.tenant = t.tenant ∧ p.stream = t.stream ∧
    version.toNat ≤ rows.length ∧
    t.A.stateOf? t.settings.codec (rows.take version.toNat) = some p.state
  | _ => True

variable {t : Task κ} {stage stage' : Stage t.A} {w w' : World MemoryStore κ π}
  {takes : CommandEnvelope t.A.Id t.A.Command → Prop} {law : List t.A.Event → Prop}

theorem Proposes.mono {rows rows' : List RecordedEvent} {p : Engine.Proposal t.A}
    {base : t.A.State} {play : Play t.A.State t.A.Event} (h : t.Proposes rows p base play)
    (hrows : rows <+: rows') : t.Proposes rows' p base play :=
  { h with
    le := Nat.le_trans h.le hrows.length_le
    means := by
      rw [AggregateType.stateOf?_take_mono hrows h.le]
      exact h.means }

theorem Proposes.ne_nil {rows : List RecordedEvent} {p : Engine.Proposal t.A} {base : t.A.State}
    {play : Play t.A.State t.A.Event} (h : t.Proposes rows p base play) : p.envelopes ≠ [] :=
  mt h.envelopes.eq_nil_iff.mp h.changes

theorem Grounded.mono {rows rows' : List RecordedEvent} (h : t.Grounded rows stage)
    (hrows : rows <+: rows') : t.Grounded rows' stage := by
  cases stage with
  | restored a =>
    obtain ⟨hbound, state, version, ha, hle, hstate⟩ := h
    exact ⟨hbound, state, version, ha, Nat.le_trans hle hrows.length_le,
      (AggregateType.stateOf?_take_mono hrows hle).trans hstate⟩
  | decided p =>
    obtain ⟨base, play, hp⟩ := h
    exact ⟨base, play, hp.mono hrows⟩
  | appended p version =>
    obtain ⟨htenant, hstream, hle, hstate⟩ := h
    exact ⟨htenant, hstream, Nat.le_trans hle hrows.length_le,
      (AggregateType.stateOf?_take_mono hrows hle).trans hstate⟩
  | _ => trivial

/-- An instance that is grounded comes to a proposal that is. -/
theorem proposes_of_replayed {a b : Aggregate t.A} {play : Play t.A.State t.A.Event}
    {envelopes : List (EventEnvelope t.A.Id t.A.Event)} {p : Engine.Proposal t.A}
    (hw : w.Sound t.A t.settings.codec t.tenant t.stream)
    (ha : t.Grounded ((w.store.tenant t.tenant).rows t.stream) (.restored a))
    (hreplay : Engine.replayStream t.settings a w.store = .ok (.ok b))
    (hplay : (t.A.handle t.command b.state).play b.mutator b.state b.current = .ok play)
    (hstamped : b.Stamped t.command b.current play.events envelopes)
    (hhanded : Engine.handed b play envelopes = .ok (.proposed p)) :
    p.expected = w.store.version t.tenant t.stream ∧
      ∃ base, t.Proposes ((w.store.tenant t.tenant).rows t.stream) p base play := by
  obtain ⟨hbound, state, version, rfl, hle, hstate⟩ := ha
  obtain ⟨base, hbase⟩ := hw.means
  obtain ⟨_, _, havailable, -, -, -⟩ := Engine.replayStream_eq_ok hreplay
  have hready := Engine.replayStream_of_states havailable (hw.dense t.tenant) hle hstate hbase
  obtain rfl := Except.ok.inj (Except.ok.inj (hready.symm.trans hreplay))
  obtain ⟨haccepted, hne, rfl⟩ := Engine.handed_eq_proposed hhanded rfl
  have hversion := (hw.dense t.tenant).toNat_version t.stream
  refine ⟨rfl, base, hbound, rfl, rfl, Nat.le_of_eq hversion, ?_, ?_, haccepted,
    mt hstamped.eq_nil_iff.mpr hne, hstamped.of_same rfl rfl, rfl⟩
  · show t.A.stateOf? _ (List.take ((w.store.tenant t.tenant).version t.stream).toNat _) = _
    rw [hversion, List.take_length]
    exact hbase
  · exact (Decision.play_seed ..).symm.trans hplay

/-- A grounded proposal that is stored adds its events to those of its stream, which obey the law
then too and mean its state. -/
theorem Proposes.obeys_of_appends {s s' : MemoryStore} {p : Engine.Proposal t.A} {version : Version}
    {base : t.A.State} {play : Play t.A.State t.A.Event} {stored : List SerializedEvent}
    (h : t.Proposes ((s.tenant t.tenant).rows t.stream) p base play)
    (hupholds : t.A.Upholds t.settings.codec takes law) (htakes : takes t.command)
    (hdense : s.Dense) {events : List t.A.Event}
    (hevents : ((s.tenant t.tenant).rows t.stream).mapM (t.A.read? t.settings.codec) = some events)
    (hlaw : law events)
    (hstored : p.envelopes.mapM (fun e => e.serialize t.settings.codec t.A.tag) = .ok stored)
    (happends : s.Appends t.tenant t.stream p.expected stored (.ok version) s') :
    ((s'.tenant t.tenant).rows t.stream).mapM (t.A.read? t.settings.codec) =
        some (events ++ play.events) ∧
      law (events ++ play.events) ∧ t.A.fold? (events ++ play.events) = some p.state := by
  have hmeans := h.means
  cases happends with
  | stored rows _ _ hexpected hrows =>
    rw [← hexpected, MemoryStore.version, (hdense t.tenant).toNat_version, List.take_length,
      AggregateType.stateOf?, hevents] at hmeans
    have hlaws := hupholds.step t.command events base _ play htakes hlaw hmeans h.plays h.accepted
    replace hrows := TenantLog.number_eq_ok hrows
    rw [← hrows.content] at hstored
    have hholds := Engine.holds_of_stamped rfl rfl h.envelopes hstored hrows.own
    have hread := AggregateType.mapM_read?_of_holds hupholds.id hholds fun event hin =>
      hupholds.event _ hlaws event (List.mem_append_right _ hin)
    refine ⟨?_, hlaws, ?_⟩
    · rw [MemoryStore.tenant_set, if_pos rfl, TenantLog.rows_extend, if_pos rfl, List.mapM_append,
        hevents, hread]
      rfl
    · have hfold : t.A.fold? events = some base := hmeans
      rw [AggregateType.fold?_append, hfold, h.state]
      exact (Decision.play_events h.plays).1

/-! ## One phase -/

/-- A phase leaves the stream of its own command lawful, and what the command has read grounded. -/
theorem Advances.lawful (hupholds : t.A.Upholds t.settings.codec takes law)
    (htakes : takes t.command) (h : t.Advances w stage stage' w')
    (hw : w.Lawful t.A t.settings.codec law t.tenant t.stream ∧
      t.Grounded ((w.store.tenant t.tenant).rows t.stream) stage) :
    w'.Lawful t.A t.settings.codec law t.tenant t.stream ∧
      t.Grounded ((w'.store.tenant t.tenant).rows t.stream) stage' := by
  obtain ⟨hlawful, hgrounded⟩ := hw
  have hdense := h.dense hlawful.dense
  have hgrows := h.grows
  cases h with
  | restores _ hbound horigin hstill =>
    obtain ⟨hle, hstate⟩ := horigin.means hlawful.kept
    refine ⟨hlawful.of_same hdense (by rw [hstill.store]) (by rw [hstill.vault]), ?_⟩
    rw [hstill.store]
    exact ⟨hbound, _, _, rfl, hle, hstate⟩
  | decides hreplay hplay hstamped hhanded hstill =>
    obtain ⟨-, base, hproposes⟩ :=
      proposes_of_replayed hlawful.toSound hgrounded hreplay hplay hstamped hhanded
    refine ⟨hlawful.of_same hdense (by rw [hstill.store]) (by rw [hstill.vault]), ?_⟩
    rw [hstill.store]
    exact ⟨base, _, hproposes⟩
  | @appends p stored version _ hstored happends hstill =>
    obtain ⟨base, play, hproposes⟩ := hgrounded
    have hrows := hgrows.rows t.tenant t.stream
    have hversion := happends.version_eq
    rw [hproposes.tenant, hproposes.stream] at happends hversion
    obtain ⟨events, hevents, hlaw⟩ := hlawful.obeys
    obtain ⟨hread, hlaws, hfold⟩ := hproposes.obeys_of_appends hupholds htakes hlawful.dense
      hevents hlaw hstored happends
    have hmeans : t.A.stateOf? t.settings.codec ((w'.store.tenant t.tenant).rows t.stream) =
        some p.state := by
      rw [AggregateType.stateOf?, hread]
      exact hfold
    have hlength : version.toNat = ((w'.store.tenant t.tenant).rows t.stream).length := by
      rw [hversion]
      exact (hdense t.tenant).toNat_version t.stream
    refine ⟨⟨⟨hdense, ⟨_, hmeans⟩, fun stored hget => ?_⟩, ⟨_, hread, hlaws⟩⟩, hproposes.tenant,
      hproposes.stream, Nat.le_of_eq hlength, ?_⟩
    · rw [hstill.vault] at hget
      exact (hlawful.kept stored hget).mono hrows
    · rw [hlength, List.take_length]
      exact hmeans
  | skips hstill =>
    exact ⟨hlawful.of_same hdense (by rw [hstill.store]) (by rw [hstill.vault]), trivial⟩
  | @keeps p version data _ hencode hstill =>
    obtain ⟨htenant, hstream, hle, hstate⟩ := hgrounded
    obtain ⟨events, hevents, hlaw⟩ := hlawful.obeys
    have hdecode := hupholds.decode_of_means hevents hlaw hstate hencode
    have hmeans := hlawful.means
    rw [← hstill.store] at hmeans hevents hle hstate
    refine ⟨⟨⟨hdense, hmeans, fun stored hget => ?_⟩, ⟨events, hevents, hlaw⟩⟩, trivial⟩
    rw [hstill.vault] at hget
    replace hget := (SnapshotVault.get?_plant ..).symm.trans hget
    split at hget
    · obtain rfl := Option.some.inj hget
      exact ⟨hle, p.state, hdecode, hstate⟩
    · rw [hstill.store]
      exact hlawful.kept stored hget
  | ends hover hstore hvault =>
    refine ⟨hlawful.of_same hdense (by rw [hstore.tenant]) (by rw [hvault]), ?_⟩
    cases stage' with
    | answered | stopped => trivial
    | _ => cases hover

/-- A phase of a command that loses nothing leaves its stream sound. -/
theorem Advances.sound (hlossless : t.A.Lossless t.settings.codec)
    (h : t.Advances w stage stage' w')
    (hw : w.Sound t.A t.settings.codec t.tenant t.stream ∧
      t.Grounded ((w.store.tenant t.tenant).rows t.stream) stage) :
    w'.Sound t.A t.settings.codec t.tenant t.stream ∧
      t.Grounded ((w'.store.tenant t.tenant).rows t.stream) stage' := by
  obtain ⟨hlawful, hgrounded⟩ := h.lawful hlossless.upholds trivial ⟨hw.1.lawful, hw.2⟩
  exact ⟨hlawful.toSound, hgrounded⟩

/-! ## Other streams -/

/-- What a command under way has read, and what it wants to store, is of its own stream. -/
def Addressed (t : Task κ) : Stage t.A → Prop
  | .restored a => ∃ state version, a = .startingAt t.A t.tenant t.command.aggregateId state version
  | .decided p | .appended p _ => p.tenant = t.tenant ∧ p.stream = t.stream
  | _ => True

/-- A phase changes neither the rows nor the snapshot of any stream but that of its command. -/
theorem Advances.elsewhere (h : t.Advances w stage stage' w') (haddressed : t.Addressed stage) :
    t.Addressed stage' ∧ ∀ tenant stream, (t.tenant, t.stream) ≠ (tenant, stream) →
      (w'.store.tenant tenant).rows stream = (w.store.tenant tenant).rows stream ∧
      w'.vault.get? tenant stream = w.vault.get? tenant stream := by
  cases h with
  | restores _ _ _ hstill =>
    refine ⟨⟨_, _, rfl⟩, fun tenant stream _ => ?_⟩
    rw [hstill.store, hstill.vault]
    exact ⟨rfl, rfl⟩
  | decides hreplay _ _ hhanded hstill =>
    obtain ⟨state, version, rfl⟩ := haddressed
    obtain ⟨last, current, rfl⟩ := Engine.replayStream_startingAt hreplay
    obtain ⟨-, -, rfl⟩ := Engine.handed_eq_proposed hhanded rfl
    refine ⟨⟨rfl, rfl⟩, fun tenant stream _ => ?_⟩
    rw [hstill.store, hstill.vault]
    exact ⟨rfl, rfl⟩
  | appends _ happends hstill =>
    refine ⟨haddressed, fun tenant stream hne => ?_⟩
    rw [haddressed.1, haddressed.2] at happends
    exact ⟨happends.rows_of_ne hne, by rw [hstill.vault]⟩
  | skips hstill =>
    refine ⟨trivial, fun tenant stream _ => ?_⟩
    rw [hstill.store, hstill.vault]
    exact ⟨rfl, rfl⟩
  | keeps _ hstill =>
    refine ⟨trivial, fun tenant stream hne => ?_⟩
    rw [hstill.store, hstill.vault]
    refine ⟨rfl, (SnapshotVault.get?_plant ..).trans (if_neg fun heq => hne ?_)⟩
    rw [heq, haddressed.1, haddressed.2]
  | ends hover hstore hvault =>
    refine ⟨?_, fun tenant stream _ => ?_⟩
    · cases stage' with
      | answered | stopped => trivial
      | _ => cases hover
    · rw [hstore.tenant, hvault]
      exact ⟨rfl, rfl⟩

/-! ## Whole sends -/

variable [Projection κ π]

/-- Phases that no one interrupts leave the stream of their command lawful, whatever the conditions
are. -/
theorem runUnder_lawful (hupholds : t.A.Upholds t.settings.codec takes law)
    (htakes : takes t.command) (hw : w.Lawful t.A t.settings.codec law t.tenant t.stream)
    (schedule : Nat → Conditions) (phases : Nat) :
    (t.runUnder schedule phases .waiting w).2.Lawful t.A t.settings.codec law t.tenant
      t.stream := by
  have hfirst : w.Lawful t.A t.settings.codec law t.tenant t.stream ∧
    t.Grounded ((w.store.tenant t.tenant).rows t.stream) .waiting := ⟨hw, trivial⟩
  have hlast := runUnder_induction (P := fun stage w =>
    w.Lawful t.A t.settings.codec law t.tenant t.stream ∧
      t.Grounded ((w.store.tenant t.tenant).rows t.stream) stage)
    (fun c h => ⟨h.1.under c, h.2⟩) (fun hstep => hstep.lawful hupholds htakes) phases schedule
    hfirst
  exact hlast.1

theorem run_lawful (hupholds : t.A.Upholds t.settings.codec takes law) (htakes : takes t.command)
    (hw : w.Lawful t.A t.settings.codec law t.tenant t.stream) (count : Nat) :
    (t.run count .waiting w).2.Lawful t.A t.settings.codec law t.tenant t.stream := by
  rw [← runUnder_eq_run]
  exact runUnder_lawful hupholds htakes hw _ count

/-- Phases that no one interrupts leave all other streams alone, whatever the conditions are. -/
theorem runUnder_elsewhere (t : Task κ) (w : World MemoryStore κ π) {tenant : TenantId}
    {stream : StreamId} (hne : (t.tenant, t.stream) ≠ (tenant, stream))
    (schedule : Nat → Conditions) (phases : Nat) :
    ((t.runUnder schedule phases .waiting w).2.store.tenant tenant).rows stream =
        (w.store.tenant tenant).rows stream ∧
      (t.runUnder schedule phases .waiting w).2.vault.get? tenant stream =
        w.vault.get? tenant stream := by
  have hfirst : t.Addressed .waiting ∧
    (w.store.tenant tenant).rows stream = (w.store.tenant tenant).rows stream ∧
    w.vault.get? tenant stream = w.vault.get? tenant stream := ⟨trivial, rfl, rfl⟩
  have hlast := runUnder_induction (P := fun stage w' => t.Addressed stage ∧
    (w'.store.tenant tenant).rows stream = (w.store.tenant tenant).rows stream ∧
    w'.vault.get? tenant stream = w.vault.get? tenant stream) (fun _ h => h)
    (fun hstep hsame => by
      obtain ⟨haddressed, hother⟩ := hstep.elsewhere hsame.1
      obtain ⟨hrows, hkept⟩ := hother tenant stream hne
      exact ⟨haddressed, hrows.trans hsame.2.1, hkept.trans hsame.2.2⟩) phases schedule hfirst
  exact hlast.2

theorem run_elsewhere (t : Task κ) (w : World MemoryStore κ π) {tenant : TenantId}
    {stream : StreamId} (hne : (t.tenant, t.stream) ≠ (tenant, stream)) (count : Nat) :
    ((t.run count .waiting w).2.store.tenant tenant).rows stream =
        (w.store.tenant tenant).rows stream ∧
      (t.run count .waiting w).2.vault.get? tenant stream = w.vault.get? tenant stream := by
  rw [← runUnder_eq_run]
  exact t.runUnder_elsewhere w hne _ count

end Task

end Chronicle

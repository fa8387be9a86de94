import Chronicle.Proofs.Engine.Phases
import Chronicle.Proofs.Lists

/-!
# An instance that is up to date

In a dense store a read behind a version returns all rows but so many at the beginning. So an
instance that starts within its stream and goes through the rows behind ends at the version of the
stream (`current_of_replayStream`), whatever its state is.

`AggregateType.stateOf?` is the state that some rows mean, read without snapshots and without
instances. Where the rows of a stream mean a state, and the instance starts from what the rows
before it mean, bringing it up to date succeeds and ends at that state (`replayStream_of_states`).
-/

namespace Chronicle

/-! ## Rows behind a version -/

namespace Engine

theorem rowsBehind_eq_drop {s : MemoryStore} {tenant : TenantId} (h : (s.tenant tenant).Dense)
    (stream : StreamId) (version : Version) :
    rowsBehind s tenant stream version =
      ((s.tenant tenant).rows stream).drop version.toNat := by
  have hcontains : ∀ row : RecordedEvent, (VersionRange.above version).contains row.version =
      Decidable.decide (version.toNat < row.version.toNat) := fun row => by
    simp [VersionRange.contains, VersionRange.above, UpperBound.admits, Version.lt_iff_toNat_lt]
  simp only [rowsBehind, hcontains]
  exact filter_lt_eq_drop version.toNat (h.versions stream)

/-- A read of the rows behind a version within the stream counts on from that version, and its
last event is at the version of the stream. -/
theorem versions_behind {A : AggregateType} {codec : Codec} {s : MemoryStore} {tenant : TenantId}
    {stream : StreamId} {version : Version} {envelopes : List (EventEnvelope A.Id A.Event)}
    (hdense : (s.tenant tenant).Dense)
    (hle : version.toNat ≤ ((s.tenant tenant).rows stream).length)
    (hread : (rowsBehind s tenant stream version).mapM
      (fun row => (EventEnvelope.ofRecorded row codec).mapError StoreError.translation) =
        .ok envelopes) :
    envelopes.map (fun e => e.version.toNat) =
        List.range' (version.toNat + 1) envelopes.length ∧
      Aggregate.behind version envelopes = s.version tenant stream := by
  rw [rowsBehind_eq_drop hdense] at hread
  have hrows := forall₂_of_mapM hread
  have hlen := hrows.length_eq
  have hversion : ∀ {row : RecordedEvent} {e : EventEnvelope A.Id A.Event},
      (EventEnvelope.ofRecorded row codec).mapError StoreError.translation = .ok e →
        e.version.toNat = row.version.toNat := by
    intro row e h
    cases hrecorded : EventEnvelope.ofRecorded (ι := A.Id) (ε := A.Event) row codec with
    | error error => rw [hrecorded] at h; cases h
    | ok found =>
      rw [hrecorded] at h
      obtain rfl := Except.ok.inj h
      obtain ⟨id, -, hrecorded⟩ := bind_eq_ok.mp hrecorded
      obtain ⟨payload, -, hrecorded⟩ := bind_eq_ok.mp hrecorded
      split at hrecorded
      · obtain rfl := Except.ok.inj hrecorded
        rfl
      · cases hrecorded
  have hversions : envelopes.map (fun e => e.version.toNat) =
      List.range' (version.toNat + 1) envelopes.length := by
    rw [map_eq_of_forall₂ hrows hversion, List.map_drop, hdense.versions stream, ← hlen,
      List.drop_range', List.length_drop]
    congr 1
    omega
  refine ⟨hversions, Version.toNat_inj.mp ?_⟩
  rw [Aggregate.toNat_behind hversions, ← hlen, List.length_drop]
  have := hdense.toNat_version stream
  unfold MemoryStore.version
  omega

/-- An instance that starts within its stream is ready at the version of the stream. -/
theorem current_of_replayStream {settings : Settings} {A : AggregateType} {s : MemoryStore}
    {tenant : TenantId} {id : A.Id} {state : A.State} {version : Version} {b : Aggregate A}
    (hdense : (s.tenant tenant).Dense)
    (hle : version.toNat ≤ ((s.tenant tenant).rows (A.stream id)).length)
    (h : replayStream settings (.startingAt A tenant id state version) s = .ok (.ok b)) :
    b.current = s.version tenant (A.stream id) := by
  obtain ⟨envelopes, last, -, hread, -, rfl⟩ := replayStream_eq_ok h
  exact (versions_behind hdense hle hread).2

end Engine

/-! ## Rows that hold events -/

namespace Engine

/-- A row holds an event that a command applied. -/
structure Holds (codec : Codec) (A : AggregateType) (command : CommandEnvelope A.Id A.Command)
    (event : A.Event) (row : RecordedEvent) : Prop where
  stream : row.stream = A.stream command.aggregateId
  kind : row.event.kind = EventKind.kind event
  data : codec.encode event = .ok row.event.data
  metadata : row.event.metadata =
    ⟨A.tag, InstanceId.toText command.aggregateId, command.tenant, row.event.metadata.eventId,
      command.commandId, command.sequenceId, command.principal, command.timestamp⟩

theorem holds_of_stamped {codec : Codec} {A : AggregateType} {a : Aggregate A}
    {command : CommandEnvelope A.Id A.Command} {version : Version} {events : List A.Event}
    {envelopes : List (EventEnvelope A.Id A.Event)} (hid : a.id = command.aggregateId)
    (htenant : a.tenant = command.tenant) (h : a.Stamped command version events envelopes) :
    ∀ {rows : List RecordedEvent},
      envelopes.mapM (fun e => e.serialize codec A.tag) = .ok (rows.map RecordedEvent.event) →
      (∀ row ∈ rows, row.stream = A.stream command.aggregateId) →
      List.Forall₂ (Holds codec A command) events rows := by
  induction h with
  | nil =>
    intro rows hrows _
    obtain rfl := List.map_eq_nil_iff.mp (Except.ok.inj hrows).symm
    exact .nil
  | @cons version following event events envelopes eventId hv _ ih =>
    intro rows hrows hown
    rw [List.mapM_cons] at hrows
    obtain ⟨first, hfirst, hrows⟩ := bind_eq_ok.mp hrows
    obtain ⟨rest, hrest, hrows⟩ := bind_eq_ok.mp hrows
    obtain ⟨row, rows, rfl, rfl, rfl⟩ := List.map_eq_cons_iff.mp (Except.ok.inj hrows).symm
    refine .cons ?_ (ih hrest fun row hrow => hown row (List.mem_cons_of_mem _ hrow))
    unfold EventEnvelope.serialize at hfirst
    cases hdata : codec.encode (a.stamp command event eventId following).payload with
    | error error => rw [hdata] at hfirst; cases hfirst
    | ok data =>
      rw [hdata] at hfirst
      have hevent := (Except.ok.inj hfirst).symm
      refine ⟨hown row (List.mem_cons_self ..), by rw [hevent]; rfl, by rw [hevent]; exact hdata,
        ?_⟩
      rw [hevent, ← hid, ← htenant]
      rfl

end Engine

/-! ## The state that rows mean -/

namespace AggregateType

variable {A : AggregateType} {codec : Codec}

/-- The event that a row holds, if the row can be read. -/
def read? (A : AggregateType) (codec : Codec) (row : RecordedEvent) : Option A.Event :=
  (EventEnvelope.ofRecorded (ι := A.Id) (ε := A.Event) row codec).toOption.map
    EventEnvelope.payload

/-- The state that rows mean: the left fold of the transitions over their events. -/
def stateOf? (A : AggregateType) (codec : Codec) (rows : List RecordedEvent) : Option A.State :=
  (rows.mapM (A.read? codec)).bind A.fold?

/-- What rows mean is what the last of them make of what the first mean. -/
theorem stateOf?_append_eq_some {before after : List RecordedEvent} {last : A.State} :
    A.stateOf? codec (before ++ after) = some last ↔
      ∃ state events, A.stateOf? codec before = some state ∧
        after.mapM (A.read? codec) = some events ∧
        events.foldlM A.mutator.next? state = some last := by
  simp only [stateOf?, List.mapM_append, Option.bind_eq_bind, Option.bind_eq_some_iff,
    Option.pure_def, Option.some.injEq]
  constructor
  · rintro ⟨all, ⟨first, hfirst, rest, hrest, rfl⟩, hfold⟩
    rw [fold?_append] at hfold
    obtain ⟨state, hstate, hlast⟩ := Option.bind_eq_some_iff.mp hfold
    exact ⟨state, rest, ⟨first, hfirst, hstate⟩, hrest, hlast⟩
  · rintro ⟨state, rest, ⟨first, hfirst, hstate⟩, hrest, hlast⟩
    refine ⟨first ++ rest, ⟨first, hfirst, rest, hrest, rfl⟩, ?_⟩
    rw [fold?_append, hstate]
    exact hlast

/-- Rows that can be read can be read into envelopes, with their payloads. -/
theorem envelopes_of_read {rows : List RecordedEvent} :
    ∀ {events : List A.Event}, rows.mapM (A.read? codec) = some events →
      ∃ envelopes : List (EventEnvelope A.Id A.Event),
        rows.mapM (fun row =>
          (EventEnvelope.ofRecorded row codec).mapError StoreError.translation) = .ok envelopes ∧
        envelopes.map EventEnvelope.payload = events := by
  induction rows with
  | nil =>
    intro events h
    obtain rfl := Option.some.inj h
    exact ⟨[], rfl, rfl⟩
  | cons row rows ih =>
    intro events h
    rw [List.mapM_cons] at h
    obtain ⟨event, hevent, h⟩ := Option.bind_eq_some_iff.mp h
    obtain ⟨rest, hrest, h⟩ := Option.bind_eq_some_iff.mp h
    obtain rfl := Option.some.inj h
    obtain ⟨envelopes, hread, hpayloads⟩ := ih hrest
    unfold read? at hevent
    cases hrow : EventEnvelope.ofRecorded (ι := A.Id) (ε := A.Event) row codec with
    | error error => rw [hrow] at hevent; cases hevent
    | ok envelope =>
      rw [hrow] at hevent
      obtain rfl := Option.some.inj hevent
      refine ⟨envelope :: envelopes, ?_, by rw [List.map_cons, hpayloads]⟩
      rw [List.mapM_cons, hrow, hread]
      rfl

/-- Rows that are read into envelopes are read as their payloads. -/
theorem read_of_envelopes {rows : List RecordedEvent} :
    ∀ {envelopes : List (EventEnvelope A.Id A.Event)},
      rows.mapM (fun row =>
        (EventEnvelope.ofRecorded row codec).mapError StoreError.translation) = .ok envelopes →
      rows.mapM (A.read? codec) = some (envelopes.map EventEnvelope.payload) := by
  induction rows with
  | nil =>
    intro envelopes h
    obtain rfl := Except.ok.inj h
    rfl
  | cons row rows ih =>
    intro envelopes h
    rw [List.mapM_cons] at h
    obtain ⟨first, hfirst, h⟩ := bind_eq_ok.mp h
    obtain ⟨rest, hrest, h⟩ := bind_eq_ok.mp h
    obtain rfl := Except.ok.inj h
    have hread : A.read? codec row = some first.payload := by
      unfold read?
      cases hrow : EventEnvelope.ofRecorded (ι := A.Id) (ε := A.Event) row codec with
      | error error => rw [hrow] at hfirst; cases hfirst
      | ok envelope =>
        rw [hrow] at hfirst
        obtain rfl := Except.ok.inj hfirst
        rfl
    rw [List.mapM_cons, hread, ih hrest]
    rfl

end AggregateType

/-! ## Bringing an instance up to date -/

namespace Engine

/-- An instance that starts from what the rows before it mean is brought to what all rows of its
stream mean, and expects the version of the stream. -/
theorem replayStream_of_states {settings : Settings} {A : AggregateType} {s : MemoryStore}
    {tenant : TenantId} {id : A.Id} {state last : A.State} {version : Version}
    (havailable : s.available = true) (hdense : (s.tenant tenant).Dense)
    (hle : version.toNat ≤ ((s.tenant tenant).rows (A.stream id)).length)
    (hstate : A.stateOf? settings.codec
      (((s.tenant tenant).rows (A.stream id)).take version.toNat) = some state)
    (hlast : A.stateOf? settings.codec ((s.tenant tenant).rows (A.stream id)) = some last) :
    replayStream settings (.startingAt A tenant id state version) s =
      .ok (.ok (Aggregate.startingAt A tenant id last (s.version tenant (A.stream id))).markReady)
    := by
  -- what all rows mean is what those behind the version make of the state that comes before
  rw [← List.take_append_drop version.toNat ((s.tenant tenant).rows (A.stream id)),
    AggregateType.stateOf?_append_eq_some] at hlast
  obtain ⟨state', events, hstate', hevents, hfold⟩ := hlast
  obtain rfl := Option.some.inj (hstate.symm.trans hstate')
  obtain ⟨envelopes, hread, rfl⟩ := AggregateType.envelopes_of_read hevents
  rw [← rowsBehind_eq_drop hdense] at hread
  obtain ⟨hversions, hbehind⟩ := versions_behind hdense hle hread
  have hreplay : (Aggregate.startingAt A tenant id state version).replayAll envelopes =
      .ok (.ok ((Aggregate.startingAt A tenant id state version).through last envelopes)) :=
    Aggregate.replayAll_of_fold rfl hversions hfold
  have hload : ∃ typed, EventStore.loadEnvelopes A.Id A.Event s settings.codec tenant
      (A.stream id) (.above version) = .ok typed ∧ typed.envelopes = envelopes := by
    have hstream : s.loadStream tenant (A.stream id) (.above version) =
        .ok ((s.tenant tenant).loadStream (A.stream id) (.above version)) :=
      MemoryStore.loadStream_eq_ok_iff.mpr ⟨havailable, rfl⟩
    refine ⟨_, bind_eq_ok.mpr ⟨_, hstream, bind_eq_ok.mpr ⟨envelopes, hread, rfl⟩⟩, rfl⟩
  obtain ⟨typed, hload, rfl⟩ := hload
  have hend : (Aggregate.startingAt A tenant id state version).through last typed.envelopes =
      .startingAt A tenant id last (s.version tenant (A.stream id)) := by
    rw [← hbehind]
    rfl
  unfold replayStream
  have hloads : EventStore.loadEnvelopes A.Id A.Event s settings.codec
      (Aggregate.startingAt A tenant id state version).tenant
      (Aggregate.startingAt A tenant id state version).stream
      (.above (Aggregate.startingAt A tenant id state version).current) = .ok typed := hload
  rw [hloads]
  show (Aggregate.replayAll _ typed.envelopes >>= _) = _
  rw [hreplay, hend]
  rfl

end Engine

end Chronicle

import Chronicle.Proofs.Engine.Damaged
import Chronicle.Proofs.Engine.Governed
import Chronicle.Proofs.Engine.Replay

/-!
# Streams that one codec wrote

Where nothing but commands of one type writes a stream, and all of them are sent with one codec,
each of its rows holds the bytes of an event in that codec, and a snapshot of it those of a state
(`World.Encoded`). One phase of a command keeps this true (`Task.Advances.encoded`), and so do
histories of whole commands and the interleaved phases of many (`World.Written.encoded`).

A loader with a codec that reads nothing of these bytes comes through no row of the stream and
starts from no snapshot, so it fails at the first row (`Engine.load_of_unreadable`).
-/

namespace Chronicle

/-! ## Rows and snapshots -/

/-- A row holds the bytes of an event in some codec, and an id that can be read. -/
structure AggregateType.Encoded (A : AggregateType) (codec : Codec) (row : RecordedEvent) :
    Prop where
  id : ∃ id : A.Id, parseId row.event.metadata.aggregateId = .ok id
  payload : ∃ event : A.Event, codec.encode event = .ok row.event.data

theorem AggregateType.encoded_of_serialize {A : AggregateType} {codec : Codec}
    (hid : ∀ id : A.Id, InstanceId.ofText (InstanceId.toText id) = .ok id)
    {envelope : EventEnvelope A.Id A.Event} {tag : TypeTag} {row : RecordedEvent}
    (h : envelope.serialize codec tag = .ok row.event) : A.Encoded codec row := by
  obtain ⟨data, hdata, hrow⟩ := map_eq_ok.mp h
  have hevent := hrow.symm
  refine ⟨⟨envelope.aggregateId, ?_⟩, envelope.payload, by rw [hevent]; exact hdata⟩
  rw [hevent]
  show parseId (InstanceId.toText envelope.aggregateId) = _
  unfold parseId
  rw [hid]
  rfl

/-- The rows that an append of envelopes adds hold their events. -/
theorem MemoryStore.Appends.encoded {A : AggregateType} {codec : Codec} {s s' : MemoryStore}
    {tenant : TenantId} {stream : StreamId} {expected version : Version} {tag : TypeTag}
    {envelopes : List (EventEnvelope A.Id A.Event)} {events : List SerializedEvent}
    (h : s.Appends tenant stream expected events (.ok version) s')
    (hid : ∀ id : A.Id, InstanceId.ofText (InstanceId.toText id) = .ok id)
    (hevents : envelopes.mapM (fun e => e.serialize codec tag) = .ok events)
    (hrows : ∀ row ∈ (s.tenant tenant).rows stream, A.Encoded codec row) :
    ∀ row ∈ (s'.tenant tenant).rows stream, A.Encoded codec row := by
  cases h with
  | stored rows _ _ _ hnumber =>
    intro row hrow
    rw [tenant_set, if_pos rfl, TenantLog.rows_extend, if_pos rfl] at hrow
    rcases List.mem_append.mp hrow with hrow | hrow
    · exact hrows row hrow
    · have hmem : row.event ∈ events := by
        rw [← (TenantLog.number_eq_ok hnumber).content]
        exact List.mem_map_of_mem hrow
      obtain ⟨place, hlt, hplace⟩ := List.mem_iff_getElem.mp hmem
      have hall := forall₂_of_mapM hevents
      have hserialize := hall.get (hall.length_eq ▸ hlt) hlt
      rw [List.get_eq_getElem, List.get_eq_getElem, hplace] at hserialize
      exact AggregateType.encoded_of_serialize hid hserialize

namespace World

variable {κ π : Type} {A : AggregateType} {codec : Codec} {tenant : TenantId} {stream : StreamId}

/-- The rows of a stream hold events in one codec, and a snapshot of it holds a state. -/
structure Encoded (w : World MemoryStore κ π) (A : AggregateType) (codec : Codec)
    (tenant : TenantId) (stream : StreamId) : Prop where
  dense : w.store.Dense
  rows : ∀ row ∈ (w.store.tenant tenant).rows stream, A.Encoded codec row
  kept : ∀ stored, w.vault.get? tenant stream = some stored →
    ∃ state : A.State, codec.encode state = .ok stored.data

theorem Encoded.of_same {w w' : World MemoryStore κ π} (h : w.Encoded A codec tenant stream)
    (hdense : w'.store.Dense)
    (hrows : (w'.store.tenant tenant).rows stream = (w.store.tenant tenant).rows stream)
    (hkept : w'.vault.get? tenant stream = w.vault.get? tenant stream) :
    w'.Encoded A codec tenant stream where
  dense := hdense
  rows := by
    rw [hrows]
    exact h.rows
  kept := by
    rw [hkept]
    exact h.kept

theorem Fresh.encoded {w : World MemoryStore κ π} (h : w.Fresh) :
    w.Encoded A codec tenant stream where
  dense := h.dense
  rows := by
    rw [h.tenant]
    exact nofun
  kept := by
    rw [h.get?]
    exact nofun

end World

/-! ## One phase -/

namespace Task

variable {κ π : Type} {t : Task κ} {stage stage' : Stage t.A} {w w' : World MemoryStore κ π}
  {A : AggregateType} {codec : Codec} {tenant : TenantId} {stream : StreamId}

/-- A phase of a command writes its own stream with the codec of the command. -/
theorem Advances.encoded_own
    (hid : ∀ id : t.A.Id, InstanceId.ofText (InstanceId.toText id) = .ok id)
    (h : t.Advances w stage stage' w') (haddressed : t.Addressed stage)
    (hw : w.Encoded t.A t.settings.codec t.tenant t.stream) :
    w'.Encoded t.A t.settings.codec t.tenant t.stream := by
  have hdense := h.dense hw.dense
  cases h with
  | restores _ _ _ hstill | decides _ _ _ _ hstill | skips hstill =>
    exact hw.of_same hdense (by rw [hstill.store]) (by rw [hstill.vault])
  | appends hevents happends hstill =>
    rw [haddressed.1, haddressed.2] at happends
    refine ⟨hdense, happends.encoded hid hevents hw.rows, ?_⟩
    rw [hstill.vault]
    exact hw.kept
  | @keeps p _ _ _ hencode hstill =>
    refine ⟨hdense, ?_, fun stored hget => ?_⟩
    · rw [hstill.store]
      exact hw.rows
    · rw [hstill.vault] at hget
      replace hget := (SnapshotVault.get?_plant ..).symm.trans hget
      split at hget
      · obtain rfl := Option.some.inj hget
        exact ⟨p.state, hencode⟩
      · exact hw.kept stored hget
  | ends _ hstore hvault => exact hw.of_same hdense (by rw [hstore.tenant]) (by rw [hvault])

/-- A phase leaves a stream encoded, if a command that writes it is of the type and sent with the
codec. -/
theorem Advances.encoded (hid : ∀ id : A.Id, InstanceId.ofText (InstanceId.toText id) = .ok id)
    (hown : (t.tenant, t.stream) = (tenant, stream) → t.A = A ∧ t.settings.codec = codec)
    (h : t.Advances w stage stage' w') (haddressed : t.Addressed stage)
    (hw : w.Encoded A codec tenant stream) : w'.Encoded A codec tenant stream := by
  by_cases hsame : (t.tenant, t.stream) = (tenant, stream)
  · obtain ⟨rfl, rfl⟩ := hown hsame
    obtain ⟨rfl, rfl⟩ := Prod.mk.inj hsame
    exact h.encoded_own hid haddressed hw
  · obtain ⟨hrows, hkept⟩ := (h.elsewhere haddressed).2 tenant stream hsame
    exact hw.of_same (h.dense hw.dense) hrows hkept

end Task

/-! ## Histories and interleaved phases -/

section Clients

variable {κ π : Type} {A : AggregateType} {codec : Codec} {tenant : TenantId} {stream : StreamId}

/-- All commands that write the stream are of the type and sent with the codec. -/
def Task.Spares (A : AggregateType) (codec : Codec) (tenant : TenantId) (stream : StreamId)
    (t : Task κ) : Prop :=
  (t.tenant, t.stream) = (tenant, stream) → t.A = A ∧ t.settings.codec = codec

namespace System

/-- A stream is encoded, and so it stays whatever its clients do next. -/
structure Encoded (s : System κ π) (A : AggregateType) (codec : Codec) (tenant : TenantId)
    (stream : StreamId) : Prop where
  world : s.world.Encoded A codec tenant stream
  addressed : ∀ c ∈ s.clients, c.task.Addressed c.stage
  spares : ∀ c ∈ s.clients, c.task.Spares A codec tenant stream

theorem encoded_first {w : World MemoryStore κ π} (hfresh : w.Fresh) {tasks : List (Task κ)}
    (hspares : ∀ t ∈ tasks, t.Spares A codec tenant stream) :
    (first w tasks).Encoded A codec tenant stream where
  world := hfresh.encoded
  addressed c hc := by
    obtain ⟨t, -, rfl⟩ := List.mem_map.mp hc
    trivial
  spares c hc := by
    obtain ⟨t, ht, rfl⟩ := List.mem_map.mp hc
    exact hspares t ht

theorem Encoded.moves (hid : ∀ id : A.Id, InstanceId.ofText (InstanceId.toText id) = .ok id)
    {s s' : System κ π} (h : s.Encoded A codec tenant stream) (hmove : s.Moves s') :
    s'.Encoded A codec tenant stream := by
  cases hmove with
  | rests => exact h
  | @advances _ t stage _ _ hclient hstep =>
    have haddressed := h.addressed _ hclient
    have hspares := h.spares _ hclient
    refine ⟨hstep.encoded hid hspares haddressed h.world, fun c hmem => ?_, fun c hmem => ?_⟩
    · rcases List.mem_or_eq_of_mem_set hmem with hold | rfl
      · exact h.addressed c hold
      · exact (hstep.elsewhere haddressed).1
    · rcases List.mem_or_eq_of_mem_set hmem with hold | rfl
      · exact h.spares c hold
      · exact hspares
  | changes hstore hkept =>
    exact ⟨h.world.of_same (hstore ▸ h.world.dense) (by rw [hstore])
      (hkept ..), h.addressed, h.spares⟩

end System

end Clients

section Runs

variable {κ π : Type} [Projection κ π] {A : AggregateType} {codec : Codec} {tenant : TenantId}
  {stream : StreamId}

theorem World.after_encoded (hid : ∀ id : A.Id, InstanceId.ofText (InstanceId.toText id) = .ok id)
    (w : World MemoryStore κ π) (h : Happening κ π) (hspares : h.Spares A codec tenant stream)
    (hw : w.Encoded A codec tenant stream) : (w.after h).Encoded A codec tenant stream := by
  have hdense := w.after_dense h hw.dense
  cases h with
  | sent t =>
    rw [after_sent]
    have hfirst : t.Addressed .waiting ∧ w.Encoded A codec tenant stream := ⟨trivial, hw⟩
    have hlast := Task.run_induction (t := t)
      (P := fun stage w => t.Addressed stage ∧ w.Encoded A codec tenant stream)
      (fun hstep hw => ⟨(hstep.elsewhere hw.1).1, hstep.encoded hid hspares hw.1 hw.2⟩) 5 hfirst
    exact hlast.2
  | called | started | clocked | refusing | rewired | planted =>
    obtain ⟨hrows, hkept⟩ := after_unsent hspares.heeds fun _ heq => by cases heq
    exact hw.of_same hdense hrows hkept

/-- Worlds that engines lead to, where nothing but commands of one type, sent with one codec, writes
a stream and its snapshot: behind a history of whole commands, and between the phases of commands
that run at the same time. -/
inductive World.Written (A : AggregateType) (codec : Codec) (tenant : TenantId)
    (stream : StreamId) : World MemoryStore κ π → Prop
  | history {first : World MemoryStore κ π} {history : List (Happening κ π)}
      (hfresh : first.Fresh) (hspares : ∀ h ∈ history, h.Spares A codec tenant stream) :
      Written A codec tenant stream (first.afterAll history)
  | moves {first : World MemoryStore κ π} {tasks : List (Task κ)} {moves : List Move}
      (hfresh : first.Fresh) (hspares : ∀ t ∈ tasks, t.Spares A codec tenant stream) :
      Written A codec tenant stream ((System.first first tasks).moveAll moves).world

theorem World.Written.encoded
    (hid : ∀ id : A.Id, InstanceId.ofText (InstanceId.toText id) = .ok id)
    {w : World MemoryStore κ π} (h : w.Written A codec tenant stream) :
    w.Encoded A codec tenant stream := by
  cases h with
  | @history _ history hfresh hspares =>
    exact afterAll_induction (after_encoded hid) hfresh.encoded history hspares
  | @moves _ _ moves hfresh hspares =>
    have hlast := System.moveAll_induction (P := (System.Encoded · A codec tenant stream))
      (fun hmove h => h.moves hid hmove) (System.encoded_first hfresh hspares) moves
    exact hlast.world

end Runs

/-! ## Loading with a codec that reads nothing -/

/-- Where no row and no snapshot of a stream can be read, nothing is loaded of it: not even one row
is come through. -/
theorem Engine.load_of_unreadable {κ π : Type} {settings : Settings} {A : AggregateType}
    {tenant : TenantId} {id : A.Id} {w : World MemoryStore κ π} {error : CodecError}
    (hbound : A.boundMutator = .ok A.mutator) (hdense : (w.store.tenant tenant).Dense)
    (hrows : ∀ row ∈ (w.store.tenant tenant).rows (A.stream id), A.Damaged settings.codec row error)
    (hsome : (w.store.tenant tenant).rows (A.stream id) ≠ [])
    (hkept : ∀ stored, w.vault.get? tenant (A.stream id) = some stored →
      ∀ state : A.State, settings.codec.decode stored.data ≠ .ok state) (useSnapshot : Bool) :
    ∃ w', load settings A tenant id useSnapshot w = .ok (.error (.store
      (if w.store.available then .translation (.payload error) else .unavailable)), w') := by
  rcases restoreSnapshot_cases settings A tenant id useSnapshot w with
    ⟨error, hunbound, -⟩ | ⟨start, version, w', -, hrestore, horigin, hstill⟩
  · cases hbound.symm.trans hunbound
  cases horigin with
  | kept stored hget _ hdecode => exact absurd hdecode (hkept stored hget start)
  | blank => -- the instance starts in front of all rows
    cases havailable : w.store.available with
    | false =>
      refine ⟨w', ?_⟩
      rw [load, hrestore]
      show (replayStream settings _ w'.store >>= _) = _
      rw [replayStream_of_unavailable (by rw [hstill.store, havailable])]
      rfl
    | true =>
      obtain ⟨row, rest, hfirst⟩ := List.exists_cons_of_ne_nil hsome
      have hread : rowsBehind w'.store tenant (A.stream id) .notCreated = row :: rest := by
        rw [hstill.store, rowsBehind_eq_drop hdense, hfirst]
        rfl
      have hstream : EventStore.loadStream w'.store tenant (A.stream id) (.above .notCreated) =
          .ok ((w'.store.tenant tenant).loadStream (A.stream id) (.above .notCreated)) :=
        MemoryStore.loadStream_eq_ok_iff.mpr ⟨hstill.store ▸ havailable, rfl⟩
      have hrow : GoesThrough settings A tenant id useSnapshot w [] row :=
        .intro hrestore hstream hread
      obtain ⟨failure, w'', hload, hstops⟩ :=
        load_of_damaged (hrows row (hfirst ▸ List.mem_cons_self)) hrow
      obtain rfl := hstops ⟨[], rfl⟩
      exact ⟨w'', hload⟩

end Chronicle

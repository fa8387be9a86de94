import Chronicle.Proofs.Engine.Laws
import Chronicle.Proofs.Sample.Sequence

/-!
# Loading is replaying

The state of an instance is what all events of its stream mean, whether a snapshot is used or not,
whatever the snapshot policies are and whatever is refused in between. `load_is_replay` says so for
the worlds behind any history in which the stream is written by commands of one type only
(`Happening.Spares`); what happens to other streams does not matter.

The snapshot may be any that the engine ever kept of the stream in that history, for an old one is
only further behind.
-/

namespace Chronicle

/-- Nothing but commands of one type, sent with one codec, writes the stream or its snapshot. -/
def Happening.Spares {κ π : Type} (A : AggregateType) (codec : Codec) (tenant : TenantId)
    (stream : StreamId) : Happening κ π → Prop
  | .sent t => (t.tenant, t.stream) = (tenant, stream) → t.A = A ∧ t.settings.codec = codec
  | .called (.append other written _ _) => (other, written) ≠ (tenant, stream)
  | .planted other snapshot => (other, snapshot.stream) ≠ (tenant, stream)
  | _ => True

/-- A stream that is spared is written by commands of the type only. -/
theorem Happening.Spares.heeds {κ π : Type} {A : AggregateType} {codec : Codec}
    {tenant : TenantId} {stream : StreamId} {h : Happening κ π}
    (hspares : h.Spares A codec tenant stream) :
    h.Heeds A codec (fun _ => True) tenant stream := by
  cases h with
  | sent t =>
    intro hown
    obtain ⟨rfl, hcodec⟩ := hspares hown
    exact .of hcodec trivial
  | called call =>
    cases call with
    | append => exact hspares
    | _ => trivial
  | planted => exact hspares
  | started | clocked | refusing | rewired => trivial

namespace World

variable {κ π : Type} {A : AggregateType} {codec : Codec} {tenant : TenantId} {stream : StreamId}

variable [Projection κ π]

/-- Whatever happens, a stream that is spared stays sound. -/
theorem after_sound (hlossless : A.Lossless codec) (w : World MemoryStore κ π) (h : Happening κ π)
    (hspares : h.Spares A codec tenant stream) (hw : w.Sound A codec tenant stream) :
    (w.after h).Sound A codec tenant stream :=
  (after_lawful hlossless.upholds w h hspares.heeds hw.lawful).toSound

end World

namespace Engine

variable {κ π : Type} {A : AggregateType}

/-- Where a stream is sound, its instances are loaded at what its rows mean. -/
theorem load_of_sound {settings : Settings} {w : World MemoryStore κ π} {tenant : TenantId}
    {id : A.Id} {state : A.State} (hbound : A.boundMutator = .ok A.mutator)
    (hw : w.Sound A settings.codec tenant (A.stream id)) (havailable : w.store.available = true)
    (hstate : A.stateOf? settings.codec ((w.store.tenant tenant).rows (A.stream id)) = some state)
    (useSnapshot : Bool) :
    ∃ a w', load settings A tenant id useSnapshot w = .ok (.ok a, w') ∧ a.state = state ∧
      a.expected = w.store.version tenant (A.stream id) := by
  rcases restoreSnapshot_cases settings A tenant id useSnapshot w with
    ⟨error, hunbound, -⟩ | ⟨start, version, w', -, hrestore, horigin, hstill⟩
  · cases hbound.symm.trans hunbound
  obtain ⟨hle, hstart⟩ := horigin.means hw.kept
  have hreplay := replayStream_of_states havailable (hw.dense tenant) hle hstart hstate
  refine ⟨(Aggregate.startingAt A tenant id state (w.store.version tenant (A.stream id))).markReady,
    w', ?_, rfl, rfl⟩
  unfold load
  rw [hrestore]
  show (replayStream settings _ w'.store >>= _) = _
  rw [hstill.store, hreplay]
  rfl

theorem getState_of_sound {settings : Settings} {w : World MemoryStore κ π} {tenant : TenantId}
    {id : A.Id} {state : A.State} (hbound : A.boundMutator = .ok A.mutator)
    (hw : w.Sound A settings.codec tenant (A.stream id)) (hstarted : w.started = true)
    (havailable : w.store.available = true)
    (hstate : A.stateOf? settings.codec ((w.store.tenant tenant).rows (A.stream id)) = some state) :
    ∃ w', getState settings A tenant id w = .ok (.ok state, w') := by
  obtain ⟨a, w', hload, rfl, -⟩ :=
    load_of_sound hbound hw havailable hstate settings.usesSnapshots
  refine ⟨w', ?_⟩
  rw [getState, if_pos hstarted, hload]
  rfl

/-- What rows mean is the left fold of the transitions over what their bytes hold. -/
theorem payloads_of_stateOf? {codec : Codec} {rows : List RecordedEvent} {state : A.State}
    (h : A.stateOf? codec rows = some state) :
    ∃ payloads, rows.mapM (fun row => codec.decode? row.event.data) = some payloads ∧
      A.fold? payloads = some state := by
  obtain ⟨events, hevents, hfold⟩ := Option.bind_eq_some_iff.mp h
  refine ⟨events, ?_, hfold⟩
  clear h hfold
  induction rows generalizing events with
  | nil => exact hevents
  | cons row rows ih =>
    rw [List.mapM_cons] at hevents
    obtain ⟨event, hevent, hevents⟩ := Option.bind_eq_some_iff.mp hevents
    obtain ⟨rest, hrest, hevents⟩ := Option.bind_eq_some_iff.mp hevents
    obtain rfl := Option.some.inj hevents
    rw [List.mapM_cons, AggregateType.decode?_of_read? hevent, ih rest hrest]
    rfl

/-- **Loading is replaying.** Take a world that any history leads to in which a stream is written
by commands of one type only, and in it any snapshot of the stream that was kept at any time of the
history, or none. With and without the use of snapshots, loading an instance succeeds if the store
can be reached; its state is the left fold of the transitions over the payloads of all rows of the
stream, from the state of a new instance, and it expects the version of the stream. -/
theorem load_is_replay [Projection κ π] {settings : Settings} {tenant : TenantId} {id : A.Id}
    {first w : World MemoryStore κ π} {history : List (Happening κ π)}
    (hbound : A.boundMutator = .ok A.mutator) (hlossless : A.Lossless settings.codec)
    (hfresh : first.Fresh)
    (hspares : ∀ h ∈ history, h.Spares A settings.codec tenant (A.stream id))
    (hstore : w.store = (first.afterAll history).store) (havailable : w.store.available = true)
    (hkept : ∀ stored, w.vault.get? tenant (A.stream id) = some stored →
      ∃ before since, history = before ++ since ∧
        (first.afterAll before).vault.get? tenant (A.stream id) = some stored) :
    ∃ payloads state,
      ((w.store.tenant tenant).rows (A.stream id)).mapM
        (fun row => settings.codec.decode? row.event.data) = some payloads ∧
      A.fold? payloads = some state ∧
      ∀ useSnapshot, ∃ a w', load settings A tenant id useSnapshot w = .ok (.ok a, w') ∧
        a.state = state ∧ a.expected = w.store.version tenant (A.stream id) := by
  have hsound : ∀ events, (∀ h ∈ events, h ∈ history) →
      (first.afterAll events).Sound A settings.codec tenant (A.stream id) := fun events hmem =>
    World.afterAll_induction (World.after_sound hlossless) hfresh.sound events
      fun h hin => hspares h (hmem h hin)
  have hlast := hsound history fun _ hin => hin
  obtain ⟨state, hstate⟩ := hlast.means
  rw [← hstore] at hstate
  have hw : w.Sound A settings.codec tenant (A.stream id) := by
    refine ⟨hstore ▸ hlast.dense, ⟨state, hstate⟩, fun stored hget => ?_⟩
    -- the snapshot was faithful when it was kept, and rows are only added
    obtain ⟨before, since, rfl, hbefore⟩ := hkept stored hget
    have hearlier := hsound before fun h hin => List.mem_append_left _ hin
    have hgrows := World.afterAll_grows (first.afterAll before) since
    rw [← World.afterAll_append, ← hstore] at hgrows
    exact (hearlier.kept stored hbefore).mono (hgrows.rows tenant (A.stream id))
  obtain ⟨payloads, hpayloads, hfold⟩ := payloads_of_stateOf? hstate
  exact ⟨payloads, state, hpayloads, hfold, load_of_sound hbound hw havailable hstate⟩

open Sample in
set_option maxRecDepth 10000 in
/-- Behind the addition of 3 and 4 to a new sequence, of which a snapshot is kept, the sequence is
loaded with these numbers and their sum, with the snapshot and without. -/
theorem load_is_replay_of_addition :
    let w : World MemoryStore Carrier Inert := World.blank.after (.sent (addition [3, 4]))
    w.store.available = true ∧ ∀ useSnapshot, ∃ a w',
      load .standard sequenceType .default (7 : UInt64) useSnapshot w = .ok (.ok a, w') ∧
        a.state = ⟨[3, 4], 7⟩ ∧ a.expected = ⟨2⟩ := by
  intro w
  have hspares : ∀ h ∈ [Happening.sent (π := Inert) (addition [3, 4])],
      h.Spares sequenceType Settings.standard.codec .default
        (sequenceType.stream (7 : UInt64)) := by
    intro h hmem
    obtain rfl := List.mem_singleton.mp hmem
    exact fun _ => ⟨rfl, rfl⟩
  have hstore : w.store = (World.blank.afterAll [.sent (addition [3, 4])]).store := rfl
  have havailable : w.store.available = true := rfl
  obtain ⟨payloads, state, hpayloads, hfold, hload⟩ := load_is_replay rfl sequenceType_lossless
    World.fresh_blank hspares hstore havailable fun _ hget => ⟨[_], [], rfl, hget⟩
  have hevents : payloads = [.itemAdded 3, .itemAdded 4] := Option.some.inj hpayloads.symm
  subst hevents
  have hstate : state = ⟨[3, 4], 7⟩ := Option.some.inj hfold.symm
  subst hstate
  exact ⟨havailable, hload⟩

end Engine

end Chronicle

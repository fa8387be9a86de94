import Chronicle.Proofs.Engine.Answers
import Chronicle.Proofs.Engine.Replay
import Chronicle.Proofs.Store.Unnamed

/-!
# A command that runs alone

What a command appends depends on what the rows of its stream mean and on their number, and on
nothing else: not on the snapshot it starts from, and not on what happens between its phases. So a
proposal that a store takes is the one that the same command makes when it is sent as a whole, with
nothing in between, in any world whose store matches (`matches_of_sent`). The two may differ in the
names of the new events.
-/

namespace Chronicle

/-! ## Rows that differ in names -/

namespace AggregateType

variable {A : AggregateType} {codec : Codec}

/-- What a row is read as does not depend on the name of its event. -/
theorem read?_unnamed (row : RecordedEvent) : A.read? codec row.unnamed = A.read? codec row := by
  rw [read?, read?, EventEnvelope.ofRecorded_unnamed]
  cases EventEnvelope.ofRecorded (ι := A.Id) (ε := A.Event) row codec <;> rfl

/-- Rows that differ in the names of their events mean the same. -/
theorem stateOf?_of_unnamed_eq {rows rows' : List RecordedEvent}
    (h : rows.map RecordedEvent.unnamed = rows'.map RecordedEvent.unnamed) :
    A.stateOf? codec rows = A.stateOf? codec rows' := by
  have hread : ∀ all : List RecordedEvent,
      (all.map RecordedEvent.unnamed).mapM (A.read? codec) = all.mapM (A.read? codec) := by
    intro all
    rw [List.mapM_map]
    congr 1
    funext row
    exact read?_unnamed row
  rw [stateOf?, stateOf?, ← hread rows, ← hread rows', h]

end AggregateType

/-- Stamping the same events twice gives the same envelopes but for the names of the events. -/
theorem Aggregate.Stamped.unnamed_eq {A : AggregateType} {a : Aggregate A}
    {command : CommandEnvelope A.Id A.Command} {version : Version} {events : List A.Event}
    {envelopes envelopes' : List (EventEnvelope A.Id A.Event)}
    (h : a.Stamped command version events envelopes)
    (h' : a.Stamped command version events envelopes') :
    envelopes.map EventEnvelope.unnamed = envelopes'.map EventEnvelope.unnamed := by
  induction h generalizing envelopes' with
  | nil => cases h'; rfl
  | cons _ hv _ ih =>
    cases h' with
    | cons _ hv' h' =>
      obtain rfl := Except.ok.inj (hv.symm.trans hv')
      simp [EventEnvelope.unnamed, stamp, ← ih h']

/-! ## A command sent as a whole -/

namespace Task

variable {κ π : Type} [Projection κ π] {t : Task κ}

/-- Behind the append a task changes nothing that is stored. -/
theorem alike_of_appended (p : Engine.Proposal t.A) (version : Version)
    (w : World MemoryStore κ π) :
    w.store.Alike (t.run 2 (.appended p version) w).2.store := by
  have hsaved := Engine.saveSnapshot_store t.settings p version w
  have hpublishes := t.advance_advances (.saved p version)
    (Engine.saveSnapshot t.settings p version w)
  rw [← hsaved]
  cases hpublishes with
  | ends _ hstore => exact hstore

/-- In a world where its stream is at the same version and means the same, a command comes to the
same proposal, but for the names of the events. -/
theorem decided_of_proposes {rows : List RecordedEvent} {p : Engine.Proposal t.A}
    {base : t.A.State} {play : Play t.A.State t.A.Event} {w : World MemoryStore κ π}
    (hproposes : t.Proposes rows p base play)
    (hversion : w.store.version t.tenant t.stream = p.expected)
    (hbase : t.A.stateOf? t.settings.codec ((w.store.tenant t.tenant).rows t.stream) = some base)
    (hstarted : w.started = true) (havailable : w.store.available = true)
    (hsound : w.Sound t.A t.settings.codec t.tenant t.stream) :
    ∃ envelopes w',
      (∀ count, t.run (count + 2) .waiting w = t.run count (.decided ⟨t.tenant, t.stream,
        p.expected, envelopes, play.state, .accept true play.version⟩) w') ∧
      w'.store = w.store ∧
      (Aggregate.startingAt t.A t.tenant t.command.aggregateId base p.expected).Stamped t.command
        p.expected play.events envelopes := by
  -- wherever the instance starts, it starts within the stream
  rcases Engine.restoreSnapshot_cases t.settings t.A t.command.tenant t.command.aggregateId
    t.settings.usesSnapshots w with
    ⟨error, hunbound, -⟩ | ⟨state, start, w₁, -, hrestore, horigin, hstill₁⟩
  · cases hproposes.bound.symm.trans hunbound
  obtain ⟨hle, hstate⟩ := horigin.means hsound.kept
  -- reading the rest of the stream leads it to what all rows mean, where it decides as before
  have hreplay : Engine.replayStream t.settings
      (.startingAt t.A t.tenant t.command.aggregateId state start) w₁.store = .ok (.ok
        (Aggregate.startingAt t.A t.tenant t.command.aggregateId base p.expected).markReady) := by
    rw [hstill₁.store, ← hversion]
    exact Engine.replayStream_of_states havailable (hsound.dense t.tenant) hle hstate hbase
  obtain ⟨envelopes, w₂, hstamped, hstill₂, hdecide⟩ := Engine.decide_of_play hreplay rfl
    ((Decision.play_seed ..).trans hproposes.plays) hproposes.accepted hproposes.changes
  have hrestores : t.advance .waiting w =
      (.restored (.startingAt t.A t.tenant t.command.aggregateId state start), w₁) :=
    advance_waiting hstarted hrestore
  refine ⟨envelopes, w₂, fun count => ?_, (hstill₁.trans hstill₂).store,
    hstamped.of_same rfl rfl⟩
  rw [run_succ hrestores, run_succ (advance_restored hdecide)]
  rfl

/-- A proposal that a store takes is what the same command, sent as a whole in a world whose store
matches, appends there. -/
theorem matches_of_sent {s s₁ : MemoryStore} {p : Engine.Proposal t.A} {base : t.A.State}
    {play : Play t.A.State t.A.Event} {events : List SerializedEvent} {version : Version}
    {w : World MemoryStore κ π} (hs : s.Dense)
    (hproposes : t.Proposes ((s.tenant t.tenant).rows t.stream) p base play)
    (hevents : p.envelopes.mapM (fun e => e.serialize t.settings.codec t.A.tag) = .ok events)
    (happends : s.Appends t.tenant t.stream p.expected events (.ok version) s₁)
    (hmatches : s.Matches w.store) (hstarted : w.started = true)
    (havailable : w.store.available = true)
    (hsound : w.Sound t.A t.settings.codec t.tenant t.stream) :
    s₁.Matches (w.after (.sent t)).store := by
  have hversion : w.store.version t.tenant t.stream = p.expected := by
    rw [← hmatches.version hs hsound.dense]
    exact happends.expected_eq.1
  have hbase : t.A.stateOf? t.settings.codec ((w.store.tenant t.tenant).rows t.stream) =
      some base := by
    have hmeans := hproposes.means
    rw [← hversion, ← hmatches.version hs hsound.dense, MemoryStore.version,
      (hs t.tenant).toNat_version, List.take_length] at hmeans
    rw [← AggregateType.stateOf?_of_unnamed_eq (hmatches.rows hs hsound.dense t.tenant t.stream)]
    exact hmeans
  obtain ⟨envelopes, w', hrun, hstore, hstamped⟩ :=
    decided_of_proposes hproposes hversion hbase hstarted havailable hsound
  have hne : envelopes ≠ [] := mt hstamped.eq_nil_iff.mp hproposes.changes
  have hnames := hproposes.envelopes.unnamed_eq hstamped
  obtain ⟨events', hevents', hunnamed⟩ := serialize_of_unnamed_eq hnames hevents
  -- the stores match, so this one is at the same version and takes the events too
  obtain ⟨version', s', happend, hmatches'⟩ :=
    happends.matches hmatches hs hsound.dense havailable hunnamed
  let q : Engine.Proposal t.A :=
    ⟨t.tenant, t.stream, p.expected, envelopes, play.state, .accept true play.version⟩
  rw [← hstore] at happend
  have hstored : Engine.append t.settings q w' =
      .ok (.ok version', { w' with store := s' }.countAppend envelopes.length) := by
    rw [Engine.append_of_stamped (p := q) hstamped hne hevents', happend]
    rfl
  rw [World.after_sent, hrun 3, run_succ (advance_decided hstored)]
  exact (hmatches'.symm.of_tenant (alike_of_appended q version' _).tenant).symm

end Task

end Chronicle

import Chronicle.Proofs.Engine.Announce
import Chronicle.Proofs.Engine.Answers
import Chronicle.Proofs.Engine.Replay

/-!
# What a command comes to

Where the stream of a command is sound, what the command comes to depends on two things only: the
state that the rows of the stream mean, and their number. `Decides` has one constructor for each
end of a decision; a phase that reads the stream and handles the command is at one of these ends
(`advance_decides`), whatever snapshot the phase before it has started from
(`advance_restores`). Behind a decision to append there is only the store, which takes the events
unless a number would pass its width.
-/

namespace Chronicle

/-- The stage of a command that was handled. -/
def Stage.ofHandled {A : AggregateType} : Except EngineError (Engine.Handled A) → Stage A
  | .error error => .answered (.error error)
  | .ok (.idle result) => .answered (.ok result)
  | .ok (.proposed p) => .decided p

namespace Task

variable {κ π : Type} {t : Task κ} {w : World MemoryStore κ π} {state : t.A.State}
  {version : Version}

/-- The stage at which a command is that was decided at a state and a version. -/
inductive Decides (t : Task κ) (state : t.A.State) (version : Version) : Stage t.A → Prop
  | stops {fault : Fault}
      (hplay : (t.A.handle t.command state).play t.A.mutator state version = .error fault) :
      Decides t state version (.stopped fault)
  | abandons {play : Play t.A.State t.A.Event} {error : AggregateError}
      (hplay : (t.A.handle t.command state).play t.A.mutator state version = .ok play)
      (hverdict : play.verdict = .abandoned error) :
      Decides t state version (.answered (.error (.aggregate error)))
  | rejects {play : Play t.A.State t.A.Event} {reason : String}
      (hplay : (t.A.handle t.command state).play t.A.mutator state version = .ok play)
      (hverdict : play.verdict = .rejected reason) :
      Decides t state version (.answered (.ok (.reject reason version)))
  | rests {play : Play t.A.State t.A.Event}
      (hplay : (t.A.handle t.command state).play t.A.mutator state version = .ok play)
      (hverdict : play.verdict = .accepted) (hevents : play.events = []) :
      Decides t state version (.answered (.ok (.accept false version)))
  | proposes {play : Play t.A.State t.A.Event}
      {envelopes : List (EventEnvelope t.A.Id t.A.Event)}
      (hplay : (t.A.handle t.command state).play t.A.mutator state version = .ok play)
      (hverdict : play.verdict = .accepted) (hevents : play.events ≠ [])
      (hstamped : (Aggregate.startingAt t.A t.tenant t.command.aggregateId state version).Stamped
        t.command version play.events envelopes) :
      Decides t state version (.decided ⟨t.tenant, t.stream, version, envelopes, play.state,
        .accept true play.version⟩)

theorem Decides.eq_stopped {stage : Stage t.A} {fault : Fault} (h : t.Decides state version stage)
    (hplay : (t.A.handle t.command state).play t.A.mutator state version = .error fault) :
    stage = .stopped fault := by
  cases h with
  | stops hfound => rw [Except.error.inj (hfound.symm.trans hplay)]
  | abandons hfound | rejects hfound | rests hfound | proposes hfound =>
    cases hfound.symm.trans hplay

/-- What is handed on of a play, by its verdict. -/
theorem handed_decides {play : Play t.A.State t.A.Event}
    {envelopes : List (EventEnvelope t.A.Id t.A.Event)}
    (hplay : (t.A.handle t.command state).play t.A.mutator state version = .ok play)
    (hstamped : (Aggregate.startingAt t.A t.tenant t.command.aggregateId state version).Stamped
      t.command version play.events envelopes) :
    t.Decides state version (.ofHandled (Engine.handed (Aggregate.startingAt t.A t.tenant
      t.command.aggregateId state version).markReady play envelopes)) := by
  cases hverdict : play.verdict with
  | rejected reason =>
    simp only [Engine.handed, Aggregate.conclude, hverdict]
    exact .rejects hplay hverdict
  | abandoned error =>
    simp only [Engine.handed, Aggregate.conclude, hverdict]
    exact .abandons hplay hverdict
  | accepted =>
    simp only [Engine.handed, Aggregate.conclude, hverdict]
    cases envelopes with
    | nil =>
      have hversion := hstamped.version_of_nil hplay
      have hrests := Decides.rests hplay hverdict (hstamped.eq_nil_iff.mp rfl)
      rw [← hversion] at hrests ⊢
      exact hrests
    | cons envelope envelopes =>
      exact .proposes hplay hverdict (mt hstamped.eq_nil_iff.mpr (List.cons_ne_nil _ _)) hstamped

variable [Projection κ π]

theorem advance_of_decide {a : Aggregate t.A} {outcome : Except EngineError (Engine.Handled t.A)}
    {w' : World MemoryStore κ π}
    (h : Engine.decide t.settings t.command a w = .ok (outcome, w')) :
    t.advance (.restored a) w = (.ofHandled outcome, w') := by
  simp only [advance, h]
  rcases outcome with error | (result | p) <;> rfl

/-- Wherever an instance is restored from, it stands on what the rows before it mean. -/
theorem advance_restores (hstarted : w.started = true)
    (hbound : t.A.boundMutator = .ok t.A.mutator)
    (hsound : w.Sound t.A t.settings.codec t.tenant t.stream) :
    ∃ a w', t.advance .waiting w = (.restored a, w') ∧ w.Still w' ∧
      t.Grounded ((w.store.tenant t.tenant).rows t.stream) (.restored a) := by
  rcases Engine.restoreSnapshot_cases t.settings t.A t.command.tenant t.command.aggregateId
    t.settings.usesSnapshots w with
    ⟨error, hunbound, -⟩ | ⟨start, version, w', -, hrestore, horigin, hstill⟩
  · cases hbound.symm.trans hunbound
  · obtain ⟨hle, hstart⟩ := horigin.means hsound.kept
    exact ⟨_, w', advance_waiting hstarted hrestore, hstill, hbound, start, version, rfl, hle,
      hstart⟩

/-- A grounded instance decides at the state that all rows mean. -/
theorem advance_decides {a : Aggregate t.A} (havailable : w.store.available = true)
    (hdense : w.store.Dense)
    (hgrounded : t.Grounded ((w.store.tenant t.tenant).rows t.stream) (.restored a))
    (hstate : t.A.stateOf? t.settings.codec ((w.store.tenant t.tenant).rows t.stream) =
      some state) :
    ∃ stage w', t.advance (.restored a) w = (stage, w') ∧ w.Still w' ∧
      t.Decides state (w.store.version t.tenant t.stream) stage := by
  obtain ⟨-, start, from_, rfl, hle, hstart⟩ := hgrounded
  have hreplay := Engine.replayStream_of_states havailable (hdense t.tenant) hle hstart hstate
  cases hplay : (t.A.handle t.command state).play t.A.mutator state
      (w.store.version t.tenant t.stream) with
  | error fault =>
    have hdecide := Engine.decide_of_fault hreplay ((Decision.play_seed ..).trans hplay)
    refine ⟨_, w, by simp only [advance, hdecide], .refl w, .stops hplay⟩
  | ok play =>
    obtain ⟨envelopes, w', hstamped, hstill, hdecide⟩ :=
      Engine.decide_of_replay hreplay ((Decision.play_seed ..).trans hplay)
    exact ⟨_, w', advance_of_decide hdecide, hstill,
      handed_decides hplay (hstamped.of_same rfl rfl)⟩

/-- A command that is sent as a whole decides at the state that the rows of its stream mean. -/
theorem run_decides (hstarted : w.started = true) (havailable : w.store.available = true)
    (hbound : t.A.boundMutator = .ok t.A.mutator)
    (hsound : w.Sound t.A t.settings.codec t.tenant t.stream)
    (hstate : t.A.stateOf? t.settings.codec ((w.store.tenant t.tenant).rows t.stream) =
      some state) :
    ∃ stage w', (∀ count, t.run (count + 2) .waiting w = t.run count stage w') ∧ w.Still w' ∧
      t.Decides state (w.store.version t.tenant t.stream) stage := by
  obtain ⟨a, w₁, hrestores, hstill₁, hgrounded⟩ := advance_restores hstarted hbound hsound
  rw [← hstill₁.store] at havailable hgrounded hstate ⊢
  obtain ⟨stage, w₂, hdecides, hstill₂, hstage⟩ :=
    advance_decides havailable (hstill₁.store ▸ hsound.dense) hgrounded hstate
  refine ⟨stage, w₂, fun count => ?_, hstill₁.trans hstill₂, hstage⟩
  rw [run_succ hrestores, run_succ hdecides]

/-! ## Where a send stops -/

/-- An append stops only where the log of its tenant would pass 64 bits. -/
theorem full_of_stopped {a : Aggregate t.A} {p : Engine.Proposal t.A} {events : List t.A.Event}
    {fault : Fault} (hdense : w.store.Dense)
    (hstamped : a.Stamped t.command p.expected events p.envelopes) (hne : events ≠ [])
    (h : (t.advance (.decided p) w).1 = .stopped fault) :
    0x10000000000000000 ≤ (w.store.log p.tenant).length + events.length ∧ fault = .addition := by
  have hne' : p.envelopes ≠ [] := mt hstamped.eq_nil_iff.mp hne
  cases hstored : p.envelopes.mapM fun e => e.serialize t.settings.codec t.A.tag with
  | error error =>
    have happend : Engine.append t.settings p w = _ :=
      Engine.append_of_unwritable hstamped hne' hstored
    simp only [advance, happend] at h
    cases h
  | ok stored =>
    have happend : Engine.append t.settings p w = _ :=
      Engine.append_of_stamped hstamped hne' hstored
    have hlength := (forall₂_of_mapM hstored).length_eq
    rw [← List.length_map EventEnvelope.payload, hstamped.payloads] at hlength
    cases hstore : w.store.append p.tenant p.stream p.expected stored with
    | ok answer =>
      obtain ⟨outcome, s⟩ := answer
      rw [hstore] at happend
      cases outcome <;> · simp only [advance, happend] at h; cases h
    | error found =>
      rw [hstore] at happend
      simp only [advance, happend] at h
      obtain rfl := Stage.stopped.inj h
      rw [hlength]
      exact MemoryStore.append_eq_error hdense hstore

/-- The last phase stops only where the publication does. -/
theorem publish_of_stopped {p : Engine.Proposal t.A} {fault : Fault}
    (h : (t.advance (.saved p version) w).1 = .stopped fault) :
    Engine.publish t.A p.envelopes w = .error fault := by
  cases hpublish : Engine.publish t.A p.envelopes w with
  | ok answer =>
    simp only [advance, hpublish] at h
    cases h
  | error found =>
    simp only [advance, hpublish] at h
    rw [Stage.stopped.inj h]

/-- Only a send through a started engine to a store that can be reached can stop. -/
theorem settled_of_fault {fault : Fault}
    (h : Engine.send t.settings t.A t.command w = .error fault) :
    w.started = true ∧ w.store.available = true := by
  unfold Engine.send at h
  cases hstarted : w.started with
  | false => rw [hstarted] at h; cases h
  | true =>
    refine ⟨rfl, ?_⟩
    rw [hstarted, if_pos rfl] at h
    split at h
    · cases h
    next a w₁ hrestore =>
    have hstill := Engine.still_of_restoreSnapshot hrestore
    cases havailable : w.store.available with
    | true => rfl
    | false =>
      have hreplay : Engine.replayStream t.settings a w₁.store =
          .ok (.error (.store .unavailable)) :=
        Engine.replayStream_of_unavailable (by rw [hstill.store, havailable])
      have hdecide : Engine.decide t.settings t.command a w₁ =
          .ok (.error (.store .unavailable), w₁) := by
        rw [Engine.decide, hreplay]
        rfl
      rw [hdecide] at h
      cases h

/-- A send stops exactly where its phases do. -/
theorem send_eq_error_iff {fault : Fault} :
    Engine.send t.settings t.A t.command w = .error fault ↔
      (t.run 5 .waiting w).1 = .stopped fault := by
  constructor
  · intro h
    obtain ⟨w', hrun⟩ := run_of_send_fault h
    rw [hrun]
  · intro h
    cases hsend : Engine.send t.settings t.A t.command w with
    | ok answer =>
      rw [run_of_send hsend] at h
      cases h
    | error found =>
      obtain ⟨w', hrun⟩ := run_of_send_fault hsend
      rw [hrun] at h
      rw [Stage.stopped.inj h]

/-- A send whose stream is sound stops for one of three reasons: the decision stops, the log of the
tenant has no room for the events, or the publication of the events stops, which are stored then. -/
inductive Stops (t : Task κ) (w : World MemoryStore κ π) (state : t.A.State) (fault : Fault) : Prop
  | decision (hplay : (t.A.handle t.command state).play t.A.mutator state
      (w.store.version t.tenant t.stream) = .error fault)
  | full {play : Play t.A.State t.A.Event} (hplay : (t.A.handle t.command state).play t.A.mutator
        state (w.store.version t.tenant t.stream) = .ok play)
      (hfull : 0x10000000000000000 ≤ (w.store.log t.tenant).length + play.events.length)
      (hfault : fault = .addition)
  | publication {p : Engine.Proposal t.A} {version : Version} {w' : World MemoryStore κ π}
      (hrun : t.run 4 .waiting w = (.saved p version, w'))
      (hpublish : Engine.publish t.A p.envelopes w' = .error fault)

theorem stops_of_fault {fault : Fault} (hbound : t.A.boundMutator = .ok t.A.mutator)
    (hsound : w.Sound t.A t.settings.codec t.tenant t.stream)
    (hstate : t.A.stateOf? t.settings.codec ((w.store.tenant t.tenant).rows t.stream) = some state)
    (h : Engine.send t.settings t.A t.command w = .error fault) : t.Stops w state fault := by
  obtain ⟨hstarted, havailable⟩ := settled_of_fault h
  obtain ⟨stage, w', hrun, hstill, hstage⟩ :=
    run_decides hstarted havailable hbound hsound hstate
  rw [send_eq_error_iff, hrun 3] at h
  cases hstage with
  | stops hplay =>
    rw [run_of_isOver rfl] at h
    obtain rfl := Stage.stopped.inj h
    exact .decision hplay
  | abandons | rejects | rests =>
    rw [run_of_isOver rfl] at h
    cases h
  | @proposes play envelopes hplay _ hevents hstamped =>
    generalize hp : Engine.Proposal.mk t.tenant t.stream (w.store.version t.tenant t.stream)
      envelopes play.state (.accept true play.version) = p at h hrun
    obtain ⟨stage₃, w₃, hadvance, hstep, -⟩ := t.exists_advance (.decided p) w' (by simp)
    rw [run_succ hadvance] at h
    cases hstep with
    | ends hover =>
      rw [run_of_isOver hover] at h
      obtain rfl : stage₃ = .stopped fault := h
      subst hp
      obtain ⟨hfull, hfault⟩ := full_of_stopped (hstill.store ▸ hsound.dense) hstamped hevents
        (congrArg Prod.fst hadvance)
      rw [hstill.store] at hfull
      exact .full hplay hfull hfault
    | @appends _ _ version =>
      have hfour : t.run 4 .waiting w =
          (.saved p version, Engine.saveSnapshot t.settings p version w₃) := by
        rw [hrun 2, run_succ hadvance]
        rfl
      exact .publication hfour (publish_of_stopped h)

end Task

end Chronicle

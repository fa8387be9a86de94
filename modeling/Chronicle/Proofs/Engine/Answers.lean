import Chronicle.Proofs.Engine.Faithful

/-!
# What the phases of a grounded command answer

The other direction of the phases: where the handler's decision can be played, handling the
command comes to a proposal with the events of the play (`decide_of_play`), and the envelopes of a
proposal are at the versions that follow, so that whether they reach the store depends only on
whether each can be written (`appendEnvelopes_of_stamped`).
-/

namespace Chronicle

namespace Engine

variable {A : AggregateType} {command : CommandEnvelope A.Id A.Command}

/-- Stamped envelopes are all at the versions that follow, so that only writing them can fail. -/
theorem appendEnvelopes_of_stamped {a : Aggregate A} {codec : Codec} {tag : TypeTag}
    {tenant : TenantId} {stream : StreamId} {expected : Version} {events : List A.Event}
    {envelopes : List (EventEnvelope A.Id A.Event)} (s : MemoryStore)
    (h : a.Stamped command expected events envelopes) (hne : envelopes ≠ []) :
    EventStore.appendEnvelopes s codec tag tenant stream expected envelopes =
      match envelopes.mapM (fun e => e.serialize codec tag) with
      | .error error => .ok (.error (.serialization error), s)
      | .ok events => s.append tenant stream expected events := by
  rw [EventStore.appendEnvelopes_of_numbered s tenant h.numbered,
    if_neg (mt List.isEmpty_iff.mp hne)]
  rfl

variable {κ π : Type}

/-- Where an instance can be brought up to date and the decision be played, the command is
handled. -/
theorem decide_of_replay {settings : Settings} {a b : Aggregate A} {p : Play A.State A.Event}
    {w : World MemoryStore κ π} (hreplay : replayStream settings a w.store = .ok (.ok b))
    (hplay : (A.handle command b.state).play b.mutator b.state b.current = .ok p) :
    ∃ envelopes w', b.Stamped command b.current p.events envelopes ∧ w.Still w' ∧
      decide settings command a w = .ok (handed b p envelopes, w') := by
  have hready : b.status = .ready := by
    obtain ⟨_, _, _, _, _, rfl⟩ := replayStream_eq_ok hreplay
    rfl
  rcases b.execute_eq_play command w.ids hready with
    ⟨fault, hfault, -⟩ | ⟨p', envelopes, ids, hplay', hstamped, hexecute⟩
  · cases hplay.symm.trans hfault
  obtain rfl := Except.ok.inj (hplay.symm.trans hplay')
  have hstill : w.Still { w with ids := ids } := ⟨rfl, rfl, rfl, rfl, rfl, rfl⟩
  -- what is left behind depends on whether the command is handed on or done
  cases hconclude : (b.conclude p envelopes).1 with
  | error error =>
    refine ⟨envelopes, _, hstamped, hstill, ?_⟩
    simp only [decide, hreplay, bind, Except.bind, hexecute, handed, hconclude]
    rfl
  | ok result =>
    cases hchanges : result.hasChanges with
    | true =>
      refine ⟨envelopes, _, hstamped, hstill, ?_⟩
      simp only [decide, hreplay, bind, Except.bind, hexecute, handed, hconclude, hchanges]
      rfl
    | false =>
      refine ⟨envelopes, _, hstamped, hstill.trans (World.still_countIdle _ result), ?_⟩
      simp only [decide, hreplay, bind, Except.bind, hexecute, handed, hconclude, hchanges]
      rfl

/-- Where the play of the decision stops, the handling of the command does. -/
theorem decide_of_fault {settings : Settings} {a b : Aggregate A} {fault : Fault}
    {w : World MemoryStore κ π} (hreplay : replayStream settings a w.store = .ok (.ok b))
    (hplay : (A.handle command b.state).play b.mutator b.state b.current = .error fault) :
    decide settings command a w = .error fault := by
  have hready : b.status = .ready := by
    obtain ⟨_, _, _, _, _, rfl⟩ := replayStream_eq_ok hreplay
    rfl
  rcases b.execute_eq_play command w.ids hready with
    ⟨found, hfound, hexecute⟩ | ⟨p, envelopes, ids, hplayed, -, -⟩
  · obtain rfl := Except.error.inj (hplay.symm.trans hfound)
    simp only [decide, hreplay, bind, Except.bind, hexecute]
  · cases hplay.symm.trans hplayed

/-- A decision that can be played to its acceptance, with events, comes to a proposal. -/
theorem decide_of_play {settings : Settings} {a b : Aggregate A} {p : Play A.State A.Event}
    {w : World MemoryStore κ π} (hreplay : replayStream settings a w.store = .ok (.ok b))
    (hnew : b.uncommitted = [])
    (hplay : (A.handle command b.state).play b.mutator b.state b.current = .ok p)
    (haccepted : p.verdict = .accepted) (hchanges : p.events ≠ []) :
    ∃ envelopes w', b.Stamped command b.current p.events envelopes ∧ w.Still w' ∧
      decide settings command a w = .ok (.ok (.proposed
        ⟨b.tenant, b.stream, b.expected, envelopes, p.state, .accept true p.version⟩), w') := by
  obtain ⟨envelopes, w', hstamped, hstill, hdecide⟩ := decide_of_replay hreplay hplay
  have hsome : (b.moved p envelopes).hasChanges = true := by
    have hpayloads := hstamped.payloads
    cases envelopes with
    | nil => exact absurd hpayloads.symm hchanges
    | cons => simp [Aggregate.hasChanges, Aggregate.moved]
  have hhanded : handed b p envelopes = .ok (.proposed
      ⟨b.tenant, b.stream, b.expected, envelopes, p.state, .accept true p.version⟩) := by
    simp only [handed, Aggregate.conclude, haccepted, hsome, CommandResult.accept, if_true]
    simp [propose, Aggregate.moved, hnew, Aggregate.stream, Aggregate.state]
  exact ⟨envelopes, w', hstamped, hstill, hhanded ▸ hdecide⟩

/-- Where all events can be written, the answer to a proposal is that of the store. -/
theorem append_of_stamped {settings : Settings} {a : Aggregate A} {p : Proposal A}
    {events : List A.Event} {serialized : List SerializedEvent} {w : World MemoryStore κ π}
    (hstamped : a.Stamped command p.expected events p.envelopes) (hne : p.envelopes ≠ [])
    (hevents : p.envelopes.mapM (fun e => e.serialize settings.codec A.tag) = .ok serialized) :
    append settings p w = (w.store.append p.tenant p.stream p.expected serialized).map fun
      | (.error error, s) =>
        (.error (.store error), { w with store := s }.countAppendFailure error)
      | (.ok version, s) =>
        (.ok version, { w with store := s }.countAppend p.envelopes.length) := by
  unfold append
  rw [appendEnvelopes_of_stamped w.store hstamped hne, hevents]
  show (w.store.append p.tenant p.stream p.expected serialized >>= _) = _
  cases w.store.append p.tenant p.stream p.expected serialized with
  | error fault => rfl
  | ok answer =>
    obtain ⟨_ | _, s⟩ := answer
    · rfl
    · rfl

theorem append_of_unwritable {settings : Settings} {a : Aggregate A} {p : Proposal A}
    {events : List A.Event} {error : CodecError} {w : World MemoryStore κ π}
    (hstamped : a.Stamped command p.expected events p.envelopes) (hne : p.envelopes ≠ [])
    (hevents : p.envelopes.mapM (fun e => e.serialize settings.codec A.tag) = .error error) :
    append settings p w = .ok (.error (.store (.serialization error)),
      w.countAppendFailure (.serialization error)) := by
  unfold append
  rw [appendEnvelopes_of_stamped w.store hstamped hne, hevents]
  rfl

end Engine

end Chronicle

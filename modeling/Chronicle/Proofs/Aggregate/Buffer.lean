import Chronicle.Proofs.Aggregate.Calls
import Chronicle.Sample.Sequence
import Mathlib.Data.List.Forall2

/-!
# New events and their numbers

From the moment an instance is ready, its state, its version and its new events move together.
`Grows` says how: the new events lead from the one state to the other, and are numbered from the
version on. One call makes an instance grow by what its command applies (`exists_grows_call`), so do
any number of calls (`exists_grows_callAll`), as long as no command is rejected. When an instance is
made ready it has no new events, so that behind any such calls they are numbered from the version
that its stream is expected to have.
-/

namespace Chronicle

namespace Aggregate

variable {A : AggregateType}

/-! ## Growing by envelopes -/

/-- An instance has grown by some envelopes. -/
structure Grows (a : Aggregate A) (envelopes : List (EventEnvelope A.Id A.Event))
    (b : Aggregate A) : Prop where
  id : b.id = a.id
  tenant : b.tenant = a.tenant
  status : b.status = a.status
  expected : b.expected = a.expected
  mutator : b.mutator = a.mutator.seed b.state
  uncommitted : b.uncommitted = a.uncommitted ++ envelopes
  numbered : envelopes.map (fun e => e.version.toNat) =
    List.range' (a.current.toNat + 1) envelopes.length
  current : b.current.toNat = a.current.toNat + envelopes.length
  folds : (envelopes.map EventEnvelope.payload).foldlM a.mutator.next? a.state = some b.state

theorem Grows.refl (a : Aggregate A) : a.Grows [] a :=
  ⟨rfl, rfl, rfl, rfl, rfl, (List.append_nil _).symm, rfl, rfl, rfl⟩

theorem Grows.trans {a b c : Aggregate A} {first second : List (EventEnvelope A.Id A.Event)}
    (h : a.Grows first b) (h' : b.Grows second c) : a.Grows (first ++ second) c where
  id := h'.id.trans h.id
  tenant := h'.tenant.trans h.tenant
  status := h'.status.trans h.status
  expected := h'.expected.trans h.expected
  mutator := by rw [h'.mutator, h.mutator, Mutator.seed_seed]
  uncommitted := by rw [h'.uncommitted, h.uncommitted, List.append_assoc]
  numbered := by
    have hsecond := h'.numbered
    rw [h.current, Nat.add_right_comm] at hsecond
    rw [List.map_append, h.numbered, hsecond, List.length_append, List.range'_append_1]
  current := by rw [h'.current, h.current, List.length_append, Nat.add_assoc]
  folds := by
    have hsecond := h'.folds
    rw [h.mutator] at hsecond
    rw [List.map_append, List.foldlM_append, h.folds]
    exact hsecond

/-- An instance that is moved by a play whose events are stamped grows by the stamped envelopes. -/
theorem grows_moved {a : Aggregate A} {command : CommandEnvelope A.Id A.Command}
    {d : Decision A.State A.Event} {p : Play A.State A.Event}
    {envelopes : List (EventEnvelope A.Id A.Event)}
    (hplay : d.play a.mutator a.state a.current = .ok p)
    (hstamped : a.Stamped command a.current p.events envelopes) :
    a.Grows envelopes (a.moved p envelopes) := by
  obtain ⟨hfold, hversion⟩ := Decision.play_events hplay
  have hpayloads := hstamped.payloads
  refine ⟨rfl, rfl, rfl, rfl, rfl, rfl, hstamped.numbered, ?_, ?_⟩
  · rw [← hpayloads, List.length_map] at hversion
    exact hversion
  · rw [hpayloads]
    exact hfold

/-- An instance to which an event is applied grows by its envelope. -/
theorem grows_of_apply {a b : Aggregate A} {command : CommandEnvelope A.Id A.Command}
    {event : A.Event} {eventId : EventId} (h : a.apply command event eventId = .ok (.ok b)) :
    ∃ version, a.Grows [a.stamp command event eventId version] b := by
  obtain ⟨-, version, state, hversion, hstate, rfl⟩ := apply_eq_ok_iff.mp h
  have hnext := Version.next_eq_ok hversion
  refine ⟨version, rfl, rfl, rfl, rfl, rfl, rfl, ?_, hnext, ?_⟩
  · rw [List.map_singleton, List.length_singleton, List.range'_one, ← hnext]
    rfl
  · rw [List.map_singleton, List.foldlM_cons]
    show a.mutator.next? a.state event >>= _ = _
    rw [hstate]
    rfl

/-! ## Whose envelopes they are -/

/-- An envelope is of an instance, and of a command that it was given. -/
structure Signed (a : Aggregate A) (command : CommandEnvelope A.Id A.Command)
    (envelope : EventEnvelope A.Id A.Event) : Prop where
  aggregateId : envelope.aggregateId = a.id
  stream : envelope.stream = a.stream
  tenant : envelope.tenant = a.tenant
  commandId : envelope.commandId = command.commandId
  sequenceId : envelope.sequenceId = command.sequenceId
  principal : envelope.principal = command.principal
  timestamp : envelope.timestamp = command.timestamp

theorem signed_stamp (a : Aggregate A) (command : CommandEnvelope A.Id A.Command)
    (event : A.Event) (eventId : EventId) (version : Version) :
    a.Signed command (a.stamp command event eventId version) :=
  ⟨rfl, rfl, rfl, rfl, rfl, rfl, rfl⟩

theorem Signed.of_same {a b : Aggregate A} {command : CommandEnvelope A.Id A.Command}
    {envelope : EventEnvelope A.Id A.Event} (h : a.Signed command envelope) (hid : b.id = a.id)
    (htenant : b.tenant = a.tenant) : b.Signed command envelope :=
  { h with
    aggregateId := h.aggregateId.trans hid.symm
    stream := h.stream.trans (congrArg A.stream hid).symm
    tenant := h.tenant.trans htenant.symm }

theorem Stamped.signed {a : Aggregate A} {command : CommandEnvelope A.Id A.Command}
    {version : Version} {events : List A.Event} {envelopes : List (EventEnvelope A.Id A.Event)}
    (h : a.Stamped command version events envelopes) :
    ∀ envelope ∈ envelopes, a.Signed command envelope := by
  induction h with
  | nil => exact nofun
  | cons eventId hv _ ih =>
    intro envelope hin
    rcases List.mem_cons.mp hin with rfl | hin
    · exact a.signed_stamp ..
    · exact ih envelope hin

/-- What a call that is answered adds to the new events: an event that is applied adds itself, one
that cannot be applied adds nothing, and a command adds what its handler applies. -/
inductive Adds (a : Aggregate A) : Call A → Except AggregateError (Answer A) →
    List (EventEnvelope A.Id A.Event) → Prop
  | applied {command : CommandEnvelope A.Id A.Command} {envelope : EventEnvelope A.Id A.Event}
      (h : a.Signed command envelope) :
      Adds a (.apply command envelope.payload) (.ok .done) [envelope]
  | refused {command : CommandEnvelope A.Id A.Command} {event : A.Event} {error : AggregateError} :
      Adds a (.apply command event) (.error error) []
  | executed {command : CommandEnvelope A.Id A.Command} {answer : Except AggregateError (Answer A)}
      {envelopes : List (EventEnvelope A.Id A.Event)}
      (h : ∀ envelope ∈ envelopes, a.Signed command envelope) :
      Adds a (.execute command) answer envelopes

theorem Adds.of_same {a b : Aggregate A} {c : Call A} {answer : Except AggregateError (Answer A)}
    {envelopes : List (EventEnvelope A.Id A.Event)} (h : a.Adds c answer envelopes)
    (hid : b.id = a.id) (htenant : b.tenant = a.tenant) : b.Adds c answer envelopes := by
  cases h with
  | applied h => exact .applied (h.of_same hid htenant)
  | refused => exact .refused
  | executed h => exact .executed fun envelope hin => (h envelope hin).of_same hid htenant

/-! ## Calls that give commands -/

/-- The calls by which an instance takes a command. -/
def Call.GivesCommand : Call A → Prop
  | .apply .. | .execute _ => True
  | .restore .. | .replay _ | .markReady | .takeUncommitted => False

/-- A command was rejected. -/
def Answer.IsRejection (answer : Except AggregateError (Answer A)) : Prop :=
  ∃ result, answer = .ok (.handled result) ∧ result.accepted = false

theorem exists_grows_call {a b : Aggregate A} {ids ids' : IdSupply} {c : Call A}
    {answer : Except AggregateError (Answer A)} (hc : c.GivesCommand)
    (hkept : ¬ Answer.IsRejection answer) (h : a.call ids c = .ok (answer, b, ids')) :
    ∃ envelopes, a.Grows envelopes b ∧ a.Adds c answer envelopes := by
  cases call_eq_ok h with
  | restored | replayed | marked | taken => cases hc
  | refused =>
    cases c with
    | apply => exact ⟨[], .refl a, .refused⟩
    | execute => exact ⟨[], .refl a, .executed (by simp)⟩
    | restore | replay | markReady | takeUncommitted => cases hc
  | applied happly =>
    obtain ⟨version, hgrows⟩ := grows_of_apply happly
    exact ⟨_, hgrows, .applied (a.signed_stamp ..)⟩
  | executed hexecute =>
    rcases execute_eq_ok hexecute with ⟨-, rfl, rfl⟩ | ⟨-, p, envelopes, hplay, hstamped, hconclude⟩
    · exact ⟨[], .refl _, .executed (by simp)⟩
    refine ⟨envelopes, ?_, .executed hstamped.signed⟩
    have hmoved : b = a.moved p envelopes := by
      cases hverdict : p.verdict with
      | accepted =>
        simp only [conclude, hverdict] at hconclude
        exact congrArg Prod.snd hconclude
      | abandoned error =>
        simp only [conclude, hverdict] at hconclude
        exact congrArg Prod.snd hconclude
      | rejected reason =>
        simp only [conclude, hverdict] at hconclude
        obtain ⟨rfl, -⟩ := Prod.mk.injEq .. |>.mp hconclude
        exact absurd ⟨_, rfl, rfl⟩ hkept
    rw [hmoved]
    exact grows_moved hplay hstamped

theorem exists_grows_callAll {calls : List (Call A)} :
    ∀ {a b : Aggregate A} {ids ids' : IdSupply}
      {answers : List (Except AggregateError (Answer A))},
      (∀ c ∈ calls, c.GivesCommand) → (∀ answer ∈ answers, ¬ Answer.IsRejection answer) →
      a.callAll ids calls = .ok (answers, b, ids') →
        ∃ parts : List (List (EventEnvelope A.Id A.Event)), a.Grows parts.flatten b ∧
          List.Forall₂ (fun asked part => a.Adds asked.1 asked.2 part) (calls.zip answers)
            parts := by
  induction calls with
  | nil =>
    intro a b ids ids' answers _ _ h
    cases h
    exact ⟨[], .refl a, .nil⟩
  | cons c calls ih =>
    intro a b ids ids' answers hcalls hkept h
    obtain ⟨answer, rest, next, ids'', hcall, hrest, rfl⟩ := callAll_cons_eq_ok h
    obtain ⟨hc, hcalls⟩ := List.forall_mem_cons.mp hcalls
    obtain ⟨hanswer, hkept⟩ := List.forall_mem_cons.mp hkept
    obtain ⟨envelopes, hgrows, hadds⟩ := exists_grows_call hc hanswer hcall
    obtain ⟨parts, hgrows', hparts⟩ := ih hcalls hkept hrest
    refine ⟨envelopes :: parts, hgrows.trans hgrows', .cons hadds (hparts.imp fun _ _ h => ?_)⟩
    -- what the later calls add is signed by the instance that the first call leaves behind
    exact h.of_same hgrows.id.symm hgrows.tenant.symm

/-! ## Calls that bring an instance up to date -/

/-- The calls that are made before an instance is ready. -/
def Call.BringsUpToDate : Call A → Prop
  | .restore .. | .replay _ => True
  | .markReady | .apply .. | .execute _ | .takeUncommitted => False

/-- An instance at another state and version. -/
def placedAt (a : Aggregate A) (state : A.State) (version : Version) : Aggregate A :=
  { a with mutator := a.mutator.seed state, current := version }

theorem exists_placedAt_call {a b : Aggregate A} {ids ids' : IdSupply} {c : Call A}
    {answer : Except AggregateError (Answer A)} (hc : c.BringsUpToDate)
    (h : a.call ids c = .ok (answer, b, ids')) : ∃ state version, b = a.placedAt state version := by
  cases call_eq_ok h with
  | applied | marked | executed | taken => cases hc
  | restored hrestore =>
    obtain ⟨-, rfl⟩ := restore_eq_ok_iff.mp hrestore
    exact ⟨_, _, rfl⟩
  | replayed hreplay =>
    obtain ⟨-, -, state, -, rfl⟩ := replay_eq_ok_iff.mp hreplay
    exact ⟨state, _, rfl⟩
  | refused => exact ⟨a.state, a.current, rfl⟩

theorem exists_placedAt_callAll {calls : List (Call A)} :
    ∀ {a b : Aggregate A} {ids ids' : IdSupply}
      {answers : List (Except AggregateError (Answer A))},
      (∀ c ∈ calls, c.BringsUpToDate) → a.callAll ids calls = .ok (answers, b, ids') →
        ∃ state version, b = a.placedAt state version := by
  induction calls with
  | nil =>
    intro a b ids ids' answers _ h
    cases h
    exact ⟨a.state, a.current, rfl⟩
  | cons c calls ih =>
    intro a b ids ids' answers hcalls h
    obtain ⟨answer, rest, next, ids'', hcall, hrest, -⟩ := callAll_cons_eq_ok h
    obtain ⟨hc, hcalls⟩ := List.forall_mem_cons.mp hcalls
    obtain ⟨state, version, rfl⟩ := exists_placedAt_call hc hcall
    obtain ⟨state', version', rfl⟩ := ih hcalls hrest
    exact ⟨state', version', rfl⟩

/-- An instance that was brought up to date and made ready has no new events, and its stream is
expected at the version that it has come to. -/
theorem exists_ready_placedAt {a b : Aggregate A} {history : List (Call A)}
    {ids ids' : IdSupply} {answers : List (Except AggregateError (Answer A))}
    (hhistory : ∀ c ∈ history, c.BringsUpToDate)
    (h : a.callAll ids (history ++ [.markReady]) = .ok (answers, b, ids')) :
    ∃ state version, b = (a.placedAt state version).markReady := by
  obtain ⟨told, rest, next, ids'', htold, hready, -⟩ := callAll_append_eq_ok.mp h
  obtain ⟨state, version, rfl⟩ := exists_placedAt_callAll hhistory htold
  cases hready
  exact ⟨state, version, rfl⟩

/-! ## New events and the expected version -/

/-- **New events stay in step with the version they are appended behind.** An instance is brought
up to date by any restores and replays, made ready, and then given any commands of which none is
rejected; any of these calls may fail. Then it is as many versions behind the expected one as it
has new events, which are numbered from there, are its own and of the commands that applied them,
and lead from the state at which it was made ready to its own. An operation that fails leaves it
as it was, and only where versions run out or a transition stops is a call not answered at all. So
the check of an append never stops the new events. -/
theorem new_events_stay_in_step {tenant : TenantId} {id : A.Id} {mutator : Mutator A.State A.Event}
    {history calls : List (Call A)} {ids ids₁ ids₂ : IdSupply}
    {told answers : List (Except AggregateError (Answer A))} {a b : Aggregate A}
    (hhistory : ∀ c ∈ history, c.BringsUpToDate)
    (hready : (hydrating tenant id mutator).callAll ids (history ++ [.markReady]) =
      .ok (told, a, ids₁))
    (hcalls : ∀ c ∈ calls, c.GivesCommand)
    (hrun : a.callAll ids₁ calls = .ok (answers, b, ids₂))
    (hkept : ∀ answer ∈ answers, ¬ Answer.IsRejection answer) :
    (b.id = id ∧ b.tenant = tenant ∧ b.status = .ready ∧ b.expected = a.current) ∧
      b.current.toNat = b.expected.toNat + b.uncommitted.length ∧
      (∀ (i : Nat) (envelope : EventEnvelope A.Id A.Event), b.uncommitted[i]? = some envelope →
        envelope.version.toNat = b.expected.toNat + (i + 1)) ∧
      (∃ parts : List (List (EventEnvelope A.Id A.Event)), parts.flatten = b.uncommitted ∧
        List.Forall₂ (fun asked part => b.Adds asked.1 asked.2 part) (calls.zip answers) parts) ∧
      (b.uncommitted.map EventEnvelope.payload).foldlM mutator.next? a.state = some b.state ∧
      (∀ (before after : Aggregate A) (ids ids' : IdSupply) (c : Call A) (error : AggregateError),
        c.IsOperation → before.call ids c = .ok (.error error, after, ids') → after = before) ∧
      (∀ (ids : IdSupply) (c : Call A) (fault : Fault), b.call ids c = .error fault →
        ∃ (events : List A.Event) (reached : A.State),
          events.foldlM b.mutator.next? b.state = some reached ∧
            (b.current.toNat + events.length + 1 = 0x10000000000000000 ∨
              ∃ event, (b.mutator.seed reached).apply event = .error fault)) ∧
      ∀ (S : Type) [EventStore S] (store : S) (codec : Codec) (tag : TypeTag) (tenant : TenantId)
        (stream : StreamId),
        EventStore.appendEnvelopes store codec tag tenant stream b.expected b.uncommitted =
          if b.uncommitted.isEmpty then .ok (.error (.emptyBatch stream), store)
          else match b.uncommitted.mapM fun envelope => envelope.serialize codec tag with
            | .error error => .ok (.error (.serialization error), store)
            | .ok events => EventStore.append store tenant stream b.expected events := by
  obtain ⟨state, version, rfl⟩ := exists_ready_placedAt hhistory hready
  obtain ⟨parts, hgrows, hparts⟩ := exists_grows_callAll hcalls hkept hrun
  have hbuffer : b.uncommitted = parts.flatten := hgrows.uncommitted
  have hexpected : b.expected = version := hgrows.expected
  have hnumbered : b.uncommitted.map (fun e => e.version.toNat) =
      List.range' (b.expected.toNat + 1) b.uncommitted.length := by
    rw [hbuffer, hexpected]
    exact hgrows.numbered
  refine ⟨⟨hgrows.id, hgrows.tenant, hgrows.status, hgrows.expected⟩, ?_, ?_, ?_, ?_, ?_, ?_, ?_⟩
  · rw [hbuffer, hexpected]
    exact hgrows.current
  · intro i envelope hi
    obtain ⟨hlt, -⟩ := List.getElem?_eq_some_iff.mp hi
    have hversion := congrArg (fun versions => versions[i]?) hnumbered
    rw [List.getElem?_map, hi, List.getElem?_range' hlt] at hversion
    have hplace : envelope.version.toNat = _ := Option.some.inj hversion
    omega
  · exact ⟨parts, hbuffer.symm, hparts.imp fun _ _ hadds => hadds.of_same hgrows.id hgrows.tenant⟩
  · rw [hbuffer]
    exact hgrows.folds
  · exact fun _ _ _ _ _ _ hc h => call_of_error hc h
  · exact fun _ _ _ h => call_eq_error h
  · intro S _ store codec tag tenant stream
    exact EventStore.appendEnvelopes_of_numbered store tenant hnumbered

end Aggregate

namespace Sample

/-- The sequence `3` before it knows its events; it cannot be cleared. -/
def growing : Aggregate sequenceType :=
  .hydrating .default (3 : UInt64)
    ((Mutator.new SequenceState.empty).register "ItemAdded.v1" SequenceState.onItemAdded)

/-- The sequence `3` is told something. -/
def telling (command : SequenceCommand) : CommandEnvelope UInt64 SequenceCommand :=
  .new 3 command ⟨.ofNat 1⟩ ⟨.ofNat 2⟩ ⟨0, 0⟩

/-- A stored event of the sequence `3`. -/
def past (event : SequenceEvent) (version : Version) : EventEnvelope UInt64 SequenceEvent :=
  growing.stamp (telling .clear) event ⟨.ofNat 9⟩ version

/-- The sequence `3` is restored, and then replays an event that is not newer, one that it cannot
be moved by, and one that it can. -/
def growingHistory : List (Aggregate.Call sequenceType) :=
  [.restore (SequenceState.mk [1] 1) ⟨1⟩, .replay (past (.itemAdded 2) ⟨1⟩),
    .replay (past .cleared ⟨2⟩), .replay (past (.itemAdded 2) ⟨2⟩)]

/-- The sequence `3` when it is ready. -/
def growingReady : Aggregate sequenceType :=
  (growing.placedAt (SequenceState.mk [1, 2] 3) ⟨2⟩).markReady

/-- The sequence `3` applies an event, cannot apply another, and handles a command. -/
def growingCalls : List (Aggregate.Call sequenceType) :=
  [.apply (telling .clear) (SequenceEvent.itemAdded 3),
    .apply (telling .clear) SequenceEvent.cleared, .execute (telling (.add [4, 5]))]

end Sample

open Sample Aggregate in
/-- Behind a snapshot and a replayed event there are three new ones, though of the history two calls
fail, and of the calls behind it one. -/
theorem Aggregate.growing_sequence_stays_in_step :
    ∃ told answers b ids,
      ((∀ c ∈ growingHistory, c.BringsUpToDate) ∧
        growing.callAll ⟨0⟩ (growingHistory ++ [.markReady]) = .ok (told, growingReady, ⟨0⟩) ∧
        (∀ c ∈ growingCalls, c.GivesCommand) ∧
        growingReady.callAll ⟨0⟩ growingCalls = .ok (answers, b, ids) ∧
        ∀ answer ∈ answers, ¬ Answer.IsRejection answer) ∧
      b.uncommitted.length = 3 ∧ b.state = SequenceState.mk [1, 2, 3, 4, 5] 15 ∧
      b.current.toNat = b.expected.toNat + b.uncommitted.length ∧
      (b.uncommitted.map EventEnvelope.payload).foldlM growing.mutator.next? growingReady.state =
        some b.state := by
  have hhistory : ∀ c ∈ growingHistory, c.BringsUpToDate := by
    simp [growingHistory, Call.BringsUpToDate]
  have hcalls : ∀ c ∈ growingCalls, c.GivesCommand := by
    simp [growingCalls, Call.GivesCommand]
  have hkept : ∀ answer ∈ [.ok .done,
      .error (.unhandled ⟨"Cleared.v1", Wire.typeName SequenceState⟩),
      .ok (.handled (.accept true ⟨5⟩))], ¬ Answer.IsRejection (A := sequenceType) answer := by
    simp [Answer.IsRejection, CommandResult.accept]
  have hready : growing.callAll ⟨0⟩ (growingHistory ++ [.markReady]) =
      .ok (_, growingReady, ⟨0⟩) := rfl
  have hrun : growingReady.callAll ⟨0⟩ growingCalls = .ok (_, _, _) := rfl
  obtain ⟨-, hnumber, -, -, hfold, -⟩ :=
    new_events_stay_in_step hhistory hready hcalls hrun hkept
  exact ⟨_, _, _, _, ⟨hhistory, hready, hcalls, hrun, hkept⟩, rfl, rfl, hnumber, hfold⟩

end Chronicle

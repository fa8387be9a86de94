import Chronicle.Aggregate.Calls
import Chronicle.Proofs.Aggregate.Lifecycle

/-!
# What a call leaves behind

The operations on an instance are told in steps. Each comes to the same as the function that
answers with another instance or with an error (`applyInPlace_does` and its siblings), so none of
them is changed halfway. `Called` says what a call is answered and what it leaves behind, one
constructor for each way to end; whatever is said about calls later is said by cases on it.
-/

namespace Chronicle.Aggregate

variable {A : AggregateType}

/-! ## Steps and functions -/

theorem perform_requireInPlace (a : Aggregate A) (status : Status) :
    (requireInPlace status).perform a = .ok (a.ensure status, a) := by
  by_cases h : a.status = status <;> simp [requireInPlace, ensure, h]

/-- The initial state that an instance holds while a transition runs is never left behind. -/
theorem perform_moveInPlace (a : Aggregate A) (event : A.Event) :
    (moveInPlace event).perform a = (a.mutator.apply event).map fun
      | .ok mutator => (.ok (), { a with mutator := mutator })
      | .error error => (.error (.unhandled error), a) := by
  simp only [moveInPlace, Mutator.apply, InPlace.perform_bind, InPlace.perform_get, state]
  cases hfind : a.mutator.find? (EventKind.kind event) with
  | none => rfl
  | some transition =>
    cases hstate : transition event a.mutator.current with
    | error fault => simp [hstate, Except.map]
    | ok state => simp [hstate, Except.map, Mutator.seed, Mutator.reset]

theorem restoreInPlace_does (state : A.State) (version : Version) :
    (restoreInPlace state version).Does fun a => .ok (a.restore state version) := by
  intro a
  simp only [restoreInPlace, InPlace.perform_bind, perform_requireInPlace, restore]
  rcases a.ensure .hydrating with error | _ <;> rfl

theorem replayInPlace_does (envelope : EventEnvelope A.Id A.Event) :
    (replayInPlace envelope).Does fun a => a.replay envelope := by
  intro a
  simp only [replayInPlace, InPlace.perform_bind, perform_requireInPlace, replay]
  rcases a.ensure .hydrating with error | _
  · rfl
  by_cases hle : envelope.version ≤ a.current
  · simp [hle, InPlace.settle, Except.map]
  · simp only [hle, if_false, InPlace.perform_get, InPlace.perform_bind, perform_moveInPlace]
    rcases a.mutator.apply envelope.payload with fault | error | mutator <;> rfl

theorem applyInPlace_does (command : CommandEnvelope A.Id A.Command) (event : A.Event)
    (eventId : EventId) :
    (applyInPlace command event eventId).Does fun a => a.apply command event eventId := by
  intro a
  simp only [applyInPlace, InPlace.perform_bind, perform_requireInPlace, apply]
  rcases a.ensure .ready with error | _
  · rfl
  simp only [InPlace.perform_get, InPlace.perform_lift]
  rcases a.current.next with fault | version
  · rfl
  · simp only [Except.map, perform_moveInPlace]
    rcases a.mutator.apply event with fault | error | mutator <;> rfl

/-! ## Where an operation comes through -/

theorem restore_eq_ok_iff {a b : Aggregate A} {state : A.State} {version : Version} :
    a.restore state version = .ok b ↔
      a.status = .hydrating ∧
        b = { a with mutator := a.mutator.seed state, current := version } := by
  by_cases h : a.status = .hydrating <;>
    simp [restore, ensure, h, bind, Except.bind, pure, Except.pure, eq_comm]

/-- An event is applied when there is a version for it and its transition has an answer. -/
theorem apply_eq_ok_iff {a b : Aggregate A} {command : CommandEnvelope A.Id A.Command}
    {event : A.Event} {eventId : EventId} :
    a.apply command event eventId = .ok (.ok b) ↔
      a.status = .ready ∧ ∃ version state, a.current.next = .ok version ∧
        a.mutator.next? a.state event = some state ∧
          b = { a with
            mutator := a.mutator.seed state
            uncommitted := a.uncommitted ++ [a.stamp command event eventId version]
            current := version } := by
  unfold apply
  by_cases hstatus : a.status = .ready
  case neg => simp [ensure, hstatus]
  have hensure : a.ensure .ready = .ok () := by simp [ensure, hstatus]
  simp only [hensure, hstatus, true_and]
  constructor
  · intro h
    obtain ⟨version, hversion, h⟩ := bind_eq_ok.mp h
    obtain ⟨outcome, hm, h⟩ := bind_eq_ok.mp h
    cases outcome with
    | error error => cases h
    | ok m =>
      obtain ⟨state, hstate, rfl⟩ := Mutator.apply_eq_ok_iff.mp hm
      obtain rfl := Except.ok.inj (Except.ok.inj h)
      exact ⟨version, state, hversion, hstate, rfl⟩
  · rintro ⟨version, state, hversion, hstate, rfl⟩
    rw [hversion, Mutator.apply_eq_ok_iff.mpr ⟨state, hstate, rfl⟩]
    rfl

/-- A command is handled by an instance that is ready, and by no other. -/
theorem execute_eq_ok {a b : Aggregate A} {command : CommandEnvelope A.Id A.Command}
    {ids ids' : IdSupply} {outcome : Except AggregateError CommandResult}
    (h : a.execute command ids = .ok (outcome, b, ids')) :
    (a.status ≠ .ready ∧ outcome = .error (.notReady a.stream a.status) ∧ b = a) ∨
      a.status = .ready ∧ ∃ p envelopes,
        (A.handle command a.state).play a.mutator a.state a.current = .ok p ∧
          a.Stamped command a.current p.events envelopes ∧
            (outcome, b) = a.conclude p envelopes := by
  by_cases hstatus : a.status = .ready
  case neg =>
    have hensure : a.ensure .ready = .error (.notReady a.stream a.status) := by
      simp [ensure, hstatus]
    simp only [execute, hensure] at h
    cases h
    exact Or.inl ⟨hstatus, rfl, rfl⟩
  · rcases execute_eq_play a command ids hstatus with
      ⟨fault, -, hfault⟩ | ⟨p, envelopes, ids'', hplay, hstamped, hexecute⟩
    · rw [hfault] at h
      cases h
    · rw [hexecute] at h
      cases h
      exact Or.inr ⟨hstatus, p, envelopes, hplay, hstamped, rfl⟩

/-! ## Where an operation stops -/

theorem replay_eq_error {a : Aggregate A} {envelope : EventEnvelope A.Id A.Event} {fault : Fault}
    (h : a.replay envelope = .error fault) :
    a.mutator.apply envelope.payload = .error fault := by
  unfold replay at h
  split at h
  · cases h
  split at h
  · cases h
  rcases bind_eq_error.mp h with happly | ⟨outcome, -, h⟩
  · exact happly
  · cases outcome <;> cases h

theorem apply_eq_error {a : Aggregate A} {command : CommandEnvelope A.Id A.Command}
    {event : A.Event} {eventId : EventId} {fault : Fault}
    (h : a.apply command event eventId = .error fault) :
    a.current.next = .error fault ∨ a.mutator.apply event = .error fault := by
  unfold apply at h
  split at h
  · cases h
  rcases bind_eq_error.mp h with hversion | ⟨version, -, h⟩
  · exact Or.inl hversion
  rcases bind_eq_error.mp h with happly | ⟨outcome, -, h⟩
  · exact Or.inr happly
  · cases outcome <;> cases h

theorem execute_eq_error {a : Aggregate A} {command : CommandEnvelope A.Id A.Command}
    {ids : IdSupply} {fault : Fault} (h : a.execute command ids = .error fault) :
    (A.handle command a.state).play a.mutator a.state a.current = .error fault := by
  by_cases hstatus : a.status = .ready
  case neg =>
    simp [execute, ensure, hstatus] at h
  rcases execute_eq_play a command ids hstatus with
    ⟨found, hplay, hexecute⟩ | ⟨p, envelopes, ids', -, -, hexecute⟩
  · rw [hexecute] at h
    obtain rfl := Except.error.inj h
    exact hplay
  · rw [hexecute] at h
    cases h

/-! ## Calls -/

/-- The calls that are one operation each, with one way to fail. -/
def Call.IsOperation : Call A → Prop
  | .restore .. | .replay _ | .apply .. => True
  | .markReady | .execute _ | .takeUncommitted => False

/-- What a call is answered, and what it leaves behind. -/
inductive Called (a : Aggregate A) :
    Call A → Except AggregateError (Answer A) → Aggregate A → Prop
  | restored {state : A.State} {version : Version} {b : Aggregate A}
      (h : a.restore state version = .ok b) : Called a (.restore state version) (.ok .done) b
  | replayed {envelope : EventEnvelope A.Id A.Event} {b : Aggregate A}
      (h : a.replay envelope = .ok (.ok b)) : Called a (.replay envelope) (.ok .done) b
  | applied {command : CommandEnvelope A.Id A.Command} {event : A.Event} {eventId : EventId}
      {b : Aggregate A} (h : a.apply command event eventId = .ok (.ok b)) :
      Called a (.apply command event) (.ok .done) b
  | refused {c : Call A} {error : AggregateError} (h : c.IsOperation) : Called a c (.error error) a
  | marked : Called a .markReady (.ok .done) a.markReady
  | executed {command : CommandEnvelope A.Id A.Command} {ids ids' : IdSupply}
      {outcome : Except AggregateError CommandResult} {b : Aggregate A}
      (h : a.execute command ids = .ok (outcome, b, ids')) :
      Called a (.execute command) (outcome.map .handled) b
  | taken : Called a .takeUncommitted (.ok (.taken a.uncommitted)) { a with uncommitted := [] }

/-- An operation that is answered has come through, or it has left the instance as it was. -/
theorem callInPlace_eq_ok {a b : Aggregate A} {ids ids' : IdSupply}
    {steps : InPlace (Aggregate A) AggregateError Unit}
    {f : Aggregate A → Checked (Except AggregateError (Aggregate A))} (hsteps : steps.Does f)
    {answer : Except AggregateError (Answer A)}
    (h : a.callInPlace ids steps = .ok (answer, b, ids')) :
    (f a = .ok (.ok b) ∧ answer = .ok .done) ∨ ∃ error, answer = .error error ∧ b = a := by
  obtain ⟨⟨outcome, next⟩, hperform, h⟩ := bind_eq_ok.mp h
  cases h
  rcases hsteps.perform_eq_ok hperform with ⟨hf, rfl⟩ | ⟨error, -, rfl, rfl⟩
  · exact Or.inl ⟨hf, rfl⟩
  · exact Or.inr ⟨error, rfl, rfl⟩

theorem call_eq_ok {a b : Aggregate A} {ids ids' : IdSupply} {c : Call A}
    {answer : Except AggregateError (Answer A)} (h : a.call ids c = .ok (answer, b, ids')) :
    a.Called c answer b := by
  cases c with
  | restore state version =>
    rcases callInPlace_eq_ok (restoreInPlace_does state version) h with
      ⟨hrestore, rfl⟩ | ⟨error, rfl, rfl⟩
    · exact .restored (Except.ok.inj hrestore)
    · exact .refused trivial
  | replay envelope =>
    rcases callInPlace_eq_ok (replayInPlace_does envelope) h with
      ⟨hreplay, rfl⟩ | ⟨error, rfl, rfl⟩
    · exact .replayed hreplay
    · exact .refused trivial
  | apply command event =>
    rcases callInPlace_eq_ok (applyInPlace_does command event _) h with
      ⟨happly, rfl⟩ | ⟨error, rfl, rfl⟩
    · exact .applied happly
    · exact .refused trivial
  | markReady =>
    cases h
    exact .marked
  | execute command =>
    obtain ⟨⟨outcome, c, ids''⟩, hexecute, h⟩ := bind_eq_ok.mp h
    cases h
    exact .executed hexecute
  | takeUncommitted =>
    cases h
    exact .taken

/-- An operation that fails leaves the instance as it was. -/
theorem call_of_error {a b : Aggregate A} {ids ids' : IdSupply} {c : Call A} (hc : c.IsOperation)
    {error : AggregateError} (h : a.call ids c = .ok (.error error, b, ids')) : b = a := by
  have hcalled := call_eq_ok h
  generalize hanswer : (Except.error error : Except AggregateError (Answer A)) = answer at hcalled
  cases hcalled with
  | refused => rfl
  | executed => cases hc
  | _ => cases hanswer

theorem callInPlace_eq_error {a : Aggregate A} {ids : IdSupply}
    {steps : InPlace (Aggregate A) AggregateError Unit}
    {f : Aggregate A → Checked (Except AggregateError (Aggregate A))} (hsteps : steps.Does f)
    {fault : Fault} (h : a.callInPlace ids steps = .error fault) : f a = .error fault := by
  rcases bind_eq_error.mp h with hperform | ⟨⟨outcome, next⟩, -, h⟩
  · exact hsteps.perform_eq_error hperform
  · cases h

/-- A call has no answer only where, behind events that lead somewhere, no version is left for the
next one or its transition stops. -/
theorem call_eq_error {a : Aggregate A} {ids : IdSupply} {c : Call A} {fault : Fault}
    (h : a.call ids c = .error fault) :
    ∃ (events : List A.Event) (reached : A.State),
      events.foldlM a.mutator.next? a.state = some reached ∧
        (a.current.toNat + events.length + 1 = 0x10000000000000000 ∨
          ∃ event, (a.mutator.seed reached).apply event = .error fault) := by
  cases c with
  | restore state version => cases callInPlace_eq_error (restoreInPlace_does state version) h
  | replay envelope =>
    have hreplay := replay_eq_error (callInPlace_eq_error (replayInPlace_does envelope) h)
    exact ⟨[], a.state, rfl, Or.inr ⟨_, hreplay⟩⟩
  | apply command event =>
    rcases apply_eq_error (callInPlace_eq_error (applyInPlace_does command event _) h) with
      hversion | hmoved
    · exact ⟨[], a.state, rfl, Or.inl (Version.next_eq_error hversion).1⟩
    · exact ⟨[], a.state, rfl, Or.inr ⟨event, hmoved⟩⟩
  | markReady => cases h
  | takeUncommitted => cases h
  | execute command =>
    rcases bind_eq_error.mp h with hexecute | ⟨⟨outcome, next, ids'⟩, -, h⟩
    · exact Decision.play_eq_error (execute_eq_error hexecute)
    · cases h

/-- Calls are answered where the first of them is, and then the rest. -/
theorem callAll_cons_eq_ok {a b : Aggregate A} {ids ids' : IdSupply} {c : Call A}
    {calls : List (Call A)} {answers : List (Except AggregateError (Answer A))}
    (h : a.callAll ids (c :: calls) = .ok (answers, b, ids')) :
    ∃ answer rest next ids'', a.call ids c = .ok (answer, next, ids'') ∧
      next.callAll ids'' calls = .ok (rest, b, ids') ∧ answers = answer :: rest := by
  obtain ⟨⟨answer, next, ids''⟩, hcall, h⟩ := bind_eq_ok.mp h
  obtain ⟨⟨rest, last, ids'''⟩, hrest, h⟩ := bind_eq_ok.mp h
  cases h
  exact ⟨answer, rest, next, ids'', hcall, hrest, rfl⟩

theorem callAll_append (before after : List (Call A)) :
    ∀ (a : Aggregate A) (ids : IdSupply), a.callAll ids (before ++ after) = do
      let (told, next, ids) ← a.callAll ids before
      let (rest, b, ids) ← next.callAll ids after
      return (told ++ rest, b, ids) := by
  induction before with
  | nil =>
    intro a ids
    exact (bind_pure _).symm
  | cons c before ih =>
    intro a ids
    simp only [List.cons_append, callAll, ih, bind_assoc, pure_bind]

/-- Calls lead where the first of them lead, and from there the rest. -/
theorem callAll_append_eq_ok {a b : Aggregate A} {ids ids' : IdSupply}
    {before after : List (Call A)} {answers : List (Except AggregateError (Answer A))} :
    a.callAll ids (before ++ after) = .ok (answers, b, ids') ↔
      ∃ told rest next middle, a.callAll ids before = .ok (told, next, middle) ∧
        next.callAll middle after = .ok (rest, b, ids') ∧ answers = told ++ rest := by
  rw [callAll_append]
  constructor
  · intro h
    obtain ⟨⟨told, next, middle⟩, htold, h⟩ := bind_eq_ok.mp h
    obtain ⟨⟨rest, last, ids''⟩, hrest, h⟩ := bind_eq_ok.mp h
    cases h
    exact ⟨told, rest, next, middle, htold, hrest, rfl⟩
  · rintro ⟨told, rest, next, middle, htold, hrest, rfl⟩
    rw [htold]
    show (next.callAll middle after >>= _) = _
    rw [hrest]
    rfl

end Chronicle.Aggregate

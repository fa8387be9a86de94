import Chronicle.Proofs.Completion.Publishing
import Chronicle.Proofs.Engine.Atomicity
import Chronicle.Proofs.Engine.Announce
import Chronicle.Proofs.Sample.Sequence

/-!
# Waiting for what a command led to

An engine marks all events of a command in the tracker before it publishes the first. The bus
reports each when all projections have taken it; where the publication fails, the engine releases
all of them. So the sequence of the command is not done before its last event is handled, and
nothing is left in the tracker, however the publication ends (`publication_is_tracked`).
-/

namespace Chronicle

open Bus (Act performAll)
open Watch (Unhandled run)

/-! ## What is handed to the projections -/

namespace Bus

variable {κ π : Type} [Projection κ π]

/-- The projections at some places take an event, one after the other. -/
inductive Hands (e : AnyEnvelope κ) : List Nat → List π → List π → Prop
  | nil {projections} : Hands e [] projections projections
  | pass {place places projections projections'} (hview : projections[place]? = none)
      (hrest : Hands e places projections projections') :
      Hands e (place :: places) projections projections'
  | take {place places view changed projections projections'}
      (hview : projections[place]? = some view)
      (hhandle : Projection.handle view e = .ok (.ok changed))
      (hrest : Hands e places (projections.set place changed) projections') :
      Hands e (place :: places) projections projections'

/-- The projections at some places take all events of a batch, one event after the other. -/
inductive HandsAll (places : List Nat) : List (AnyEnvelope κ) → List π → List π → Prop
  | nil {projections} : HandsAll places [] projections projections
  | cons {e batch projections projections' projections''}
      (hfirst : Hands e places projections projections')
      (hrest : HandsAll places batch projections' projections'') :
      HandsAll places (e :: batch) projections projections''

theorem hands_of_deliver {e : AnyEnvelope κ} {places : List Nat} :
    ∀ {projections projections' : List π},
      deliver e places projections = .ok (.ok (), projections') →
      Hands e places projections projections' := by
  induction places with
  | nil =>
    intro projections projections' h
    obtain ⟨-, rfl⟩ := Prod.mk.inj (Except.ok.inj h)
    exact .nil
  | cons place places ih =>
    intro projections projections' h
    unfold deliver at h
    split at h
    · next hview => exact .pass hview (ih h)
    · next view hview =>
      obtain ⟨answer, hhandle, h⟩ := bind_eq_ok.mp h
      cases answer with
      | error error => cases h
      | ok changed => exact .take hview hhandle (ih h)

theorem handsAll_of_publishEach {batch : List (AnyEnvelope κ)} :
    ∀ {bus bus' : Bus κ π} {tracker tracker' : CompletionTracker},
      publishEach batch bus tracker = .ok (.ok (), bus', tracker') →
      HandsAll bus.registered batch bus.projections bus'.projections := by
  induction batch with
  | nil =>
    intro bus bus' tracker tracker' h
    obtain ⟨-, rfl, rfl⟩ := Except.ok.inj h
    exact .nil
  | cons e batch ih =>
    intro bus bus' tracker tracker' h
    obtain ⟨projections, hdeliver, h⟩ := publishEach_cons_eq_ok h
    exact .cons (hands_of_deliver hdeliver) (ih h)

end Bus

namespace Engine

variable {κ π : Type} [Projection κ π] {A : AggregateType} [Carries κ A.Id A.Event]

/-! ## The acts of a publication -/

/-- What an engine publishes are the acts of one publication, and the releases behind it if one of
these fails. -/
theorem publish_eq_performAll (envelopes : List (EventEnvelope A.Id A.Event))
    (w : World MemoryStore κ π) :
    publish A envelopes w =
      (do
        let batch := envelopes.map fun envelope => AnyEnvelope.erase A envelope none
        let (outcome, bus, tracker) ← performAll (w.bus.publication batch) w.bus w.tracker
        match outcome with
        | .ok () => return (.ok (), { w with bus := bus, tracker := tracker })
        | .error error => do
          let (_, bus, tracker) ← performAll (batch.map .release) bus tracker
          return (.error (.bus error), { w with bus := bus, tracker := tracker })) := by
  rw [publish]
  simp only [Bus.publication, Bus.performAll_append_of_ok (Bus.performAll_marks ..),
    Bus.performAll_marks]
  rfl

section Points

variable {batch : List (AnyEnvelope κ)} {before : List Watch.Step} {first : Bus κ π}
  {tracker : CompletionTracker}

/-- The acts that were done lead to a point of the publication. -/
theorem publishing_of_acts (htracker : tracker = (run before).tracker) {done left : List (Act κ)}
    {bus : Bus κ π} {tracker' : CompletionTracker} (hall : first.publication batch = done ++ left)
    (hperform : performAll done first tracker = .ok (.ok (), bus, tracker')) :
    ∃ since, Publishing batch first before (.acting left) bus since ∧
      tracker' = (run (before ++ since)).tracker := by
  have hbegins : Publishing batch first before (.acting (done ++ left)) first [] :=
    hall ▸ .begins
  refine hbegins.of_performAll ?_
  rwa [List.append_nil, ← htracker]

/-- So do the releases behind a failure. -/
theorem publishing_of_releases (htracker : tracker = (run before).tracker)
    {done left : List (Act κ)} {error : BusError} {failed bus : Bus κ π}
    {tracker₁ tracker' : CompletionTracker}
    (hfails : performAll (first.publication batch) first tracker =
      .ok (.error error, failed, tracker₁))
    (hall : batch.map .release = done ++ left)
    (hperform : performAll done failed tracker₁ = .ok (.ok (), bus, tracker')) :
    ∃ since, Publishing batch first before (.failing error left) bus since ∧
      tracker' = (run (before ++ since)).tracker := by
  have hbegins : Publishing batch first before (.acting (first.publication batch)) first [] :=
    .begins
  rw [htracker, ← List.append_nil before] at hfails
  obtain ⟨since, hfailing, rfl⟩ := hbegins.of_performAll_error hfails
  rw [hall] at hfailing
  exact hfailing.of_releases hperform

end Points

/-- What an engine publishes comes to the end of a publication. -/
theorem publishing_of_publish {envelopes : List (EventEnvelope A.Id A.Event)}
    {w w' : World MemoryStore κ π} {outcome : Except EngineError Unit} {before : List Watch.Step}
    (htracker : w.tracker = (run before).tracker)
    (h : publish A envelopes w = .ok (outcome, w')) :
    ∃ published since, outcome = published.mapError .bus ∧
      Publishing (envelopes.map fun e => AnyEnvelope.erase A e none) w.bus before
        (.returned published) w'.bus since ∧
      w'.tracker = (run (before ++ since)).tracker := by
  rw [publish_eq_performAll] at h
  obtain ⟨⟨answer, bus, tracker⟩, hperform, h⟩ := bind_eq_ok.mp h
  cases answer with
  | ok =>
    obtain ⟨rfl, rfl⟩ := Prod.mk.inj (Except.ok.inj h)
    obtain ⟨since, hacted, hlast⟩ :=
      publishing_of_acts htracker (List.append_nil _).symm hperform
    exact ⟨.ok (), since, rfl, hacted.succeeds, hlast⟩
  | error error =>
    obtain ⟨⟨released, bus', tracker'⟩, hreleases, h⟩ := bind_eq_ok.mp h
    obtain ⟨rfl, rfl⟩ := Prod.mk.inj (Except.ok.inj h)
    obtain rfl : released = .ok () := by
      rw [Bus.performAll_releases] at hreleases
      exact (congrArg Prod.fst (Except.ok.inj hreleases)).symm
    obtain ⟨since, hreleased, hlast⟩ :=
      publishing_of_releases htracker hperform (List.append_nil _).symm hreleases
    exact ⟨.error error, since, rfl, hreleased.fails, hlast⟩

/-! ## What a command that is waited for led to -/

omit [Projection κ π] in
/-- To wait changes neither the store nor the bus. -/
theorem awaitCompletion_same (timeout : Duration) (sequence : SequenceId)
    (w : World MemoryStore κ π) :
    (awaitCompletion timeout sequence w).2.2.store = w.store ∧
      (awaitCompletion timeout sequence w).2.2.bus = w.bus := by
  unfold awaitCompletion
  split
  · exact ⟨rfl, rfl⟩
  · split <;> exact ⟨rfl, rfl⟩

theorem send_of_sendAndWait {settings : Settings} {command : CommandEnvelope A.Id A.Command}
    {timeout : Option Duration} {w w' : World MemoryStore κ π} {result : CommandResult}
    {pauses : List Duration}
    (h : sendAndWait settings A command timeout w = .ok (.ok result, pauses, w')) :
    ∃ w₁, send settings A command w = .ok (.ok result, w₁) ∧ w'.store = w₁.store ∧
      w'.bus = w₁.bus := by
  obtain ⟨⟨outcome, w₁⟩, hsend, h⟩ := bind_eq_ok.mp h
  cases outcome with
  | error error => cases h
  | ok answer =>
    cases hchanges : answer.hasChanges with
    | false =>
      simp only [hchanges, Bool.false_eq_true, if_false] at h
      obtain ⟨heq, -, rfl⟩ := Except.ok.inj h
      exact ⟨_, hsend, rfl, rfl⟩
    | true =>
      obtain ⟨hstore, hbus⟩ := awaitCompletion_same (timeout.getD settings.publicationTimeout)
        command.sequenceId w₁
      simp only [hchanges, if_true] at h
      obtain ⟨heq, hrest⟩ := Prod.mk.inj (Except.ok.inj h)
      obtain ⟨-, rfl⟩ := Prod.mk.inj hrest
      cases hwaited : (awaitCompletion (timeout.getD settings.publicationTimeout)
        command.sequenceId w₁).1 with
      | error error => rw [hwaited] at heq; cases heq
      | ok =>
        rw [hwaited] at heq
        obtain rfl := Except.ok.inj heq
        exact ⟨w₁, hsend, hstore, hbus⟩

theorem handsAll_of_publish {envelopes : List (EventEnvelope A.Id A.Event)}
    {w w' : World MemoryStore κ π} (h : publish A envelopes w = .ok (.ok (), w')) :
    Bus.HandsAll w.bus.registered
      (envelopes.map fun e => (AnyEnvelope.erase A e none : AnyEnvelope κ))
      w.bus.projections w'.bus.projections := by
  rw [publish_eq] at h
  obtain ⟨⟨answer, bus, tracker⟩, hpublish, h⟩ := bind_eq_ok.mp h
  cases answer with
  | error error => cases h
  | ok =>
    obtain ⟨-, rfl⟩ := Prod.mk.inj (Except.ok.inj h)
    obtain ⟨each, heach, rfl⟩ := Bus.publish_eq_ok hpublish
    have hhands := Bus.handsAll_of_publishEach heach
    exact hhands

/-- A send that is answered with changes has stored what it published, and every projection that
is registered has taken it. -/
theorem handsAll_of_send {settings : Settings} {command : CommandEnvelope A.Id A.Command}
    {w w' : World MemoryStore κ π} {result : CommandResult}
    (h : send settings A command w = .ok (.ok result, w')) (hchanges : result.hasChanges = true) :
    ∃ p events stored version,
      Task.Stores (⟨settings, A, command⟩ : Task κ) w.store p events stored version w'.store ∧
      Bus.HandsAll w.bus.registered
        (p.envelopes.map fun e => (AnyEnvelope.erase A e none : AnyEnvelope κ))
        w.bus.projections w'.bus.projections := by
  generalize hanswer : (Except.ok result : Except EngineError CommandResult) = answer at h
  cases send_eq_ok h with
  | notStarted | unbound | undecided | refused => cases hanswer
  | idle _ hrestore hdecide =>
    obtain rfl := Except.ok.inj hanswer
    rw [(idle_of_decide hrestore hdecide).2.1] at hchanges
    cases hchanges
  | @stored a p version published w₁ w₂ w₃ _ _ hrestore hdecide happend hpublish =>
    cases published with
    | error error => cases hanswer
    | ok =>
      obtain ⟨state, start, rfl, -, hstill₁⟩ := restoreSnapshot_eq_ok hrestore
      obtain ⟨hstill₂, ⟨_, -, hno⟩ | ⟨b, play, envelopes, hreplay, hplay, hstamped, hhanded⟩⟩ :=
        decide_eq_ok hdecide
      · cases hno
      have hstill := hstill₁.trans hstill₂
      obtain ⟨htenant, hstream, ⟨state', current, hplays⟩, hstamped⟩ :=
        Task.stamped_of_handed (t := (⟨settings, A, command⟩ : Task κ)) hreplay hplay hstamped
          hhanded.symm
      rcases append_eq_ok happend with ⟨_, hno, -⟩ | ⟨stored, _, heq, hstored, happends, hstill₃⟩
      · cases hno
      obtain rfl := Except.ok.inj heq
      have hbus : (saveSnapshot settings p version w₃).bus = w.bus := by
        rcases saveSnapshot_cases settings p version w₃ with hsaved | ⟨_, -, hsaved⟩ <;>
          exact hsaved.bus.trans (hstill₃.bus.trans hstill.bus)
      have hlast : w'.store = w₃.store := by
        rw [(publish_eq_ok hpublish).2]
        exact saveSnapshot_store ..
      have hhands := handsAll_of_publish hpublish
      rw [hbus] at hhands
      rw [hstill.store, htenant, hstream, ← hlast] at happends
      exact ⟨p, play.events, stored, version,
        ⟨⟨state', current, play, hplays, rfl⟩, hstamped, hstored, happends⟩, hhands⟩

/-! ## The whole -/

/-- **A publication leaves nothing behind and does not end early.** Let some new events of a
sequence be published, with any events unhandled before, of this sequence and others, and with
anyone waiting, and let others begin to wait and their time run out between any two acts of the
publication.

- From the first act on the sequence is not done before all projections have been handed the last
  of the events and it was reported, or the publication has failed.
- Behind it, whether it has failed or not, the same is unhandled as before it, and whoever was
  waiting, or began to, and whose time did not run out is released exactly if nothing of its
  sequence is unhandled then.
- The acts are the engine's own: it performs them one after the other, and the releases behind the
  first that fails. Wherever this is cut, bus and tracker are those of a point of the publication,
  and so they are at its end.
- Where a command that is waited for is answered with changes, every registered projection has taken
  every event that it stored. -/
theorem publication_is_tracked {before : List Watch.Step} {w : World MemoryStore κ π}
    {sequence : SequenceId} {envelopes : List (EventEnvelope A.Id A.Event)}
    (htracker : w.tracker = (run before).tracker) (hreports : w.bus.reports = true)
    (hsequence : ∀ e ∈ envelopes, e.sequenceId = sequence)
    (hdistinct : (envelopes.map EventEnvelope.eventId).Nodup)
    (hfresh : ∀ e ∈ envelopes, e.eventId ∉ w.tracker.outstanding sequence) :
    let batch : List (AnyEnvelope κ) := envelopes.map fun e => AnyEnvelope.erase A e none
    (∀ stage bus since, Publishing batch w.bus before stage bus since →
      stage.UnderWay batch w.bus → (run (before ++ since)).tracker.isDone sequence = false) ∧
    (∀ outcome bus since, Publishing batch w.bus before (.returned outcome) bus since →
      let last := run (before ++ since)
      (∀ other event, event ∈ last.tracker.outstanding other ↔
        event ∈ w.tracker.outstanding other) ∧
      ∀ place wait, last.waits[place]? = some wait →
        (∀ wait, (run before).waits[place]? = some wait → wait.answers = []) →
        .runsOut place ∉ since →
        wait.answers =
          if last.tracker.isDone wait.sequence = true then [.ok ()] else []) ∧
    ((publish A envelopes w = do
        let (outcome, bus, tracker) ← performAll (w.bus.publication batch) w.bus w.tracker
        match outcome with
        | .ok () => return (.ok (), { w with bus := bus, tracker := tracker })
        | .error error => do
          let (_, bus, tracker) ← performAll (batch.map .release) bus tracker
          return (.error (.bus error), { w with bus := bus, tracker := tracker })) ∧
      (∀ done left bus tracker, w.bus.publication batch = done ++ left →
        performAll done w.bus w.tracker = .ok (.ok (), bus, tracker) →
        ∃ since, Publishing batch w.bus before (.acting left) bus since ∧
          tracker = (run (before ++ since)).tracker) ∧
      (∀ error failed tracker₁ done left bus tracker,
        performAll (w.bus.publication batch) w.bus w.tracker =
          .ok (.error error, failed, tracker₁) →
        batch.map .release = done ++ left →
        performAll done failed tracker₁ = .ok (.ok (), bus, tracker) →
        ∃ since, Publishing batch w.bus before (.failing error left) bus since ∧
          tracker = (run (before ++ since)).tracker) ∧
      ∀ outcome w', publish A envelopes w = .ok (outcome, w') →
        ∃ published since, outcome = published.mapError .bus ∧
          Publishing batch w.bus before (.returned published) w'.bus since ∧
          w'.tracker = (run (before ++ since)).tracker) ∧
    ∀ settings command timeout (w w' : World MemoryStore κ π) result pauses,
      sendAndWait settings A command timeout w = .ok (.ok result, pauses, w') →
      result.hasChanges = true →
      ∃ p events stored version,
        Task.Stores (⟨settings, A, command⟩ : Task κ) w.store p events stored version w'.store ∧
        Bus.HandsAll w.bus.registered
          (p.envelopes.map fun e => (AnyEnvelope.erase A e none : AnyEnvelope κ))
          w.bus.projections w'.bus.projections := by
  intro batch
  have hmarks := (Watch.sound_run before).marks
  have hkeys : batch.map AnyEnvelope.key =
      (envelopes.map EventEnvelope.eventId).map fun event => (sequence, event) := by
    rw [List.map_map, List.map_map]
    exact List.map_congr_left fun e hmem => by
      simp [AnyEnvelope.key, AnyEnvelope.erase, hsequence e hmem]
  have hnodup : (batch.map AnyEnvelope.key).Nodup := by
    rw [hkeys]
    exact hdistinct.map fun _ _ heq => (Prod.mk.inj heq).2
  have hnew : ∀ e ∈ batch, ¬Unhandled before e.sequenceId e.eventId := by
    rintro _ hmem
    obtain ⟨envelope, henvelope, rfl⟩ := List.mem_map.mp hmem
    rw [← hmarks, ← htracker]
    have hout := hfresh envelope henvelope
    rw [← hsequence envelope henvelope] at hout
    exact hout
  refine ⟨fun stage bus since h hunder => ?_, fun outcome bus since h => ⟨fun other event => ?_,
    fun place wait hwait hopen hintime => ?_⟩, ⟨publish_eq_performAll envelopes w,
    fun done left bus tracker hall hperform => publishing_of_acts htracker hall hperform,
    fun error failed tracker₁ done left bus tracker hfails hall hperform =>
      publishing_of_releases htracker hfails hall hperform,
    fun outcome w' h => publishing_of_publish htracker h⟩,
    fun settings command timeout w w' result pauses h hchanges => ?_⟩
  · obtain ⟨e, hmem, hunhandled⟩ := h.exists_unhandled hnodup hreports hunder
    obtain ⟨envelope, henvelope, rfl⟩ := List.mem_map.mp hmem
    have hsound := Watch.sound_run (before ++ since)
    rw [← Bool.not_eq_true, hsound.tidy.isDone_iff, ← hsequence envelope henvelope]
    exact List.ne_nil_of_mem ((hsound.marks _ _).mpr hunhandled)
  · rw [(Watch.sound_run (before ++ since)).marks, htracker, hmarks]
    exact h.unhandled_of_returned hreports hnew other event
  · exact h.answers_of_returned hreports hnew hwait hopen hintime
  · obtain ⟨w₁, hsend, hstore, hbus⟩ := send_of_sendAndWait h
    rw [hstore, hbus]
    exact handsAll_of_send hsend hchanges

open Sample in
/-- An event of the sequence 2, of which the event 5 is not handled and for which someone waits. -/
def announced (event : Nat) (payload : SequenceEvent) :
    EventEnvelope sequenceType.Id sequenceType.Event :=
  ⟨7, sequenceType.stream (7 : UInt64), .default, ⟨.ofNat event⟩, ⟨.ofNat 1⟩, ⟨.ofNat 2⟩, .system,
    payload, ⟨0, 0⟩, ⟨1⟩⟩

/-- What was done before: the event 5 was published, and someone waits. -/
def awaited : List Watch.Step :=
  [.starts ⟨.ofNat 2⟩ ⟨.ofNat 5⟩, .waits ⟨.ofNat 2⟩ (.ofMillis 10)]

open Sample in
/-- A world with a projection that takes numbers and declines that a sequence is cleared. -/
def pending : World MemoryStore Carrier (Recorder Carrier) :=
  ⟨.empty, .empty, .new [⟨"sums", [], some "Cleared.v1", 0⟩] [0] true, (run awaited).tracker,
    .zero, ⟨0⟩, ⟨0, 0⟩, true⟩

open Sample in
set_option maxRecDepth 10000 in
/-- The second of two events is declined by a projection. The publication fails, and the event 5 is
still not handled, but no other. -/
theorem declined_event_is_not_awaited : ∃ last : World MemoryStore Carrier (Recorder Carrier),
    let envelopes := [announced 8 (.itemAdded 3), announced 9 .cleared]
    pending.tracker = (run awaited).tracker ∧ pending.bus.reports = true ∧
    (∀ e ∈ envelopes, e.sequenceId = ⟨.ofNat 2⟩) ∧
    (envelopes.map EventEnvelope.eventId).Nodup ∧
    (∀ e ∈ envelopes, e.eventId ∉ pending.tracker.outstanding ⟨.ofNat 2⟩) ∧
    publish sequenceType envelopes pending =
      .ok (.error (.bus (.projection "sums" (.eventProcessing "sums refuses Cleared.v1"))), last) ∧
    ∀ event, event ∈ last.tracker.outstanding ⟨.ofNat 2⟩ ↔
      event ∈ pending.tracker.outstanding ⟨.ofNat 2⟩ := by
  have hpublished : ∃ last : World MemoryStore Carrier (Recorder Carrier),
      publish sequenceType [announced 8 (.itemAdded 3), announced 9 .cleared] pending =
        .ok (.error (.bus (.projection "sums" (.eventProcessing "sums refuses Cleared.v1"))),
          last) := ⟨_, rfl⟩
  obtain ⟨last, hpublished⟩ := hpublished
  have hsequence : ∀ e ∈ [announced 8 (.itemAdded 3), announced 9 .cleared],
      e.sequenceId = ⟨.ofNat 2⟩ := by decide
  have hdistinct : ([announced 8 (.itemAdded 3), announced 9 .cleared].map
      EventEnvelope.eventId).Nodup := by decide
  have hfresh : ∀ e ∈ [announced 8 (.itemAdded 3), announced 9 .cleared],
      e.eventId ∉ pending.tracker.outstanding ⟨.ofNat 2⟩ := by decide
  obtain ⟨-, hreturned, ⟨-, -, -, hsteps⟩, -⟩ :=
    publication_is_tracked (w := pending) rfl rfl hsequence hdistinct hfresh
  obtain ⟨published, since, -, hpublishing, htracker⟩ := hsteps _ last hpublished
  refine ⟨last, rfl, rfl, hsequence, hdistinct, hfresh, hpublished, fun event => ?_⟩
  rw [htracker]
  exact (hreturned published _ since hpublishing).1 _ event

end Engine

end Chronicle

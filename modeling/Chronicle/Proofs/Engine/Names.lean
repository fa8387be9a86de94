import Chronicle.Proofs.Engine.Alone
import Chronicle.Proofs.Store.Scope

/-!
# Commands and queries do not look at names

Neither the names of events nor, for one stream, their positions have a part in what an instance
becomes (`Engine.replayStream_of_agrees`), in what it hands on (`Engine.handed_of_unnamed_eq`) or in
whether that is stored (`Scope.Agrees.appendEnvelopes`).
-/

namespace Chronicle

/-! ## Reading without names -/

section Names

variable {scope : Scope} {A : AggregateType} {codec : Codec}

/-- What a scope does not tell apart is read alike but for the names of the events. -/
theorem EventEnvelope.ofRecorded_blur (row : RecordedEvent) :
    (EventEnvelope.ofRecorded (scope.blur row) codec :
        Except TranslationError (EventEnvelope A.Id A.Event)) =
      (EventEnvelope.ofRecorded row codec).map EventEnvelope.unnamed := by
  cases scope with
  | ofStream => exact ofRecorded_unnamed row
  | ofTenant => exact ofRecorded_unnamed row

theorem mapM_ofRecorded_of_blur_eq (codec : Codec) {rows rows' : List RecordedEvent}
    (h : rows.map scope.blur = rows'.map scope.blur) :
    let read (row : RecordedEvent) : Except StoreError (EventEnvelope A.Id A.Event) :=
      (EventEnvelope.ofRecorded row codec).mapError .translation
    (rows.mapM read).map (List.map EventEnvelope.unnamed) =
      (rows'.mapM read).map (List.map EventEnvelope.unnamed) := by
  intro read
  have hread : ∀ row, (read row).map EventEnvelope.unnamed = read (scope.blur row) := fun row => by
    simp only [read, EventEnvelope.ofRecorded_blur]
    cases EventEnvelope.ofRecorded (ι := A.Id) (ε := A.Event) row codec <;> rfl
  have hblur : ∀ rows : List RecordedEvent,
      rows.mapM (fun row => read (scope.blur row)) = (rows.map scope.blur).mapM read :=
    fun rows => by
      rw [List.mapM_map]
      rfl
  rw [← mapM_map_eq, ← mapM_map_eq]
  simp only [hread, hblur, h]

theorem Aggregate.replayAll_unnamed (envelopes : List (EventEnvelope A.Id A.Event)) :
    ∀ a : Aggregate A,
      a.replayAll (envelopes.map EventEnvelope.unnamed) = a.replayAll envelopes := by
  induction envelopes with
  | nil => exact fun _ => rfl
  | cons envelope envelopes ih =>
    intro a
    simp only [List.map_cons, replayAll, ih]
    rfl

/-- What is loaded of a stream is the same but for names. -/
theorem Scope.Agrees.loadEnvelopes {s s' : MemoryStore} (h : scope.Agrees s s') (codec : Codec)
    {tenant : TenantId} {stream : StreamId} (hcovers : scope.covers tenant stream)
    (range : VersionRange) :
    (EventStore.loadEnvelopes A.Id A.Event s codec tenant stream range).map
        (fun typed => typed.envelopes.map EventEnvelope.unnamed) =
      (EventStore.loadEnvelopes A.Id A.Event s' codec tenant stream range).map
        fun typed => typed.envelopes.map EventEnvelope.unnamed := by
  have hread := loadStream_of_blur_eq (h.rows tenant stream hcovers) range
  have hforget : ∀ s : MemoryStore,
      (EventStore.loadEnvelopes A.Id A.Event s codec tenant stream range).map
        (fun typed => typed.envelopes.map EventEnvelope.unnamed) =
      s.ensureAvailable.bind fun _ =>
        (((s.tenant tenant).loadStream stream range).rows.mapM fun row =>
          (EventEnvelope.ofRecorded row codec).mapError StoreError.translation).map
            (List.map (EventEnvelope.unnamed (ι := A.Id) (ε := A.Event))) := by
    intro s
    simp only [EventStore.loadEnvelopes, EventStore.loadStream, MemoryStore.loadStream]
    cases s.ensureAvailable with
    | error error => rfl
    | ok =>
      rcases hrows : ((s.tenant tenant).loadStream stream range).rows.mapM fun row =>
          (EventEnvelope.ofRecorded (ι := A.Id) (ε := A.Event) row codec).mapError
            StoreError.translation <;>
        simp only [bind, Except.bind, pure, Except.pure, Except.map, hrows]
  rw [hforget, hforget, h.ensureAvailable, mapM_ofRecorded_of_blur_eq (A := A) codec hread.1]

/-- Stores that agree bring an instance up to date alike. -/
theorem Engine.replayStream_of_agrees {s s' : MemoryStore} (h : scope.Agrees s s')
    (settings : Settings) {a : Aggregate A} (hcovers : scope.covers a.tenant a.stream) :
    replayStream settings a s' = replayStream settings a s := by
  have hload := h.loadEnvelopes (A := A) settings.codec hcovers (.above a.current)
  unfold replayStream
  cases hs : EventStore.loadEnvelopes A.Id A.Event s settings.codec a.tenant a.stream
      (.above a.current) with
  | error error =>
    rw [hs] at hload
    cases hs' : EventStore.loadEnvelopes A.Id A.Event s' settings.codec a.tenant a.stream
        (.above a.current) with
    | error error' =>
      rw [hs'] at hload
      obtain rfl := Except.error.inj hload
      rfl
    | ok typed' =>
      rw [hs'] at hload
      cases hload
  | ok typed =>
    obtain ⟨typed', hs', hsame⟩ := exists_of_map_eq hload hs
    rw [hs']
    simp only [← Aggregate.replayAll_unnamed typed.envelopes,
      ← Aggregate.replayAll_unnamed typed'.envelopes, hsame]

theorem EventEnvelope.serializeFrom_unnamed {ι ε : Type} [InstanceId ι] [EventKind ε] [Wire ε]
    {tag : TypeTag} {stream : StreamId} {expected : Version}
    (envelopes : List (EventEnvelope ι ε)) : ∀ place : Nat,
      EventStore.serializeFrom codec tag stream expected place
          (envelopes.map EventEnvelope.unnamed) =
        (EventStore.serializeFrom codec tag stream expected place envelopes).map
          (Except.map (List.map SerializedEvent.unnamed)) := by
  induction envelopes with
  | nil => exact fun _ => rfl
  | cons envelope envelopes ih =>
    intro place
    rw [List.map_cons, EventStore.serializeFrom, EventStore.serializeFrom, ih,
      envelope.serialize_unnamed]
    cases expected.add (UInt64.ofNat place) with
    | error fault => rfl
    | ok due =>
      by_cases hdue : envelope.version = due
      · have hdue' : envelope.unnamed.version = due := hdue
        simp only [bind, Except.bind, hdue, hdue', if_true]
        cases envelope.serialize codec tag with
        | error error => rfl
        | ok event =>
          rcases EventStore.serializeFrom codec tag stream expected (place + 1) envelopes with
            _ | _ | _ <;> rfl
      · have hdue' : envelope.unnamed.version ≠ due := hdue
        simp only [bind, Except.bind, hdue, hdue', if_false]
        rfl

/-- Envelopes that are the same but for names are appended alike. -/
theorem Scope.Agrees.appendEnvelopes {ι ε : Type} [InstanceId ι] [EventKind ε] [Wire ε]
    {s s' s₁ : MemoryStore} (h : scope.Agrees s s') {tag : TypeTag} {tenant : TenantId}
    {stream : StreamId} {expected : Version} {envelopes envelopes' : List (EventEnvelope ι ε)}
    (hsame : envelopes.map EventEnvelope.unnamed = envelopes'.map EventEnvelope.unnamed)
    (hcovers : scope.covers tenant stream) {outcome : Except StoreError Version}
    (happend : EventStore.appendEnvelopes s codec tag tenant stream expected envelopes =
      .ok (outcome, s₁)) :
    ∃ s₁', EventStore.appendEnvelopes s' codec tag tenant stream expected envelopes' =
      .ok (outcome, s₁') ∧ scope.Agrees s₁ s₁' := by
  have hempty := congrArg List.isEmpty hsame
  rw [List.isEmpty_map, List.isEmpty_map] at hempty
  unfold EventStore.appendEnvelopes at happend ⊢
  rw [← hempty]
  split at happend
  · next hnil =>
    obtain ⟨rfl, rfl⟩ := Prod.mk.inj (Except.ok.inj happend)
    exact ⟨s', by rw [if_pos hnil], h⟩
  next hne =>
  rw [if_neg hne]
  obtain ⟨serialized, hserialized, happend⟩ := bind_eq_ok.mp happend
  have hboth : (EventStore.serializeFrom codec tag stream expected 1 envelopes).map
      (Except.map (List.map SerializedEvent.unnamed)) =
        (EventStore.serializeFrom codec tag stream expected 1 envelopes').map
          (Except.map (List.map SerializedEvent.unnamed)) := by
    rw [← EventEnvelope.serializeFrom_unnamed, ← EventEnvelope.serializeFrom_unnamed, hsame]
  obtain ⟨serialized', hserialized', hnames⟩ := exists_of_map_eq hboth hserialized
  rw [hserialized']
  cases serialized with
  | error error =>
    obtain ⟨rfl, rfl⟩ := Prod.mk.inj (Except.ok.inj happend)
    cases serialized' with
    | error error' =>
      obtain rfl := Except.error.inj hnames
      exact ⟨s', rfl, h⟩
    | ok => cases hnames
  | ok events =>
    cases serialized' with
    | error => cases hnames
    | ok events' =>
      obtain ⟨s₁', happends, hagrees⟩ :=
        h.append hcovers (Except.ok.inj hnames) (MemoryStore.append_eq_ok happend)
      exact ⟨s₁', happends.append_eq, hagrees⟩

end Names

/-! ## Proposals without names -/

namespace Engine

variable {A : AggregateType}

def Proposal.unnamed (p : Proposal A) : Proposal A :=
  { p with envelopes := p.envelopes.map EventEnvelope.unnamed }

def Handled.unnamed : Handled A → Handled A
  | .idle result => .idle result
  | .proposed p => .proposed p.unnamed

/-- What is handed on does not depend on the names of the events. -/
theorem handed_of_unnamed_eq (b : Aggregate A) (p : Play A.State A.Event)
    {envelopes envelopes' : List (EventEnvelope A.Id A.Event)}
    (h : envelopes.map EventEnvelope.unnamed = envelopes'.map EventEnvelope.unnamed) :
    (handed b p envelopes).map Handled.unnamed = (handed b p envelopes').map Handled.unnamed := by
  have hall : (b.uncommitted ++ envelopes).map EventEnvelope.unnamed =
      (b.uncommitted ++ envelopes').map EventEnvelope.unnamed := by
    rw [List.map_append, List.map_append, h]
  have hchanges : (b.moved p envelopes).hasChanges = (b.moved p envelopes').hasChanges := by
    have hempty := congrArg List.isEmpty hall
    rw [List.isEmpty_map, List.isEmpty_map] at hempty
    simp only [Aggregate.hasChanges, Aggregate.moved, hempty]
  unfold handed
  cases hverdict : p.verdict with
  | accepted =>
    simp only [Aggregate.conclude, hverdict, hchanges]
    split
    · simp only [Except.map, Handled.unnamed, Proposal.unnamed, propose]
      simp only [Aggregate.moved] at hall ⊢
      rw [hall]
      rfl
    · rfl
  | rejected reason =>
    simp only [Aggregate.conclude, hverdict]
    rfl
  | abandoned error => simp only [Aggregate.conclude, hverdict]

end Engine

end Chronicle

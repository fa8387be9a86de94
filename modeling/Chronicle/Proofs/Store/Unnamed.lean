import Chronicle.Proofs.Store.Invariant

/-!
# Stored events up to their identities

Nothing that decides how an append ends looks at the events themselves. So two stores that are the
same but for what is forgotten of the events (`AgreesUpTo`) take the same appends and agree again
(`Appends.agreesUpTo`).

The identities of events are drawn at random, so that two runs that store the same events store
them under different names. `unnamed` forgets the name of an event, in each of its forms; two
stores that are the same but for the names `Matches` each other. `bare` forgets the bytes as well,
which differ from codec to codec.
-/

namespace Chronicle

/-! ## Events without names -/

/-- An envelope without the identity of its event. -/
def EventEnvelope.unnamed {ι ε : Type} (e : EventEnvelope ι ε) : EventEnvelope ι ε :=
  { e with eventId := ⟨.ofNat 0⟩ }

def SerializedEvent.unnamed (event : SerializedEvent) : SerializedEvent :=
  { event with metadata := { event.metadata with eventId := ⟨.ofNat 0⟩ } }

def RecordedEvent.unnamed (row : RecordedEvent) : RecordedEvent :=
  { row with event := row.event.unnamed }

/-- Two computations that agree up to some feature of their answers both have an answer or both
have none. -/
theorem exists_of_map_eq {ε α β γ : Type} {f : α → γ} {g : β → γ} {x : Except ε α}
    {y : Except ε β} {a : α} (h : x.map f = y.map g) (hx : x = .ok a) :
    ∃ b, y = .ok b ∧ f a = g b := by
  subst hx
  cases y with
  | error error => cases h
  | ok b => exact ⟨b, rfl, Except.ok.inj h⟩

theorem mapM_map_eq {ε α β γ : Type} (f : α → Except ε β) (g : β → γ) (xs : List α) :
    xs.mapM (fun x => (f x).map g) = (xs.mapM f).map (List.map g) := by
  induction xs with
  | nil => rfl
  | cons x xs ih =>
    rw [List.mapM_cons, List.mapM_cons, ih]
    cases f x with
    | error error => rfl
    | ok y => cases xs.mapM f <;> rfl

/-- Reading a row does not look at the name of its event. -/
theorem EventEnvelope.ofRecorded_unnamed {ι ε : Type} [InstanceId ι] [EventKind ε] [Wire ε]
    {codec : Codec} (row : RecordedEvent) :
    (EventEnvelope.ofRecorded row.unnamed codec :
        Except TranslationError (EventEnvelope ι ε)) =
      (EventEnvelope.ofRecorded row codec).map EventEnvelope.unnamed := by
  obtain ⟨stream, version, position, kind, data, metadata⟩ := row
  simp only [ofRecorded, RecordedEvent.unnamed, SerializedEvent.unnamed]
  cases parseId (ι := ι) metadata.aggregateId with
  | error error => rfl
  | ok id =>
    cases codec.decode (α := ε) data with
    | error error => rfl
    | ok payload =>
      show (if EventKind.kind payload = kind then _ else _) =
        Except.map _ (if EventKind.kind payload = kind then _ else _)
      split <;> rfl

theorem EventEnvelope.serialize_unnamed {ι ε : Type} [InstanceId ι] [EventKind ε] [Wire ε]
    (codec : Codec) (tag : TypeTag) (e : EventEnvelope ι ε) :
    e.unnamed.serialize codec tag = (e.serialize codec tag).map SerializedEvent.unnamed := by
  show (codec.encode e.payload).map _ = ((codec.encode e.payload).map _).map _
  cases codec.encode e.payload <;> rfl

theorem mapM_serialize_unnamed {ι ε : Type} [InstanceId ι] [EventKind ε] [Wire ε] (codec : Codec)
    (tag : TypeTag) (envelopes : List (EventEnvelope ι ε)) :
    (envelopes.map EventEnvelope.unnamed).mapM (fun e => e.serialize codec tag) =
      (envelopes.mapM fun e : EventEnvelope ι ε => e.serialize codec tag).map
        (List.map SerializedEvent.unnamed) := by
  rw [← mapM_map_eq, List.mapM_map]
  exact congrArg (List.mapM · envelopes) (funext fun e => e.serialize_unnamed codec tag)

/-- Envelopes that are the same but for the names are stored as events that are. -/
theorem serialize_of_unnamed_eq {ι ε : Type} [InstanceId ι] [EventKind ε] [Wire ε] {codec : Codec}
    {tag : TypeTag} {envelopes envelopes' : List (EventEnvelope ι ε)}
    {events : List SerializedEvent}
    (hsame : envelopes.map EventEnvelope.unnamed = envelopes'.map EventEnvelope.unnamed)
    (h : envelopes.mapM (fun e => e.serialize codec tag) = .ok events) :
    ∃ events', envelopes'.mapM (fun e => e.serialize codec tag) = .ok events' ∧
      events.map SerializedEvent.unnamed = events'.map SerializedEvent.unnamed := by
  refine exists_of_map_eq ?_ h
  rw [← mapM_serialize_unnamed, ← mapM_serialize_unnamed, hsame]

/-! ## Events without bytes -/

/-- A stored event without its name and without the bytes of its payload. -/
def SerializedEvent.bare (event : SerializedEvent) : SerializedEvent :=
  { event.unnamed with data := [] }

/-- What is left of an envelope when it is stored and its name and its bytes are forgotten. -/
def EventEnvelope.bare {ι ε : Type} [InstanceId ι] [EventKind ε] (tag : TypeTag)
    (e : EventEnvelope ι ε) : SerializedEvent :=
  ⟨e.kind, [], e.unnamed.metadata tag⟩

theorem bare_of_serialize {ι ε : Type} [InstanceId ι] [EventKind ε] [Wire ε] {codec : Codec}
    {tag : TypeTag} {envelopes : List (EventEnvelope ι ε)} :
    ∀ {events : List SerializedEvent},
      envelopes.mapM (fun e => e.serialize codec tag) = .ok events →
      events.map SerializedEvent.bare = envelopes.map fun e => e.unnamed.bare tag := by
  induction envelopes with
  | nil =>
    intro events h
    obtain rfl := Except.ok.inj h
    rfl
  | cons envelope envelopes ih =>
    intro events h
    rw [List.mapM_cons] at h
    obtain ⟨first, hfirst, h⟩ := bind_eq_ok.mp h
    obtain ⟨rest, hrest, h⟩ := bind_eq_ok.mp h
    obtain rfl := Except.ok.inj h
    obtain ⟨data, -, rfl⟩ := map_eq_ok.mp hfirst
    rw [List.map_cons, List.map_cons, ih hrest]
    rfl

/-- Envelopes that are the same but for the names are stored, with whichever codecs, as events that
are the same but for names and bytes. -/
theorem bare_of_unnamed_eq {ι ε : Type} [InstanceId ι] [EventKind ε] [Wire ε]
    {codec codec' : Codec} {tag : TypeTag} {envelopes envelopes' : List (EventEnvelope ι ε)}
    {events events' : List SerializedEvent}
    (hsame : envelopes.map EventEnvelope.unnamed = envelopes'.map EventEnvelope.unnamed)
    (h : envelopes.mapM (fun e => e.serialize codec tag) = .ok events)
    (h' : envelopes'.mapM (fun e => e.serialize codec' tag) = .ok events') :
    events.map SerializedEvent.bare = events'.map SerializedEvent.bare := by
  have hbare := congrArg (List.map (EventEnvelope.bare tag)) hsame
  rw [List.map_map, List.map_map] at hbare
  rw [bare_of_serialize h, bare_of_serialize h']
  exact hbare

/-! ## Rows up to something -/

/-- A row of whose event something is forgotten. -/
def RecordedEvent.onEvent (f : SerializedEvent → SerializedEvent) (row : RecordedEvent) :
    RecordedEvent := { row with event := f row.event }

namespace TenantLog

variable {f : SerializedEvent → SerializedEvent}

/-- Numbering does not look at events. -/
theorem number_map (f : SerializedEvent → SerializedEvent) (stream : StreamId)
    (events : List SerializedEvent) :
    ∀ (version : Version) (position : GlobalPosition),
      number stream version position (events.map f) =
        (number stream version position events).map (List.map (RecordedEvent.onEvent f)) := by
  induction events with
  | nil => intros; rfl
  | cons event events ih =>
    intro version position
    simp only [List.map_cons, number]
    cases version.next with
    | error fault => rfl
    | ok version =>
      cases position.next with
      | error fault => rfl
      | ok position =>
        simp only [ih, bind, Except.bind]
        cases number stream version position events <;> rfl

theorem number_of_map_eq {stream : StreamId} {version : Version} {position : GlobalPosition}
    {events events' : List SerializedEvent} {rows : List RecordedEvent}
    (hsame : events.map f = events'.map f)
    (h : number stream version position events = .ok rows) :
    ∃ rows', number stream version position events' = .ok rows' ∧
      rows.map (RecordedEvent.onEvent f) = rows'.map (RecordedEvent.onEvent f) := by
  refine exists_of_map_eq ?_ h
  rw [← number_map, ← number_map, hsame]

theorem number_of_unnamed_eq {stream : StreamId} {version : Version} {position : GlobalPosition}
    {events events' : List SerializedEvent} {rows : List RecordedEvent}
    (hsame : events.map SerializedEvent.unnamed = events'.map SerializedEvent.unnamed)
    (h : number stream version position events = .ok rows) :
    ∃ rows', number stream version position events' = .ok rows' ∧
      rows.map RecordedEvent.unnamed = rows'.map RecordedEvent.unnamed := number_of_map_eq hsame h

end TenantLog

/-! ## Stores up to something -/

namespace MemoryStore

/-- All logs of two stores are the same but for what is forgotten of the events. -/
def AgreesUpTo (f : SerializedEvent → SerializedEvent) (s s' : MemoryStore) : Prop :=
  ∀ tenant, (s.log tenant).map (RecordedEvent.onEvent f) =
    (s'.log tenant).map (RecordedEvent.onEvent f)

variable {f : SerializedEvent → SerializedEvent} {s s' : MemoryStore}

theorem AgreesUpTo.of_tenant {t : MemoryStore} (h : s.AgreesUpTo f s')
    (hsame : ∀ tenant, t.tenant tenant = s.tenant tenant) : t.AgreesUpTo f s' := fun tenant => by
  rw [MemoryStore.log, hsame]
  exact h tenant

theorem AgreesUpTo.symm (h : s.AgreesUpTo f s') : s'.AgreesUpTo f s := fun tenant => (h tenant).symm

/-- In dense stores that agree, so do the rows of each stream. -/
theorem AgreesUpTo.rows (h : s.AgreesUpTo f s') (hs : s.Dense) (hs' : s'.Dense)
    (tenant : TenantId) (stream : StreamId) :
    ((s.tenant tenant).rows stream).map (RecordedEvent.onEvent f) =
      ((s'.tenant tenant).rows stream).map (RecordedEvent.onEvent f) := by
  have hfilter : ∀ rows : List RecordedEvent,
      (rows.filter fun row => row.stream = stream).map (RecordedEvent.onEvent f) =
        (rows.map (RecordedEvent.onEvent f)).filter fun row => row.stream = stream := fun rows => by
    rw [List.filter_map]
    rfl
  rw [(hs tenant).parts, (hs' tenant).parts, hfilter, hfilter]
  exact congrArg _ (h tenant)

theorem AgreesUpTo.version (h : s.AgreesUpTo f s') (hs : s.Dense) (hs' : s'.Dense)
    (tenant : TenantId) (stream : StreamId) :
    s.version tenant stream = s'.version tenant stream := by
  have hlength := congrArg List.length (h.rows hs hs' tenant stream)
  rw [List.length_map, List.length_map] at hlength
  refine Version.toNat_inj.mp ?_
  rw [MemoryStore.version, MemoryStore.version, (hs tenant).toNat_version,
    (hs' tenant).toNat_version]
  exact hlength

theorem AgreesUpTo.lastPosition (h : s.AgreesUpTo f s') (hs : s.Dense) (hs' : s'.Dense)
    (tenant : TenantId) : (s.tenant tenant).lastPosition = (s'.tenant tenant).lastPosition := by
  refine GlobalPosition.toNat_inj.mp ?_
  have hlength := congrArg List.length (h tenant)
  rw [List.length_map, List.length_map] at hlength
  rw [(hs tenant).toNat_lastPosition, (hs' tenant).toNat_lastPosition]
  exact hlength

/-- A store takes an append that a store it agrees with has taken, and they agree again. -/
theorem Appends.agreesUpTo {s₁ : MemoryStore} {tenant : TenantId} {stream : StreamId}
    {expected version : Version} {events events' : List SerializedEvent}
    (h : s.Appends tenant stream expected events (.ok version) s₁) (hagrees : s.AgreesUpTo f s')
    (hs : s.Dense) (hs' : s'.Dense) (havailable : s'.available = true)
    (hevents : events.map f = events'.map f) :
    ∃ version' s₁', s'.append tenant stream expected events' = .ok (.ok version', s₁') ∧
      s₁.AgreesUpTo f s₁' := by
  cases h with
  | stored rows hne _ hexpected hrows =>
    rw [hagrees.lastPosition hs hs' tenant] at hrows
    rw [hagrees.version hs hs'] at hexpected
    obtain ⟨rows', hrows', hsame⟩ := TenantLog.number_of_map_eq hevents hrows
    have hne' : events' ≠ [] := by
      rintro rfl
      exact hne (List.map_eq_nil_iff.mp hevents)
    refine ⟨_, _, (Appends.stored rows' hne' havailable hexpected hrows').append_eq,
      fun other => ?_⟩
    simp only [MemoryStore.log, tenant_set]
    split
    · next heq =>
      rw [TenantLog.log_extend, TenantLog.log_extend, List.map_append, List.map_append, hsame]
      exact congrArg (· ++ _) (hagrees tenant)
    · exact hagrees other

/-! ## Stores that are the same but for the names -/

/-- All logs of two stores are the same but for the names of events. -/
def Matches (s s' : MemoryStore) : Prop :=
  ∀ tenant, (s.log tenant).map RecordedEvent.unnamed = (s'.log tenant).map RecordedEvent.unnamed

theorem Matches.agreesUpTo (h : s.Matches s') : s.AgreesUpTo SerializedEvent.unnamed s' := h

theorem Matches.of_tenant {t : MemoryStore} (h : s.Matches s')
    (hsame : ∀ tenant, t.tenant tenant = s.tenant tenant) : t.Matches s' :=
  h.agreesUpTo.of_tenant hsame

theorem Matches.symm (h : s.Matches s') : s'.Matches s := h.agreesUpTo.symm

/-- In dense stores that match, streams have the same rows but for the names. -/
theorem Matches.rows (h : s.Matches s') (hs : s.Dense) (hs' : s'.Dense) (tenant : TenantId)
    (stream : StreamId) : ((s.tenant tenant).rows stream).map RecordedEvent.unnamed =
      ((s'.tenant tenant).rows stream).map RecordedEvent.unnamed :=
  h.agreesUpTo.rows hs hs' tenant stream

theorem Matches.version (h : s.Matches s') (hs : s.Dense) (hs' : s'.Dense) (tenant : TenantId)
    (stream : StreamId) : s.version tenant stream = s'.version tenant stream :=
  h.agreesUpTo.version hs hs' tenant stream

/-- A store takes an append that a store it matches has taken, and they match again. -/
theorem Appends.matches {s₁ : MemoryStore} {tenant : TenantId} {stream : StreamId}
    {expected version : Version} {events events' : List SerializedEvent}
    (h : s.Appends tenant stream expected events (.ok version) s₁) (hmatches : s.Matches s')
    (hs : s.Dense) (hs' : s'.Dense) (havailable : s'.available = true)
    (hevents : events.map SerializedEvent.unnamed = events'.map SerializedEvent.unnamed) :
    ∃ version' s₁', s'.append tenant stream expected events' = .ok (.ok version', s₁') ∧
      s₁.Matches s₁' := h.agreesUpTo hmatches.agreesUpTo hs hs' havailable hevents

end MemoryStore

end Chronicle

import Chronicle.Proofs.Engine.Alone
import Chronicle.Proofs.Engine.Ready

/-!
# One command, two engines

Two engines that work over stores of their own may be set up differently and write with different
codecs. A command comes to the same on both, if the stores agree up to names and bytes and the
stream of the command holds the same events in both (`Comes.alike`): both decide at what these
events mean, and neither the names nor the bytes of the new events decide whether a store takes
them. Behind the command the stores agree again, and the stream holds the same events again
(`runUnder_twins`).
-/

namespace Chronicle

/-! ## Streams as they are read -/

namespace World

variable {κ π : Type} {w w' : World MemoryStore κ π} {A : AggregateType} {codec : Codec}
  {law : List A.Event → Prop} {tenant : TenantId} {stream : StreamId} {events : List A.Event}

/-- A lawful stream whose rows are read as these events. -/
structure Records (w : World MemoryStore κ π) (A : AggregateType) (codec : Codec)
    (law : List A.Event → Prop) (tenant : TenantId) (stream : StreamId) (events : List A.Event) :
    Prop extends w.Lawful A codec law tenant stream where
  reads : ((w.store.tenant tenant).rows stream).mapM (A.read? codec) = some events

theorem Fresh.records (h : w.Fresh) (hnil : law []) : w.Records A codec law tenant stream [] where
  toLawful := h.lawful hnil
  reads := by
    rw [h.tenant]
    rfl

theorem Records.obeys_events (h : w.Records A codec law tenant stream events) : law events := by
  obtain ⟨found, hfound, hlaw⟩ := h.obeys
  obtain rfl := Option.some.inj (hfound.symm.trans h.reads)
  exact hlaw

theorem Records.stateOf? (h : w.Records A codec law tenant stream events) :
    A.stateOf? codec ((w.store.tenant tenant).rows stream) = A.fold? events := by
  rw [AggregateType.stateOf?, h.reads]
  rfl

theorem Records.exists_state (h : w.Records A codec law tenant stream events) :
    ∃ state, A.fold? events = some state := by
  obtain ⟨state, hstate⟩ := h.means
  exact ⟨state, h.stateOf?.symm.trans hstate⟩

theorem Records.version_eq (h : w.Records A codec law tenant stream events) :
    (w.store.version tenant stream).toNat = events.length := by
  rw [MemoryStore.version, (h.dense tenant).toNat_version]
  exact (mapM_eq_some_iff.mp h.reads).length_eq

theorem Records.of_same (h : w.Records A codec law tenant stream events) (hdense : w'.store.Dense)
    (hrows : (w'.store.tenant tenant).rows stream = (w.store.tenant tenant).rows stream)
    (hkept : w'.vault.get? tenant stream = w.vault.get? tenant stream) :
    w'.Records A codec law tenant stream events where
  toLawful := h.toLawful.of_same hdense hrows hkept
  reads := by
    rw [hrows]
    exact h.reads

/-- Under any conditions an engine reads the state that the events of a stream mean. -/
theorem Records.getState_under [Projection κ π] {settings : Settings} {id : A.Id} {state : A.State}
    (h : w.Records A settings.codec law tenant (A.stream id) events) (hready : w.Ready)
    (hbound : A.boundMutator = .ok A.mutator) (hstate : A.fold? events = some state)
    (c : Conditions) :
    (Engine.getState settings A tenant id (w.under c)).map Prod.fst = .ok (.ok state) := by
  obtain ⟨w', hget⟩ := Engine.getState_of_sound hbound (h.toSound.under c) hready.started
    hready.available (h.stateOf?.trans hstate)
  rw [hget]
  rfl

end World

/-- The events of a play that are stored. -/
def Play.kept {σ ε : Type} (p : Play σ ε) : List ε :=
  match p.verdict with
  | .accepted => p.events
  | _ => []

namespace Task

variable {κ : Type}

/-- The same command, sent by an engine that is set up differently. -/
@[reducible]
def configured (t : Task κ) (settings : Settings) : Task κ := { t with settings := settings }

variable {t : Task κ} {settings : Settings} {state : t.A.State} {version : Version}

/-! ## The same decision -/

theorem Decides.of_configured {decided : Stage (t.configured settings).A}
    (h : (t.configured settings).Decides state version decided) :
    t.Decides state version decided := by
  cases h with
  | stops hplay => exact .stops hplay
  | abandons hplay hverdict => exact .abandons hplay hverdict
  | rejects hplay hverdict => exact .rejects hplay hverdict
  | rests hplay hverdict hevents => exact .rests hplay hverdict hevents
  | proposes hplay hverdict hevents hstamped => exact .proposes hplay hverdict hevents hstamped

/-- A command is decided in one way only but for the names of the new events. -/
theorem Decides.alike {decided decided' : Stage t.A} (h : t.Decides state version decided)
    (h' : t.Decides state version decided') :
    decided.isOver = true ∧ decided' = decided ∨
      ∃ p envelopes, decided = .decided p ∧
        decided' = .decided { p with envelopes := envelopes } ∧
        p.envelopes.map EventEnvelope.unnamed = envelopes.map EventEnvelope.unnamed := by
  cases h with
  | stops hplay => exact .inl ⟨rfl, h'.eq_stopped hplay⟩
  | abandons hplay hverdict | rejects hplay hverdict =>
    cases h' with
    | stops hplay' => cases hplay.symm.trans hplay'
    | abandons hplay' hverdict' | rejects hplay' hverdict' | rests hplay' hverdict'
    | proposes hplay' hverdict' =>
      obtain rfl := Except.ok.inj (hplay.symm.trans hplay')
      cases hverdict.symm.trans hverdict' <;> exact .inl ⟨rfl, rfl⟩
  | rests hplay hverdict hevents =>
    cases h' with
    | stops hplay' => cases hplay.symm.trans hplay'
    | abandons hplay' hverdict' | rejects hplay' hverdict' =>
      obtain rfl := Except.ok.inj (hplay.symm.trans hplay')
      cases hverdict.symm.trans hverdict'
    | rests => exact .inl ⟨rfl, rfl⟩
    | proposes hplay' _ hevents' =>
      obtain rfl := Except.ok.inj (hplay.symm.trans hplay')
      exact absurd hevents hevents'
  | proposes hplay hverdict hevents hstamped =>
    cases h' with
    | stops hplay' => cases hplay.symm.trans hplay'
    | abandons hplay' hverdict' | rejects hplay' hverdict' =>
      obtain rfl := Except.ok.inj (hplay.symm.trans hplay')
      cases hverdict.symm.trans hverdict'
    | rests hplay' _ hevents' =>
      obtain rfl := Except.ok.inj (hplay.symm.trans hplay')
      exact absurd hevents' hevents
    | proposes hplay' _ _ hstamped' =>
      obtain rfl := Except.ok.inj (hplay.symm.trans hplay')
      exact .inr ⟨_, _, rfl, rfl, hstamped.unnamed_eq hstamped'⟩

/-! ## The same end -/

variable {π π' : Type} {w w' : World MemoryStore κ π} {v v' : World MemoryStore κ π'}

/-- Whether a store takes the events of a command depends neither on their names nor on their
bytes, so what is decided alike in two stores that agree comes to the same. -/
theorem Decides.comes_alike {codec codec' : Codec} {decided decided' stage stage' : Stage t.A}
    (hdecided : t.Decides state version decided) (hdecided' : t.Decides state version decided')
    (hcomes : Stage.Comes codec w decided stage w')
    (hcomes' : Stage.Comes codec' v decided' stage' v')
    (hagrees : w.store.AgreesUpTo SerializedEvent.bare v.store) (hw : w.store.Dense)
    (hv : v.store.Dense) (hw' : w'.store.Dense) (hv' : v'.store.Dense)
    (havailable : w.store.available = true) (havailable' : v.store.available = true) :
    stage = stage' ∧ w'.store.AgreesUpTo SerializedEvent.bare v'.store := by
  rcases hdecided.alike hdecided' with ⟨hover, rfl⟩ | ⟨p, envelopes, rfl, rfl, hsame⟩
  · cases hcomes with
    | full | stores => cases hover
    | finished _ hstore =>
      cases hcomes' with
      | full | stores => cases hover
      | finished _ hstore' => exact ⟨rfl, by rwa [hstore, hstore']⟩
  · cases hcomes with
    | finished hover => cases hover
    | full hstored hfull hstore =>
      cases hcomes' with
      | finished hover => cases hover
      | full _ _ hstore' => exact ⟨rfl, by rwa [hstore, hstore']⟩
      | stores hstored' happends' =>
        -- a store that agrees with one that took the events takes them too
        obtain ⟨_, _, happend, -⟩ := happends'.agreesUpTo hagrees.symm hv hw havailable
          (bare_of_unnamed_eq hsame hstored hstored').symm
        cases hfull.symm.trans happend
    | stores hstored happends =>
      cases hcomes' with
      | finished hover => cases hover
      | full hstored' hfull' =>
        obtain ⟨_, _, happend, -⟩ := happends.agreesUpTo hagrees hw hv havailable'
          (bare_of_unnamed_eq hsame hstored hstored')
        cases hfull'.symm.trans happend
      | stores hstored' happends' =>
        obtain ⟨_, s, happend, hagrees'⟩ := happends.agreesUpTo hagrees hw hv havailable'
          (bare_of_unnamed_eq hsame hstored hstored')
        obtain ⟨heq, rfl⟩ := Prod.mk.inj (Except.ok.inj (happend.symm.trans happends'.append_eq))
        have hversion := happends.version_eq
        rw [hagrees'.version hw' hv', ← happends'.version_eq] at hversion
        exact ⟨by rw [hversion], hagrees'⟩

/-! ## What is stored -/

/-- Where a command has come to that was decided at a state and a version, and the events that are
stored then. -/
inductive Yields (t : Task κ) (state : t.A.State) (version : Version) :
    Stage t.A → List t.A.Event → Prop
  | stops {fault : Fault}
      (h : (t.A.handle t.command state).play t.A.mutator state version = .error fault ∨
        fault = .addition) : Yields t state version (.stopped fault) []
  | answers {play : Play t.A.State t.A.Event} {outcome : Except EngineError CommandResult}
      (hplay : (t.A.handle t.command state).play t.A.mutator state version = .ok play)
      (hanswer : (∀ error, play.verdict ≠ .abandoned error) → ∃ result, outcome = .ok result) :
      Yields t state version (.answered outcome) play.kept

theorem Yields.of_configured {stage : Stage (t.configured settings).A}
    {more : List (t.configured settings).A.Event}
    (h : (t.configured settings).Yields state version stage more) :
    t.Yields state version stage more := by
  cases h with
  | stops h => exact .stops h
  | answers hplay hanswer => exact .answers hplay hanswer

theorem Yields.unique {stage : Stage t.A} {more more' : List t.A.Event}
    (h : t.Yields state version stage more) (h' : t.Yields state version stage more') :
    more = more' := by
  cases h with
  | stops =>
    cases h' with
    | stops => rfl
  | answers hplay =>
    cases h' with
    | answers hplay' => rw [Except.ok.inj (hplay.symm.trans hplay')]

variable {takes : CommandEnvelope t.A.Id t.A.Command → Prop} {law : List t.A.Event → Prop}
  {events : List t.A.Event}

/-- What a command comes to is the answer, with its events stored, or a stop, with none. -/
theorem Decides.yields {decided stage : Stage t.A}
    (hbound : t.A.boundMutator = .ok t.A.mutator)
    (hupholds : t.A.Upholds t.settings.codec takes law) (htakes : takes t.command)
    (hw : w.Records t.A t.settings.codec law t.tenant t.stream events)
    (hstate : t.A.fold? events = some state)
    (hdecided : t.Decides state (w.store.version t.tenant t.stream) decided)
    (hcomes : Stage.Comes t.settings.codec w decided stage w')
    (hlawful : w'.Lawful t.A t.settings.codec law t.tenant t.stream) :
    ∃ more, t.Yields state (w.store.version t.tenant t.stream) stage more ∧
      w'.Records t.A t.settings.codec law t.tenant t.stream (events ++ more) := by
  have hsame : w'.store = w.store →
      w'.Records t.A t.settings.codec law t.tenant t.stream (events ++ []) := by
    intro hstore
    rw [List.append_nil]
    exact ⟨hlawful, hstore.symm ▸ hw.reads⟩
  cases hcomes with
  | finished hover hstore =>
    cases hdecided with
    | stops hplay => exact ⟨_, .stops (.inl hplay), hsame hstore⟩
    | @abandons play error hplay hverdict =>
      have hkept : play.kept = [] := by rw [Play.kept, hverdict]
      exact ⟨_, .answers hplay fun hnever => absurd hverdict (hnever error), hkept ▸ hsame hstore⟩
    | @rejects play reason hplay hverdict =>
      have hkept : play.kept = [] := by rw [Play.kept, hverdict]
      exact ⟨_, .answers hplay fun _ => ⟨_, rfl⟩, hkept ▸ hsame hstore⟩
    | @rests play hplay hverdict hevents =>
      have hkept : play.kept = [] := by rw [Play.kept, hverdict, hevents]
      exact ⟨_, .answers hplay fun _ => ⟨_, rfl⟩, hkept ▸ hsame hstore⟩
    | proposes => cases hover
  | full _ _ hstore => exact ⟨_, .stops (.inr rfl), hsame hstore⟩
  | stores hstored happends =>
    cases hdecided with
    | @proposes play envelopes hplay hverdict hevents hstamped =>
      have hkept : play.kept = play.events := by rw [Play.kept, hverdict]
      have hversion := (hw.dense t.tenant).toNat_version t.stream
      have hproposes : t.Proposes ((w.store.tenant t.tenant).rows t.stream)
          ⟨t.tenant, t.stream, w.store.version t.tenant t.stream, envelopes, play.state,
            .accept true play.version⟩ state play :=
        { bound := hbound
          tenant := rfl
          stream := rfl
          le := Nat.le_of_eq hversion
          means := by
            show t.A.stateOf? _ (List.take ((w.store.tenant t.tenant).version t.stream).toNat _) = _
            rw [hversion, List.take_length]
            exact hw.stateOf?.trans hstate
          plays := hplay
          accepted := hverdict
          changes := hevents
          envelopes := hstamped
          state := rfl }
      obtain ⟨hreads, -, -⟩ := hproposes.obeys_of_appends hupholds htakes hw.dense hw.reads
        hw.obeys_events hstored happends
      exact ⟨_, .answers hplay fun _ => ⟨_, rfl⟩, hkept.symm ▸ ⟨hlawful, hreads⟩⟩

end Task

/-! ## Both engines -/

variable {κ π π' : Type} [Projection κ π] [Projection κ π']

/-- Two engines are ready, over dense stores that agree up to names and bytes. -/
structure World.Twins (w : World MemoryStore κ π) (v : World MemoryStore κ π') : Prop where
  ready : w.Ready
  ready' : v.Ready
  dense : w.store.Dense
  dense' : v.store.Dense
  agrees : w.store.AgreesUpTo SerializedEvent.bare v.store

namespace Task

variable {t : Task κ} {settings : Settings} {takes : CommandEnvelope t.A.Id t.A.Command → Prop}
  {law : List t.A.Event → Prop} {events : List t.A.Event} {w : World MemoryStore κ π}
  {v : World MemoryStore κ π'}

theorem runUnder_yields {state : t.A.State} (hbound : t.A.boundMutator = .ok t.A.mutator)
    (hforms : ∀ event : t.A.Event, (Wire.format (α := t.A.Event)).HasForm event)
    (hupholds : t.A.Upholds t.settings.codec takes law) (htakes : takes t.command)
    (hready : w.Ready) (hw : w.Records t.A t.settings.codec law t.tenant t.stream events)
    (hstate : t.A.fold? events = some state) (schedule : Nat → Conditions) :
    ∃ decided more, t.Decides state (w.store.version t.tenant t.stream) decided ∧
      Stage.Comes t.settings.codec w decided (t.runUnder schedule 5 .waiting w).1
        (t.runUnder schedule 5 .waiting w).2 ∧
      (t.runUnder schedule 5 .waiting w).2.Ready ∧
      t.Yields state (w.store.version t.tenant t.stream)
        (t.runUnder schedule 5 .waiting w).1 more ∧
      (t.runUnder schedule 5 .waiting w).2.Records t.A t.settings.codec law t.tenant t.stream
        (events ++ more) := by
  obtain ⟨decided, hdecided, hcomes, hready'⟩ := runUnder_comes hbound hforms hready hw.toSound
    (hw.stateOf?.trans hstate) schedule
  obtain ⟨more, hyields, hrecords⟩ := hdecided.yields hbound hupholds htakes hw hstate hcomes
    (runUnder_lawful hupholds htakes hw.toLawful schedule 5)
  exact ⟨decided, more, hdecided, hcomes, hready', hyields, hrecords⟩

/-- **One command, two engines.** Where two engines are twins and the stream of a command holds the
same events in both, the command comes to the same on both, whatever their settings are and under
whatever conditions they do it; they are twins again, and the stream holds the same events again. -/
theorem runUnder_twins (hbound : t.A.boundMutator = .ok t.A.mutator)
    (hforms : ∀ event : t.A.Event, (Wire.format (α := t.A.Event)).HasForm event)
    (hupholds : ∀ codec, t.A.Upholds codec takes law) (htakes : takes t.command)
    (htwins : w.Twins v) (hw : w.Records t.A t.settings.codec law t.tenant t.stream events)
    (hv : v.Records t.A settings.codec law t.tenant t.stream events)
    (schedule schedule' : Nat → Conditions) :
    let run := t.runUnder schedule 5 .waiting w
    let run' := (t.configured settings).runUnder schedule' 5 .waiting v
    run.1 = run'.1 ∧ run.2.Twins run'.2 ∧ ∃ state more, t.A.fold? events = some state ∧
      t.Yields state (w.store.version t.tenant t.stream) run.1 more ∧
      run.2.Records t.A t.settings.codec law t.tenant t.stream (events ++ more) ∧
      run'.2.Records t.A settings.codec law t.tenant t.stream (events ++ more) := by
  intro run run'
  obtain ⟨state, hstate⟩ := hw.exists_state
  obtain ⟨decided, more, hdecided, hcomes, hready, hyields, hrecords⟩ :=
    runUnder_yields hbound hforms (hupholds _) htakes htwins.ready hw hstate schedule
  obtain ⟨decided', more', hdecided', hcomes', hready', hyields', hrecords'⟩ :=
    runUnder_yields (t := t.configured settings) hbound hforms (hupholds _) htakes htwins.ready'
      hv hstate schedule'
  have hversion := htwins.agrees.version htwins.dense htwins.dense' t.tenant t.stream
  change (t.configured settings).Decides state (v.store.version t.tenant t.stream) _ at hdecided'
  change (t.configured settings).Yields state (v.store.version t.tenant t.stream) _ _ at hyields'
  rw [← hversion] at hdecided' hyields'
  obtain ⟨hstage, hagrees⟩ := hdecided.comes_alike hdecided'.of_configured hcomes hcomes'
    htwins.agrees htwins.dense htwins.dense' hrecords.dense hrecords'.dense htwins.ready.available
    htwins.ready'.available
  refine ⟨hstage, ⟨hready, hready', hrecords.dense, hrecords'.dense, hagrees⟩, state, more, hstate,
    hyields, hrecords, ?_⟩
  have hmore := hyields'.of_configured
  rw [← hstage] at hmore
  exact (hyields.unique hmore).symm ▸ hrecords'

/-- A command leaves the events of all other streams as they are. -/
theorem runUnder_records {A : AggregateType} {codec : Codec} {law : List A.Event → Prop}
    {tenant : TenantId} {stream : StreamId} {events : List A.Event} (t : Task κ)
    (hne : (t.tenant, t.stream) ≠ (tenant, stream))
    (hw : w.Records A codec law tenant stream events) (schedule : Nat → Conditions) :
    (t.runUnder schedule 5 .waiting w).2.Records A codec law tenant stream events := by
  obtain ⟨hrows, hkept⟩ := t.runUnder_elsewhere w hne schedule 5
  exact hw.of_same (runUnder_dense hw.dense schedule 5) hrows hkept

end Task

end Chronicle

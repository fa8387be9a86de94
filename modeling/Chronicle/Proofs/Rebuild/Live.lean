import Chronicle.Proofs.Engine.Announce
import Chronicle.Proofs.Rebuild.Complete
import Chronicle.Proofs.Sample.Account

/-!
# Live publication and replay agree

An event comes to the bus in two ways: right behind its append, from the envelope that the command
stamped, and in a rebuild, from the row that the envelope was stored as. What was published live of
a tenant `Mirrors` its log if it is what the log is read as, but for the positions, which a live
envelope does not have.

A send whose publication succeeds keeps the mirror (`World.after_mirrors`), provided that what it
writes comes back through the registry (`Task.Legible`); sequences and accounts do so in both
codecs.
-/

namespace Chronicle

/-- An envelope without its place in the log. -/
def AnyEnvelope.unplaced {κ : Type} (envelope : AnyEnvelope κ) : AnyEnvelope κ :=
  { envelope with position := none }

/-! ## What is read of what was written -/

/-- The rows that a command's envelopes are stored as are read as these envelopes. -/
theorem Registry.decode_of_stamped {κ : Type} {registry : Registry κ} {codec : Codec}
    {A : AggregateType} [Carries κ A.Id A.Event] {a : Aggregate A}
    {command : CommandEnvelope A.Id A.Command} {version : Version} {events : List A.Event}
    {envelopes : List (EventEnvelope A.Id A.Event)}
    (hbound : registry.byTag? A.tag = some (.of A))
    (hid : InstanceId.ofText (InstanceId.toText a.id) = .ok a.id)
    (hstamped : a.Stamped command version events envelopes)
    (hevents : ∀ event ∈ events, ∀ data, codec.encode event = .ok data →
      codec.decode data = .ok event) :
    ∀ {position : GlobalPosition} {stored : List SerializedEvent} {rows : List RecordedEvent},
      envelopes.mapM (fun e => e.serialize codec A.tag) = .ok stored →
      TenantLog.number a.stream version position stored = .ok rows →
      ∃ replayed : List (AnyEnvelope κ), rows.mapM (registry.decode · codec) = .ok replayed ∧
        replayed.map AnyEnvelope.unplaced =
          envelopes.map (fun envelope => AnyEnvelope.erase A envelope none) ∧
        replayed.map AnyEnvelope.position = rows.map fun row => some row.position := by
  induction hstamped with
  | nil =>
    intro position stored rows hstored hrows
    obtain rfl := Except.ok.inj hstored
    obtain rfl := Except.ok.inj hrows
    exact ⟨[], rfl, rfl, rfl⟩
  | @cons version following event events envelopes eventId hv _ ih =>
    intro position stored rows hstored hrows
    rw [List.mapM_cons] at hstored
    obtain ⟨first, hfirst, hstored⟩ := bind_eq_ok.mp hstored
    obtain ⟨others, hothers, hstored⟩ := bind_eq_ok.mp hstored
    obtain rfl := Except.ok.inj hstored
    obtain ⟨following', hv', hrows⟩ := bind_eq_ok.mp hrows
    obtain rfl := Except.ok.inj (hv.symm.trans hv')
    obtain ⟨position', -, hrows⟩ := bind_eq_ok.mp hrows
    obtain ⟨rest, hrest, hrows⟩ := bind_eq_ok.mp hrows
    obtain rfl := Except.ok.inj hrows
    obtain ⟨replayed, hreplayed, hsame, hpositions⟩ :=
      ih (fun event hin => hevents event (List.mem_cons_of_mem _ hin)) hothers hrest
    have hrow := decode_of_serialize hbound hid (hevents event (List.mem_cons_self ..)) hfirst
      position'
    change registry.decode ⟨a.stream, following, position', first⟩ codec = _ at hrow
    refine ⟨.erase A (a.stamp command event eventId following) (some position') :: replayed,
      ?_, ?_, ?_⟩
    · rw [List.mapM_cons, hrow, hreplayed]
      rfl
    · rw [List.map_cons, List.map_cons, hsame]
      rfl
    · rw [List.map_cons, List.map_cons, hpositions]
      rfl

/-- A registry knows the type of a task, and what the task can write comes back through it. -/
structure Task.Legible {κ : Type} (t : Task κ) (registry : Registry κ) (codec : Codec) : Prop where
  writes : t.settings.codec = codec
  bound : registry.byTag? t.A.tag = some (.of t.A)
  id : InstanceId.ofText (InstanceId.toText t.command.aggregateId) = .ok t.command.aggregateId
  events : ∀ state current play,
    (t.A.handle t.command state).play t.A.mutator state current = .ok play →
      ∀ event ∈ play.events, ∀ data, codec.encode event = .ok data →
        codec.decode data = .ok event

/-! ## The mirror -/

namespace World

variable {κ π : Type} {registry : Registry κ} {codec : Codec} {w w' : World MemoryStore κ π}

/-- What was published of a tenant is what its log is read as, but for the positions. -/
def Mirrors (w : World MemoryStore κ π) (registry : Registry κ) (codec : Codec)
    (tenant : TenantId) (replayed : List (AnyEnvelope κ)) : Prop :=
  (w.store.log tenant).mapM (registry.decode · codec) = .ok replayed ∧
    replayed.map AnyEnvelope.position = (w.store.log tenant).map (fun row => some row.position) ∧
    w.bus.published.filter (·.tenant = tenant) = replayed.map AnyEnvelope.unplaced

theorem Mirrors.of_same {tenant : TenantId} {replayed : List (AnyEnvelope κ)}
    (h : w.Mirrors registry codec tenant replayed)
    (hlog : w'.store.log tenant = w.store.log tenant) (hbus : w'.bus = w.bus) :
    w'.Mirrors registry codec tenant replayed := by
  unfold Mirrors
  rw [hlog, hbus]
  exact h

variable [Projection κ π]

/-- A send whose publication succeeds keeps the mirror of every tenant. -/
theorem mirrors_after_sent {t : Task κ} (hlegible : t.Legible registry codec)
    (hannounces : t.Announces w) {tenant : TenantId} {replayed : List (AnyEnvelope κ)}
    (h : w.Mirrors registry codec tenant replayed) :
    ∃ replayed', (w.after (.sent t)).Mirrors registry codec tenant replayed' := by
  rcases w.after_sent_cases t with
    ⟨halike, hbus⟩ | ⟨p, events, stored, version, hstores, haccepts⟩
  · exact ⟨replayed, h.of_same (congrArg TenantLog.log (halike.tenant tenant)) hbus⟩
  obtain ⟨tracker, haccepts⟩ := haccepts hannounces
  have hpublished := haccepts.adds.published
  rw [List.flatten_singleton] at hpublished
  obtain ⟨rows, position, hrows, hlog⟩ := hstores.appends.exists_rows
  obtain ⟨state, current, play, hplay, rfl⟩ := hstores.plays
  have hserialized := hstores.serialized
  rw [hlegible.writes] at hserialized
  obtain ⟨more, hmore, hsame, hpositions⟩ := Registry.decode_of_stamped hlegible.bound hlegible.id
    hstores.stamped (hlegible.events state current play hplay) hserialized hrows
  obtain ⟨hread, hplaces, hlive⟩ := h
  have htenants : ∀ envelope ∈ p.envelopes, envelope.tenant = t.tenant := fun envelope hin =>
    (hstores.stamped.own envelope hin).1
  by_cases heq : tenant = t.tenant
  · subst heq
    refine ⟨replayed ++ more, ?_, ?_, ?_⟩
    · rw [hlog, if_pos rfl]
      exact mapM_append_eq_ok hread hmore
    · rw [hlog, if_pos rfl, List.map_append, List.map_append, hplaces, hpositions]
    · have hall : (more.map AnyEnvelope.unplaced).filter (·.tenant = t.tenant) =
          more.map AnyEnvelope.unplaced := by
        rw [hsame, List.filter_eq_self]
        simpa [AnyEnvelope.erase] using htenants
      rw [hpublished, ← hsame, List.filter_append, hlive, hall, List.map_append]
  · refine ⟨replayed, ?_, ?_, ?_⟩
    · rw [hlog, if_neg heq, hread]
    · rw [hlog, if_neg heq, hplaces]
    · have hnone : (p.envelopes.map fun envelope => AnyEnvelope.erase t.A envelope none).filter
          (fun envelope : AnyEnvelope κ => envelope.tenant = tenant) = [] := by
        rw [List.filter_eq_nil_iff]
        simp only [AnyEnvelope.erase, List.mem_map, decide_eq_true_eq]
        rintro _ ⟨envelope, hin, rfl⟩ hother
        exact heq (hother.symm.trans (htenants envelope hin))
      rw [hpublished, List.filter_append, hnone, List.append_nil, hlive]

/-- Every publication of a history succeeds. -/
def Announced (w : World MemoryStore κ π) : List (Happening κ π) → Prop
  | [] => True
  | h :: history => (∀ t, h = .sent t → t.Announces w) ∧ (w.after h).Announced history

/-- A projection that is registered once follows what a history publishes, if every publication
succeeds and nobody puts another bus in its place. -/
theorem follows_afterAll {place : Nat} (history : List (Happening κ π)) :
    ∀ {w : World MemoryStore κ π} {view : π}, w.Announced history →
      (∀ bus tracker, .rewired bus tracker ∉ history) → w.bus.registered.count place = 1 →
      w.bus.projections[place]? = some view →
      ∃ more view', (w.afterAll history).bus.published = w.bus.published ++ more ∧
        (w.afterAll history).bus.projections[place]? = some view' ∧
        Bus.Follows view more view' := by
  induction history with
  | nil => exact fun _ _ _ hview => ⟨[], _, (List.append_nil _).symm, hview, .nil _⟩
  | cons first history ih =>
    intro w view hannounced hwired honce hview
    have hwired' := fun bus tracker hin => hwired bus tracker (List.mem_cons_of_mem _ hin)
    have hquiet : (w.after first).bus = w.bus → ∃ more view',
        (w.afterAll (first :: history)).bus.published = w.bus.published ++ more ∧
          (w.afterAll (first :: history)).bus.projections[place]? = some view' ∧
          Bus.Follows view more view' := fun hbus => by
      have hview' : (w.after first).bus.projections[place]? = some view := by rw [hbus, hview]
      have hrest := ih hannounced.2 hwired' (by rw [hbus, honce]) hview'
      rwa [hbus] at hrest
    cases first with
    | sent t =>
      rcases w.after_sent_cases t with ⟨-, hbus⟩ | ⟨_, _, _, _, -, haccepts⟩
      · exact hquiet hbus
      obtain ⟨tracker, haccepts⟩ := haccepts (hannounced.1 t rfl)
      obtain ⟨changed, hchanged, hfollows⟩ := haccepts.follows honce hview
      have hadds := haccepts.adds
      obtain ⟨more, view', hpublished, hlast, hrest⟩ :=
        ih hannounced.2 hwired' (by rw [hadds.registered, honce]) hchanged
      refine ⟨_, view', ?_, hlast, hfollows.append hrest⟩
      rw [← List.append_assoc, ← hadds.published]
      exact hpublished
    | started => exact hquiet w.start_bus
    | rewired bus tracker => exact absurd (List.mem_cons_self ..) (hwired bus tracker)
    | called | clocked | refusing | planted => exact hquiet rfl

end World

/-! ## Sequences and accounts -/

namespace Sample

variable {π : Type} [Projection Carrier π] {codec : Codec} {registry : Registry Carrier}

/-- What happens where sequences and accounts are used through engines with one codec: commands of
any kind, and all else that stores and publishes nothing. -/
inductive Ordinary (codec : Codec) : Happening Carrier π → Prop
  | sequence {settings : Settings} (command : CommandEnvelope UInt64 SequenceCommand)
      (h : settings.codec = codec) : Ordinary codec (.sent ⟨settings, sequenceType, command⟩)
  | account {settings : Settings} (command : CommandEnvelope AccountId AccountCommand)
      (h : settings.codec = codec) (hfits : command.payload.Fits) :
      Ordinary codec (.sent ⟨settings, accountType, command⟩)
  | started : Ordinary codec .started
  | switched (available : Bool) : Ordinary codec (.called (.setAvailable available))
  | clocked (now : Timestamp) : Ordinary codec (.clocked now)
  | refusing (loads saves : Bool) : Ordinary codec (.refusing loads saves)
  | planted (tenant : TenantId) (snapshot : StoredSnapshot) :
      Ordinary codec (.planted tenant snapshot)

theorem legible_sequence (hbound : registry.byTag? sequenceType.tag = some (.of sequenceType))
    {settings : Settings} (command : CommandEnvelope UInt64 SequenceCommand)
    (h : settings.codec = codec) :
    Task.Legible ⟨settings, sequenceType, command⟩ registry codec where
  writes := h
  bound := hbound
  id := InstanceId.ofText_toText_uint64 command.aggregateId
  events _ _ _ _ event _ _ := event.decode_encode

theorem legible_account (hbound : registry.byTag? accountType.tag = some (.of accountType))
    {settings : Settings} {command : CommandEnvelope AccountId AccountCommand}
    (h : settings.codec = codec) (hfits : command.payload.Fits) :
    Task.Legible ⟨settings, accountType, command⟩ registry codec where
  writes := h
  bound := hbound
  id := accountType_ofText_toText command.aggregateId
  events state _ _ hplay event hin _ :=
    AccountEvent.decode_encode
      ((AccountCommand.onlyApplies_handle hfits state).mem_events hplay event hin)

/-- The mirror is kept by all that happens to sequences and accounts, as long as every publication
succeeds. -/
theorem mirrors_afterAll (hsequence : registry.byTag? sequenceType.tag = some (.of sequenceType))
    (haccount : registry.byTag? accountType.tag = some (.of accountType)) {tenant : TenantId}
    (history : List (Happening Carrier π)) :
    ∀ {w : World MemoryStore Carrier π} {replayed : List (AnyEnvelope Carrier)},
      (∀ h ∈ history, Ordinary codec h) → w.Announced history →
      w.Mirrors registry codec tenant replayed →
      ∃ replayed', (w.afterAll history).Mirrors registry codec tenant replayed' := by
  induction history with
  | nil => exact fun _ _ h => ⟨_, h⟩
  | cons first history ih =>
    intro w replayed hordinary hannounced hmirrors
    have hrest := fun h hin => hordinary h (List.mem_cons_of_mem _ hin)
    have hstep : ∃ replayed', (w.after first).Mirrors registry codec tenant replayed' := by
      cases hordinary first (List.mem_cons_self ..) with
      | sequence command h =>
        exact World.mirrors_after_sent (legible_sequence hsequence command h)
          (hannounced.1 _ rfl) hmirrors
      | account command h hfits =>
        exact World.mirrors_after_sent (legible_account haccount h hfits)
          (hannounced.1 _ rfl) hmirrors
      | started =>
        have hlog := congrArg TenantLog.log (w.start_tenant tenant).1
        exact ⟨replayed, hmirrors.of_same hlog w.start_bus⟩
      | switched | clocked | refusing | planted => exact ⟨replayed, hmirrors.of_same rfl rfl⟩
    obtain ⟨replayed', hmirrors'⟩ := hstep
    exact ih hrest hannounced.2 hmirrors'

end Sample

namespace Rebuild

section

open Sample

variable {π : Type} [Projection Carrier π] {codec : Codec} {registry : Registry Carrier}

/-- **Live publication and replay agree.** Take any history of commands to sequences and accounts,
of any tenants and ids, on behalf of anyone and in any causal sequence, that begins with an empty
store and a bus on which nothing was published, and in which every publication succeeds. There is
one list of envelopes for each tenant such that

- what was published live of the tenant is this list, without positions;
- the positions of the list are 1, 2, 3 and so on;
- a rebuild of the tenant from the beginning, through a registry that binds both types, in batches
  of any size and on whatever bus accepts them, comes through and publishes this list. -/
theorem replay_equals_live_publication
    (hsequence : registry.byTag? sequenceType.tag = some (.of sequenceType))
    (haccount : registry.byTag? accountType.tag = some (.of accountType))
    {w : World MemoryStore Carrier π} (hempty : w.store.tenants = .empty)
    (hsilent : w.bus.published = []) (history : List (Happening Carrier π))
    (hordinary : ∀ h ∈ history, Ordinary codec h) (hannounced : w.Announced history)
    (tenant : TenantId) :
    ∃ replayed : List (AnyEnvelope Carrier),
      (w.afterAll history).bus.published.filter (·.tenant = tenant) =
          replayed.map AnyEnvelope.unplaced ∧
        replayed.map (fun e => e.position.map GlobalPosition.toNat) =
          (List.range' 1 replayed.length).map some ∧
        ∀ {v : World MemoryStore Carrier π} {batchSize : Nat} {resets : List Nat}
          {bus₀ bus : Bus Carrier π} {tracker : CompletionTracker},
          v.store = (w.afterAll history).store → v.started = true → v.store.available = true →
          0 < batchSize → Prepares resets .start v.bus bus₀ →
          bus₀.Accepts v.tracker (batchesOf batchSize replayed) bus tracker →
            ∃ summary news, run codec registry resets tenant .start batchSize v =
                .ok (.ok summary, news, published v (batchesOf batchSize replayed) bus tracker) ∧
              bus.published = v.bus.published ++ replayed := by
  have htenant : ∀ other, w.store.tenant other = .empty := fun other => by
    rw [MemoryStore.tenant, hempty]
    rfl
  have hfirst : w.Mirrors registry codec tenant [] := by
    rw [World.Mirrors, MemoryStore.log, htenant, hsilent]
    exact ⟨rfl, rfl, rfl⟩
  have hdense : (w.afterAll history).store.Dense := World.afterAll_dense (fun other => by
    rw [htenant]
    exact TenantLog.dense_empty) history
  obtain ⟨replayed, hread, hplaces, hlive⟩ :=
    mirrors_afterAll hsequence haccount history hordinary hannounced hfirst
  refine ⟨replayed, hlive, ?_, ?_⟩
  · have hnumbers := congrArg (List.map (Option.map GlobalPosition.toNat)) hplaces
    have hpositions : ((w.afterAll history).store.log tenant).map (fun row => row.position.toNat) =
        List.range' 1 replayed.length := by
      rw [← (forall₂_of_mapM hread).length_eq]
      exact (hdense tenant).positions
    rw [List.map_map, List.map_map] at hnumbers
    rw [← hpositions, List.map_map]
    exact hnumbers
  · intro v batchSize resets bus₀ bus tracker hstore hstarted havailable hsize hprepares haccepts
    have hrows : (v.store.rowsAfter tenant .start).mapM (registry.decode · codec) =
        .ok replayed := by
      rw [hstore, MemoryStore.rowsAfter_start hdense, hread]
    obtain ⟨last, -, -, hrun⟩ :=
      run_all hsize hstarted (hstore ▸ hdense) havailable hrows hprepares haccepts
    refine ⟨last.summary, last.news, hrun, ?_⟩
    rw [haccepts.adds.published, hprepares.published_eq.1, flatten_batchesOf hsize]

end

/-! ## A replayed history -/

section

open Sample

/-- Two numbers are added to a sequence, and an account is opened, both in JSON. -/
def opening : List (Happening Carrier Inert) :=
  [.sent { addition [3, 4] with settings := { Settings.standard with codec := .json } },
    .sent ⟨{ Settings.standard with codec := .json }, accountType,
      .new ⟨.ofNat 5⟩ (.openFor "\"Ada\"\n") ⟨.ofNat 6⟩ ⟨.ofNat 7⟩ ⟨0, 0⟩⟩]

/-- The world behind these commands. -/
def opened : World MemoryStore Carrier Inert := World.blank.afterAll opening

theorem announced_opening :
    (World.blank : World MemoryStore Carrier Inert).Announced opening := by
  have hall : ∀ {w : World MemoryStore Carrier Inert}, w.bus.refuses = false →
      ∀ t : Task Carrier, t.Announces w :=
    fun hrefuses t => t.announces_of_willing Bus.willing_inert hrefuses fun _ _ => trivial
  refine ⟨fun t _ => hall rfl t, fun t _ => hall ?_ t, trivial⟩
  exact World.refuses_after_sent (hall rfl _)

/-- Three events are published live, and a rebuild in batches of two publishes them again. -/
theorem opening_is_replayed : ∃ replayed summary news w',
    opened.bus.published = replayed.map AnyEnvelope.unplaced ∧ replayed.length = 3 ∧
      run .json registry [] .default .start 2 opened = .ok (.ok summary, news, w') ∧
      w'.bus.published = opened.bus.published ++ replayed := by
  have hfits : ("\"Ada\"\n" : String).utf8ByteSize < UInt64.size := by decide
  have hordinary : ∀ h ∈ opening, Ordinary .json h := by
    intro h hin
    rcases List.mem_pair.mp hin with rfl | rfl
    · exact .sequence _ rfl
    · exact .account _ rfl hfits
  obtain ⟨replayed, hlive, -, hrebuild⟩ := replay_equals_live_publication registry_sequence
    registry_account rfl rfl opening hordinary announced_opening .default
  have hall : opened.bus.published.filter (·.tenant = .default) = opened.bus.published := by
    rw [List.filter_eq_self, ← List.all_eq_true]
    decide +kernel
  have hcount : opened.bus.published.length = 3 := by decide +kernel
  change opened.bus.published.filter _ = _ at hlive
  rw [hall] at hlive
  obtain ⟨bus, tracker, haccepts⟩ := Bus.accepts_of_willing Bus.willing_inert (batchesOf 2 replayed)
    opened.bus opened.tracker (by decide +kernel) fun _ _ => trivial
  have hprepares : ∀ bus : Bus Carrier Inert, Prepares (κ := Carrier) [] .start bus bus :=
    fun bus => .beginning rfl rfl
  obtain ⟨summary, news, hrun, hpublished⟩ := hrebuild (v := opened) rfl (by decide +kernel)
    (by decide +kernel) (by decide) (hprepares opened.bus) haccepts
  refine ⟨replayed, summary, news, _, hlive, ?_, hrun, hpublished⟩
  rw [← hcount, hlive, List.length_map]

end

end Rebuild

end Chronicle

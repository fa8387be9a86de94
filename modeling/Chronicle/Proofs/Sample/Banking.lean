import Chronicle.Proofs.Engine.Laws
import Chronicle.Proofs.Engine.Ownership
import Chronicle.Proofs.Engine.Replay
import Chronicle.Proofs.Rebuild.Live
import Chronicle.Proofs.Sample.Balances

/-!
# The view of balances tells the truth

Accounts of one tenant and sequences of any are used, and the view of balances is on the bus. It is
fed in two ways. Live, it follows what is published, of all tenants; in a rebuild, it follows what
is read from the log of the one tenant. Either way it comes across the events of each account as
the account's stream has them (`Filed.accountEvents`, `accountEvents_published`), and these are in
good order, as the law of accounts says. So its rows are those of the states (`truthful_of_lawful`).
-/

namespace Chronicle.Sample

variable {π : Type} {codec : Codec} {home : TenantId}

/-- What happens where accounts of one tenant and sequences of any are used through engines with one
codec. -/
inductive Banking (codec : Codec) (home : TenantId) : Happening Carrier π → Prop
  | sequence {settings : Settings} (command : CommandEnvelope UInt64 SequenceCommand)
      (h : settings.codec = codec) :
      Banking codec home (.sent ⟨settings, sequenceType, command⟩)
  | account {settings : Settings} (command : CommandEnvelope AccountId AccountCommand)
      (h : settings.codec = codec) (hfits : command.payload.Fits) (hhome : command.tenant = home) :
      Banking codec home (.sent ⟨settings, accountType, command⟩)
  | started : Banking codec home .started
  | switched (available : Bool) : Banking codec home (.called (.setAvailable available))
  | clocked (now : Timestamp) : Banking codec home (.clocked now)
  | refusing (loads saves : Bool) : Banking codec home (.refusing loads saves)

theorem account_stream_inj {id other : AccountId} :
    accountType.stream id = accountType.stream other ↔ id = other :=
  StreamId.forAggregate_inj.trans ⟨toText_account_inj, fun h => by rw [h]⟩

theorem Banking.ordinary {h : Happening Carrier π} (hbanking : Banking codec home h) :
    Ordinary codec h := by
  cases hbanking with
  | sequence command h => exact .sequence command h
  | account command h hfits => exact .account command h hfits
  | started => exact .started
  | switched available => exact .switched available
  | clocked now => exact .clocked now
  | refusing loads saves => exact .refusing loads saves

theorem Banking.heeds {h : Happening Carrier π} (hbanking : Banking codec home h)
    (id : AccountId) :
    h.Heeds accountType codec (fun command => command.payload.Fits) home
      (accountType.stream id) := by
  cases hbanking with
  | sequence command => exact fun hown => absurd (Prod.mk.inj hown).2 (sequence_stream_ne _ id)
  | account command h hfits => exact fun _ => .of h hfits
  | started | switched | clocked | refusing => trivial

/-! ## The log -/

/-- A row holds an event of a sequence, or, in the home of the accounts, one of an account. -/
inductive Filed (codec : Codec) (home tenant : TenantId) (row : RecordedEvent) : Prop
  | sequence {command : CommandEnvelope UInt64 SequenceCommand} {event : SequenceEvent}
      (h : Engine.Holds codec sequenceType command event row)
  | account {command : CommandEnvelope AccountId AccountCommand} {event : AccountEvent}
      (h : Engine.Holds codec accountType command event row) (hhome : tenant = home)

/-- What holds of the rows with events of the commands that are sent, comes to hold of no fewer rows
of the logs. -/
theorem rows_after_ordinary [Projection Carrier π] {P : TenantId → RecordedEvent → Prop}
    (w : World MemoryStore Carrier π) {h : Happening Carrier π} (hordinary : Ordinary codec h)
    (hsent : ∀ t, h = .sent t → ∀ event row,
      Engine.Holds t.settings.codec t.A t.command event row → P t.tenant row)
    (hrows : ∀ tenant, ∀ row ∈ w.store.log tenant, P tenant row) :
    ∀ tenant, ∀ row ∈ (w.after h).store.log tenant, P tenant row := by
  cases h with
  | sent t =>
    intro tenant row hrow
    obtain ⟨rows, hholds, hlog⟩ := w.log_after_sent t
    rw [hlog] at hrow
    split at hrow
    · next heq =>
      subst heq
      rcases List.mem_append.mp hrow with hold | hnew
      · exact hrows _ row hold
      · obtain ⟨event, hevent⟩ := hholds row hnew
        exact hsent t rfl event row hevent
    · exact hrows tenant row hrow
  | called call =>
    cases hordinary with
    | switched => exact hrows
  | started =>
    intro tenant row hrow
    rw [World.after, MemoryStore.log, (w.start_tenant tenant).1] at hrow
    exact hrows tenant row hrow
  | rewired => cases hordinary
  | clocked | refusing | planted => exact hrows

theorem filed_after [Projection Carrier π] (w : World MemoryStore Carrier π)
    (h : Happening Carrier π) (hbanking : Banking codec home h)
    (hfiled : ∀ tenant, ∀ row ∈ w.store.log tenant, Filed codec home tenant row) :
    ∀ tenant, ∀ row ∈ (w.after h).store.log tenant, Filed codec home tenant row := by
  refine rows_after_ordinary w hbanking.ordinary (fun t heq event row hholds => ?_) hfiled
  subst heq
  cases hbanking with
  | sequence command h => exact .sequence (h ▸ hholds)
  | account command h _ hhome => exact .account (h ▸ hholds) hhome

/-- Under the tags of sequences and accounts a registry has these types, if any. -/
structure Suits (registry : Registry Carrier) : Prop where
  sequence : ∀ binding ∈ registry.byTag? sequenceType.tag, binding = .of sequenceType
  account : ∀ binding ∈ registry.byTag? accountType.tag, binding = .of accountType

theorem suits_of_bound {registry : Registry Carrier}
    (hsequence : registry.byTag? sequenceType.tag = some (.of sequenceType))
    (haccount : registry.byTag? accountType.tag = some (.of accountType)) : Suits registry where
  sequence _ h := Option.some.inj (h.symm.trans hsequence)
  account _ h := Option.some.inj (h.symm.trans haccount)

section

variable {registry : Registry Carrier} {tenant : TenantId}

/-- What a row is read as tells of an account exactly if the row is in the stream of the account. -/
theorem Filed.accountEvents {row : RecordedEvent} {envelope : AnyEnvelope Carrier}
    (hsuits : Suits registry) (h : Filed codec home tenant row) (hread : registry.decode row codec = .ok envelope)
    (id : AccountId) :
    if row.stream = accountType.stream id then
      tenant = home ∧ ∃ event, accountType.read? codec row = some event ∧
        Sample.accountEvents id [envelope] = [event]
    else Sample.accountEvents id [envelope] = [] := by
  obtain ⟨binding, hbinding, hread⟩ := Registry.decode_eq_ok hread
  cases h with
  | sequence h =>
    have htag : row.event.metadata.aggregateType = sequenceType.tag := by
      rw [h.metadata]
    obtain rfl := hsuits.sequence binding (htag ▸ hbinding)
    obtain ⟨typed, -, rfl⟩ := map_eq_ok.mp hread
    rw [if_neg (h.stream ▸ sequence_stream_ne _ id)]
    exact accountEvents_of_none rfl id
  | @account command event h hhome =>
    have htag : row.event.metadata.aggregateType = accountType.tag := by
      rw [h.metadata]
    obtain rfl := hsuits.account binding (htag ▸ hbinding)
    obtain ⟨typed, hrecorded, rfl⟩ := map_eq_ok.mp hread
    obtain ⟨found, payload, hfound, -, -, rfl⟩ := EventEnvelope.ofRecorded_eq_ok hrecorded
    have hid : found = command.aggregateId := by
      rw [h.metadata, parseId, accountType_ofText_toText] at hfound
      exact (Except.ok.inj hfound).symm
    subst hid
    have hevent : accountType.read? codec row = some payload := by
      rw [AggregateType.read?, hrecorded]
      rfl
    have htyped : (AnyEnvelope.erase accountType (EventEnvelope.ofParts row command.aggregateId
        payload) (some row.position) : AnyEnvelope Carrier).typed? AccountId AccountEvent =
          some (EventEnvelope.ofParts row command.aggregateId payload) := rfl
    have htold := accountEvents_of_some htyped id
    rw [h.stream]
    by_cases hown : command.aggregateId = id
    · subst hown
      rw [if_pos rfl]
      exact ⟨hhome, payload, hevent, htold.trans (if_pos rfl)⟩
    · rw [if_neg (mt account_stream_inj.mp hown)]
      exact htold.trans (if_neg hown)

/-- What is read from a log tells of each account what the stream of the account does. -/
theorem accountEvents_of_filed (hsuits : Suits registry) {rows : List RecordedEvent}
    (id : AccountId) :
    ∀ {replayed : List (AnyEnvelope Carrier)}, (∀ row ∈ rows, Filed codec home tenant row) →
      rows.mapM (registry.decode · codec) = .ok replayed →
      (rows.filter fun row => row.stream = accountType.stream id).mapM
          (accountType.read? codec) = some (accountEvents id replayed) ∧
        (tenant ≠ home → accountEvents id replayed = []) := by
  induction rows with
  | nil =>
    intro replayed _ hread
    obtain rfl := Except.ok.inj hread
    exact ⟨rfl, fun _ => rfl⟩
  | cons row rows ih =>
    intro replayed hfiled hread
    rw [List.mapM_cons] at hread
    obtain ⟨envelope, hfirst, hread⟩ := bind_eq_ok.mp hread
    obtain ⟨envelopes, hrest, hread⟩ := bind_eq_ok.mp hread
    obtain rfl := Except.ok.inj hread
    obtain ⟨hevents, hhome⟩ := ih (fun row hin => hfiled row (List.mem_cons_of_mem _ hin)) hrest
    have htold := (hfiled row (List.mem_cons_self ..)).accountEvents hsuits hfirst id
    have hsplit : accountEvents id (envelope :: envelopes) =
        accountEvents id [envelope] ++ accountEvents id envelopes :=
      accountEvents_append id [envelope] envelopes
    rw [hsplit]
    split at htold
    · next hown =>
      obtain ⟨rfl, event, hevent, htold⟩ := htold
      refine ⟨?_, fun hne => absurd rfl hne⟩
      rw [List.filter_cons_of_pos (by simpa using hown), List.mapM_cons,
        hevent, hevents, htold]
      rfl
    · next hother =>
      rw [List.filter_cons_of_neg (by simpa using hother), htold]
      exact ⟨hevents, hhome⟩

/-! ## What was published -/

theorem accountEvents_unplaced (id : AccountId) (envelopes : List (AnyEnvelope Carrier)) :
    accountEvents id (envelopes.map AnyEnvelope.unplaced) = accountEvents id envelopes := by
  rw [accountEvents, List.filterMap_map]
  rfl

theorem accountEvents_filter {p : AnyEnvelope Carrier → Bool} (id : AccountId)
    {envelopes : List (AnyEnvelope Carrier)}
    (h : ∀ envelope ∈ envelopes, p envelope = false → accountEvents id [envelope] = []) :
    accountEvents id (envelopes.filter p) = accountEvents id envelopes := by
  induction envelopes with
  | nil => rfl
  | cons envelope envelopes ih =>
    have hrest := ih fun envelope hin => h envelope (List.mem_cons_of_mem _ hin)
    have hsplit : ∀ rest, accountEvents id (envelope :: rest) =
        accountEvents id [envelope] ++ accountEvents id rest := accountEvents_append id [envelope]
    cases hp : p envelope with
    | true => rw [List.filter_cons_of_pos hp, hsplit, hrest, ← hsplit]
    | false =>
      rw [List.filter_cons_of_neg (by simp [hp]), hrest, hsplit,
        h envelope (List.mem_cons_self ..) hp, List.nil_append]

/-- What was published tells of an account what its stream does, if the log of its home tells of it
just this and all other logs tell nothing of it. -/
theorem accountEvents_published {w : World MemoryStore Carrier π} {id : AccountId}
    (hown : ∀ replayed, (w.store.log home).mapM (registry.decode · codec) = .ok replayed →
      ((w.store.log home).filter fun row => row.stream = accountType.stream id).mapM
        (accountType.read? codec) = some (accountEvents id replayed))
    (hothers : ∀ tenant replayed, tenant ≠ home →
      (w.store.log tenant).mapM (registry.decode · codec) = .ok replayed →
      accountEvents id replayed = [])
    (hmirrors : ∀ tenant, ∃ replayed, w.Mirrors registry codec tenant replayed) :
    ((w.store.log home).filter fun row => row.stream = accountType.stream id).mapM
      (accountType.read? codec) = some (accountEvents id w.bus.published) := by
  have hhome : accountEvents id (w.bus.published.filter (·.tenant = home)) =
      accountEvents id w.bus.published := by
    refine accountEvents_filter id fun envelope hin hother => ?_
    -- an envelope of another tenant was read from the log of that tenant
    obtain ⟨replayed, hread, -, hlive⟩ := hmirrors envelope.tenant
    have hnone := hothers _ _ (by simpa using hother) hread
    rw [← accountEvents_unplaced, ← hlive] at hnone
    have hmem : envelope ∈ w.bus.published.filter (·.tenant = envelope.tenant) :=
      List.mem_filter.mpr ⟨hin, by simp⟩
    rw [accountEvents, List.filterMap_eq_nil_iff] at hnone
    rw [accountEvents, List.filterMap_eq_nil_iff]
    intro other hother
    rw [List.mem_singleton.mp hother]
    exact hnone envelope hmem
  obtain ⟨replayed, hread, -, hlive⟩ := hmirrors home
  rw [← hhome, hlive, accountEvents_unplaced]
  exact hown replayed hread

end

/-! ## The truth -/

/-- The view has followed some envelopes from its beginning on, and has come to show the accounts of
a tenant as an engine answers for them. No withdrawal on the way found less than it took. -/
structure Balances.Truthful (view : Balances) (codec : Codec) (home : TenantId)
    (w : World MemoryStore Carrier π) (envelopes : List (AnyEnvelope Carrier)) : Prop where
  follows : Bus.Follows .empty envelopes view
  shows : ∀ id, ∃ state,
    accountType.stateOf? codec ((w.store.tenant home).rows (accountType.stream id)) = some state ∧
    (∀ settings : Settings, settings.codec = codec → w.started = true →
      w.store.available = true →
      ∃ w', Engine.getState settings accountType home id w = .ok (.ok state, w')) ∧
    ∀ row, view.get? id = some row ↔
      state.closed = false ∧ state.owner = some row.owner ∧ state.balance = row.balance
  covers : ∀ before envelope since, envelopes = before ++ envelope :: since →
    ∃ passing, Bus.Follows Balances.empty before passing ∧ passing.Covers envelope

/-- Envelopes that tell of each account what its lawful stream does, wherever it is at home, are in
good order and tell its state. -/
theorem inOrder_of_lawful {w : World MemoryStore Carrier π} {homes : AccountId → TenantId}
    {envelopes : List (AnyEnvelope Carrier)}
    (hlawful : ∀ id, w.Lawful accountType codec Ledger (homes id) (accountType.stream id))
    (hevents : ∀ id, ((w.store.log (homes id)).filter fun row =>
      row.stream = accountType.stream id).mapM (accountType.read? codec) =
        some (accountEvents id envelopes)) :
    InOrder envelopes ∧ ∀ id, ∃ state,
      accountType.stateOf? codec ((w.store.tenant (homes id)).rows (accountType.stream id)) =
        some state ∧ accountType.fold? (accountEvents id envelopes) = some state := by
  have hread : ∀ id, ((w.store.tenant (homes id)).rows (accountType.stream id)).mapM
      (accountType.read? codec) = some (accountEvents id envelopes) := fun id => by
    rw [((hlawful id).dense (homes id)).parts]
    exact hevents id
  have hmeans : ∀ id, ∃ state,
      accountType.stateOf? codec ((w.store.tenant (homes id)).rows (accountType.stream id)) =
        some state ∧ accountType.fold? (accountEvents id envelopes) = some state := fun id => by
    obtain ⟨state, hstate⟩ := (hlawful id).means
    refine ⟨state, hstate, ?_⟩
    rw [AggregateType.stateOf?, hread] at hstate
    exact hstate
  refine ⟨fun id => ?_, hmeans⟩
  obtain ⟨state, -, hfold⟩ := hmeans id
  obtain ⟨events, hfound, hledger⟩ := (hlawful id).obeys
  obtain rfl := Option.some.inj (hfound.symm.trans (hread id))
  exact ⟨state, hfold, hledger.toWellFormed⟩

/-- A view that follows what the lawful streams of the accounts hold is truthful. -/
theorem truthful_of_lawful {w : World MemoryStore Carrier π} {view : Balances}
    {envelopes : List (AnyEnvelope Carrier)}
    (hlawful : ∀ id, w.Lawful accountType codec Ledger home (accountType.stream id))
    (hfollows : Bus.Follows .empty envelopes view)
    (hevents : ∀ id, ((w.store.log home).filter fun row =>
      row.stream = accountType.stream id).mapM (accountType.read? codec) =
        some (accountEvents id envelopes)) : view.Truthful codec home w envelopes := by
  obtain ⟨horder, hmeans⟩ := inOrder_of_lawful hlawful hevents
  refine ⟨hfollows, fun id => ?_, ?_⟩
  · obtain ⟨state, hstate, hfold⟩ := hmeans id
    refine ⟨state, hstate, fun settings hcodec hstarted havailable => ?_, fun row => ?_⟩
    · subst hcodec
      exact Engine.getState_of_sound rfl (hlawful id).toSound hstarted havailable hstate
    · rw [get?_of_follows envelopes hfollows horder hfold]
      exact AccountState.row?_eq_some
  · rintro before envelope since rfl
    exact covers_of_follows hfollows horder

section

variable {ρ : Type} [Projection Carrier ρ]

/-- A reset leaves the view without rows. -/
theorem reset_balances {resets : List Nat} {projections projections' : List (Balances ⊕ ρ)}
    {place : Nat} {old : Balances}
    (h : Bus.reset (κ := Carrier) resets projections = (.ok (), projections'))
    (hview : projections[place]? = some (.inl old)) (hplace : place ∈ resets) :
    projections'[place]? = some (.inl .empty) := by
  obtain ⟨_, hview', rfl⟩ := Bus.reset_getElem? (κ := Carrier)
    (fun view : Balances ⊕ ρ => ∃ balances, view = .inl balances) (fun view => view = .inl .empty)
    (fun view changed hkind hreset => by
      obtain ⟨balances, rfl⟩ := hkind
      obtain rfl : .inl Balances.empty = changed := Except.ok.inj hreset
      exact ⟨⟨_, rfl⟩, rfl⟩) h hview ⟨old, rfl⟩ (.inl hplace)
  exact hview'

variable {registry : Registry Carrier} {resets : List Nat} {tenant : TenantId} {batchSize : Nat}
  {w w' : World MemoryStore Carrier (Balances ⊕ ρ)} {summary : RebuildSummary}
  {news : List RebuildProgress} {place : Nat} {old : Balances}

/-- In a rebuild from the beginning that comes through, the view follows what the log of the tenant
is read as, without rows at first if it is among those that are reset, and from where it was if it
is not. -/
theorem follows_of_rebuild
    (hrun : Rebuild.run codec registry resets tenant .start batchSize w =
      .ok (.ok summary, news, w'))
    (hdense : w.store.Dense) (honce : w.bus.registered.count place = 1)
    (hview : w.bus.projections[place]? = some (.inl old)) :
    ∃ view replayed, w'.bus.projections[place]? = some (.inl view) ∧
      w'.bus.published = w.bus.published ++ replayed ∧
      (w.store.log tenant).mapM (registry.decode · codec) = .ok replayed ∧
      Bus.Follows (if place ∈ resets then .empty else old) replayed view := by
  obtain ⟨-, bus₀, batches, hprepares, haccepts, hread⟩ := Rebuild.run_eq_ok_ok hdense hrun
  rw [MemoryStore.rowsAfter_start hdense] at hread
  cases hprepares with
  | elsewhere hstart => exact absurd rfl hstart
  | @beginning projections _ hreset =>
    have hfirst : projections[place]? =
        some (.inl (if place ∈ resets then .empty else old)) := by
      split
      · next hplace => exact reset_balances hreset hview hplace
      · next hplace =>
        have hkept := Bus.reset_getElem?_of_notMem (κ := Carrier) hplace w.bus.projections
        rw [hreset] at hkept
        exact hkept.trans hview
    obtain ⟨last, hlast, hfollows⟩ := haccepts.follows honce hfirst
    obtain ⟨view, rfl, hview'⟩ := hfollows.inl
    exact ⟨view, batches.flatten, hlast, haccepts.adds.published, hread, hview'⟩

/-- A view that follows, from no rows on, what a rebuild reads of lawful accounts at home, is truthful
behind the rebuild. -/
theorem truthful_of_rebuild
    (hrun : Rebuild.run codec registry resets tenant .start batchSize w =
      .ok (.ok summary, news, w')) (hsuits : Suits registry)
    (hlawful : ∀ id, w.Lawful accountType codec Ledger tenant (accountType.stream id))
    (hfiled : ∀ row ∈ w.store.log tenant, Filed codec tenant tenant row)
    {view : Balances} {replayed : List (AnyEnvelope Carrier)}
    (hread : (w.store.log tenant).mapM (registry.decode · codec) = .ok replayed)
    (hfollows : Bus.Follows .empty replayed view) : view.Truthful codec tenant w' replayed := by
  have hdense := (hlawful ⟨.ofNat 0⟩).dense
  obtain ⟨hsame, -⟩ := Rebuild.run_eq_ok_ok hdense hrun
  have hstore : w'.store = w.store := by
    rw [hsame]
  have hvault : w'.vault = w.vault := by
    rw [hsame]
  refine truthful_of_lawful (fun id => (hlawful id).of_same (hstore ▸ hdense) (by rw [hstore])
    (by rw [hvault])) hfollows fun id => ?_
  rw [hstore]
  exact (accountEvents_of_filed hsuits id hfiled hread).1

/-- What was published mirrors every log, where a history of ordinary happenings begins without events
and announces all that it stores. -/
theorem exists_mirrors (hfresh : w.Fresh) (hsilent : w.bus.published = [])
    (history : List (Happening Carrier (Balances ⊕ ρ)))
    (hordinary : ∀ h ∈ history, Ordinary codec h) (hannounced : w.Announced history)
    (tenant : TenantId) :
    ∃ replayed, (w.afterAll history).Mirrors Sample.registry codec tenant replayed := by
  have hfirst : w.Mirrors Sample.registry codec tenant [] := by
    rw [World.Mirrors, MemoryStore.log, hfresh.tenant, hsilent]
    exact ⟨rfl, rfl, rfl⟩
  exact mirrors_afterAll registry_sequence registry_account history hordinary hannounced hfirst

/-- The view on the bus has followed, without rows at first, all that was published. -/
theorem follows_of_announced (hsilent : w.bus.published = [])
    (honce : w.bus.registered.count place = 1)
    (hview : w.bus.projections[place]? = some (.inl .empty))
    (history : List (Happening Carrier (Balances ⊕ ρ)))
    (hordinary : ∀ h ∈ history, Ordinary codec h) (hannounced : w.Announced history) :
    ∃ view, (w.afterAll history).bus.projections[place]? = some (.inl view) ∧
      Bus.Follows .empty (w.afterAll history).bus.published view := by
  have hwired : ∀ bus tracker, .rewired bus tracker ∉ history := fun bus tracker hin => by
    cases hordinary _ hin
  obtain ⟨more, last, hpublished, hlast, hfollows⟩ :=
    World.follows_afterAll history hannounced hwired honce hview
  obtain ⟨view, rfl, hview'⟩ := hfollows.inl
  rw [hsilent, List.nil_append] at hpublished
  exact ⟨view, hlast, hpublished ▸ hview'⟩

/-- **The view of balances tells the truth.** Take any history of commands to sequences of any
tenants and to accounts of one tenant, through engines with one codec, that begins without events.

- If the view was on the bus from the beginning, without rows, and every publication succeeded, then
  it is truthful about what was published.
- Whatever became of the publications, and whatever the bus and the view on it have come to be: if
  the tenant is rebuilt from the beginning, through a registry that binds both types, in batches of
  any size, with the view among those that are reset, and the rebuild comes through, then the view
  is truthful about what the rebuild has published. -/
theorem balances_tell_the_truth {w : World MemoryStore Carrier (Balances ⊕ ρ)} (hfresh : w.Fresh)
    (history : List (Happening Carrier (Balances ⊕ ρ)))
    (hbanking : ∀ h ∈ history, Banking codec home h) (place : Nat) :
    (w.bus.published = [] → w.bus.registered.count place = 1 →
      w.bus.projections[place]? = some (.inl .empty) → w.Announced history →
      ∃ view, (w.afterAll history).bus.projections[place]? = some (.inl view) ∧
        view.Truthful codec home (w.afterAll history) (w.afterAll history).bus.published) ∧
    ∀ {registry : Registry Carrier} {resets : List Nat} {batchSize : Nat}
      {bus : Bus Carrier (Balances ⊕ ρ)} {tracker : CompletionTracker} {old : Balances}
      {summary : RebuildSummary} {news : List RebuildProgress}
      {w' : World MemoryStore Carrier (Balances ⊕ ρ)},
      registry.byTag? sequenceType.tag = some (.of sequenceType) →
      registry.byTag? accountType.tag = some (.of accountType) →
      place ∈ resets → bus.registered.count place = 1 →
      bus.projections[place]? = some (.inl old) →
      Rebuild.run codec registry resets home .start batchSize
        { w.afterAll history with bus := bus, tracker := tracker } =
          .ok (.ok summary, news, w') →
      ∃ view replayed, w'.bus.projections[place]? = some (.inl view) ∧
        w'.bus.published = bus.published ++ replayed ∧ view.Truthful codec home w' replayed := by
  have hlawful : ∀ id, (w.afterAll history).Lawful accountType codec Ledger home
      (accountType.stream id) := fun id =>
    World.afterAll_lawful (accountType_upholds codec)
      (hfresh.lawful (accountType_upholds codec).nil) history
      fun h hin => (hbanking h hin).heeds id
  have hfiled : ∀ tenant, ∀ row ∈ (w.afterAll history).store.log tenant,
      Filed codec home tenant row := by
    refine World.afterAll_induction filed_after (fun tenant row hrow => ?_) history hbanking
    rw [MemoryStore.log, hfresh.tenant] at hrow
    cases hrow
  refine ⟨fun hsilent honce hview hannounced => ?_,
    fun hsequence haccount hplace honce hview hrun => ?_⟩
  · have hordinary := fun h hin => (hbanking h hin).ordinary
    have hsuits := suits_of_bound registry_sequence registry_account
    obtain ⟨view, hlast, hfollows⟩ :=
      follows_of_announced hsilent honce hview history hordinary hannounced
    exact ⟨view, hlast, truthful_of_lawful hlawful hfollows fun id => accountEvents_published
      (fun replayed hread => (accountEvents_of_filed hsuits id (hfiled home) hread).1)
      (fun tenant replayed hother hread =>
        (accountEvents_of_filed hsuits id (hfiled tenant) hread).2 hother)
      (exists_mirrors hfresh hsilent history hordinary hannounced)⟩
  · obtain ⟨view, replayed, hlast, hpublished, hread, hfollows⟩ :=
      follows_of_rebuild hrun (hlawful ⟨.ofNat 0⟩).dense honce hview
    rw [if_pos hplace] at hfollows
    exact ⟨view, replayed, hlast, hpublished, truthful_of_rebuild hrun
      (suits_of_bound hsequence haccount)
      (fun id => (hlawful id).of_same (hlawful id).dense rfl rfl) (hfiled home) hread hfollows⟩

end

/-! ## A working day -/

/-- The world of a started engine with the view of balances on its bus. -/
def branchOffice : World MemoryStore Carrier (Balances ⊕ Inert) :=
  { (World.blank : World MemoryStore Carrier (Balances ⊕ Inert)) with
    bus := .new [.inl .empty] [0] false }

/-- An account is opened, 5 are put in, numbers are added to a sequence, and 3 are taken out. -/
def workingDay : List (Happening Carrier (Balances ⊕ Inert)) :=
  [.sent (teller (.openFor "ada")), .sent (teller (.deposit 5)), .sent (addition [3, 4]),
    .sent (teller (.withdraw 3))]

/-- Each of some commands is answered, if they are sent one behind the other. -/
def answered (w : World MemoryStore Carrier (Balances ⊕ Inert)) : List (Task Carrier) → Bool
  | [] => true
  | t :: tasks =>
    (match Engine.send t.settings t.A t.command w with
      | .ok (.ok _, _) => true
      | _ => false) && answered (w.after (.sent t)) tasks

theorem announced_of_answered (tasks : List (Task Carrier)) :
    ∀ {w : World MemoryStore Carrier (Balances ⊕ Inert)}, answered w tasks = true →
      w.Announced (tasks.map .sent) := by
  induction tasks with
  | nil => exact fun _ => trivial
  | cons task tasks ih =>
    intro w h
    obtain ⟨hanswer, hrest⟩ := Bool.and_eq_true_iff.mp h
    refine ⟨fun t heq => ?_, ih hrest⟩
    obtain rfl := Happening.sent.inj heq
    split at hanswer
    · next hsend => exact Task.announces_of_send hsend
    · cases hanswer

theorem announced_workingDay : branchOffice.Announced workingDay :=
  announced_of_answered [_, _, _, _] (by decide +kernel)

/-- A bus on which the view shows an account that there is not. -/
def mistakenBus : Bus Carrier (Balances ⊕ Inert) :=
  .new [.inl ⟨Table.empty.set "nobody" ⟨"eve", 9⟩⟩] [0] false

/-- The view shows that 2 are left, and does so again behind a rebuild in batches of two. -/
theorem workingDay_is_told_truthfully :
    ∃ view, (branchOffice.afterAll workingDay).bus.projections[0]? = some (.inl view) ∧
      view.get? ⟨.ofNat 5⟩ = some ⟨"ada", 2⟩ ∧
      ∃ summary news w' rebuilt,
        Rebuild.run .binary registry [0] .default .start 2
          { branchOffice.afterAll workingDay with bus := mistakenBus, tracker := .empty } =
            .ok (.ok summary, news, w') ∧
        w'.bus.projections[0]? = some (.inl rebuilt) ∧
        rebuilt.get? ⟨.ofNat 5⟩ = some ⟨"ada", 2⟩ := by
  have hname : ("ada" : String).utf8ByteSize < UInt64.size := by decide
  have hbanking : ∀ h ∈ workingDay, Banking .binary .default h := by
    intro h hin
    simp only [workingDay, List.mem_cons, List.not_mem_nil, or_false] at hin
    rcases hin with rfl | rfl | rfl | rfl
    · exact .account _ rfl hname rfl
    · exact .account _ rfl trivial rfl
    · exact .sequence _ rfl
    · exact .account _ rfl trivial rfl
  obtain ⟨hlive, hrebuilt⟩ := balances_tell_the_truth (w := branchOffice) ⟨rfl, rfl⟩ workingDay
    hbanking 0
  have hleft : accountType.stateOf? .binary
      (((branchOffice.afterAll workingDay).store.tenant .default).rows
        (accountType.stream ⟨.ofNat 5⟩)) = some ⟨some "ada", 2, false⟩ := by decide +kernel
  have hshown : ∀ {w' : World MemoryStore Carrier (Balances ⊕ Inert)} {view : Balances}
      {envelopes : List (AnyEnvelope Carrier)},
      w'.store = (branchOffice.afterAll workingDay).store →
      view.Truthful .binary .default w' envelopes → view.get? ⟨.ofNat 5⟩ = some ⟨"ada", 2⟩ := by
    intro w' view envelopes hstore htruthful
    obtain ⟨state, hstate, -, hrow⟩ := htruthful.shows ⟨.ofNat 5⟩
    rw [hstore] at hstate
    obtain rfl := Option.some.inj (hleft.symm.trans hstate)
    exact (hrow _).mpr ⟨rfl, rfl, rfl⟩
  obtain ⟨view, hview, htruthful⟩ := hlive rfl rfl rfl announced_workingDay
  refine ⟨view, hview, hshown rfl htruthful, ?_⟩
  have hcomes : (match Rebuild.run .binary registry [0] .default .start 2
      { branchOffice.afterAll workingDay with bus := mistakenBus, tracker := .empty } with
    | .ok (.ok _, _, _) => true
    | _ => false) = true := by decide +kernel
  split at hcomes
  · next summary news w' hrun =>
    obtain ⟨rebuilt, _, hview, -, htruthful⟩ :=
      hrebuilt registry_sequence registry_account (List.mem_singleton_self 0) rfl rfl hrun
    refine ⟨summary, news, w', rebuilt, hrun, hview, ?_⟩
    have hdense : (branchOffice.afterAll workingDay).store.Dense :=
      World.afterAll_dense (World.Fresh.dense ⟨rfl, rfl⟩) workingDay
    obtain ⟨hsame, -⟩ := Rebuild.run_eq_ok_ok (by exact hdense) hrun
    exact hshown (by rw [hsame]) htruthful
  · cases hcomes

end Chronicle.Sample

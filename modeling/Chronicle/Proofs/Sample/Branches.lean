import Chronicle.Proofs.Sample.Banking

/-!
# Branches that share the view of balances

Each account is used in one tenant, its home, and accounts with different homes are shown by one
view. A rebuild reads the log of one tenant, and this tells nothing of accounts that are at home
elsewhere. But a reset clears the whole view. So a rebuild that resets the view leaves it with the
accounts of the one tenant only, and one that does not leaves the rows of all others as they were.
-/

namespace Chronicle.Sample

variable {π : Type} {codec : Codec} {home : AccountId → TenantId} {tenant : TenantId}

/-- What happens where accounts are used in their homes, and sequences of any tenant, through engines
with one codec. -/
inductive Branching (codec : Codec) (home : AccountId → TenantId) : Happening Carrier π → Prop
  | sequence {settings : Settings} (command : CommandEnvelope UInt64 SequenceCommand)
      (h : settings.codec = codec) :
      Branching codec home (.sent ⟨settings, sequenceType, command⟩)
  | account {settings : Settings} (command : CommandEnvelope AccountId AccountCommand)
      (h : settings.codec = codec) (hfits : command.payload.Fits)
      (hhome : command.tenant = home command.aggregateId) :
      Branching codec home (.sent ⟨settings, accountType, command⟩)
  | started : Branching codec home .started
  | switched (available : Bool) : Branching codec home (.called (.setAvailable available))
  | clocked (now : Timestamp) : Branching codec home (.clocked now)
  | refusing (loads saves : Bool) : Branching codec home (.refusing loads saves)

theorem Branching.ordinary {h : Happening Carrier π} (hbranching : Branching codec home h) :
    Ordinary codec h := by
  cases hbranching with
  | sequence command h => exact .sequence command h
  | account command h hfits => exact .account command h hfits
  | started => exact .started
  | switched available => exact .switched available
  | clocked now => exact .clocked now
  | refusing loads saves => exact .refusing loads saves

theorem Branching.heeds {h : Happening Carrier π} (hbranching : Branching codec home h)
    (tenant : TenantId) (id : AccountId) :
    h.Heeds accountType codec (fun command => command.payload.Fits) tenant
      (accountType.stream id) := by
  cases hbranching with
  | sequence command => exact fun hown => absurd (Prod.mk.inj hown).2 (sequence_stream_ne _ id)
  | account command h hfits => exact fun _ => .of h hfits
  | started | switched | clocked | refusing => trivial

/-! ## The log of one tenant -/

/-- A row of a tenant holds an event of a sequence, or of an account that is at home there. -/
structure AtHome (codec : Codec) (home : AccountId → TenantId) (tenant : TenantId)
    (row : RecordedEvent) : Prop where
  filed : Filed codec tenant tenant row
  home : ∀ id, row.stream = accountType.stream id → home id = tenant

theorem atHome_after [Projection Carrier π] (w : World MemoryStore Carrier π)
    (h : Happening Carrier π) (hbranching : Branching codec home h)
    (hrows : ∀ tenant, ∀ row ∈ w.store.log tenant, AtHome codec home tenant row) :
    ∀ tenant, ∀ row ∈ (w.after h).store.log tenant, AtHome codec home tenant row := by
  refine rows_after_ordinary w hbranching.ordinary (fun t heq event row hholds => ?_) hrows
  subst heq
  cases hbranching with
  | sequence command h =>
    exact ⟨.sequence (h ▸ hholds), fun id hown =>
      absurd (hholds.stream.symm.trans hown) (sequence_stream_ne _ id)⟩
  | account command h _ hhome =>
    refine ⟨.account (h ▸ hholds) rfl, fun id hown => ?_⟩
    rw [← account_stream_inj.mp (hholds.stream.symm.trans hown)]
    exact hhome.symm

/-- The log of a tenant tells nothing of accounts that are at home elsewhere. -/
theorem accountEvents_of_atHome {registry : Registry Carrier} (hsuits : Suits registry)
    {rows : List RecordedEvent} {replayed : List (AnyEnvelope Carrier)}
    (hrows : ∀ row ∈ rows, AtHome codec home tenant row)
    (hread : rows.mapM (registry.decode · codec) = .ok replayed) {id : AccountId}
    (hother : home id ≠ tenant) : accountEvents id replayed = [] := by
  have hevents := (accountEvents_of_filed hsuits id (fun row hin => (hrows row hin).filed) hread).1
  have hnone : (rows.filter fun row => row.stream = accountType.stream id) = [] := by
    refine List.filter_eq_nil_iff.mpr fun row hin hown => hother ?_
    exact (hrows row hin).home id (of_decide_eq_true hown)
  rw [hnone] at hevents
  exact (Option.some.inj hevents).symm

section

variable {ρ : Type} [Projection Carrier ρ] {w : World MemoryStore Carrier (Balances ⊕ ρ)}

theorem lawful_of_branching (hfresh : w.Fresh) (history : List (Happening Carrier (Balances ⊕ ρ)))
    (hbranching : ∀ h ∈ history, Branching codec home h) (tenant : TenantId) (id : AccountId) :
    (w.afterAll history).Lawful accountType codec Ledger tenant (accountType.stream id) :=
  World.afterAll_lawful (accountType_upholds codec)
    (hfresh.lawful (accountType_upholds codec).nil) history
    fun h hin => (hbranching h hin).heeds tenant id

theorem atHome_of_branching (hfresh : w.Fresh) (history : List (Happening Carrier (Balances ⊕ ρ)))
    (hbranching : ∀ h ∈ history, Branching codec home h) :
    ∀ tenant, ∀ row ∈ (w.afterAll history).store.log tenant, AtHome codec home tenant row := by
  refine World.afterAll_induction atHome_after (fun tenant row hrow => ?_) history hbranching
  rw [MemoryStore.log, hfresh.tenant] at hrow
  cases hrow

/-! ## Live -/

/-- The view on the bus has the row of each account that its state at home calls for. -/
theorem rows_of_branching (hfresh : w.Fresh) (hsilent : w.bus.published = []) {place : Nat}
    (honce : w.bus.registered.count place = 1)
    (hview : w.bus.projections[place]? = some (.inl .empty))
    (history : List (Happening Carrier (Balances ⊕ ρ)))
    (hbranching : ∀ h ∈ history, Branching codec home h) (hannounced : w.Announced history) :
    ∃ view, (w.afterAll history).bus.projections[place]? = some (.inl view) ∧ ∀ id, ∃ state,
      accountType.stateOf? codec
          (((w.afterAll history).store.tenant (home id)).rows (accountType.stream id)) =
        some state ∧ view.get? id = state.row? := by
  have hordinary := fun h hin => (hbranching h hin).ordinary
  have hrows := atHome_of_branching hfresh history hbranching
  have hsuits := suits_of_bound registry_sequence registry_account
  obtain ⟨view, hlast, hfollows⟩ :=
    follows_of_announced hsilent honce hview history hordinary hannounced
  -- of all that was published, an account is told of by the log of its home only
  obtain ⟨horder, hmeans⟩ := inOrder_of_lawful
    (fun id => lawful_of_branching hfresh history hbranching (home id) id) fun id =>
    accountEvents_published
      (fun replayed hread => (accountEvents_of_filed hsuits id
        (fun row hin => (hrows (home id) row hin).filed) hread).1)
      (fun tenant replayed hother hread =>
        accountEvents_of_atHome hsuits (hrows tenant) hread (Ne.symm hother))
      (exists_mirrors hfresh hsilent history hordinary hannounced)
  refine ⟨view, hlast, fun id => ?_⟩
  obtain ⟨state, hstate, hfold⟩ := hmeans id
  exact ⟨state, hstate, get?_of_follows _ hfollows horder hfold⟩

/-! ## A rebuild -/

/-- **A rebuild of one tenant forgets the accounts of the others.** Take any history of commands to
sequences, and to accounts each of which is used in one tenant, that begins without events, and any
bus on which the view is registered once. If a tenant is rebuilt from the beginning, in batches of
any size and through a registry that has the two types under their tags, and the rebuild comes
through:

- where the view is among those that are reset, it is truthful about what the rebuild has published,
  and has no row of any account that is at home in another tenant;
- where it is not, every such account has the row that it had, or none if it had none. -/
theorem rebuild_forgets_other_tenants (hfresh : w.Fresh)
    (history : List (Happening Carrier (Balances ⊕ ρ)))
    (hbranching : ∀ h ∈ history, Branching codec home h) {registry : Registry Carrier}
    (hsuits : Suits registry) {place : Nat} {resets : List Nat} {batchSize : Nat}
    {bus : Bus Carrier (Balances ⊕ ρ)} {tracker : CompletionTracker} {old : Balances}
    {summary : RebuildSummary} {news : List RebuildProgress}
    {w' : World MemoryStore Carrier (Balances ⊕ ρ)} (honce : bus.registered.count place = 1)
    (hview : bus.projections[place]? = some (.inl old))
    (hrun : Rebuild.run codec registry resets tenant .start batchSize
      { w.afterAll history with bus := bus, tracker := tracker } = .ok (.ok summary, news, w')) :
    ∃ view replayed, w'.bus.projections[place]? = some (.inl view) ∧
      w'.bus.published = bus.published ++ replayed ∧
      (place ∈ resets → view.Truthful codec tenant w' replayed ∧
        ∀ id, home id ≠ tenant → view.get? id = none) ∧
      (place ∉ resets → ∀ id, home id ≠ tenant → view.get? id = old.get? id) := by
  have hlawful := lawful_of_branching hfresh history hbranching tenant
  have hrows := atHome_of_branching hfresh history hbranching
  obtain ⟨view, replayed, hlast, hpublished, hread, hfollows⟩ :=
    follows_of_rebuild hrun (hlawful ⟨.ofNat 0⟩).dense honce hview
  -- nothing that is replayed is about an account of another tenant
  have hnone : ∀ id, home id ≠ tenant → accountEvents id replayed = [] := fun id hother =>
    accountEvents_of_atHome hsuits (hrows tenant) hread hother
  refine ⟨view, replayed, hlast, hpublished, fun hplace => ?_, fun hplace id hother => ?_⟩
  · rw [if_pos hplace] at hfollows
    exact ⟨truthful_of_rebuild hrun hsuits
      (fun id => (hlawful id).of_same (hlawful id).dense rfl rfl)
      (fun row hin => (hrows tenant row hin).filed) hread hfollows,
      fun id hother => get?_of_follows_nil hfollows (hnone id hother)⟩
  · rw [if_neg hplace] at hfollows
    exact get?_of_follows_nil hfollows (hnone id hother)

end

/-! ## Two branches -/

/-- A command to one account of the northern branch, sent by an engine with the standard settings. -/
def northernTeller (command : AccountCommand) : Task Carrier where
  settings := .standard
  A := accountType
  command := { CommandEnvelope.new (⟨.ofNat 8⟩ : AccountId) command ⟨.ofNat 9⟩ ⟨.ofNat 10⟩ ⟨0, 0⟩ with
    tenant := ⟨"north"⟩ }

/-- The branch where an account is used. -/
def branchOf (id : AccountId) : TenantId := if id = ⟨.ofNat 8⟩ then ⟨"north"⟩ else .default

/-- In either branch an account is opened and money is put in. -/
def twoBranches (south north : UInt64) : List (Happening Carrier (Balances ⊕ Inert)) :=
  [.sent (teller (.openFor "ada")), .sent (teller (.deposit south)),
    .sent (northernTeller (.openFor "bob")), .sent (northernTeller (.deposit north))]

theorem branching_twoBranches (south north : UInt64) :
    ∀ h ∈ twoBranches south north, Branching .binary branchOf h := by
  have hnames : ("ada" : String).utf8ByteSize < UInt64.size ∧
      ("bob" : String).utf8ByteSize < UInt64.size := by decide
  have hhomes : branchOf ⟨.ofNat 5⟩ = .default ∧ branchOf ⟨.ofNat 8⟩ = ⟨"north"⟩ := by decide
  intro h hin
  simp only [twoBranches, List.mem_cons, List.not_mem_nil, or_false] at hin
  rcases hin with rfl | rfl | rfl | rfl
  · exact .account _ rfl hnames.1 hhomes.1.symm
  · exact .account _ rfl trivial hhomes.1.symm
  · exact .account _ rfl hnames.2 hhomes.2.symm
  · exact .account _ rfl trivial hhomes.2.symm

/-- The view of balances on the bus of a branch office. -/
def viewShown (w : World MemoryStore Carrier (Balances ⊕ Inert)) : Option Balances :=
  w.bus.projections[0]?.bind Sum.getLeft?

theorem viewShown_eq_some {w : World MemoryStore Carrier (Balances ⊕ Inert)} {view : Balances} :
    viewShown w = some view ↔ w.bus.projections[0]? = some (.inl view) := by
  simp [viewShown, Option.bind_eq_some_iff]

/-- The row that it has for an account. -/
def rowShown (w : World MemoryStore Carrier (Balances ⊕ Inert)) (id : AccountId) :
    Option BalanceRow :=
  (viewShown w).bind fun view => view.get? id

theorem bob_is_shown :
    rowShown (branchOffice.afterAll (twoBranches 5 7)) ⟨.ofNat 8⟩ = some ⟨"bob", 7⟩ := by
  decide +kernel

theorem southern_rebuild_comes_through : ∃ summary news w',
    Rebuild.run .binary registry [0] .default .start 2 (branchOffice.afterAll (twoBranches 5 7)) =
      .ok (.ok summary, news, w') ∧ rowShown w' ⟨.ofNat 8⟩ = none := by
  have hcomes : (match Rebuild.run .binary registry [0] .default .start 2
      (branchOffice.afterAll (twoBranches 5 7)) with
    | .ok (.ok _, _, w') => decide (rowShown w' ⟨.ofNat 8⟩ = none)
    | .ok (.error _, _, _) | .error _ => false) = true := by decide +kernel
  split at hcomes
  · next summary news w' hrun => exact ⟨summary, news, w', hrun, of_decide_eq_true hcomes⟩
  · cases hcomes
  · cases hcomes

/-- The southern branch is rebuilt, and behind it the view shows no account of the northern. -/
theorem southern_rebuild_forgets_the_north : ∃ summary news w' view replayed,
    Rebuild.run .binary registry [0] .default .start 2 (branchOffice.afterAll (twoBranches 5 7)) =
      .ok (.ok summary, news, w') ∧
    w'.bus.projections[0]? = some (.inl view) ∧
    view.Truthful .binary .default w' replayed ∧ view.get? ⟨.ofNat 8⟩ = none := by
  obtain ⟨summary, news, w', hrun, -⟩ := southern_rebuild_comes_through
  obtain ⟨old, hview, -⟩ := Option.bind_eq_some_iff.mp bob_is_shown
  obtain ⟨view, replayed, hlast, -, hreset, -⟩ := rebuild_forgets_other_tenants
    (w := branchOffice) ⟨rfl, rfl⟩ (twoBranches 5 7) (branching_twoBranches 5 7)
    (suits_of_bound registry_sequence registry_account) (by decide +kernel)
    (viewShown_eq_some.mp hview) hrun
  obtain ⟨htruthful, hnone⟩ := hreset (List.mem_singleton_self 0)
  exact ⟨summary, news, w', view, replayed, hrun, hlast, htruthful, hnone _ (by decide)⟩

/-- A northern account has a row before the southern branch is rebuilt, and none behind. -/
theorem southern_rebuild_changes_the_north : ∃ summary news w',
    (∀ h ∈ twoBranches 5 7, Branching .binary branchOf h) ∧ branchOf ⟨.ofNat 8⟩ ≠ .default ∧
    Rebuild.run .binary registry [0] .default .start 2 (branchOffice.afterAll (twoBranches 5 7)) =
      .ok (.ok summary, news, w') ∧
    rowShown (branchOffice.afterAll (twoBranches 5 7)) ⟨.ofNat 8⟩ = some ⟨"bob", 7⟩ ∧
    rowShown w' ⟨.ofNat 8⟩ = none := by
  obtain ⟨summary, news, w', hrun, hnone⟩ := southern_rebuild_comes_through
  exact ⟨summary, news, w', branching_twoBranches 5 7, by decide, hrun, bob_is_shown, hnone⟩

end Chronicle.Sample

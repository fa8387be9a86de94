import Chronicle.Proofs.Engine.Atomicity
import Chronicle.Proofs.Engine.Faithful

/-!
# An attempt among others

Others may call the store between any two phases of a send, and between two sends. A `Contest` is
a world with what they are going to call, and `Task.runAmong` does phases of a send in between.

`Task.Attempted` tells what has become of an attempt at a stage. Before its append only others have
changed what is stored; behind it the events of the attempt are stored as a whole, once, and from
then on others only change the store again (`Task.CommitsOnce`). The append succeeds only at the
version that was come to when the stream was read, so nothing can have been added since
(`rowsBehind_of_replayed`): the handler decided on the stream as it is just before its events.
-/

namespace Chronicle

/-! ## What a decision is made on -/

namespace Engine

variable {κ π : Type} {settings : Settings} {A : AggregateType}

/-- A stream that has only grown since it was read, and is at the version that was come to then, has
the same rows behind the version from which it was read. -/
theorem rowsBehind_of_replayed {s s' : MemoryStore} {tenant : TenantId} {id : A.Id}
    {state : A.State} {version : Version} {b : Aggregate A} (hdense : s.Dense)
    (hdense' : s'.Dense) (hgrows : s.Grows s')
    (hreplay : replayStream settings (.startingAt A tenant id state version) s = .ok (.ok b))
    (hversion : s'.version tenant (A.stream id) = b.current) :
    rowsBehind s' tenant (A.stream id) version = rowsBehind s tenant (A.stream id) version := by
  have hlength := (hdense tenant).toNat_version (A.stream id)
  have hlength' : (s'.version tenant (A.stream id)).toNat = _ :=
    (hdense' tenant).toNat_version (A.stream id)
  rw [rowsBehind_eq_drop (hdense' tenant), rowsBehind_eq_drop (hdense tenant)]
  by_cases hle : version.toNat ≤ ((s.tenant tenant).rows (A.stream id)).length
  · -- the version come to is that of the stream, so nothing was added since
    rw [hversion, current_of_replayStream (hdense tenant) hle hreplay] at hlength'
    rw [(hgrows.rows tenant (A.stream id)).eq_of_length (hlength.symm.trans hlength')]
  · -- nothing was read, so the version come to is the one from which it was read
    have hnone : rowsBehind s tenant (A.stream id) version = [] := by
      rw [rowsBehind_eq_drop (hdense tenant)]
      exact List.drop_eq_nil_of_le (Nat.le_of_not_le hle)
    obtain ⟨envelopes, last, -, hread, -, rfl⟩ := replayStream_eq_ok hreplay
    have hread' : (rowsBehind s tenant (A.stream id) version).mapM (fun row =>
        (EventEnvelope.ofRecorded row settings.codec).mapError StoreError.translation) =
          .ok envelopes := hread
    rw [hnone] at hread'
    obtain rfl := Except.ok.inj hread'
    have hat : s'.version tenant (A.stream id) = version := hversion
    rw [hat] at hlength'
    rw [List.drop_eq_nil_of_le (Nat.le_of_eq hlength'.symm),
      List.drop_eq_nil_of_le (Nat.le_of_not_le hle)]

/-- An answer that is handed on without a proposal is one without changes. -/
theorem hasChanges_of_handed {a : Aggregate A} {p : Play A.State A.Event}
    {envelopes : List (EventEnvelope A.Id A.Event)} {result : CommandResult}
    (h : handed a p envelopes = .ok (.idle result)) : result.hasChanges = false := by
  unfold handed at h
  split at h
  · cases h
  · split at h
    · cases h
    next hchanges =>
      obtain rfl := Handled.idle.inj (Except.ok.inj h)
      exact Bool.eq_false_iff.mpr hchanges

/-- Where the snapshot of a stream is faithful, a command is handled at what the rows of its stream
mean. -/
theorem Plays.base {command : CommandEnvelope A.Id A.Command} {w : World MemoryStore κ π}
    {p : Play A.State A.Event} (h : Plays settings A command w p) (hdense : w.store.Dense)
    (hkept : ∀ stored, w.vault.get? command.tenant (A.stream command.aggregateId) = some stored →
      stored.Faithful A settings.codec
        ((w.store.tenant command.tenant).rows (A.stream command.aggregateId))) :
    ∃ base, A.stateOf? settings.codec
        ((w.store.tenant command.tenant).rows (A.stream command.aggregateId)) = some base ∧
      (A.handle command base).play A.mutator base
        (w.store.version command.tenant (A.stream command.aggregateId)) = .ok p := by
  obtain ⟨b, w', hload, hplay⟩ := h
  unfold load at hload
  split at hload
  · cases hload
  next a w₁ hrestore =>
  obtain ⟨state, version, rfl, horigin, hstill⟩ := restoreSnapshot_eq_ok hrestore
  obtain ⟨outcome, hreplay, hload⟩ := bind_eq_ok.mp hload
  obtain rfl := (Prod.mk.inj (Except.ok.inj hload)).1
  rw [hstill.store] at hreplay
  obtain ⟨hle, hstate⟩ := horigin.means hkept
  have hcurrent := current_of_replayStream (hdense command.tenant) hle hreplay
  obtain ⟨envelopes, last, -, hread, hfold, rfl⟩ := replayStream_eq_ok hreplay
  have hread' := AggregateType.read_of_envelopes hread
  refine ⟨last, ?_, ?_⟩
  · rw [← List.take_append_drop version.toNat ((w.store.tenant command.tenant).rows _)]
    refine AggregateType.stateOf?_append_eq_some.mpr ⟨state, _, hstate, ?_, hfold⟩
    rw [← rowsBehind_eq_drop (hdense command.tenant)]
    exact hread'
  · rw [← hcurrent]
    exact (Decision.play_seed ..).symm.trans hplay

end Engine

/-- How many phases are left at a stage. -/
def Stage.left {A : AggregateType} : Stage A → Nat
  | .waiting => 5
  | .restored _ => 4
  | .decided _ => 3
  | .appended .. => 2
  | .saved .. => 1
  | .answered _ | .stopped _ => 0

/-! ## Worlds in which others work -/

/-- A world, and what others are going to call before each phase that is to come. -/
structure Contest (κ π : Type) where
  world : World MemoryStore κ π
  coming : List (List StoreCall)

namespace Contest

variable {κ π : Type} {c c' c'' : Contest κ π}

/-- Others make the calls that they make before the next phase. -/
def letOthers (c : Contest κ π) : Contest κ π :=
  match c.coming with
  | [] => c
  | calls :: coming => ⟨{ c.world with store := c.world.store.afterCalls calls }, coming⟩

/-- What is stored has changed by calls of others only. -/
def Stays (c c' : Contest κ π) : Prop :=
  ∃ calls, c.coming.flatten = calls ++ c'.coming.flatten ∧
    (c.world.store.afterCalls calls).Alike c'.world.store

/-- Only others have changed what can be read. -/
structure Idles (c c' : Contest κ π) : Prop where
  stays : c.Stays c'
  vault : c'.world.vault = c.world.vault
  bus : c'.world.bus = c.world.bus
  tracker : c'.world.tracker = c.world.tracker
  clock : c'.world.clock = c.world.clock
  started : c'.world.started = c.world.started

theorem Stays.refl (c : Contest κ π) : c.Stays c := ⟨[], rfl, .refl _⟩

theorem Stays.trans (h : c.Stays c') (h' : c'.Stays c'') : c.Stays c'' := by
  obtain ⟨calls, hcoming, halike⟩ := h
  obtain ⟨calls', hcoming', halike'⟩ := h'
  refine ⟨calls ++ calls', by rw [hcoming, hcoming', List.append_assoc], ?_⟩
  rw [MemoryStore.afterCalls_append]
  exact (halike.afterCalls calls').trans halike'

theorem Stays.dense (h : c.Stays c') (hdense : c.world.store.Dense) : c'.world.store.Dense := by
  obtain ⟨calls, -, halike⟩ := h
  exact (MemoryStore.afterCalls_dense hdense calls).of_tenant halike.tenant

theorem Stays.grows (h : c.Stays c') : c.world.store.Grows c'.world.store := by
  obtain ⟨calls, -, halike⟩ := h
  exact (MemoryStore.afterCalls_grows _ calls).trans (.of_tenant halike.tenant)

theorem Idles.trans (h : c.Idles c') (h' : c'.Idles c'') : c.Idles c'' :=
  ⟨h.stays.trans h'.stays, h'.vault.trans h.vault, h'.bus.trans h.bus,
    h'.tracker.trans h.tracker, h'.clock.trans h.clock, h'.started.trans h.started⟩

theorem idles_of_untouched {w' : World MemoryStore κ π} (h : c.world.Untouched w') :
    c.Idles ⟨w', c.coming⟩ :=
  ⟨⟨[], rfl, h.store⟩, h.vault, h.bus, h.tracker, h.clock, h.started⟩

theorem Idles.refl (c : Contest κ π) : c.Idles c := ⟨.refl c, rfl, rfl, rfl, rfl, rfl⟩

theorem idles_letOthers (c : Contest κ π) : c.Idles c.letOthers := by
  obtain ⟨w, _ | ⟨calls, coming⟩⟩ := c
  · exact .refl _
  · exact ⟨⟨calls, List.flatten_cons, .refl _⟩, rfl, rfl, rfl, rfl, rfl⟩

end Contest

/-! ## One attempt -/

namespace Task

variable {κ π : Type} {t : Task κ} {c₀ c c' c'' : Contest κ π} {version : Version}

/-- An append of the events of a command, with what others do before and behind it. -/
structure Commits (t : Task κ) (before after : Contest κ π) (p : Play t.A.State t.A.Event)
    (rows : List RecordedEvent) (version : Version) : Prop where
  coming : after.coming = before.coming
  stores : Engine.Commits t.settings.codec t.A t.command p.events before.world.store
    after.world.store rows
  plays : Engine.Plays t.settings t.A t.command before.world p
  base : (∀ stored, before.world.vault.get? t.tenant t.stream = some stored →
      stored.Faithful t.A t.settings.codec ((before.world.store.tenant t.tenant).rows t.stream)) →
    ∃ base, t.A.stateOf? t.settings.codec
        ((before.world.store.tenant t.tenant).rows t.stream) = some base ∧
      (t.A.handle t.command base).play t.A.mutator base
        (before.world.store.version t.tenant t.stream) = .ok p
  version_eq : version = after.world.store.version t.tenant t.stream
  toNat_version :
    version.toNat = (before.world.store.version t.tenant t.stream).toNat + p.events.length

/-- One append of the events of a command succeeds; apart from it only others change what is
stored. -/
def CommitsOnce (t : Task κ) (c c' : Contest κ π) (version : Version) : Prop :=
  ∃ before after p rows, c.Idles before ∧ t.Commits before after p rows version ∧ after.Stays c'

theorem CommitsOnce.mono (h : t.CommitsOnce c c' version) (hidles : c₀.Idles c)
    (hstays : c'.Stays c'') : t.CommitsOnce c₀ c'' version := by
  obtain ⟨before, after, p, rows, hbefore, hcommits, hbehind⟩ := h
  exact ⟨before, after, p, rows, hidles.trans hbefore, hcommits, hbehind.trans hstays⟩

/-- What an answer says of what is stored. -/
def Settles (t : Task κ) (c c' : Contest κ π) : Except EngineError CommandResult → Prop
  | .ok result => if result.hasChanges = true then t.CommitsOnce c c' result.version else c.Idles c'
  | .error (.bus _) => ∃ version, t.CommitsOnce c c' version
  | .error _ => c.Idles c'

theorem Settles.mono {outcome : Except EngineError CommandResult} (h : t.Settles c c' outcome)
    (hidles : c₀.Idles c) (hidles' : c'.Idles c'') : t.Settles c₀ c'' outcome := by
  rcases outcome with error | result
  · cases error with
    | bus =>
      obtain ⟨version, hcommits⟩ := h
      exact ⟨version, hcommits.mono hidles hidles'.stays⟩
    | _ => exact (hidles.trans h).trans hidles'
  · cases hchanges : result.hasChanges with
    | true =>
      simp only [Settles, hchanges, if_true] at h ⊢
      exact h.mono hidles hidles'.stays
    | false =>
      simp only [Settles, hchanges, Bool.false_eq_true, if_false] at h ⊢
      exact (hidles.trans h).trans hidles'

theorem settles_of_idles {outcome : Except EngineError CommandResult} (h : c.Idles c')
    (hbus : ∀ error, outcome ≠ .error (.bus error))
    (hchanges : ∀ result, outcome = .ok result → result.hasChanges = false) :
    t.Settles c c' outcome := by
  rcases outcome with error | result
  · cases error with
    | bus error => exact absurd rfl (hbus error)
    | _ => exact h
  · simp only [Settles, hchanges result rfl, Bool.false_eq_true, if_false]
    exact h

/-- The instance with which an attempt that begins now begins. -/
def restored (t : Task κ) (w : World MemoryStore κ π) : Except EngineError (Aggregate t.A) :=
  (Engine.restoreSnapshot t.settings t.A t.command.tenant t.command.aggregateId
    t.settings.usesSnapshots w).1

theorem restored_of_same (t : Task κ) {w w' : World MemoryStore κ π} (hvault : w'.vault = w.vault)
    (hclock : w'.clock = w.clock) : t.restored w' = t.restored w :=
  Engine.restoreSnapshot_of_read (by rw [hvault, hclock]) _

/-- What has become of an attempt at a stage. -/
def Attempted (t : Task κ) (c₀ c : Contest κ π) : Stage t.A → Prop
  | .waiting => c₀.Idles c
  | .restored a => c₀.Idles c ∧ t.restored c.world = .ok a
  | .decided p => c₀.Idles c ∧ ∃ (a b : Aggregate t.A) (play : Play t.A.State t.A.Event)
      (envelopes : List (EventEnvelope t.A.Id t.A.Event)) (read : MemoryStore),
    t.restored c.world = .ok a ∧ read.Dense ∧ read.Grows c.world.store ∧
    Engine.replayStream t.settings a read = .ok (.ok b) ∧
    (t.A.handle t.command b.state).play b.mutator b.state b.current = .ok play ∧
    b.Stamped t.command b.current play.events envelopes ∧
    Engine.handed b play envelopes = .ok (.proposed p)
  | .appended p version | .saved p version =>
    p.result.hasChanges = true ∧ t.CommitsOnce c₀ c version
  | .answered outcome => t.Settles c₀ c outcome
  | .stopped _ => c₀.Idles c ∨ ∃ version, t.CommitsOnce c₀ c version

/-- Whatever others call, an attempt is where it was. -/
theorem Attempted.others {stage : Stage t.A} (h : t.Attempted c₀ c stage) (hidles : c.Idles c') :
    t.Attempted c₀ c' stage := by
  have hrestored := t.restored_of_same hidles.vault hidles.clock
  cases stage with
  | waiting => exact h.trans hidles
  | restored a => exact ⟨h.1.trans hidles, hrestored.trans h.2⟩
  | decided p =>
    obtain ⟨hbefore, a, b, play, envelopes, read, hrestore, hdense, hgrows, hrest⟩ := h
    exact ⟨hbefore.trans hidles, a, b, play, envelopes, read, hrestored.trans hrestore, hdense,
      hgrows.trans hidles.stays.grows, hrest⟩
  | appended p version | saved p version => exact ⟨h.1, h.2.mono (.refl _) hidles.stays⟩
  | answered outcome => exact h.mono (.refl _) hidles
  | stopped fault =>
    rcases h with hbefore | ⟨version, hcommits⟩
    · exact Or.inl (hbefore.trans hidles)
    · exact Or.inr ⟨version, hcommits.mono (.refl _) hidles.stays⟩

/-- An append that succeeds stores what was decided on the stream as it is just before. -/
theorem commits_of_append {p : Engine.Proposal t.A} {w' : World MemoryStore κ π}
    (hdense : c₀.world.store.Dense) (h : t.Attempted c₀ c (.decided p))
    (happend : Engine.append t.settings p c.world = .ok (.ok version, w')) :
    p.result.hasChanges = true ∧ t.CommitsOnce c₀ ⟨w', c.coming⟩ version := by
  obtain ⟨hidles, a, b, play, envelopes, read, hrestore, hread, hgrows, hreplay, hplay, hstamped,
    hhanded⟩ := h
  have hdense' := hidles.stays.dense hdense
  obtain ⟨state, start, rfl, -, hstill⟩ := Engine.restoreSnapshot_eq_ok (Prod.ext hrestore rfl)
  obtain ⟨last, current, rfl⟩ := Engine.replayStream_startingAt hreplay
  obtain ⟨-, hne, rfl⟩ := Engine.handed_eq_proposed hhanded rfl
  rcases Engine.append_eq_ok happend with ⟨_, hno, -⟩ | ⟨events, _, hversion, hevents, happends, -⟩
  · cases hno
  obtain rfl := Except.ok.inj hversion
  have hsome : play.events ≠ [] := mt hstamped.eq_nil_iff.mpr hne
  -- the stream is still at the version that was read
  obtain ⟨_, _, havailable, -⟩ := Engine.replayStream_eq_ok hreplay
  have havailable' : c.world.store.available = read.available :=
    happends.available_of_ok.trans havailable.symm
  have hrows := Engine.rowsBehind_of_replayed hread hdense' hgrows hreplay happends.expected_eq.1
  have hreplay' : Engine.replayStream t.settings (.startingAt t.A t.tenant t.command.aggregateId
      state start) c.world.store = _ :=
    (Engine.replayStream_of_rowsBehind havailable' hrows).trans hreplay
  have hplays := Engine.plays_of_restored (Prod.ext hrestore rfl) (hstill.store ▸ hreplay') hplay
  obtain ⟨⟨rows, hcommits⟩, hnew, hcount⟩ :=
    Engine.commits_of_appends t.command rfl rfl hstamped hsome hevents happends
  exact ⟨rfl, c, ⟨w', c.coming⟩, play, rows, hidles,
    ⟨rfl, hcommits, hplays, hplays.base hdense', hnew, hcount⟩, .refl _⟩

/-! ## Its phases -/

theorem attempted_of_restore {outcome : Except EngineError (Aggregate t.A)}
    {w' : World MemoryStore κ π} (h : c₀.Idles c)
    (hrestore : Engine.restoreSnapshot t.settings t.A t.command.tenant t.command.aggregateId
      t.settings.usesSnapshots c.world = (outcome, w')) :
    match outcome with
    | .error error => t.Settles c₀ ⟨w', c.coming⟩ (.error error)
    | .ok a => t.Attempted c₀ ⟨w', c.coming⟩ (.restored a) := by
  have hstill := Engine.still_of_restoreSnapshot hrestore
  have hidles := h.trans (Contest.idles_of_untouched hstill.untouched)
  rcases outcome with error | a
  · rcases Engine.restoreSnapshot_cases t.settings t.A t.command.tenant t.command.aggregateId
      t.settings.usesSnapshots c.world with ⟨_, -, hfails⟩ | ⟨_, _, _, -, hcomes, -, -⟩
    · obtain rfl := Except.error.inj (Prod.mk.inj (hfails.symm.trans hrestore)).1
      exact hidles
    · cases hcomes.symm.trans hrestore
  · have hrestored : t.restored c.world = .ok a := congrArg Prod.fst hrestore
    exact ⟨hidles, (t.restored_of_same hstill.vault hstill.clock).trans hrestored⟩

theorem attempted_of_decide {a : Aggregate t.A}
    {outcome : Except EngineError (Engine.Handled t.A)} {w' : World MemoryStore κ π}
    (hdense : c₀.world.store.Dense) (h : t.Attempted c₀ c (.restored a))
    (hdecide : Engine.decide t.settings t.command a c.world = .ok (outcome, w')) :
    match outcome with
    | .error error => t.Settles c₀ ⟨w', c.coming⟩ (.error error)
    | .ok (.idle result) => t.Settles c₀ ⟨w', c.coming⟩ (.ok result)
    | .ok (.proposed p) => t.Attempted c₀ ⟨w', c.coming⟩ (.decided p) := by
  obtain ⟨hbefore, hrestore⟩ := h
  obtain ⟨hstill, hcases⟩ := Engine.decide_eq_ok hdecide
  have hidles := hbefore.trans (Contest.idles_of_untouched hstill.untouched)
  rcases outcome with error | result | p
  · refine settles_of_idles hidles (fun _ heq => ?_) (fun _ heq => by cases heq)
    rw [Except.error.inj heq] at hdecide
    exact Engine.decide_ne_bus hdecide
  · rcases hcases with ⟨_, -, hno⟩ | ⟨b, play, envelopes, -, -, -, hhanded⟩
    · cases hno
    · refine settles_of_idles hidles (fun _ heq => by cases heq) (fun _ heq => ?_)
      rw [← Except.ok.inj heq]
      exact Engine.hasChanges_of_handed hhanded.symm
  · rcases hcases with ⟨_, -, hno⟩ | ⟨b, play, envelopes, hreplay, hplay, hstamped, hhanded⟩
    · cases hno
    · refine ⟨hidles, a, b, play, envelopes, c.world.store,
        (t.restored_of_same hstill.vault hstill.clock).trans hrestore,
        hbefore.stays.dense hdense, ?_, hreplay, hplay, hstamped, hhanded.symm⟩
      rw [hstill.store]
      exact .refl _

variable [Projection κ π]

/-- A phase takes an attempt on. -/
theorem Attempted.advance {stage : Stage t.A} (hdense : c₀.world.store.Dense)
    (h : t.Attempted c₀ c stage) :
    t.Attempted c₀ ⟨(t.advance stage c.world).2, c.coming⟩ (t.advance stage c.world).1 := by
  cases stage with
  | waiting =>
    cases hstarted : c.world.started with
    | false =>
      simp only [Task.advance, hstarted]
      exact h
    | true =>
      rcases hrestore : Engine.restoreSnapshot t.settings t.A t.command.tenant
        t.command.aggregateId t.settings.usesSnapshots c.world with ⟨error | a, w'⟩ <;>
      simp only [Task.advance, hstarted, if_true, hrestore] <;>
      exact attempted_of_restore h hrestore
  | restored a =>
    rcases hdecide : Engine.decide t.settings t.command a c.world with
      fault | ⟨error | (result | p), w'⟩ <;>
    simp only [Task.advance, hdecide]
    · exact Or.inl h.1
    all_goals exact attempted_of_decide hdense h hdecide
  | decided p =>
    rcases happend : Engine.append t.settings p c.world with fault | ⟨error | version, w'⟩ <;>
    simp only [Task.advance, happend]
    · exact Or.inl h.1
    · rcases Engine.append_eq_ok happend with ⟨_, heq, huntouched⟩ | ⟨_, _, hno, -⟩
      · obtain rfl := Except.error.inj heq
        exact h.1.trans (Contest.idles_of_untouched huntouched)
      · cases hno
    · exact commits_of_append hdense h happend
  | appended p version =>
    refine ⟨h.1, h.2.mono (.refl _) ⟨[], rfl, ?_⟩⟩
    show c.world.store.Alike (Engine.saveSnapshot t.settings p version c.world).store
    rw [Engine.saveSnapshot_store]
    exact .refl _
  | saved p version =>
    rcases hpublish : Engine.publish t.A p.envelopes c.world with fault | ⟨published, w'⟩ <;>
    simp only [Task.advance, hpublish]
    · exact Or.inr ⟨version, h.2⟩
    · obtain ⟨hpublished, hw'⟩ := Engine.publish_eq_ok hpublish
      have hcommits : t.CommitsOnce c₀ ⟨w', c.coming⟩ version := by
        refine h.2.mono (.refl _) ⟨[], rfl, ?_⟩
        rw [hw']
        exact .refl _
      rcases hpublished with rfl | ⟨error, rfl⟩
      · have hchanges : (p.result.atVersion version).hasChanges = true := h.1
        simp only [Attempted, Settles, Except.map, hchanges, if_true]
        exact hcommits
      · exact ⟨version, hcommits⟩
  | answered outcome => exact h
  | stopped fault => exact h

/-- Does so many phases; others make their calls before each. -/
def runAmong (t : Task κ) : Nat → Stage t.A → Contest κ π → Stage t.A × Contest κ π
  | 0, stage, c => (stage, c)
  | phases + 1, stage, c =>
    let next := t.advance stage c.letOthers.world
    runAmong t phases next.1 ⟨next.2, c.letOthers.coming⟩

theorem Attempted.run (hdense : c₀.world.store.Dense) (phases : Nat) :
    ∀ {stage : Stage t.A} {c : Contest κ π}, t.Attempted c₀ c stage →
      t.Attempted c₀ (t.runAmong phases stage c).2 (t.runAmong phases stage c).1 := by
  induction phases with
  | zero => exact id
  | succ phases ih =>
    intro stage c h
    exact ih ((h.others c.idles_letOthers).advance hdense)

/-! ## A whole attempt -/

theorem attempted_of_runAmong {stage : Stage t.A} (hdense : c.world.store.Dense)
    (h : t.runAmong 5 .waiting c = (stage, c')) : t.Attempted c c' stage := by
  have hfirst : t.Attempted c c .waiting := .refl c
  have hlast := Attempted.run hdense 5 hfirst
  rw [h] at hlast
  exact hlast

omit [Projection κ π] in
theorem Advances.left_le {stage stage' : Stage t.A} {w w' : World MemoryStore κ π}
    (h : t.Advances w stage stage' w') : stage'.left ≤ stage.left - 1 := by
  cases h with
  | ends hover =>
    cases stage' with
    | answered | stopped => exact Nat.zero_le _
    | _ => cases hover
  | _ => exact Nat.le_refl _

theorem left_runAmong (phases : Nat) : ∀ (stage : Stage t.A) (c : Contest κ π),
    (t.runAmong phases stage c).1.left ≤ stage.left - phases := by
  induction phases with
  | zero => exact fun _ _ => Nat.le_refl _
  | succ phases ih =>
    intro stage c
    have hfirst := (t.advance_advances stage c.letOthers.world).left_le
    have hrest := ih (t.advance stage c.letOthers.world).1
      ⟨(t.advance stage c.letOthers.world).2, c.letOthers.coming⟩
    rw [runAmong]
    omega

/-- Sends a command while others work. -/
def sendAmong (t : Task κ) (c : Contest κ π) :
    Checked (Except EngineError CommandResult × Contest κ π) :=
  match t.runAmong 5 .waiting c with
  | (.answered outcome, c) => .ok (outcome, c)
  | (.stopped fault, _) => .error fault
  -- five phases are all: `sendAmong_cases`
  | _ => .error .addition

theorem sendAmong_cases (t : Task κ) (c : Contest κ π) :
    (∃ outcome c', t.runAmong 5 .waiting c = (.answered outcome, c') ∧
      t.sendAmong c = .ok (outcome, c')) ∨
    ∃ fault c', t.runAmong 5 .waiting c = (.stopped fault, c') ∧
      t.sendAmong c = .error fault := by
  have hleft : (t.runAmong 5 .waiting c).1.left ≤ 0 := left_runAmong 5 .waiting c
  obtain ⟨stage, c', hrun⟩ : ∃ stage c', t.runAmong 5 .waiting c = (stage, c') := ⟨_, _, rfl⟩
  rw [sendAmong, hrun]
  rw [hrun] at hleft
  cases stage with
  | answered outcome => exact Or.inl ⟨outcome, c', rfl, rfl⟩
  | stopped fault => exact Or.inr ⟨fault, c', rfl, rfl⟩
  | _ => exact absurd hleft (Nat.not_succ_le_zero _)

/-- What the answer to an attempt says is so. -/
theorem settles_of_sendAmong {outcome : Except EngineError CommandResult}
    (hdense : c.world.store.Dense) (h : t.sendAmong c = .ok (outcome, c')) :
    t.Settles c c' outcome := by
  rcases t.sendAmong_cases c with ⟨_, _, hrun, hsend⟩ | ⟨_, _, -, hsend⟩
  · obtain ⟨rfl, rfl⟩ := Prod.mk.inj (Except.ok.inj (hsend.symm.trans h))
    exact attempted_of_runAmong hdense hrun
  · cases hsend.symm.trans h

/-! ## Nobody else -/

theorem runAmong_alone (phases : Nat) : ∀ (stage : Stage t.A) (w : World MemoryStore κ π),
    t.runAmong phases stage ⟨w, []⟩ =
      ((t.run phases stage w).1, ⟨(t.run phases stage w).2, []⟩) := by
  induction phases with
  | zero => exact fun _ _ => rfl
  | succ phases ih => exact fun _ _ => ih _ _

theorem sendAmong_alone (t : Task κ) (w : World MemoryStore κ π) :
    t.sendAmong ⟨w, []⟩ = (Engine.send t.settings t.A t.command w).map
      fun (outcome, w) => (outcome, ⟨w, []⟩) := by
  have halone := runAmong_alone 5 (.waiting : Stage t.A) w
  rw [sendAmong, halone]
  cases hsend : Engine.send t.settings t.A t.command w with
  | error fault =>
    obtain ⟨w', hrun⟩ := run_of_send_fault hsend
    rw [hrun]
    rfl
  | ok answer =>
    rw [run_of_send hsend]
    rfl

end Task

end Chronicle

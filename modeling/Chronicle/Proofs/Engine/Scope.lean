import Chronicle.Proofs.Bus.Impartial
import Chronicle.Proofs.Engine.Names

/-!
# What one stream or one tenant shows of a world

Two worlds *agree* in a scope if their stores and vaults do, their buses are alike, and their clocks
and engines stand alike. Whatever is asked in the scope of worlds that agree is answered alike, and
they agree again: one lemma says so for each phase of a command, with names of events that may
differ between the phases of the one and of the other. What is asked elsewhere changes one of the
worlds only, and leaves the agreement (the lemmas on `_elsewhere`).
-/

namespace Chronicle

/-! ## Snapshots -/

namespace SnapshotVault

variable {scope : Scope} {v v' : SnapshotVault} {tenant : TenantId} {stream : StreamId}

/-- Two vaults have the same snapshots in a scope and refuse alike. -/
structure AgreesIn (scope : Scope) (v v' : SnapshotVault) : Prop where
  get? : ∀ tenant stream, scope.covers tenant stream → v'.get? tenant stream = v.get? tenant stream
  loads : v'.refusesLoads = v.refusesLoads
  saves : v'.refusesSaves = v.refusesSaves

theorem AgreesIn.read (h : v.AgreesIn scope v') (A : AggregateType) (policy : SnapshotPolicy)
    (codec : Codec) (now : Timestamp) (hcovers : scope.covers tenant stream) :
    v'.read A policy codec now tenant stream = v.read A policy codec now tenant stream := by
  have hload : v'.load tenant stream = v.load tenant stream := by
    rw [load, load, h.loads, h.get? tenant stream hcovers]
  rw [SnapshotVault.read, SnapshotVault.read, hload]

theorem AgreesIn.plant (h : v.AgreesIn scope v') (tenant : TenantId) (snapshot : StoredSnapshot)
    (saves saves' : Nat) :
    AgreesIn scope { v.plant tenant snapshot with saves := saves }
      { v'.plant tenant snapshot with saves := saves' } where
  get? other stream hcovers := by
    have hplant : ∀ v : SnapshotVault, (v.plant tenant snapshot).get? other stream = _ :=
      fun v => v.get?_plant snapshot other stream
    refine (hplant v').trans (Eq.trans ?_ (hplant v).symm)
    rw [h.get? other stream hcovers]
  loads := h.loads
  saves := h.saves

theorem AgreesIn.plant_elsewhere (h : v.AgreesIn scope v') {snapshot : StoredSnapshot}
    (hcovers : scope.covers tenant snapshot.stream = false) (saves : Nat) :
    AgreesIn scope { v.plant tenant snapshot with saves := saves } v' where
  get? other stream hother := by
    have hplant : (v.plant tenant snapshot).get? other stream = _ :=
      v.get?_plant snapshot other stream
    rw [if_neg] at hplant
    · exact (h.get? other stream hother).trans hplant.symm
    · rintro heq
      obtain ⟨rfl, rfl⟩ := Prod.mk.inj heq
      exact Bool.false_ne_true (hcovers.symm.trans hother)
  loads := h.loads
  saves := h.saves

theorem AgreesIn.write (h : v.AgreesIn scope v') (A : AggregateType) (policy : SnapshotPolicy)
    (codec : Codec) (now : Timestamp) (tenant : TenantId) (stream : StreamId) (version : Version)
    (state : Option A.State) :
    AgreesIn scope (v.write A policy codec now tenant stream version state).2
      (v'.write A policy codec now tenant stream version state).2 := by
  unfold SnapshotVault.write
  split
  · exact h
  · split
    · split
      · exact h
      · simp only [SnapshotVault.save, h.saves]
        cases v.refusesSaves with
        | true => exact h
        | false => exact h.plant tenant _ _ _
    · exact h

end SnapshotVault

/-! ## Worlds -/

namespace World

variable {κ π : Type} [Projection κ π] [Impartial κ π] {scope : Scope}
  {w w' w₁ w₁' : World MemoryStore κ π}

/-- Nothing that a scope shows tells two worlds apart. -/
structure AgreesIn (scope : Scope) (w w' : World MemoryStore κ π) : Prop where
  store : scope.Agrees w.store w'.store
  vault : w.vault.AgreesIn scope w'.vault
  bus : w.bus.Alike w'.bus
  clock : w'.clock = w.clock
  started : w'.started = w.started

theorem AgreesIn.refl (scope : Scope) (w : World MemoryStore κ π) : w.AgreesIn scope w :=
  ⟨.refl scope w.store, ⟨fun _ _ _ => rfl, rfl, rfl⟩, .refl w.bus, rfl, rfl⟩

theorem AgreesIn.of_still (h : w.AgreesIn scope w') (hstill : w.Still w₁) (hstill' : w'.Still w₁') :
    w₁.AgreesIn scope w₁' where
  store := by rw [hstill.store, hstill'.store]; exact h.store
  vault := by rw [hstill.vault, hstill'.vault]; exact h.vault
  bus := by rw [hstill.bus, hstill'.bus]; exact h.bus
  clock := by rw [hstill.clock, hstill'.clock]; exact h.clock
  started := by rw [hstill.started, hstill'.started]; exact h.started

/-- What leaves all that can be read of the first world as it is leaves the agreement. -/
theorem AgreesIn.of_untouched (h : w.AgreesIn scope w') (huntouched : w.Untouched w₁) :
    w₁.AgreesIn scope w' where
  store := h.store.of_tenant huntouched.store.tenant (fun _ => rfl)
    (h.store.available.trans huntouched.store.available.symm)
  vault := by rw [huntouched.vault]; exact h.vault
  bus := by rw [huntouched.bus]; exact h.bus
  clock := by rw [huntouched.clock]; exact h.clock
  started := by rw [huntouched.started]; exact h.started

theorem AgreesIn.of_vault (h : w.AgreesIn scope w') {v v' : SnapshotVault}
    (hvault : v.AgreesIn scope v') :
    AgreesIn scope { w with vault := v } { w' with vault := v' } :=
  ⟨h.store, hvault, h.bus, h.clock, h.started⟩

/-! ## Bringing up to date -/

section Phases

variable {settings : Settings} {A : AggregateType} {tenant : TenantId} {id : A.Id}
  {command : CommandEnvelope A.Id A.Command}

theorem AgreesIn.restoreSnapshot (h : w.AgreesIn scope w')
    (hcovers : scope.covers tenant (A.stream id)) {useSnapshot : Bool}
    {outcome : Except EngineError (Aggregate A)}
    (hrestore : Engine.restoreSnapshot settings A tenant id useSnapshot w = (outcome, w₁)) :
    ∃ w₁', Engine.restoreSnapshot settings A tenant id useSnapshot w' = (outcome, w₁') ∧
      w₁.AgreesIn scope w₁' := by
  have hread : w'.vault.read A settings.snapshotPolicy settings.codec w'.clock tenant
      (A.stream id) = w.vault.read A settings.snapshotPolicy settings.codec w.clock tenant
        (A.stream id) := by
    rw [h.clock]
    exact h.vault.read A settings.snapshotPolicy settings.codec w.clock hcovers
  have hsame := Engine.restoreSnapshot_of_read hread useSnapshot
  rw [hrestore] at hsame
  obtain ⟨w₁', hrestore'⟩ : ∃ w₁',
      Engine.restoreSnapshot settings A tenant id useSnapshot w' = (outcome, w₁') :=
    ⟨(Engine.restoreSnapshot settings A tenant id useSnapshot w').2, Prod.ext hsame rfl⟩
  exact ⟨w₁', hrestore', h.of_still (Engine.still_of_restoreSnapshot hrestore)
    (Engine.still_of_restoreSnapshot hrestore')⟩

theorem AgreesIn.load (h : w.AgreesIn scope w') (hcovers : scope.covers tenant (A.stream id))
    {useSnapshot : Bool} {outcome : Except EngineError (Aggregate A)}
    (hload : Engine.load settings A tenant id useSnapshot w = .ok (outcome, w₁)) :
    ∃ w₁', Engine.load settings A tenant id useSnapshot w' = .ok (outcome, w₁') ∧
      w₁.AgreesIn scope w₁' := by
  unfold Engine.load at hload ⊢
  cases hrestore : Engine.restoreSnapshot settings A tenant id useSnapshot w with
  | mk restored w₂ =>
    obtain ⟨w₂', hrestore', hagrees⟩ := h.restoreSnapshot hcovers hrestore
    rw [hrestore] at hload
    rw [hrestore']
    cases restored with
    | error error =>
      obtain ⟨rfl, rfl⟩ := Prod.mk.inj (Except.ok.inj hload)
      exact ⟨w₂', rfl, hagrees⟩
    | ok a =>
      obtain ⟨state, version, rfl, -, -⟩ := Engine.restoreSnapshot_eq_ok hrestore
      obtain ⟨replayed, hreplay, hload⟩ := bind_eq_ok.mp hload
      obtain ⟨rfl, rfl⟩ := Prod.mk.inj (Except.ok.inj hload)
      refine ⟨w₂', ?_, hagrees⟩
      simp only [Engine.replayStream_of_agrees hagrees.store settings
        (a := .startingAt A tenant id state version) hcovers, hreplay]
      rfl

theorem AgreesIn.getState (h : w.AgreesIn scope w') (hcovers : scope.covers tenant (A.stream id))
    {outcome : Except EngineError A.State}
    (hget : Engine.getState settings A tenant id w = .ok (outcome, w₁)) :
    ∃ w₁', Engine.getState settings A tenant id w' = .ok (outcome, w₁') ∧
      w₁.AgreesIn scope w₁' := by
  unfold Engine.getState at hget ⊢
  rw [h.started]
  cases hstarted : w.started with
  | true =>
    rw [hstarted, if_pos rfl] at hget
    obtain ⟨⟨loaded, w₂⟩, hload, hget⟩ := bind_eq_ok.mp hget
    obtain ⟨rfl, rfl⟩ := Prod.mk.inj (Except.ok.inj hget)
    obtain ⟨w₂', hload', hagrees⟩ := h.load hcovers hload
    exact ⟨w₂', by rw [hload']; rfl, hagrees⟩
  | false =>
    rw [hstarted] at hget
    obtain ⟨rfl, rfl⟩ := Prod.mk.inj (Except.ok.inj hget)
    exact ⟨w', rfl, h⟩

/-! ## Handling commands -/

theorem AgreesIn.decide {a : Aggregate A} (h : w.AgreesIn scope w')
    (hcovers : scope.covers a.tenant a.stream) {outcome : Except EngineError (Engine.Handled A)}
    (hdecide : Engine.decide settings command a w = .ok (outcome, w₁)) :
    ∃ outcome' w₁', Engine.decide settings command a w' = .ok (outcome', w₁') ∧
      outcome.map Engine.Handled.unnamed = outcome'.map Engine.Handled.unnamed ∧
      w₁.AgreesIn scope w₁' := by
  have hreplay' := Engine.replayStream_of_agrees h.store settings hcovers
  rcases Engine.decide_eq_ok hdecide with
    ⟨hstill, ⟨error, hreplay, rfl⟩ | ⟨b, p, envelopes, hreplay, hplay, hstamped, rfl⟩⟩
  · rw [hreplay] at hreplay'
    refine ⟨.error error, w', ?_, rfl, h.of_still hstill (.refl w')⟩
    rw [Engine.decide, hreplay']
    rfl
  · rw [hreplay] at hreplay'
    obtain ⟨envelopes', w₁', hstamped', hstill', hdecide'⟩ :=
      Engine.decide_of_replay hreplay' hplay
    exact ⟨_, w₁', hdecide', Engine.handed_of_unnamed_eq b p (hstamped.unnamed_eq hstamped'),
      h.of_still hstill hstill'⟩

theorem AgreesIn.append {p p' : Engine.Proposal A} (h : w.AgreesIn scope w')
    (hsame : p.unnamed = p'.unnamed) (hcovers : scope.covers p.tenant p.stream)
    {outcome : Except EngineError Version}
    (happend : Engine.append settings p w = .ok (outcome, w₁)) :
    ∃ w₁', Engine.append settings p' w' = .ok (outcome, w₁') ∧ w₁.AgreesIn scope w₁' := by
  obtain ⟨tenant, stream, expected, envelopes, state, result⟩ := p
  obtain ⟨tenant', stream', expected', envelopes', state', result'⟩ := p'
  obtain ⟨rfl, rfl, rfl, henvelopes, rfl, rfl⟩ := Engine.Proposal.mk.inj hsame
  have hlength := congrArg List.length henvelopes
  rw [List.length_map, List.length_map] at hlength
  obtain ⟨⟨answer, s⟩, hstore, happend⟩ := bind_eq_ok.mp happend
  obtain ⟨s', hstore', hagrees⟩ := h.store.appendEnvelopes henvelopes hcovers hstore
  unfold Engine.append
  rw [hstore']
  cases answer with
  | error error =>
    obtain ⟨rfl, rfl⟩ := Prod.mk.inj (Except.ok.inj happend)
    exact ⟨_, rfl, hagrees, h.vault, h.bus, h.clock, h.started⟩
  | ok version =>
    obtain ⟨rfl, rfl⟩ := Prod.mk.inj (Except.ok.inj happend)
    exact ⟨_, rfl, hagrees, h.vault, h.bus, h.clock, h.started⟩

theorem AgreesIn.append_elsewhere {p : Engine.Proposal A} (h : w.AgreesIn scope w')
    (hcovers : scope.covers p.tenant p.stream = false) {outcome : Except EngineError Version}
    (happend : Engine.append settings p w = .ok (outcome, w₁)) : w₁.AgreesIn scope w' := by
  rcases Engine.append_eq_ok happend with
    ⟨error, -, huntouched⟩ | ⟨events, version, -, -, happends, hstill⟩
  · exact h.of_untouched huntouched
  · refine ⟨h.store.append_elsewhere hcovers happends, ?_, ?_, ?_, ?_⟩
    · rw [hstill.vault]; exact h.vault
    · rw [hstill.bus]; exact h.bus
    · rw [hstill.clock]; exact h.clock
    · rw [hstill.started]; exact h.started

theorem AgreesIn.saveSnapshot {p p' : Engine.Proposal A} (h : w.AgreesIn scope w')
    (hsame : p.unnamed = p'.unnamed) (version : Version) :
    (Engine.saveSnapshot settings p version w).AgreesIn scope
      (Engine.saveSnapshot settings p' version w') := by
  obtain ⟨tenant, stream, expected, envelopes, state, result⟩ := p
  obtain ⟨tenant', stream', expected', envelopes', state', result'⟩ := p'
  obtain ⟨rfl, rfl, rfl, -, rfl, rfl⟩ := Engine.Proposal.mk.inj hsame
  unfold Engine.saveSnapshot
  split
  · have hwrite : SnapshotVault.AgreesIn scope
        (w.vault.write A settings.snapshotPolicy settings.codec w.clock tenant stream version
          (some state)).2
        (w'.vault.write A settings.snapshotPolicy settings.codec w'.clock tenant stream version
          (some state)).2 := by
      rw [h.clock]
      exact h.vault.write A settings.snapshotPolicy settings.codec w.clock tenant stream version _
    exact (h.of_vault hwrite).of_still (still_countSave _ _) (still_countSave _ _)
  · exact h

theorem AgreesIn.saveSnapshot_elsewhere {p : Engine.Proposal A} (h : w.AgreesIn scope w')
    (hcovers : scope.covers p.tenant p.stream = false) (version : Version) :
    (Engine.saveSnapshot settings p version w).AgreesIn scope w' := by
  rcases Engine.saveSnapshot_cases settings p version w with hstill | ⟨data, -, hstill⟩
  · exact h.of_untouched hstill.untouched
  · refine ⟨?_, ?_, ?_, ?_, ?_⟩
    · rw [hstill.store]; exact h.store
    · rw [hstill.vault]
      exact h.vault.plant_elsewhere hcovers (w.vault.saves + 1)
    · rw [hstill.bus]; exact h.bus
    · rw [hstill.clock]; exact h.clock
    · rw [hstill.started]; exact h.started

/-! ## Publishing -/

variable [Carries κ A.Id A.Event]

/-- A publication stops with the fault of a view, or is answered as the views are set. -/
theorem publish_cases (envelopes : List (EventEnvelope A.Id A.Event)) (w : World MemoryStore κ π) :
    (∃ fault, Engine.publish A envelopes w = .error fault ∧ Faulty κ π fault) ∨
      ∃ bus tracker, Engine.publish A envelopes w =
          .ok ((w.bus.answer (envelopes.map fun e => AnyEnvelope.erase A e none)).mapError .bus,
            { w with bus := bus, tracker := tracker }) ∧ w.bus.Alike bus := by
  rw [Engine.publish_eq]
  rcases w.bus.publish_cases
    (w.tracker.startAll (envelopes.map fun e => (AnyEnvelope.erase A e none : AnyEnvelope κ)))
    (envelopes.map fun e => AnyEnvelope.erase A e none) with
    ⟨fault, hpublish, hfaulty⟩ | ⟨bus, tracker, hpublish, halike⟩
  · exact Or.inl ⟨fault, by simp only [hpublish]; rfl, hfaulty⟩
  · simp only [hpublish]
    cases w.bus.answer (envelopes.map fun e => AnyEnvelope.erase A e none) with
    | ok => exact Or.inr ⟨bus, _, rfl, halike⟩
    | error error => exact Or.inr ⟨bus, _, rfl, halike⟩

theorem AgreesIn.of_bus (h : w.AgreesIn scope w') {bus : Bus κ π} (halike : w.bus.Alike bus)
    (tracker : CompletionTracker) :
    AgreesIn scope { w with bus := bus, tracker := tracker } w' :=
  ⟨h.store, h.vault, halike.symm.trans h.bus, h.clock, h.started⟩

/-- Events that are the same but for names are published alike, unless a view stops. -/
theorem AgreesIn.publish (h : w.AgreesIn scope w')
    {envelopes envelopes' : List (EventEnvelope A.Id A.Event)}
    (hsame : envelopes.map EventEnvelope.unnamed = envelopes'.map EventEnvelope.unnamed)
    {outcome : Except EngineError Unit}
    (hpublish : Engine.publish A envelopes w = .ok (outcome, w₁)) :
    (∃ fault, Engine.publish A envelopes' w' = .error fault ∧ Faulty κ π fault) ∨
      ∃ w₁', Engine.publish A envelopes' w' = .ok (outcome, w₁') ∧ w₁.AgreesIn scope w₁' := by
  rcases publish_cases envelopes w with ⟨fault, hfault, -⟩ | ⟨bus, tracker, hanswer, halike⟩
  · cases hfault.symm.trans hpublish
  obtain ⟨rfl, rfl⟩ := Prod.mk.inj (Except.ok.inj (hanswer.symm.trans hpublish))
  rcases publish_cases envelopes' w' with hfaulty | ⟨bus', tracker', hanswer', halike'⟩
  · exact Or.inl hfaulty
  rw [← h.bus.answer hsame] at hanswer'
  exact Or.inr ⟨_, hanswer', h.store, h.vault, (halike.symm.trans h.bus).trans halike', h.clock,
    h.started⟩

/-! ## Whole commands -/

omit [Carries κ A.Id A.Event] in
theorem AgreesIn.handle (h : w.AgreesIn scope w')
    (hcovers : scope.covers command.tenant (A.stream command.aggregateId)) {a : Aggregate A}
    {handled : Except EngineError (Engine.Handled A)} {w₂ : World MemoryStore κ π}
    (hrestore : Engine.restoreSnapshot settings A command.tenant command.aggregateId
      settings.usesSnapshots w = (.ok a, w₁))
    (hdecide : Engine.decide settings command a w₁ = .ok (handled, w₂)) :
    ∃ w₁' handled' w₂', Engine.restoreSnapshot settings A command.tenant command.aggregateId
        settings.usesSnapshots w' = (.ok a, w₁') ∧
      Engine.decide settings command a w₁' = .ok (handled', w₂') ∧
      handled.map Engine.Handled.unnamed = handled'.map Engine.Handled.unnamed ∧
      w₂.AgreesIn scope w₂' := by
  obtain ⟨w₁', hrestore', hagrees⟩ := h.restoreSnapshot hcovers hrestore
  obtain ⟨state, version, rfl, -, -⟩ := Engine.restoreSnapshot_eq_ok hrestore
  obtain ⟨handled', w₂', hdecide', hsame, hagrees⟩ :=
    hagrees.decide (a := .startingAt A command.tenant command.aggregateId state version) hcovers
      hdecide
  exact ⟨w₁', handled', w₂', hrestore', hdecide', hsame, hagrees⟩

/-- A command in the scope that has an answer has the same in worlds that agree, unless a view stops
it. -/
theorem AgreesIn.send (h : w.AgreesIn scope w')
    (hcovers : scope.covers command.tenant (A.stream command.aggregateId))
    {outcome : Except EngineError CommandResult}
    (hsend : Engine.send settings A command w = .ok (outcome, w₁)) :
    (∃ fault, Engine.send settings A command w' = .error fault ∧ Faulty κ π fault) ∨
      ∃ w₁', Engine.send settings A command w' = .ok (outcome, w₁') ∧ w₁.AgreesIn scope w₁' := by
  have hstarted' : w.started = true → w'.started = true := h.started.trans
  -- the second world takes the way of the first; names alone tell apart what is proposed
  cases Engine.send_eq_ok hsend with
  | notStarted hstarted =>
    exact Or.inr ⟨w', Engine.Sends.send_eq (.notStarted (h.started.trans hstarted)), h⟩
  | unbound hstarted hrestore =>
    obtain ⟨w₁', hrestore', hagrees⟩ := h.restoreSnapshot hcovers hrestore
    exact Or.inr ⟨w₁', Engine.Sends.send_eq (.unbound (hstarted' hstarted) hrestore'), hagrees⟩
  | undecided hstarted hrestore hdecide =>
    obtain ⟨w₁', handled', w₂', hrestore', hdecide', hsame, hagrees⟩ :=
      h.handle hcovers hrestore hdecide
    cases handled' with
    | ok => cases hsame
    | error error' =>
      obtain rfl := Except.error.inj hsame
      exact Or.inr ⟨w₂', Engine.Sends.send_eq (.undecided (hstarted' hstarted) hrestore' hdecide'),
        hagrees⟩
  | idle hstarted hrestore hdecide =>
    obtain ⟨w₁', handled', w₂', hrestore', hdecide', hsame, hagrees⟩ :=
      h.handle hcovers hrestore hdecide
    rcases handled' with _ | (result' | p')
    · cases hsame
    · obtain rfl := Engine.Handled.idle.inj (Except.ok.inj hsame)
      exact Or.inr ⟨w₂', Engine.Sends.send_eq (.idle (hstarted' hstarted) hrestore' hdecide'),
        hagrees⟩
    · cases hsame
  | refused hstarted hrestore hdecide happend =>
    obtain ⟨w₁', handled', w₂', hrestore', hdecide', hsame, hagrees⟩ :=
      h.handle hcovers hrestore hdecide
    obtain ⟨htenant, hstream⟩ := Engine.address_of_decide hrestore hdecide
    rw [← htenant, ← hstream] at hcovers
    rcases handled' with _ | (result' | p')
    · cases hsame
    · cases hsame
    · obtain ⟨w₃', happend', hagrees⟩ :=
        hagrees.append (Engine.Handled.proposed.inj (Except.ok.inj hsame)) hcovers happend
      exact Or.inr ⟨w₃', Engine.Sends.send_eq
        (.refused (hstarted' hstarted) hrestore' hdecide' happend'), hagrees⟩
  | @stored a p version published _ _ w₃ _ hstarted hrestore hdecide happend hpublish =>
    obtain ⟨w₁', handled', w₂', hrestore', hdecide', hsame, hagrees⟩ :=
      h.handle hcovers hrestore hdecide
    obtain ⟨htenant, hstream⟩ := Engine.address_of_decide hrestore hdecide
    rw [← htenant, ← hstream] at hcovers
    rcases handled' with _ | (result' | p')
    · cases hsame
    · cases hsame
    · have hnames := Engine.Handled.proposed.inj (Except.ok.inj hsame)
      obtain ⟨w₃', happend', hagrees⟩ := hagrees.append hnames hcovers happend
      have henvelopes : p.envelopes.map EventEnvelope.unnamed =
          p'.envelopes.map EventEnvelope.unnamed := congrArg Engine.Proposal.envelopes hnames
      have hresult : p.result = p'.result :=
        show p.unnamed.result = p'.unnamed.result by rw [hnames]
      rw [Engine.send_of_append (hstarted' hstarted) hrestore' hdecide' happend', hresult]
      rcases (hagrees.saveSnapshot hnames version).publish henvelopes hpublish with
        ⟨fault, hpublish', hfaulty⟩ | ⟨w₄', hpublish', hagrees⟩
      · exact Or.inl ⟨fault, by rw [hpublish']; rfl, hfaulty⟩
      · exact Or.inr ⟨w₄', by rw [hpublish']; rfl, hagrees⟩

theorem AgreesIn.send_elsewhere (h : w.AgreesIn scope w')
    (hcovers : scope.covers command.tenant (A.stream command.aggregateId) = false)
    {outcome : Except EngineError CommandResult}
    (hsend : Engine.send settings A command w = .ok (outcome, w₁)) : w₁.AgreesIn scope w' := by
  have hdecided : ∀ {a : Aggregate A} {handled : Except EngineError (Engine.Handled A)}
      {w₁ w₂ : World MemoryStore κ π}, Engine.restoreSnapshot settings A command.tenant
        command.aggregateId settings.usesSnapshots w = (.ok a, w₁) →
      Engine.decide settings command a w₁ = .ok (handled, w₂) → w₂.AgreesIn scope w' :=
    fun hrestore hdecide => h.of_untouched ((Engine.still_of_restoreSnapshot hrestore).trans
      (Engine.decide_eq_ok hdecide).1).untouched
  cases Engine.send_eq_ok hsend with
  | notStarted => exact h
  | unbound _ hrestore => exact h.of_untouched (Engine.still_of_restoreSnapshot hrestore).untouched
  | undecided _ hrestore hdecide | idle _ hrestore hdecide => exact hdecided hrestore hdecide
  | refused _ hrestore hdecide happend =>
    obtain ⟨htenant, hstream⟩ := Engine.address_of_decide hrestore hdecide
    rw [← htenant, ← hstream] at hcovers
    exact (hdecided hrestore hdecide).append_elsewhere hcovers happend
  | @stored a p version published _ _ w₃ _ _ hrestore hdecide happend hpublish =>
    obtain ⟨htenant, hstream⟩ := Engine.address_of_decide hrestore hdecide
    rw [← htenant, ← hstream] at hcovers
    have hsaved : (Engine.saveSnapshot settings p version w₃).AgreesIn scope w' :=
      ((hdecided hrestore hdecide).append_elsewhere hcovers happend).saveSnapshot_elsewhere hcovers
        version
    rcases publish_cases p.envelopes (Engine.saveSnapshot settings p version w₃) with
      ⟨fault, hfault, -⟩ | ⟨bus, tracker, hanswer, halike⟩
    · cases hfault.symm.trans hpublish
    · obtain ⟨-, rfl⟩ := Prod.mk.inj (Except.ok.inj (hanswer.symm.trans hpublish))
      exact hsaved.of_bus halike tracker

end Phases

end World

end Chronicle

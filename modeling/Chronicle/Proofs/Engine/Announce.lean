import Chronicle.Proofs.Bus.Publication
import Chronicle.Proofs.Engine.Histories
import Chronicle.Proofs.Engine.UpToDate

/-!
# What a send stores and announces

Only the last phase of a send touches the bus (`Task.advance_bus`). So behind the first four a
send is either over, with every log and the bus as they were, or it has stored the events that its
command applied and is about to publish them (`Task.run_four`). Where that publication succeeds,
the bus has accepted what the send has added to the log (`World.after_sent_cases`).
-/

namespace Chronicle

/-- An append that succeeds adds numbered rows to the log of its tenant and to no other. -/
theorem MemoryStore.Appends.exists_rows {s s' : MemoryStore} {tenant : TenantId}
    {stream : StreamId} {expected version : Version} {events : List SerializedEvent}
    (h : s.Appends tenant stream expected events (.ok version) s') :
    ∃ rows position, TenantLog.number stream expected position events = .ok rows ∧
      ∀ other, s'.log other = if other = tenant then s.log other ++ rows else s.log other := by
  cases h with
  | stored rows _ _ _ hrows =>
    refine ⟨rows, _, hrows, fun other => ?_⟩
    rw [MemoryStore.log, tenant_set]
    split
    · next heq => rw [heq]; rfl
    · rfl

namespace Task

variable {κ π : Type} {t : Task κ} {w w' : World MemoryStore κ π}

/-- A task stores the events that its command applied, as its proposal has them. -/
structure Stores (t : Task κ) (s : MemoryStore) (p : Engine.Proposal t.A)
    (events : List t.A.Event) (stored : List SerializedEvent) (version : Version)
    (s' : MemoryStore) : Prop where
  plays : ∃ state current play,
    (t.A.handle t.command state).play t.A.mutator state current = .ok play ∧ play.events = events
  stamped : (Aggregate.hydrating t.tenant t.command.aggregateId t.A.mutator).Stamped t.command
    p.expected events p.envelopes
  serialized : p.envelopes.mapM (fun e => e.serialize t.settings.codec t.A.tag) = .ok stored
  appends : s.Appends t.tenant t.stream p.expected stored (.ok version) s'

/-- A decision that was taken on an instance and handed on is a proposal of the command. -/
theorem stamped_of_handed {state : t.A.State} {version : Version} {b : Aggregate t.A}
    {play : Play t.A.State t.A.Event} {envelopes : List (EventEnvelope t.A.Id t.A.Event)}
    {p : Engine.Proposal t.A}
    (hreplay : Engine.replayStream t.settings
      (.startingAt t.A t.tenant t.command.aggregateId state version) w.store = .ok (.ok b))
    (hplay : (t.A.handle t.command b.state).play b.mutator b.state b.current = .ok play)
    (hstamped : b.Stamped t.command b.current play.events envelopes)
    (hhanded : Engine.handed b play envelopes = .ok (.proposed p)) :
    p.tenant = t.tenant ∧ p.stream = t.stream ∧
      (∃ state current, (t.A.handle t.command state).play t.A.mutator state current = .ok play) ∧
      (Aggregate.hydrating t.tenant t.command.aggregateId t.A.mutator).Stamped t.command p.expected
        play.events p.envelopes := by
  obtain ⟨last, current, rfl⟩ := Engine.replayStream_startingAt hreplay
  obtain ⟨-, -, rfl⟩ := Engine.handed_eq_proposed hhanded rfl
  refine ⟨rfl, rfl, ⟨last, current, ?_⟩, hstamped.of_same rfl rfl⟩
  exact (Decision.play_seed ..).symm.trans hplay

variable [Projection κ π]

/-- No phase but the last changes the bus. -/
theorem advance_bus (t : Task κ) (stage : Stage t.A) (w : World MemoryStore κ π)
    (h : ∀ p version, stage ≠ .saved p version) : (t.advance stage w).2.bus = w.bus := by
  cases stage with
  | waiting =>
    cases hstarted : w.started with
    | false => simp [advance, hstarted]
    | true =>
      rcases Engine.restoreSnapshot_cases t.settings t.A t.command.tenant t.command.aggregateId
        t.settings.usesSnapshots w with ⟨error, -, h⟩ | ⟨state, version, w', -, h, -, hstill⟩
      · simp [advance, hstarted, h]
      · simp [advance, hstarted, h, hstill.bus]
  | restored a =>
    cases h : Engine.decide t.settings t.command a w with
    | error fault => simp [advance, h]
    | ok answer =>
      obtain ⟨outcome, w'⟩ := answer
      have hbus := (Engine.decide_eq_ok h).1.bus
      rcases outcome with error | (result | p) <;> simpa [advance, h] using hbus
  | decided p =>
    cases h : Engine.append t.settings p w with
    | error fault => simp [advance, h]
    | ok answer =>
      obtain ⟨outcome, w'⟩ := answer
      rcases Engine.append_eq_ok h with
        ⟨error, rfl, hsame⟩ | ⟨events, version, rfl, -, -, hstill⟩
      · simpa [advance, h] using hsame.bus
      · simpa [advance, h] using hstill.bus
  | appended p version =>
    rcases Engine.saveSnapshot_cases t.settings p version w with hstill | ⟨_, -, hstill⟩ <;>
      exact hstill.bus
  | saved p version => exact absurd rfl (h p version)
  | answered | stopped => rfl

theorem exists_advance (t : Task κ) (stage : Stage t.A) (w : World MemoryStore κ π)
    (h : ∀ p version, stage ≠ .saved p version) :
    ∃ stage' w', t.advance stage w = (stage', w') ∧ t.Advances w stage stage' w' ∧
      w'.bus = w.bus :=
  ⟨_, _, rfl, t.advance_advances stage w, t.advance_bus stage w h⟩

/-- What the first three phases of a send lead to: it is over and has left every log as it was, or
it has stored the events of its command. -/
inductive Hands (t : Task κ) (w : World MemoryStore κ π) :
    Stage t.A → World MemoryStore κ π → Prop
  | ended {stage : Stage t.A} {w' : World MemoryStore κ π} (hover : stage.isOver = true)
      (hstore : w.store.Alike w'.store) : Hands t w stage w'
  | appended {p : Engine.Proposal t.A} {events : List t.A.Event} {stored : List SerializedEvent}
      {version : Version} {w' : World MemoryStore κ π} (htenant : p.tenant = t.tenant)
      (hstream : p.stream = t.stream)
      (hstores : t.Stores w.store p events stored version w'.store) :
      Hands t w (.appended p version) w'

/-- Behind three phases a send is over or has stored its events. Bus and vault are as they were. -/
theorem run_three (t : Task κ) (w : World MemoryStore κ π) :
    t.Hands w (t.run 3 .waiting w).1 (t.run 3 .waiting w).2 ∧
      (t.run 3 .waiting w).2.bus = w.bus ∧ (t.run 3 .waiting w).2.vault = w.vault := by
  -- a phase that ends the send ends all that is to be shown
  have hover : ∀ {stage : Stage t.A} {w₁ : World MemoryStore κ π} (phases : Nat),
      stage.isOver = true → w.store.Alike w₁.store → w₁.bus = w.bus ∧ w₁.vault = w.vault →
        t.Hands w (t.run phases stage w₁).1 (t.run phases stage w₁).2 ∧
          (t.run phases stage w₁).2.bus = w.bus ∧ (t.run phases stage w₁).2.vault = w.vault := by
    intro stage w₁ phases h hstore hkept
    rw [run_of_isOver h]
    exact ⟨.ended h hstore, hkept⟩
  obtain ⟨stage₁, w₁, h₁, hstep₁, hbus₁⟩ := t.exists_advance .waiting w (by simp)
  have hkept₁ := And.intro hbus₁ (hstep₁.vault (by simp))
  rw [run_succ h₁]
  cases hstep₁ with
  | ends h hstore => exact hover 2 h hstore hkept₁
  | @restores state version _ _ _ _ hstill₁ =>
  obtain ⟨stage₂, w₂, h₂, hstep₂, hbus₂⟩ := t.exists_advance
    (.restored (.startingAt t.A t.tenant t.command.aggregateId state version)) w₁ (by simp)
  have hkept₂ := And.intro (hbus₂.trans hkept₁.1) ((hstep₂.vault (by simp)).trans hkept₁.2)
  rw [run_succ h₂]
  cases hstep₂ with
  | ends h hstore => exact hover 1 h (hstill₁.store ▸ hstore) hkept₂
  | @decides _ b play envelopes p _ hreplay hplay hstamped hhanded hstill₂ =>
  obtain ⟨htenant, hstream, hplays, hstamped⟩ :=
    stamped_of_handed hreplay hplay hstamped hhanded
  have hstore₂ : w₂.store = w.store := hstill₂.store.trans hstill₁.store
  obtain ⟨stage₃, w₃, h₃, hstep₃, hbus₃⟩ := t.exists_advance (.decided p) w₂ (by simp)
  have hkept₃ := And.intro (hbus₃.trans hkept₂.1) ((hstep₃.vault (by simp)).trans hkept₂.2)
  rw [run_succ h₃]
  cases hstep₃ with
  | ends h hstore => exact hover 0 h (hstore₂ ▸ hstore) hkept₃
  | @appends _ stored version' _ hserialized happends hstill₃ =>
  rw [hstore₂, htenant, hstream] at happends
  obtain ⟨state', current, hplay⟩ := hplays
  exact ⟨.appended htenant hstream ⟨⟨state', current, play, hplay, rfl⟩, hstamped, hserialized,
    happends⟩, hkept₃⟩

theorem run_succ_last (t : Task κ) (phases : Nat) : ∀ (stage : Stage t.A)
    (w : World MemoryStore κ π), t.run (phases + 1) stage w =
      t.advance (t.run phases stage w).1 (t.run phases stage w).2 := by
  induction phases with
  | zero => exact fun _ _ => rfl
  | succ phases ih => exact fun stage w => ih _ _

/-- Behind four phases a send is over and has left every log as it was, or it has stored what it
is about to publish. -/
theorem run_four (t : Task κ) (w : World MemoryStore κ π) :
    (t.run 4 .waiting w).2.bus = w.bus ∧
      ((t.run 4 .waiting w).1.isOver = true ∧ w.store.Alike (t.run 4 .waiting w).2.store ∨
        ∃ p events stored version, (t.run 4 .waiting w).1 = .saved p version ∧
          t.Stores w.store p events stored version (t.run 4 .waiting w).2.store) := by
  obtain ⟨hhands, hbus, -⟩ := t.run_three w
  rw [t.run_succ_last]
  generalize t.run 3 .waiting w = behind at hhands hbus
  obtain ⟨stage, w₃⟩ := behind
  cases hhands with
  | ended hover hstore =>
    have hlast : t.advance stage w₃ = (stage, w₃) := run_of_isOver hover w₃ 1
    rw [hlast]
    exact ⟨hbus, Or.inl ⟨hover, hstore⟩⟩
  | @appended p events stored version _ _ _ hstores =>
    have hlast := t.advance_bus (.appended p version) w₃ (by simp)
    refine ⟨hlast.trans hbus, Or.inr ⟨p, events, stored, version, rfl, ?_⟩⟩
    show t.Stores w.store p events stored version
      (Engine.saveSnapshot t.settings p version w₃).store
    rwa [Engine.saveSnapshot_store]

/-- What a send comes to publish is published. -/
def Announces (t : Task κ) (w : World MemoryStore κ π) : Prop :=
  ∀ p version, (t.run 4 .waiting w).1 = .saved p version →
    ∃ w', Engine.publish t.A p.envelopes (t.run 4 .waiting w).2 = .ok (.ok (), w')

end Task

theorem Engine.publish_accepts {κ π : Type} [Projection κ π] {A : AggregateType}
    [Carries κ A.Id A.Event] {envelopes : List (EventEnvelope A.Id A.Event)}
    {w w' : World MemoryStore κ π} (h : publish A envelopes w = .ok (.ok (), w')) :
    ∃ tracker, w.bus.Accepts tracker
      [envelopes.map fun envelope => AnyEnvelope.erase A envelope none] w'.bus w'.tracker := by
  rw [publish_eq] at h
  obtain ⟨⟨outcome, bus, tracker⟩, hpublish, h⟩ := bind_eq_ok.mp h
  cases outcome with
  | error error => cases h
  | ok =>
    obtain ⟨-, rfl⟩ := Prod.mk.inj (Except.ok.inj h)
    exact ⟨_, .cons hpublish (.nil bus tracker)⟩

/-- The last phase of a send changes nothing but bus and tracker. -/
theorem Task.advance_saved {κ π : Type} [Projection κ π] (t : Task κ) (p : Engine.Proposal t.A)
    (version : Version) (w : World MemoryStore κ π) :
    ∃ bus tracker,
      (t.advance (.saved p version) w).2 = { w with bus := bus, tracker := tracker } := by
  cases h : Engine.publish t.A p.envelopes w with
  | error fault => exact ⟨w.bus, w.tracker, by simp [advance, h]⟩
  | ok answer =>
    refine ⟨answer.2.bus, answer.2.tracker, ?_⟩
    rw [advance, h]
    exact (Engine.publish_eq_ok h).2

theorem Task.advance_saved_store {κ π : Type} [Projection κ π] (t : Task κ)
    (p : Engine.Proposal t.A) (version : Version) (w : World MemoryStore κ π) :
    (t.advance (.saved p version) w).2.store = w.store := by
  obtain ⟨bus, tracker, h⟩ := t.advance_saved p version w
  rw [h]

/-- A bus that does not refuse and has willing projections only announces whatever is sent. -/
theorem Task.announces_of_willing {κ π : Type} [Projection κ π] {kind : π → Prop}
    (hkind : Bus.Willing (κ := κ) kind) {w : World MemoryStore κ π}
    (hrefuses : w.bus.refuses = false) (hviews : ∀ view ∈ w.bus.projections, kind view)
    (t : Task κ) : t.Announces w := by
  intro p version _
  have hbus := (t.run_four w).1
  let batch : List (AnyEnvelope κ) :=
    p.envelopes.map fun envelope => AnyEnvelope.erase t.A envelope none
  obtain ⟨bus, tracker, haccepts⟩ := Bus.accepts_of_willing hkind [batch]
    (t.run 4 .waiting w).2.bus ((t.run 4 .waiting w).2.tracker.startAll batch)
    (by rw [hbus, hrefuses]) (by rwa [hbus])
  cases haccepts with
  | cons hpublish =>
    exact ⟨{ (t.run 4 .waiting w).2 with bus := _, tracker := _ },
      (Engine.publish_eq ..).trans (bind_eq_ok.mpr ⟨_, hpublish, rfl⟩)⟩

/-- A send that is answered has announced what it had to. -/
theorem Task.announces_of_send {κ π : Type} [Projection κ π] {t : Task κ}
    {w w' : World MemoryStore κ π} {result : CommandResult}
    (h : Engine.send t.settings t.A t.command w = .ok (.ok result, w')) : t.Announces w := by
  intro p version hstage
  have hrun := run_of_send h
  rw [run_succ_last, hstage, advance] at hrun
  split at hrun
  · cases hrun
  · next outcome w₅ hpublish =>
    obtain ⟨hstage, -⟩ := Prod.mk.inj hrun
    cases outcome with
    | error error => cases hstage
    | ok => exact ⟨w₅, hpublish⟩

namespace World

variable {κ π : Type} [Projection κ π]

/-- A send leaves logs and bus as they were, or it stores what it then goes on to publish. -/
theorem after_sent_cases (w : World MemoryStore κ π) (t : Task κ) :
    w.store.Alike (w.after (.sent t)).store ∧ (w.after (.sent t)).bus = w.bus ∨
      ∃ p events stored version,
        t.Stores w.store p events stored version (w.after (.sent t)).store ∧
        (t.Announces w → ∃ tracker, w.bus.Accepts tracker
          [p.envelopes.map fun envelope => AnyEnvelope.erase t.A envelope none]
          (w.after (.sent t)).bus (w.after (.sent t)).tracker) := by
  rw [after_sent, t.run_succ_last]
  obtain ⟨hbus, ⟨hover, hstore⟩ | ⟨p, events, stored, version, hstage, hstores⟩⟩ := t.run_four w
  · refine Or.inl ?_
    have hlast := Task.run_of_isOver hover (t.run 4 .waiting w).2 1
    rw [show t.advance _ _ = _ from hlast]
    exact ⟨hstore, hbus⟩
  · refine Or.inr ⟨p, events, stored, version, ?_⟩
    rw [hstage, t.advance_saved_store]
    refine ⟨hstores, fun hannounces => ?_⟩
    obtain ⟨w', hpublish⟩ := hannounces p version hstage
    have haccepts := Engine.publish_accepts hpublish
    rw [hbus] at haccepts
    simp only [Task.advance, hpublish]
    exact haccepts

/-- A send adds rows to the log of its tenant and to no other, and these hold events that its
command applied. -/
theorem log_after_sent (w : World MemoryStore κ π) (t : Task κ) :
    ∃ rows, (∀ row ∈ rows, ∃ event, Engine.Holds t.settings.codec t.A t.command event row) ∧
      ∀ tenant, (w.after (.sent t)).store.log tenant =
        if tenant = t.tenant then w.store.log tenant ++ rows else w.store.log tenant := by
  rcases w.after_sent_cases t with ⟨halike, -⟩ | ⟨p, events, stored, version, hstores, -⟩
  · refine ⟨[], fun _ => nofun, fun tenant => ?_⟩
    rw [List.append_nil, ite_self]
    exact congrArg TenantLog.log (halike.tenant tenant)
  · obtain ⟨rows, position, hrows, hlog⟩ := hstores.appends.exists_rows
    refine ⟨rows, fun row hrow => ?_, hlog⟩
    have hnumbered := TenantLog.number_eq_ok hrows
    have hserialized := hstores.serialized
    rw [← hnumbered.content] at hserialized
    have hholds := Engine.holds_of_stamped rfl rfl hstores.stamped hserialized hnumbered.own
    obtain ⟨place, hlt, rfl⟩ := List.mem_iff_getElem.mp hrow
    have hlt' := hholds.length_eq ▸ hlt
    exact ⟨events[place], hholds.get hlt' hlt⟩

/-- What all projections keep in taking envelopes, they keep in whatever happens, unless the bus is
replaced. -/
theorem after_keeps {P : π → Prop} (hkept : Bus.Kept (κ := κ) P) (w : World MemoryStore κ π)
    (h : Happening κ π) (hwired : ∀ bus tracker, h ≠ .rewired bus tracker)
    (hviews : ∀ view ∈ w.bus.projections, P view) :
    ∀ view ∈ (w.after h).bus.projections, P view := by
  cases h with
  | sent t =>
    obtain ⟨hbus, ⟨hover, -⟩ | ⟨p, events, stored, version, hstage, -⟩⟩ := t.run_four w
    · have hlast := Task.run_of_isOver hover (t.run 4 .waiting w).2 1
      rw [after_sent, t.run_succ_last, show t.advance _ _ = _ from hlast, hbus]
      exact hviews
    rw [after_sent, t.run_succ_last, hstage, Task.advance]
    split
    · rwa [hbus]
    · next outcome w' hpublish =>
      rw [Engine.publish_eq] at hpublish
      obtain ⟨⟨found, bus, tracker⟩, hpublish, hlast⟩ := bind_eq_ok.mp hpublish
      have hviews' := Bus.publish_keeps hkept hpublish (by rwa [hbus])
      cases found with
      | error error | ok =>
        obtain ⟨-, rfl⟩ := Prod.mk.inj (Except.ok.inj hlast)
        exact hviews'
  | started =>
    rw [after, start_bus]
    exact hviews
  | rewired bus tracker => exact absurd rfl (hwired bus tracker)
  | called | clocked | refusing | planted => exact hviews

theorem refuses_after_sent {w : World MemoryStore κ π} {t : Task κ} (h : t.Announces w) :
    (w.after (.sent t)).bus.refuses = w.bus.refuses := by
  rcases w.after_sent_cases t with ⟨-, hbus⟩ | ⟨_, _, _, _, -, haccepts⟩
  · rw [hbus]
  · obtain ⟨tracker, haccepts⟩ := haccepts h
    exact haccepts.adds.refuses

end World

end Chronicle

import Chronicle.Proofs.Engine.Histories
import Chronicle.Proofs.Engine.UpToDate
import Chronicle.Proofs.Sample.Sequence

/-!
# All or nothing

A send that comes to an answer has either stored all events that its handler applied, behind the
events its stream had, or changed nothing that can be read. An answer without changes and every
error but one of the bus mean the latter; the bus is only told of what is stored already.

`send_is_all_or_nothing` says so for any world. That an answer without changes carries the version
of its stream is said for the worlds into which no snapshot was put past an engine, since such a
snapshot can lie about its version. In these worlds the vault is `Anchored`: no snapshot is ahead
of its stream.
-/

namespace Chronicle

/-! ## Snapshots that are not ahead of their streams -/

namespace World

variable {κ π : Type}

/-- The store is dense, and each snapshot is of a version that its stream has reached. -/
structure Anchored (w : World MemoryStore κ π) : Prop where
  dense : w.store.Dense
  kept : ∀ {tenant stream stored}, w.vault.get? tenant stream = some stored →
    stored.version.toNat ≤ ((w.store.tenant tenant).rows stream).length

theorem Fresh.anchored {w : World MemoryStore κ π} (h : w.Fresh) : w.Anchored :=
  ⟨h.dense, fun hget => by rw [h.get?] at hget; cases hget⟩

/-- An instance of an anchored world starts within its stream. -/
theorem Anchored.origin_le {w : World MemoryStore κ π} (h : w.Anchored) {codec : Codec}
    {A : AggregateType} {tenant : TenantId} {stream : StreamId} {state : A.State}
    {version : Version} (horigin : Engine.Origin codec A w.vault tenant stream state version) :
    version.toNat ≤ ((w.store.tenant tenant).rows stream).length := by
  cases horigin with
  | blank => exact Nat.zero_le _
  | kept stored hget => exact h.kept hget

/-- What is anchored stays so while the store grows and no snapshot is kept. -/
theorem Anchored.of_grows {w w' : World MemoryStore κ π} (h : w.Anchored) (hdense : w'.store.Dense)
    (hgrows : w.store.Grows w'.store)
    (hvault : ∀ tenant stream, w'.vault.get? tenant stream = w.vault.get? tenant stream) :
    w'.Anchored where
  dense := hdense
  kept {tenant stream _} hget := by
    rw [hvault] at hget
    exact Nat.le_trans (h.kept hget) (hgrows.rows tenant stream).length_le

end World

/-- A version that was appended is one that the stream has reached. -/
def Stage.Within {κ π : Type} {A : AggregateType} (w : World MemoryStore κ π) : Stage A → Prop
  | .appended p version =>
    version.toNat ≤ ((w.store.tenant p.tenant).rows p.stream).length
  | _ => True

theorem Task.Advances.anchored {κ π : Type} {t : Task κ} {stage stage' : Stage t.A}
    {w w' : World MemoryStore κ π} (h : t.Advances w stage stage' w')
    (hw : w.Anchored ∧ stage.Within w) : w'.Anchored ∧ stage'.Within w' := by
  obtain ⟨hanchored, hwithin⟩ := hw
  have hdense := h.dense hanchored.dense
  have hgrows := h.grows
  cases h with
  | restores _ _ _ hstill | decides _ _ _ _ hstill | skips hstill =>
    exact ⟨hanchored.of_grows hdense hgrows fun _ _ => by rw [hstill.vault], trivial⟩
  | @appends p events version _ _ happends hstill =>
    refine ⟨hanchored.of_grows hdense hgrows fun _ _ => by rw [hstill.vault], ?_⟩
    have hversion : version = w'.store.version p.tenant p.stream := happends.version_eq
    rw [hversion]
    exact Nat.le_of_eq ((hdense p.tenant).toNat_version p.stream)
  | @keeps p version data _ _ hstill =>
    refine ⟨⟨hdense, fun {tenant stream stored} hget => ?_⟩, trivial⟩
    rw [hstill.store]
    rw [hstill.vault] at hget
    replace hget := (SnapshotVault.get?_plant ..).symm.trans hget
    split at hget
    · next heq =>
      obtain ⟨rfl, rfl⟩ := Prod.mk.inj heq
      obtain rfl := Option.some.inj hget
      exact hwithin
    · exact hanchored.kept hget
  | ends hover _ hvault =>
    refine ⟨hanchored.of_grows hdense hgrows fun _ _ => by rw [hvault], ?_⟩
    cases stage' with
    | answered | stopped => trivial
    | _ => cases hover

def Happening.isPlanting {κ π : Type} : Happening κ π → Bool
  | .planted .. => true
  | _ => false

namespace World

variable {κ π : Type} [Projection κ π]

theorem after_anchored (w : World MemoryStore κ π) (h : Happening κ π)
    (hplanting : h.isPlanting = false) (hw : w.Anchored) : (w.after h).Anchored := by
  have hdense := after_dense w h hw.dense
  have hgrows := after_grows w h
  cases h with
  | sent t =>
    rw [after_sent]
    have hfirst : w.Anchored ∧ (Stage.waiting : Stage t.A).Within w := ⟨hw, trivial⟩
    exact (Task.run_induction (P := fun stage w => w.Anchored ∧ stage.Within w)
      (fun hstep => hstep.anchored) 5 hfirst).1
  | started => exact hw.of_grows hdense hgrows fun _ _ => by rw [after, (w.start_tenant .default).2]
  | called | clocked | refusing | rewired => exact hw.of_grows hdense hgrows fun _ _ => rfl
  | planted => cases hplanting

/-- A world that any history without planted snapshots can lead to. -/
def Unplanted (w : World MemoryStore κ π) : Prop :=
  ∃ (first : World MemoryStore κ π) (history : List (Happening κ π)), first.Fresh ∧
    (∀ h ∈ history, h.isPlanting = false) ∧ w = first.afterAll history

theorem Unplanted.anchored {w : World MemoryStore κ π} (h : w.Unplanted) : w.Anchored := by
  obtain ⟨first, history, hfresh, hall, rfl⟩ := h
  exact afterAll_induction after_anchored hfresh.anchored history hall

end World

/-! ## Events that are committed -/

namespace Engine

/-- Some events of a command are stored, in their order, behind those that its stream had; nothing
else that is stored changes. -/
structure Commits (codec : Codec) (A : AggregateType) (command : CommandEnvelope A.Id A.Command)
    (events : List A.Event) (s s' : MemoryStore) (rows : List RecordedEvent) : Prop where
  some : events ≠ []
  holds : List.Forall₂ (Holds codec A command) events rows
  versions : rows.map (fun row => row.version.toNat) = List.range'
    ((s.version command.tenant (A.stream command.aggregateId)).toNat + 1) events.length
  log : ∀ tenant, s'.log tenant =
    if tenant = command.tenant then s.log tenant ++ rows else s.log tenant
  rows : ∀ tenant stream, (s'.tenant tenant).rows stream =
    if (tenant, stream) = (command.tenant, A.stream command.aggregateId) then
      (s.tenant tenant).rows stream ++ rows
    else (s.tenant tenant).rows stream

/-- What the handler of a command does when it is handled as a send handles it: behind the state
to which its instance is brought. -/
def Plays {κ π : Type} (settings : Settings) (A : AggregateType)
    (command : CommandEnvelope A.Id A.Command) (w : World MemoryStore κ π)
    (p : Play A.State A.Event) : Prop :=
  ∃ a w', load settings A command.tenant command.aggregateId settings.usesSnapshots w =
      .ok (.ok a, w') ∧
    (A.handle command a.state).play a.mutator a.state a.current = .ok p

variable {κ π : Type} {settings : Settings} {A : AggregateType}
  {command : CommandEnvelope A.Id A.Command}

theorem plays_of_restored {a b : Aggregate A} {p : Play A.State A.Event}
    {w w' : World MemoryStore κ π}
    (hrestore : restoreSnapshot settings A command.tenant command.aggregateId
      settings.usesSnapshots w = (.ok a, w'))
    (hreplay : replayStream settings a w'.store = .ok (.ok b))
    (hplay : (A.handle command b.state).play b.mutator b.state b.current = .ok p) :
    Plays settings A command w p := by
  refine ⟨b, w', ?_, hplay⟩
  unfold load
  rw [hrestore]
  show (replayStream settings a w'.store >>= _) = _
  rw [hreplay]
  rfl

/-- An append that is answered with a version commits what it appends. -/
theorem commits_of_appends (command : CommandEnvelope A.Id A.Command) {a : Aggregate A}
    {events : List A.Event} {envelopes : List (EventEnvelope A.Id A.Event)}
    {serialized : List SerializedEvent} {codec : Codec} {expected current version : Version}
    {s s' : MemoryStore}
    (hid : a.id = command.aggregateId) (htenant : a.tenant = command.tenant)
    (hstamped : a.Stamped command current events envelopes) (hne : events ≠ [])
    (hserialized : envelopes.mapM (fun e => e.serialize codec A.tag) = .ok serialized)
    (h : s.Appends command.tenant (A.stream command.aggregateId) expected serialized (.ok version)
      s') :
    (∃ rows, Commits codec A command events s s' rows) ∧
      version = s'.version command.tenant (A.stream command.aggregateId) ∧
      version.toNat =
        (s.version command.tenant (A.stream command.aggregateId)).toNat + events.length := by
  have hversion := h.version_eq
  cases h with
  | stored rows _ _ hexpected hrows =>
    subst hexpected
    replace hrows := TenantLog.number_eq_ok hrows
    rw [← hrows.content] at hserialized
    have hholds := holds_of_stamped hid htenant hstamped hserialized hrows.own
    have hlength : events.length = serialized.length := hholds.length_eq.trans hrows.length_eq
    have hserialized' : serialized ≠ [] := fun hnil => by
      rw [hnil] at hlength
      exact hne (List.length_eq_zero_iff.mp hlength)
    refine ⟨⟨rows, hne, hholds, ?_, fun tenant => ?_, fun tenant stream => ?_⟩, hversion, ?_⟩
    · rw [hlength]
      exact hrows.versions
    · simp only [MemoryStore.log, MemoryStore.tenant_set]
      split
      · next heq => rw [heq]; rfl
      · rfl
    · rw [MemoryStore.tenant_set]
      by_cases htenant : tenant = command.tenant
      · subst htenant
        rw [if_pos rfl, TenantLog.rows_extend]
        by_cases hstream : stream = A.stream command.aggregateId
        · subst hstream
          rw [if_pos rfl, if_pos rfl]
        · rw [if_neg hstream, if_neg fun h => hstream (Prod.mk.inj h).2]
      · rw [if_neg htenant, if_neg fun h => htenant (Prod.mk.inj h).1]
    · rw [hlength]
      exact hrows.toNat_lastVersion hserialized' _

/-! ## The phases before the append -/

theorem replayStream_ne_bus {a : Aggregate A} {s : MemoryStore} {error : BusError} :
    replayStream settings a s ≠ .ok (.error (.bus error)) := by
  intro h
  unfold replayStream at h
  split at h
  · cases h
  · obtain ⟨outcome, -, h⟩ := bind_eq_ok.mp h
    cases outcome <;> cases h

theorem handed_ne_bus {a : Aggregate A} {p : Play A.State A.Event}
    {envelopes : List (EventEnvelope A.Id A.Event)} {error : BusError} :
    handed a p envelopes ≠ .error (.bus error) := by
  intro h
  unfold handed at h
  split at h
  · cases h
  · split at h <;> cases h

section Decide

variable {a : Aggregate A} {w w₁ w' : World MemoryStore κ π}

theorem decide_ne_bus {error : BusError} :
    decide settings command a w ≠ .ok (.error (.bus error), w') := by
  intro h
  rcases (decide_eq_ok h).2 with ⟨_, hreplay, herror⟩ | ⟨b, p, envelopes, -, -, -, hhanded⟩
  · obtain rfl := Except.error.inj herror
    exact replayStream_ne_bus hreplay
  · exact handed_ne_bus hhanded.symm

/-- An answer without changes leaves everything as it was, and carries the version of the stream
where no snapshot is ahead of it. -/
theorem idle_of_decide {result : CommandResult}
    (hrestore : restoreSnapshot settings A command.tenant command.aggregateId
      settings.usesSnapshots w = (.ok a, w₁))
    (hdecide : decide settings command a w₁ = .ok (.ok (.idle result), w')) :
    w.Untouched w' ∧ result.hasChanges = false ∧ (w.Anchored →
      result.version = w.store.version command.tenant (A.stream command.aggregateId)) := by
  obtain ⟨state, version, rfl, horigin, hstill⟩ := restoreSnapshot_eq_ok hrestore
  obtain ⟨hstill', hcases⟩ := decide_eq_ok hdecide
  rcases hcases with ⟨_, -, hno⟩ | ⟨b, p, envelopes, hreplay, hplay, hstamped, hhanded⟩
  · cases hno
  obtain ⟨last, current, rfl⟩ := replayStream_startingAt hreplay
  have hnone : envelopes = [] → p.version = _ := fun hnil =>
    (hnil ▸ hstamped).version_of_nil hplay
  obtain ⟨hchanges, hversion⟩ := handed_eq_idle hhanded.symm rfl rfl hnone
  refine ⟨(hstill.trans hstill').untouched, hchanges, fun hanchored => ?_⟩
  rw [hstill.store] at hreplay
  rw [hversion]
  exact current_of_replayStream (hanchored.dense _) (hanchored.origin_le horigin) hreplay

/-- Where the append of a send succeeds, the events that its handler applied are committed. -/
theorem commits_of_send {q : Proposal A} {version : Version} {w₂ w₃ : World MemoryStore κ π}
    (hrestore : restoreSnapshot settings A command.tenant command.aggregateId
      settings.usesSnapshots w = (.ok a, w₁))
    (hdecide : decide settings command a w₁ = .ok (.ok (.proposed q), w₂))
    (happend : append settings q w₂ = .ok (.ok version, w₃)) :
    ∃ p rows, Plays settings A command w p ∧
      Commits settings.codec A command p.events w.store w₃.store rows ∧
      q.result.hasChanges = true ∧
      version = w₃.store.version command.tenant (A.stream command.aggregateId) ∧
      version.toNat =
        (w.store.version command.tenant (A.stream command.aggregateId)).toNat + p.events.length
    := by
  obtain ⟨state, start, rfl, -, hstill⟩ := restoreSnapshot_eq_ok hrestore
  obtain ⟨hstill', hcases⟩ := decide_eq_ok hdecide
  rcases hcases with ⟨_, -, hno⟩ | ⟨b, p, envelopes, hreplay, hplay, hstamped, hhanded⟩
  · cases hno
  obtain ⟨last, current, rfl⟩ := replayStream_startingAt hreplay
  obtain ⟨-, hne, rfl⟩ := handed_eq_proposed hhanded.symm rfl
  rcases append_eq_ok happend with ⟨_, hno, -⟩ | ⟨events, _, hversion, hevents, happends, -⟩
  · cases hno
  obtain rfl := Except.ok.inj hversion
  have hsome : p.events ≠ [] := mt hstamped.eq_nil_iff.mpr hne
  have hplays := plays_of_restored hrestore hreplay hplay
  have hstore : w₂.store = w.store := (hstill.trans hstill').store
  rw [hstore] at happends
  obtain ⟨⟨rows, hcommits⟩, hnew, hcount⟩ :=
    commits_of_appends command rfl rfl hstamped hsome hevents happends
  exact ⟨p, rows, hplays, hcommits, rfl, hnew, hcount⟩

end Decide

/-! ## The whole -/

/-- **A send is all or nothing.** Whatever the world is: where a send is answered with changes, or
fails at the bus, the events that the handler applied are committed, at the versions behind the
version of the stream, and the answer carries the new version. Where it is answered without
changes, or fails in any other way, nothing changes, and the answer carries the version of the
stream, if no snapshot was put into the vault past an engine. -/
theorem send_is_all_or_nothing [Carries κ A.Id A.Event] [Projection κ π]
    {w w' : World MemoryStore κ π} {outcome : Except EngineError CommandResult}
    (h : send settings A command w = .ok (outcome, w')) :
    let old := w.store.version command.tenant (A.stream command.aggregateId)
    let new := w'.store.version command.tenant (A.stream command.aggregateId)
    match outcome with
    | .ok result =>
      if result.hasChanges then
        ∃ p rows, Plays settings A command w p ∧
          Commits settings.codec A command p.events w.store w'.store rows ∧
          result.version = new ∧ new.toNat = old.toNat + p.events.length
      else w.Untouched w' ∧ (w.Unplanted → result.version = old)
    | .error (.bus _) =>
      ∃ p rows, Plays settings A command w p ∧
        Commits settings.codec A command p.events w.store w'.store rows ∧
        new.toNat = old.toNat + p.events.length
    | .error _ => w.Untouched w' := by
  intro old new
  cases send_eq_ok h with
  | notStarted => exact (World.Still.refl w).untouched
  | unbound _ hrestore =>
    rcases restoreSnapshot_cases settings A command.tenant command.aggregateId
      settings.usesSnapshots w with ⟨error, -, hfails⟩ | ⟨_, _, _, -, hcomes, -, -⟩
    · obtain ⟨herror, rfl⟩ := Prod.mk.inj (hfails.symm.trans hrestore)
      obtain rfl := Except.error.inj herror
      exact (World.Still.refl w).untouched
    · cases hcomes.symm.trans hrestore
  | @undecided a error _ _ _ hrestore hdecide =>
    obtain ⟨_, _, -, -, hstill⟩ := restoreSnapshot_eq_ok hrestore
    have huntouched := (hstill.trans (decide_eq_ok hdecide).1).untouched
    cases error with
    | bus error => exact absurd hdecide decide_ne_bus
    | _ => exact huntouched
  | idle _ hrestore hdecide =>
    obtain ⟨huntouched, hchanges, hversion⟩ := idle_of_decide hrestore hdecide
    simp only [hchanges, Bool.false_eq_true, if_false]
    exact ⟨huntouched, fun hunplanted => hversion hunplanted.anchored⟩
  | @refused a p error _ _ _ _ hrestore hdecide happend =>
    obtain ⟨_, _, -, -, hstill⟩ := restoreSnapshot_eq_ok hrestore
    obtain ⟨hstill', -⟩ := decide_eq_ok hdecide
    rcases append_eq_ok happend with ⟨error, herror, huntouched⟩ | ⟨_, _, hno, -⟩
    · obtain rfl := Except.error.inj herror
      exact (hstill.trans hstill').trans_untouched huntouched
    · cases hno
  | @stored a q version published w₁ w₂ w₃ _ _ hrestore hdecide happend hpublish =>
    obtain ⟨p, rows, hplays, hcommits, hchanges, hnew, hcount⟩ :=
      commits_of_send hrestore hdecide happend
    obtain ⟨hpublished, hw'⟩ := publish_eq_ok hpublish
    -- nothing behind the append changes the store
    have hlast : w'.store = w₃.store := by
      rw [hw']
      exact saveSnapshot_store ..
    rw [← hlast] at hcommits hnew
    rw [hnew] at hcount
    rcases hpublished with rfl | ⟨error, rfl⟩
    · have hresult : (q.result.atVersion version).hasChanges = true := hchanges
      simp only [Except.map, hresult, if_true]
      exact ⟨p, rows, hplays, hcommits, hnew, hcount⟩
    · exact ⟨p, rows, hplays, hcommits, hcount⟩

open Sample in
set_option maxRecDepth 10000 in
/-- Two numbers that are added to a new sequence are committed at the versions 1 and 2. -/
theorem send_commits_two_numbers : ∃ w' : World MemoryStore Carrier Inert,
    send (addition [3, 4]).settings (addition [3, 4]).A (addition [3, 4]).command .blank =
        .ok (.ok ⟨true, true, none, ⟨2⟩⟩, w') ∧
      ∃ p rows, Plays (addition [3, 4]).settings (addition [3, 4]).A (addition [3, 4]).command
          (.blank : World MemoryStore Carrier Inert) p ∧
        Commits .binary (addition [3, 4]).A (addition [3, 4]).command p.events .empty w'.store rows
        := by
  have hsent : ∃ w' : World MemoryStore Carrier Inert, send (addition [3, 4]).settings
      (addition [3, 4]).A (addition [3, 4]).command .blank =
        .ok (.ok ⟨true, true, none, ⟨2⟩⟩, w') := ⟨_, rfl⟩
  obtain ⟨w', hsent⟩ := hsent
  obtain ⟨p, rows, hplays, hcommits, -, -⟩ := send_is_all_or_nothing hsent
  exact ⟨w', hsent, p, rows, hplays, hcommits⟩

end Engine

end Chronicle

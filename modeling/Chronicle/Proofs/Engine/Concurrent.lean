import Chronicle.Proofs.Engine.Alone
import Chronicle.Proofs.Sample.Sequence
import Mathlib.Data.List.Nodup

/-!
# Commands that run at the same time

A `System` is a world with any number of clients, each of which has a command under way. One
`Move` does the next phase of one client, so that a list of moves is an order in which the phases
of all clients are interleaved. One who sends several commands, each when the one before is
answered, is as many clients, whose moves do not overlap. Beside the world the system keeps the
list of the commands whose appends succeeded; nothing reads it.

The invariant `System.Orderly` says that what is stored is, but for the names of the events, what
the commands of that list store when they run one after the other, each as a whole. It holds
because a stream that is still at the version that a command saw still has the rows that it saw.
`sends_are_serializable` is the main result.
-/

namespace Chronicle

/-! ## Clients -/

structure Client (κ : Type) where
  task : Task κ
  stage : Stage task.A

/-- A command whose append succeeded, with the place of its client and the version at which it saw
its stream. -/
structure Commit (κ : Type) where
  place : Nat
  task : Task κ
  expected : Version

/-- The place that a commit takes: what comes behind a version of a stream. -/
def Commit.slot {κ : Type} (m : Commit κ) : TenantId × StreamId × Version :=
  (m.task.tenant, m.task.stream, m.expected)

/-- The commit that a phase is, if it is one. -/
def Task.committed {κ : Type} (t : Task κ) (place : Nat) :
    Stage t.A → Stage t.A → List (Commit κ)
  | .decided p, .appended _ _ => [⟨place, t, p.expected⟩]
  | _, _ => []

/-- The stages that a command can be at when its append has succeeded. -/
def Stage.isBehindAppend {A : AggregateType} : Stage A → Bool
  | .appended .. | .saved .. | .answered (.ok _) | .answered (.error (.bus _)) | .stopped _ => true
  | _ => false

structure System (κ π : Type) where
  world : World MemoryStore κ π
  clients : List (Client κ)
  /-- The commands whose appends succeeded, in the order of their appends. -/
  commits : List (Commit κ)

inductive Move where
  /-- The client at a place does its next phase. -/
  | advance (place : Nat)
  | clocked (now : Timestamp)
  | refusing (loads saves : Bool)

namespace System

variable {κ π : Type}

def first (w : World MemoryStore κ π) (tasks : List (Task κ)) : System κ π :=
  ⟨w, tasks.map fun t => ⟨t, .waiting⟩, []⟩

def slots (s : System κ π) : List (TenantId × StreamId × Version) := s.commits.map Commit.slot

section Moves

/-- All that a move can do: nothing, the next phase of one client, or something to the clock and to
what the vault refuses. -/
inductive Moves (s : System κ π) : System κ π → Prop
  | rests : Moves s s
  | advances {place : Nat} {t : Task κ} {stage stage' : Stage t.A} {w' : World MemoryStore κ π}
      (hclient : ⟨t, stage⟩ ∈ s.clients) (hstep : t.Advances s.world stage stage' w') :
      Moves s ⟨w', s.clients.set place ⟨t, stage'⟩, s.commits ++ t.committed place stage stage'⟩
  | changes {w' : World MemoryStore κ π} (hstore : w'.store = s.world.store)
      (hkept : ∀ tenant stream, w'.vault.get? tenant stream = s.world.vault.get? tenant stream) :
      Moves s { s with world := w' }

variable [Projection κ π]

def move (s : System κ π) : Move → System κ π
  | .advance place =>
    match s.clients[place]? with
    | none => s
    | some c =>
      let (stage, w) := c.task.advance c.stage s.world
      { world := w
        clients := s.clients.set place ⟨c.task, stage⟩
        commits := s.commits ++ c.task.committed place c.stage stage }
  | .clocked now => { s with world := { s.world with clock := now } }
  | .refusing loads saves =>
    { s with
      world :=
        { s.world with
          vault := { s.world.vault with refusesLoads := loads, refusesSaves := saves } } }

def moveAll (s : System κ π) (moves : List Move) : System κ π := moves.foldl move s

theorem moves_move (s : System κ π) (m : Move) : s.Moves (s.move m) := by
  cases m with
  | advance place =>
    cases hplace : s.clients[place]? with
    | none =>
      simp only [move, hplace]
      exact .rests
    | some c =>
      simp only [move, hplace]
      exact .advances (List.mem_of_getElem? hplace) (c.task.advance_advances c.stage s.world)
  | clocked | refusing => exact .changes rfl fun _ _ => rfl

/-- What no move breaks holds behind any number of them. -/
theorem moveAll_induction {P : System κ π → Prop} (step : ∀ {s s'}, s.Moves s' → P s → P s')
    {s : System κ π} (h : P s) (moves : List Move) : P (s.moveAll moves) := by
  induction moves generalizing s with
  | nil => exact h
  | cons m moves ih => exact ih (step (s.moves_move m) h)

end Moves

end System

/-! ## Phases among others -/

namespace Task

variable {κ π : Type} {t : Task κ} {stage stage' : Stage t.A} {w w' : World MemoryStore κ π}

theorem Grounded.addressed {rows : List RecordedEvent} (h : t.Grounded rows stage) :
    t.Addressed stage := by
  cases stage with
  | restored a =>
    obtain ⟨-, state, version, ha, -⟩ := h
    exact ⟨state, version, ha⟩
  | decided p =>
    obtain ⟨_, _, hproposes⟩ := h
    exact ⟨hproposes.tenant, hproposes.stream⟩
  | appended p version => exact ⟨h.1, h.2.1⟩
  | _ => trivial

/-- A phase changes nothing that is stored, or it is a commit. -/
theorem Advances.quiet_or_commits (h : t.Advances w stage stage' w') (place : Nat) :
    (∀ tenant, w'.store.tenant tenant = w.store.tenant tenant) ∧
      t.committed place stage stage' = [] ∨
      ∃ p events version, stage = .decided p ∧ stage' = .appended p version ∧
        p.envelopes.mapM (fun e => e.serialize t.settings.codec t.A.tag) = .ok events ∧
        w.store.Appends p.tenant p.stream p.expected events (.ok version) w'.store := by
  cases h with
  | restores _ _ _ hstill | decides _ _ _ _ hstill | skips hstill | keeps _ hstill =>
    exact Or.inl ⟨fun tenant => by rw [hstill.store], rfl⟩
  | @appends p events version _ hevents happends =>
    exact Or.inr ⟨p, events, version, rfl, rfl, hevents, happends⟩
  | ends hover hstore =>
    refine Or.inl ⟨hstore.tenant, ?_⟩
    cases stage' with
    | answered | stopped => cases stage <;> rfl
    | _ => cases hover

/-- A command that is behind its append stays so. -/
theorem isBehindAppend_advance [Projection κ π] (h : stage.isBehindAppend = true) :
    (t.advance stage w).1.isBehindAppend = true := by
  cases stage with
  | appended p version => rfl
  | saved p version =>
    cases hpublish : Engine.publish t.A p.envelopes w with
    | error fault => simp only [advance, hpublish]; rfl
    | ok answer =>
      obtain ⟨published, w'⟩ := answer
      simp only [advance, hpublish]
      rcases (Engine.publish_eq_ok hpublish).1 with rfl | ⟨error, rfl⟩
      · rfl
      · rfl
  | answered | stopped => exact h
  | _ => cases h

/-- A proposal is based on the present version of its stream, or on one behind which another
command was stored. -/
def Based (t : Task κ) (version : Version) (slots : List (TenantId × StreamId × Version)) :
    Stage t.A → Prop
  | .decided p => p.expected = version ∨ (t.tenant, t.stream, p.expected) ∈ slots
  | _ => True

/-- What is based stays so when its version stays or becomes one that was committed to. -/
theorem Based.of_subset {version version' : Version}
    {slots slots' : List (TenantId × StreamId × Version)} (h : t.Based version slots stage)
    (hversion : version = version' ∨ (t.tenant, t.stream, version) ∈ slots')
    (hslots : slots ⊆ slots') : t.Based version' slots' stage := by
  cases stage with
  | decided p =>
    rcases h with hpresent | hmem
    · rcases hversion with rfl | hmem
      · exact Or.inl hpresent
      · rw [← hpresent] at hmem
        exact Or.inr hmem
    · exact Or.inr (hslots hmem)
  | _ => trivial

/-- What a phase comes to is based on the present version. -/
theorem Advances.based (h : t.Advances w stage stage' w')
    (hw : w.Sound t.A t.settings.codec t.tenant t.stream)
    (hgrounded : t.Grounded ((w.store.tenant t.tenant).rows t.stream) stage)
    (slots : List (TenantId × StreamId × Version)) :
    t.Based (w'.store.version t.tenant t.stream) slots stage' := by
  cases h with
  | decides hreplay hplay hstamped hhanded hstill =>
    rw [hstill.store]
    exact Or.inl (proposes_of_replayed hw hgrounded hreplay hplay hstamped hhanded).1
  | restores | appends | skips | keeps => trivial
  | ends hover =>
    cases stage' with
    | answered | stopped => trivial
    | _ => cases hover

end Task

/-! ## The invariant -/

/-- Each stream is used by one type only, all of whose ids, events and states come back from what
they are written as. -/
structure Task.Compatible {κ : Type} (tasks : List (Task κ)) : Prop where
  lossless : ∀ t ∈ tasks, t.A.Lossless t.settings.codec
  one : ∀ t ∈ tasks, ∀ t' ∈ tasks, (t.tenant, t.stream) = (t'.tenant, t'.stream) →
    t.A = t'.A ∧ t.settings.codec = t'.settings.codec

namespace World

variable {κ π : Type} [Projection κ π]

/-- The world behind some commands that are sent one after the other. -/
def afterCommits (w : World MemoryStore κ π) (commits : List (Commit κ)) :
    World MemoryStore κ π := w.afterAll (commits.map fun m => .sent m.task)

theorem afterCommits_concat (w : World MemoryStore κ π) (commits : List (Commit κ))
    (m : Commit κ) : w.afterCommits (commits ++ [m]) = (w.afterCommits commits).after (.sent m.task)
    := by
  rw [afterCommits, List.map_append, afterAll_append]
  rfl

theorem afterCommits_settled {w : World MemoryStore κ π} (hstarted : w.started = true)
    (havailable : w.store.available = true) (commits : List (Commit κ)) :
    (w.afterCommits commits).started = true ∧ (w.afterCommits commits).store.available = true := by
  refine afterAll_induction (P := fun w => w.started = true ∧ w.store.available = true)
    (Q := fun h => ∃ t, h = .sent t) ?_ ⟨hstarted, havailable⟩ _ ?_
  · rintro w _ ⟨t, rfl⟩ hw
    rw [after_sent]
    refine Task.run_induction (P := fun _ w => w.started = true ∧ w.store.available = true)
      (fun hstep hw => ?_) 5 hw
    obtain ⟨hstarted, havailable⟩ := hstep.settled
    exact ⟨hstarted.trans hw.1, havailable.trans hw.2⟩
  · intro h hmem
    obtain ⟨m, -, rfl⟩ := List.mem_map.mp hmem
    exact ⟨m.task, rfl⟩

/-- Commands of compatible types leave the streams of all of them sound. -/
theorem afterCommits_sound {tasks : List (Task κ)} (hcompatible : Task.Compatible tasks)
    {w : World MemoryStore κ π} (hfresh : w.Fresh) {commits : List (Commit κ)}
    (hmem : ∀ m ∈ commits, m.task ∈ tasks) {t : Task κ} (ht : t ∈ tasks) :
    (w.afterCommits commits).Sound t.A t.settings.codec t.tenant t.stream := by
  refine afterAll_induction (after_sound (hcompatible.lossless t ht)) hfresh.sound _ fun h hin => ?_
  obtain ⟨m, hm, rfl⟩ := List.mem_map.mp hin
  exact hcompatible.one m.task (hmem m hm) t ht

end World

namespace System

variable {κ π : Type} [Projection κ π]

/-- What holds of a system of compatible commands at every time. -/
structure Orderly (tasks : List (Task κ)) (s : System κ π) : Prop where
  dense : s.world.store.Dense
  sound : ∀ t ∈ tasks, s.world.Sound t.A t.settings.codec t.tenant t.stream
  known : ∀ c ∈ s.clients, c.task ∈ tasks
  grounded : ∀ c ∈ s.clients,
    c.task.Grounded ((s.world.store.tenant c.task.tenant).rows c.task.stream) c.stage
  based : ∀ c ∈ s.clients,
    c.task.Based (s.world.store.version c.task.tenant c.task.stream) s.slots c.stage
  committed : ∀ m ∈ s.commits, m.task ∈ tasks
  past : ∀ m ∈ s.commits,
    m.expected.toNat < ((s.world.store.tenant m.task.tenant).rows m.task.stream).length
  nodup : s.slots.Nodup
  winners : ∀ m ∈ s.commits, ∃ stage, s.clients[m.place]? = some ⟨m.task, stage⟩ ∧
    stage.isBehindAppend = true
  once : (s.commits.map Commit.place).Nodup
  serial : ∀ alone : World MemoryStore κ π, alone.Fresh → alone.started = true →
    alone.store.available = true → s.world.store.Matches (alone.afterCommits s.commits).store

theorem orderly_first (tasks : List (Task κ)) {w : World MemoryStore κ π} (hfresh : w.Fresh) :
    (first w tasks).Orderly tasks where
  dense := hfresh.dense
  sound _ _ := hfresh.sound
  known c hc := by
    obtain ⟨t, ht, rfl⟩ := List.mem_map.mp hc
    exact ht
  grounded c hc := by
    obtain ⟨t, -, rfl⟩ := List.mem_map.mp hc
    trivial
  based c hc := by
    obtain ⟨t, -, rfl⟩ := List.mem_map.mp hc
    trivial
  committed _ hm := by cases hm
  past _ hm := by cases hm
  nodup := List.nodup_nil
  winners _ hm := by cases hm
  once := List.nodup_nil
  serial alone halone _ _ tenant := by
    rw [MemoryStore.log, MemoryStore.log]
    show (TenantLog.log (w.store.tenant tenant)).map _ =
      (TenantLog.log (alone.store.tenant tenant)).map _
    rw [hfresh.tenant, halone.tenant]

/-! ## One phase

A lemma in `_behind` says what one phase of one client leaves of one part of the invariant. Phases
that store nothing (`Orderly.quiet`) and appends that succeed (`Orderly.commit`) are put together
from these. -/

section Step

variable {tasks : List (Task κ)} {s : System κ π} {t : Task κ} {stage stage' : Stage t.A}
  {w' : World MemoryStore κ π}

/-- Behind the present version of a stream nothing was committed yet. -/
theorem Orderly.not_mem_slots (h : s.Orderly tasks) {tenant : TenantId} {stream : StreamId}
    {version : Version} (hversion : s.world.store.version tenant stream = version) :
    (tenant, stream, version) ∉ s.slots := by
  intro hmem
  obtain ⟨m, hm, heq⟩ := List.mem_map.mp hmem
  obtain ⟨htenant, hrest⟩ := Prod.mk.inj heq
  obtain ⟨hstream, hexpected⟩ := Prod.mk.inj hrest
  have hpast := h.past m hm
  rw [htenant, hstream, hexpected, ← hversion] at hpast
  have hlength := (h.dense tenant).toNat_version stream
  exact absurd hpast (Nat.not_lt.mpr (Nat.le_of_eq hlength.symm))

theorem Orderly.sound_behind (h : s.Orderly tasks) (hcompatible : Task.Compatible tasks)
    (hc : ⟨t, stage⟩ ∈ s.clients) (hstep : t.Advances s.world stage stage' w') :
    ∀ u ∈ tasks, w'.Sound u.A u.settings.codec u.tenant u.stream := by
  intro u hu
  have ht := h.known _ hc
  have hgrounded : t.Grounded _ stage := h.grounded _ hc
  by_cases hkey : (t.tenant, t.stream) = (u.tenant, u.stream)
  · have hown := (hstep.sound (hcompatible.lossless t ht) ⟨h.sound t ht, hgrounded⟩).1
    obtain ⟨hA, hcodec⟩ := hcompatible.one t ht u hu hkey
    obtain ⟨htenant, hstream⟩ := Prod.mk.inj hkey
    rwa [hA, hcodec, htenant, hstream] at hown
  · obtain ⟨-, hother⟩ := hstep.elsewhere hgrounded.addressed
    obtain ⟨hrows, hkept⟩ := hother u.tenant u.stream hkey
    exact (h.sound u hu).of_same (hstep.dense h.dense) hrows hkept

theorem Orderly.grounded_behind (h : s.Orderly tasks) (hcompatible : Task.Compatible tasks)
    (hc : ⟨t, stage⟩ ∈ s.clients) (hstep : t.Advances s.world stage stage' w') (place : Nat) :
    ∀ c ∈ s.clients.set place ⟨t, stage'⟩,
      c.task.Grounded ((w'.store.tenant c.task.tenant).rows c.task.stream) c.stage := by
  intro c hmem
  have ht := h.known _ hc
  rcases List.mem_or_eq_of_mem_set hmem with hold | rfl
  · exact (h.grounded c hold).mono (hstep.grows.rows _ _)
  · exact (hstep.sound (hcompatible.lossless t ht) ⟨h.sound t ht, h.grounded _ hc⟩).2

theorem Orderly.known_behind (h : s.Orderly tasks) (hc : ⟨t, stage⟩ ∈ s.clients) (place : Nat) :
    ∀ c ∈ s.clients.set place ⟨t, stage'⟩, c.task ∈ tasks := by
  intro c hmem
  rcases List.mem_or_eq_of_mem_set hmem with hold | rfl
  · exact h.known c hold
  · exact h.known ⟨t, stage⟩ hc

theorem Orderly.winners_behind (h : s.Orderly tasks) {place : Nat}
    (hplace : s.clients[place]? = some ⟨t, stage⟩)
    (hbehind : stage.isBehindAppend = true → stage'.isBehindAppend = true) :
    ∀ m ∈ s.commits, ∃ last, (s.clients.set place ⟨t, stage'⟩)[m.place]? = some ⟨m.task, last⟩ ∧
      last.isBehindAppend = true := by
  intro m hm
  obtain ⟨last, hlast, hpast⟩ := h.winners m hm
  by_cases hown : place = m.place
  · subst hown
    cases hplace.symm.trans hlast
    refine ⟨stage', ?_, hbehind hpast⟩
    rw [List.getElem?_set_self (List.getElem?_eq_some_iff.mp hlast).1]
  · exact ⟨last, (List.getElem?_set_ne hown).trans hlast, hpast⟩

theorem Orderly.quiet (h : s.Orderly tasks) (hcompatible : Task.Compatible tasks) {place : Nat}
    (hplace : s.clients[place]? = some ⟨t, stage⟩) (hstep : t.Advances s.world stage stage' w')
    (hsame : ∀ tenant, w'.store.tenant tenant = s.world.store.tenant tenant)
    (hbehind : stage.isBehindAppend = true → stage'.isBehindAppend = true) :
    Orderly tasks ⟨w', s.clients.set place ⟨t, stage'⟩, s.commits⟩ where
  dense := hstep.dense h.dense
  sound := h.sound_behind hcompatible (List.mem_of_getElem? hplace) hstep
  known := h.known_behind (List.mem_of_getElem? hplace) place
  grounded := h.grounded_behind hcompatible (List.mem_of_getElem? hplace) hstep place
  based c hmem := by
    rcases List.mem_or_eq_of_mem_set hmem with hold | rfl
    · have hversion : s.world.store.version c.task.tenant c.task.stream =
          w'.store.version c.task.tenant c.task.stream := by
        rw [MemoryStore.version, MemoryStore.version, hsame]
      exact (h.based c hold).of_subset (Or.inl hversion) fun _ => id
    · have hc := List.mem_of_getElem? hplace
      exact hstep.based (h.sound t (h.known _ hc)) (h.grounded _ hc) s.slots
  committed := h.committed
  past m hm := by
    show _ < ((w'.store.tenant m.task.tenant).rows m.task.stream).length
    rw [hsame]
    exact h.past m hm
  nodup := h.nodup
  winners := h.winners_behind hplace hbehind
  once := h.once
  serial alone hfresh hstarted havailable :=
    (h.serial alone hfresh hstarted havailable).of_tenant hsame

theorem Orderly.nodup_behind (h : s.Orderly tasks) {tenant : TenantId} {stream : StreamId}
    {version : Version} (hversion : s.world.store.version tenant stream = version) :
    (s.slots ++ [(tenant, stream, version)]).Nodup := by
  have hnew := h.not_mem_slots hversion
  refine List.nodup_append.mpr ⟨h.nodup, List.nodup_singleton _, fun a ha b hb heq => ?_⟩
  obtain rfl := List.mem_singleton.mp hb
  exact hnew (heq ▸ ha)

/-- A client that is not behind an append has not committed. -/
theorem Orderly.once_behind (h : s.Orderly tasks) {place : Nat}
    (hplace : s.clients[place]? = some ⟨t, stage⟩) (hnot : stage.isBehindAppend = false) :
    (s.commits.map Commit.place ++ [place]).Nodup := by
  refine List.nodup_append.mpr ⟨h.once, List.nodup_singleton _, fun a ha b hb heq => ?_⟩
  obtain rfl := List.mem_singleton.mp hb
  obtain ⟨m, hm, hown⟩ := List.mem_map.mp ha
  obtain ⟨last, hlast, hbehind⟩ := h.winners m hm
  rw [hown.trans heq] at hlast
  cases hplace.symm.trans hlast
  exact Bool.false_ne_true (hnot.symm.trans hbehind)

/-- A commit moves its stream to another version; what was based on the version before it is now
based on a slot that is taken. -/
theorem Orderly.based_behind (h : s.Orderly tasks) {p : Engine.Proposal t.A}
    {version : Version} {events : List SerializedEvent}
    (happends : s.world.store.Appends t.tenant t.stream p.expected events (.ok version) w'.store)
    (place : Nat) :
    ∀ c ∈ s.clients.set place ⟨t, .appended p version⟩,
      c.task.Based (w'.store.version c.task.tenant c.task.stream)
        (s.slots ++ [(t.tenant, t.stream, p.expected)]) c.stage := by
  intro c hmem
  rcases List.mem_or_eq_of_mem_set hmem with hold | rfl
  · refine (h.based c hold).of_subset ?_ (List.subset_append_left _ _)
    by_cases hkey : (t.tenant, t.stream) = (c.task.tenant, c.task.stream)
    · obtain ⟨htenant, hstream⟩ := Prod.mk.inj hkey
      rw [← htenant, ← hstream, happends.expected_eq.1]
      exact Or.inr (List.mem_append_right _ (List.mem_singleton.mpr rfl))
    · refine Or.inl ?_
      rw [MemoryStore.version, MemoryStore.version, TenantLog.version, TenantLog.version,
        happends.rows_of_ne hkey]
  · trivial

theorem Orderly.commit {p : Engine.Proposal t.A} {version : Version}
    {events : List SerializedEvent} (h : s.Orderly tasks) (hcompatible : Task.Compatible tasks)
    {place : Nat} (hplace : s.clients[place]? = some ⟨t, .decided p⟩)
    (hstep : t.Advances s.world (.decided p) (.appended p version) w')
    (hevents : p.envelopes.mapM (fun e => e.serialize t.settings.codec t.A.tag) = .ok events)
    (happends : s.world.store.Appends p.tenant p.stream p.expected events (.ok version) w'.store) :
    Orderly tasks ⟨w', s.clients.set place ⟨t, .appended p version⟩,
      s.commits ++ [⟨place, t, p.expected⟩]⟩ := by
  have hc := List.mem_of_getElem? hplace
  have ht := h.known _ hc
  obtain ⟨base, play, hproposes⟩ := h.grounded _ hc
  rw [hproposes.tenant, hproposes.stream] at happends
  obtain ⟨hexpected, hlonger⟩ := happends.expected_eq
  have hslots : slots ⟨w', s.clients.set place ⟨t, .appended p version⟩,
      s.commits ++ [⟨place, t, p.expected⟩]⟩ = s.slots ++ [(t.tenant, t.stream, p.expected)] := by
    rw [slots, List.map_append]
    rfl
  refine ⟨hstep.dense h.dense, h.sound_behind hcompatible hc hstep, h.known_behind hc place,
    h.grounded_behind hcompatible hc hstep place, ?_, fun m hm => ?_, fun m hm => ?_,
    ?_, fun m hm => ?_, ?_, fun alone hfresh hstarted havailable => ?_⟩
  · rw [hslots]
    exact h.based_behind happends place
  · rcases List.mem_append.mp hm with hold | hlast
    · exact h.committed m hold
    · obtain rfl := List.mem_singleton.mp hlast
      exact ht
  · rcases List.mem_append.mp hm with hold | hlast
    · exact Nat.lt_of_lt_of_le (h.past m hold) (hstep.grows.rows _ _).length_le
    · obtain rfl := List.mem_singleton.mp hlast
      have hlength := (h.dense t.tenant).toNat_version t.stream
      have hpresent : p.expected.toNat = _ := (congrArg Version.toNat hexpected.symm).trans hlength
      rw [hpresent]
      exact hlonger
  · rw [hslots]
    exact h.nodup_behind hexpected
  · rcases List.mem_append.mp hm with hold | hlast
    · exact h.winners_behind hplace (fun hno => by cases hno) m hold
    · obtain rfl := List.mem_singleton.mp hlast
      refine ⟨.appended p version, ?_, rfl⟩
      rw [List.getElem?_set_self (List.getElem?_eq_some_iff.mp hplace).1]
  · rw [List.map_append]
    exact h.once_behind hplace rfl
  · -- sent alone behind the others, the command stores what it has stored here
    obtain ⟨hstarted', havailable'⟩ :=
      World.afterCommits_settled hstarted havailable s.commits
    show w'.store.Matches (alone.afterCommits (s.commits ++ [⟨place, t, p.expected⟩])).store
    rw [World.afterCommits_concat]
    exact Task.matches_of_sent h.dense hproposes hevents happends
      (h.serial alone hfresh hstarted havailable) hstarted' havailable'
      (World.afterCommits_sound hcompatible hfresh h.committed ht)

end Step

theorem Orderly.move {tasks : List (Task κ)} {s : System κ π} (h : s.Orderly tasks)
    (hcompatible : Task.Compatible tasks) (m : Move) : (s.move m).Orderly tasks := by
  cases m with
  | advance place =>
    cases hplace : s.clients[place]? with
    | none =>
      simp only [System.move, hplace]
      exact h
    | some c =>
      simp only [System.move, hplace]
      obtain ⟨t, stage⟩ := c
      have hstep := t.advance_advances stage s.world
      rcases hstep.quiet_or_commits place with
        ⟨hsame, hcommitted⟩ | ⟨p, events, version, rfl, hstage', hevents, happends⟩
      · rw [hcommitted, List.append_nil]
        exact h.quiet hcompatible hplace hstep hsame Task.isBehindAppend_advance
      · rw [hstage'] at hstep ⊢
        exact h.commit hcompatible hplace hstep hevents happends
  | clocked | refusing =>
    exact ⟨h.dense, fun t ht => (h.sound t ht).of_same h.dense rfl rfl, h.known, h.grounded,
      h.based, h.committed, h.past, h.nodup, h.winners, h.once, h.serial⟩

theorem orderly_moveAll {tasks : List (Task κ)} (hcompatible : Task.Compatible tasks)
    {s : System κ π} (h : s.Orderly tasks) (moves : List Move) :
    (s.moveAll moves).Orderly tasks := by
  induction moves generalizing s with
  | nil => exact h
  | cons m moves ih => exact ih (h.move hcompatible m)

/-- No move makes the store unavailable. -/
theorem moveAll_available (s : System κ π) (moves : List Move) :
    (s.moveAll moves).world.store.available = s.world.store.available := by
  refine moveAll_induction (P := fun s' => s'.world.store.available = s.world.store.available)
    (fun hmove h => ?_) rfl moves
  cases hmove with
  | rests => exact h
  | advances _ hstep => exact hstep.settled.2.trans h
  | changes hstore => exact (congrArg MemoryStore.available hstore).trans h

end System

/-! ## The race for a version -/

namespace Task

variable {κ π : Type} [Projection κ π]

/-- How the append of a proposal ends, when some slots are taken. -/
inductive Races (t : Task κ) (w : World MemoryStore κ π) (p : Engine.Proposal t.A)
    (slots : List (TenantId × StreamId × Version)) : Stage t.A → World MemoryStore κ π → Prop
  /-- The stream is at the expected version; no one else had its events stored behind it. -/
  | won {version : Version} {w' : World MemoryStore κ π}
      (hversion : w.store.version t.tenant t.stream = p.expected)
      (hslots : slots.count (t.tenant, t.stream, p.expected) = 0) :
      Races t w p slots (.appended p version) w'
  /-- The stream is at another version; just one other command had its events stored behind the
  expected one. -/
  | lost {w' : World MemoryStore κ π} (hversion : w.store.version t.tenant t.stream ≠ p.expected)
      (hslots : slots.count (t.tenant, t.stream, p.expected) = 1)
      (hsame : w.store.Alike w'.store) :
      Races t w p slots (.answered (.error (.store
        (.conflict t.stream p.expected (w.store.version t.tenant t.stream))))) w'
  /-- An event cannot be written, and the store is not asked. -/
  | unwritable {error : CodecError} {w' : World MemoryStore κ π}
      (hevents : p.envelopes.mapM (fun e => e.serialize t.settings.codec t.A.tag) = .error error)
      (hsame : w.store.Alike w'.store) :
      Races t w p slots (.answered (.error (.store (.serialization error)))) w'
  /-- The stream is at the expected version, but a number would pass its width. -/
  | overflows {fault : Fault} (hversion : w.store.version t.tenant t.stream = p.expected) :
      Races t w p slots (.stopped fault) w

/-- A grounded proposal wins if its stream is at the expected version, and loses if not. -/
theorem races_of_proposes {t : Task κ} {w : World MemoryStore κ π} {p : Engine.Proposal t.A}
    {base : t.A.State} {play : Play t.A.State t.A.Event}
    {slots : List (TenantId × StreamId × Version)}
    (hproposes : t.Proposes ((w.store.tenant t.tenant).rows t.stream) p base play)
    (havailable : w.store.available = true)
    (hwon : w.store.version t.tenant t.stream = p.expected →
      slots.count (t.tenant, t.stream, p.expected) = 0)
    (hlost : w.store.version t.tenant t.stream ≠ p.expected →
      slots.count (t.tenant, t.stream, p.expected) = 1) :
    t.Races w p slots (t.advance (.decided p) w).1 (t.advance (.decided p) w).2 := by
  have hne := hproposes.ne_nil
  cases hevents : p.envelopes.mapM fun e => e.serialize t.settings.codec t.A.tag with
  | error error =>
    have happend : Engine.append t.settings p w = _ :=
      Engine.append_of_unwritable hproposes.envelopes hne hevents
    simp only [advance, happend]
    exact .unwritable hevents (.refl _)
  | ok events =>
    have happend : Engine.append t.settings p w = _ :=
      Engine.append_of_stamped hproposes.envelopes hne hevents
    rw [hproposes.tenant, hproposes.stream] at happend
    have hevents' : events ≠ [] := fun hnil => by
      have hlength := (forall₂_of_mapM hevents).length_eq
      rw [hnil] at hlength
      exact hne (List.length_eq_zero_iff.mp hlength)
    by_cases hversion : w.store.version t.tenant t.stream = p.expected
    · cases hstore : w.store.append t.tenant t.stream p.expected events with
      | error fault =>
        rw [hstore] at happend
        simp only [advance, happend]
        exact .overflows hversion
      | ok answer =>
        obtain ⟨outcome, s⟩ := answer
        rw [hstore] at happend
        cases MemoryStore.append_eq_ok hstore with
        | emptyBatch hnil => exact absurd hnil hevents'
        | unavailable _ hno => exact absurd (hno.symm.trans havailable) Bool.false_ne_true
        | conflict _ _ hother => exact absurd hversion hother
        | stored rows =>
          simp only [advance, happend]
          exact .won hversion (hwon hversion)
    · rw [(MemoryStore.Appends.conflict hevents' havailable hversion).append_eq] at happend
      simp only [advance, happend]
      exact .lost hversion (hlost hversion) (w.store.alike_set_tenant t.tenant)

end Task

/-! ## The whole -/

namespace System

variable {κ π : Type} [Projection κ π]

/-- **Sends are serializable.** Take any number of commands, of compatible types, in a world
without events and snapshots, and any order in which their phases are interleaved. Then

- what each stream holds is, but for the names of the events, what it holds when the commands whose
  appends succeeded are sent one after the other, each as a whole, in the order of their appends,
  in any such world whose engine is started and whose store can be reached;
- each of these commands is that of one client, which is behind its append, and no client has
  appended twice, so that nothing is stored of a command that lost;
- no two appends that succeeded were to the same version of the same stream;
- the append of a command that is next succeeds if the stream is at the version that the command
  saw, and if not, just one other append to that version has succeeded, and the command is answered
  with the conflict, which tells its expected version and the version of the stream, and stores
  nothing. -/
theorem sends_are_serializable {tasks : List (Task κ)} (hcompatible : Task.Compatible tasks)
    {w : World MemoryStore κ π} (hfresh : w.Fresh) (havailable : w.store.available = true)
    (moves : List Move) :
    let s := (first w tasks).moveAll moves
    (∀ alone : World MemoryStore κ π, alone.Fresh → alone.started = true →
      alone.store.available = true → ∀ tenant stream,
        ((s.world.store.tenant tenant).rows stream).map RecordedEvent.unnamed =
          (((alone.afterAll (s.commits.map fun m => .sent m.task)).store.tenant tenant).rows
            stream).map RecordedEvent.unnamed) ∧
      ((∀ m ∈ s.commits, ∃ stage, s.clients[m.place]? = some ⟨m.task, stage⟩ ∧
        stage.isBehindAppend = true) ∧ (s.commits.map Commit.place).Nodup) ∧
      (∀ slot, s.slots.count slot ≤ 1) ∧
      ∀ (t : Task κ) (p : Engine.Proposal t.A), ⟨t, .decided p⟩ ∈ s.clients →
        t.Races s.world p s.slots (t.advance (.decided p) s.world).1
          (t.advance (.decided p) s.world).2 := by
  intro s
  have horderly : s.Orderly tasks := orderly_moveAll hcompatible (orderly_first tasks hfresh) moves
  refine ⟨fun alone hfresh hstarted halone tenant stream => ?_, ⟨horderly.winners, horderly.once⟩,
    fun slot => ?_, fun t p hc => ?_⟩
  · have hdense := World.afterAll_dense hfresh.dense (s.commits.map fun m => .sent m.task)
    exact (horderly.serial alone hfresh hstarted halone).rows horderly.dense hdense tenant stream
  · exact List.nodup_iff_count_le_one.mp horderly.nodup slot
  · obtain ⟨base, play, hproposes⟩ := horderly.grounded ⟨t, .decided p⟩ hc
    have hstore : s.world.store.available = true := (moveAll_available _ moves).trans havailable
    refine Task.races_of_proposes hproposes hstore (fun hversion => ?_) fun hversion => ?_
    · refine List.count_eq_zero.mpr fun hmem => ?_
      exact horderly.not_mem_slots hversion hmem
    · refine List.count_eq_one_of_mem horderly.nodup ?_
      exact (horderly.based ⟨t, .decided p⟩ hc).resolve_left (Ne.symm hversion)

section Race

open Sample

/-- Two additions to one new sequence, whose phases alternate up to the appends. -/
def race : System Carrier Inert :=
  (first .blank [addition [3], addition [4]]).moveAll
    [.advance 0, .advance 1, .advance 0, .advance 1, .advance 0, .advance 1]

theorem compatible_race : Task.Compatible [addition [3], addition [4]] where
  lossless t ht := by
    rcases List.mem_pair.mp ht with rfl | rfl
    · exact sequenceType_lossless
    · exact sequenceType_lossless
  one t ht t' ht' _ := by
    rcases List.mem_pair.mp ht with rfl | rfl <;> rcases List.mem_pair.mp ht' with rfl | rfl <;>
      exact ⟨rfl, rfl⟩

set_option maxRecDepth 10000 in
/-- The second append loses, and what is stored is what the first command alone stores. -/
theorem race_is_serializable :
    race.commits.map Commit.place = [0] ∧
      (race.clients.map fun c => c.stage.isBehindAppend) = [true, false] ∧
      ∀ tenant stream, ((race.world.store.tenant tenant).rows stream).map RecordedEvent.unnamed =
        ((((World.blank : World MemoryStore Carrier Inert).after
          (.sent (addition [3]))).store.tenant tenant).rows stream).map RecordedEvent.unnamed := by
  refine ⟨rfl, rfl, fun tenant stream => ?_⟩
  have hserial := (sends_are_serializable compatible_race (World.fresh_blank (π := Inert)) rfl
    [.advance 0, .advance 1, .advance 0, .advance 1, .advance 0, .advance 1]).1
  exact hserial .blank World.fresh_blank rfl rfl tenant stream

end Race

end System

end Chronicle

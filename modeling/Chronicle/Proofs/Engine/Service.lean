import Chronicle.Proofs.Engine.Counted
import Chronicle.Proofs.Rebuild.Stages
import Chronicle.Proofs.Sample.Sequence
import Mathlib.Algebra.BigOperators.Group.List.Basic

/-!
# Counters add up

A `Service` is a world in which any number of commands are sent and any number of rebuilds go on,
all at the same time. One `Act` does the next phase of one of these, or is something that happens
beside them: the store, the vault or the bus begins or ceases to fail, a snapshot is spoilt, the
clock moves. So a list of acts is any order in which the phases are interleaved, with faults at any
point; a send as a whole, and a rebuild as a whole, are some acts in a row (`actAll_of_send`,
`actAll_of_rebuild`).

Each send and each rebuild is worth what it is counted for, and no act breaks the balance that the
counters are higher by what all of these are worth (`Service.Balanced`). `counters_add_up`, the main
result, reads each counter off that balance.
-/

namespace Chronicle

/-! ## Sends and rebuilds -/

/-- A command that is sent, how far the sending has come, and what its phases came to. -/
structure Sending (κ : Type) where
  task : Task κ
  stage : Stage task.A
  notes : Notes

/-- A rebuild, how far it has come, and the batches that it has published. -/
structure Rebuilding (κ : Type) where
  task : RebuildTask κ
  stage : RebuildStage κ
  published : List (List (AnyEnvelope κ))

namespace Sending

variable {κ : Type}

def first (t : Task κ) : Sending κ := ⟨t, .waiting, .blank⟩

def worth (c : Sending κ) : Counters := Task.worth c.notes c.stage

/-- Does its next phase, and notes what that comes to. -/
def advance {π : Type} [Projection κ π] (c : Sending κ) (w : World MemoryStore κ π) :
    Sending κ × World MemoryStore κ π :=
  (⟨c.task, (c.task.advance c.stage w).1, c.task.note c.stage w c.notes⟩,
    (c.task.advance c.stage w).2)

end Sending

namespace Rebuilding

variable {κ : Type}

def first (r : RebuildTask κ) : Rebuilding κ := ⟨r, .waiting, []⟩

def worth (c : Rebuilding κ) : Counters := RebuildTask.worth c.published

/-- Does its next phase, and notes what that publishes. -/
def advance {π : Type} [Projection κ π] (c : Rebuilding κ) (w : World MemoryStore κ π) :
    Rebuilding κ × World MemoryStore κ π :=
  (⟨c.task, (c.task.advance c.stage w).1, RebuildTask.note c.stage w c.published⟩,
    (c.task.advance c.stage w).2)

end Rebuilding

/-! ## Acts -/

/-- Nothing is sent, and nothing is appended past the engine. -/
def Happening.isQuiet {κ π : Type} : Happening κ π → Bool
  | .sent _ | .called (.append ..) => false
  | _ => true

/-- One thing that goes on in a service. -/
inductive Act (κ π : Type) where
  /-- The send at a place does its next phase. -/
  | send (place : Nat)
  /-- The rebuild at a place does its next phase. -/
  | rebuild (place : Nat)
  | beside (h : Happening κ π) (hquiet : h.isQuiet = true)

structure Service (κ π : Type) where
  world : World MemoryStore κ π
  sendings : List (Sending κ)
  rebuildings : List (Rebuilding κ)

namespace Service

variable {κ π : Type}

/-- A service in which nothing has begun yet. -/
def first (w : World MemoryStore κ π) (tasks : List (Task κ)) (rebuilds : List (RebuildTask κ)) :
    Service κ π := ⟨w, tasks.map .first, rebuilds.map .first⟩

def worth (s : Service κ π) : Counters :=
  (s.sendings.map Sending.worth).sum + (s.rebuildings.map Rebuilding.worth).sum

variable [Projection κ π]

def act (s : Service κ π) : Act κ π → Service κ π
  | .send place =>
    match s.sendings[place]? with
    | none => s
    | some c =>
      let (c, w) := c.advance s.world
      { s with world := w, sendings := s.sendings.set place c }
  | .rebuild place =>
    match s.rebuildings[place]? with
    | none => s
    | some c =>
      let (c, w) := c.advance s.world
      { s with world := w, rebuildings := s.rebuildings.set place c }
  | .beside h _ => { s with world := s.world.after h }

def actAll (s : Service κ π) (acts : List (Act κ π)) : Service κ π := acts.foldl act s

variable {s : Service κ π}

theorem act_send {place : Nat} {c : Sending κ} (hplace : s.sendings[place]? = some c) :
    s.act (.send place) =
      { s with
        world := (c.advance s.world).2
        sendings := s.sendings.set place (c.advance s.world).1 } := by
  simp only [act, hplace]

theorem act_rebuild {place : Nat} {c : Rebuilding κ} (hplace : s.rebuildings[place]? = some c) :
    s.act (.rebuild place) =
      { s with
        world := (c.advance s.world).2
        rebuildings := s.rebuildings.set place (c.advance s.world).1 } := by
  simp only [act, hplace]

/-! ## Sends and rebuilds as a whole -/

/-- The phases of one send in a row are what its task does alone. -/
theorem actAll_replicate_send (place phases : Nat) : ∀ {s : Service κ π} {c : Sending κ},
    s.sendings[place]? = some c →
    ∃ notes, s.actAll (List.replicate phases (.send place)) =
      { s with
        world := (c.task.run phases c.stage s.world).2
        sendings := s.sendings.set place
          ⟨c.task, (c.task.run phases c.stage s.world).1, notes⟩ } := by
  induction phases with
  | zero =>
    intro s c hplace
    obtain ⟨hlt, rfl⟩ := List.getElem?_eq_some_iff.mp hplace
    refine ⟨s.sendings[place].notes, ?_⟩
    show s = { s with sendings := s.sendings.set place s.sendings[place] }
    rw [List.set_getElem_self]
  | succ phases ih =>
    intro s c hplace
    have hnext : (s.act (.send place)).sendings[place]? = some (c.advance s.world).1 := by
      rw [act_send hplace]
      exact List.getElem?_set_self (List.getElem?_eq_some_iff.mp hplace).1
    obtain ⟨notes, hrest⟩ := ih hnext
    refine ⟨notes, hrest.trans ?_⟩
    rw [act_send hplace, List.set_set]
    rfl

/-- The phases of one rebuild in a row are what its task does alone. -/
theorem actAll_replicate_rebuild (place phases : Nat) : ∀ {s : Service κ π} {c : Rebuilding κ},
    s.rebuildings[place]? = some c →
    ∃ published, s.actAll (List.replicate phases (.rebuild place)) =
      { s with
        world := (c.task.advanceBy phases c.stage s.world).2
        rebuildings := s.rebuildings.set place
          ⟨c.task, (c.task.advanceBy phases c.stage s.world).1, published⟩ } := by
  induction phases with
  | zero =>
    intro s c hplace
    obtain ⟨hlt, rfl⟩ := List.getElem?_eq_some_iff.mp hplace
    refine ⟨s.rebuildings[place].published, ?_⟩
    show s = { s with rebuildings := s.rebuildings.set place s.rebuildings[place] }
    rw [List.set_getElem_self]
  | succ phases ih =>
    intro s c hplace
    have hnext : (s.act (.rebuild place)).rebuildings[place]? = some (c.advance s.world).1 := by
      rw [act_rebuild hplace]
      exact List.getElem?_set_self (List.getElem?_eq_some_iff.mp hplace).1
    obtain ⟨published, hrest⟩ := ih hnext
    refine ⟨published, hrest.trans ?_⟩
    rw [act_rebuild hplace, List.set_set]
    rfl

/-- A send as a whole is five acts. -/
theorem actAll_of_send {place : Nat} {t : Task κ}
    (hplace : s.sendings[place]? = some (.first t))
    {outcome : Except EngineError CommandResult} {w' : World MemoryStore κ π}
    (h : Engine.send t.settings t.A t.command s.world = .ok (outcome, w')) :
    ∃ notes, s.actAll (List.replicate 5 (.send place)) =
      { s with world := w', sendings := s.sendings.set place ⟨t, .answered outcome, notes⟩ } := by
  obtain ⟨notes, hall⟩ := actAll_replicate_send place 5 hplace
  have hrun : t.run 5 .waiting s.world = (.answered outcome, w') := Task.run_of_send h
  refine ⟨notes, hall.trans ?_⟩
  simp only [Sending.first, hrun]

/-- A rebuild as a whole is so many acts as it has phases. -/
theorem actAll_of_rebuild {place : Nat} {r : RebuildTask κ}
    (hplace : s.rebuildings[place]? = some (.first r))
    {outcome : Except RebuildError RebuildSummary} {news : List RebuildProgress}
    {w' : World MemoryStore κ π}
    (h : Rebuild.run r.codec r.registry r.resets r.tenant r.start r.batchSize s.world =
      .ok (outcome, news, w')) :
    ∃ phases last published, s.actAll (List.replicate phases (.rebuild place)) =
        { s with
          world := w'
          rebuildings := s.rebuildings.set place ⟨r, .ended outcome last, published⟩ } ∧
      last.news = news := by
  obtain ⟨phases, last, hrun, hnews⟩ := RebuildTask.advanceBy_of_rebuild h
  obtain ⟨published, hall⟩ := actAll_replicate_rebuild place phases hplace
  refine ⟨phases, last, published, hall.trans ?_, hnews⟩
  simp only [Rebuilding.first, hrun]

end Service

/-! ## What happens beside sends and rebuilds -/

namespace World

variable {κ π : Type} [Projection κ π]

/-- Nothing that is quiet is counted, or brings events into the store or saves snapshots. -/
theorem after_adds (w : World MemoryStore κ π) {h : Happening κ π} (hquiet : h.isQuiet = true) :
    w.Adds 0 (w.after h) := by
  cases h with
  | sent t => cases hquiet
  | called call =>
    cases call with
    | append => cases hquiet
    | setUp =>
      refine ⟨(add_zero _).symm, ?_, rfl⟩
      simp only [after, MemoryStore.call, MemoryStore.setUp, MemoryStore.ensureAvailable]
      cases w.store.available <;> rfl
    | _ => exact ⟨(add_zero _).symm, rfl, rfl⟩
  | started =>
    simp only [after, Engine.start, EventStore.setUp, MemoryStore.setUp,
      MemoryStore.ensureAvailable]
    cases w.store.available <;> exact ⟨(add_zero _).symm, rfl, rfl⟩
  | clocked | refusing | rewired | planted => exact ⟨(add_zero _).symm, rfl, rfl⟩

end World

/-! ## The balance -/

namespace Service

variable {κ π : Type} {w : World MemoryStore κ π} {tasks : List (Task κ)} {s : Service κ π}

/-- What holds of a service at every time: the counters are higher by what its sends and rebuilds
are worth, and all that is noted agrees with how far the sends have come. -/
structure Balanced (w : World MemoryStore κ π) (tasks : List (Task κ)) (s : Service κ π) : Prop
    where
  adds : w.Adds s.worth s.world
  tells : ∀ c ∈ s.sendings, c.task.Tells c.notes c.stage
  tasks : s.sendings.map Sending.task = tasks

theorem balanced_first (w : World MemoryStore κ π) (tasks : List (Task κ))
    (rebuilds : List (RebuildTask κ)) : (first w tasks rebuilds).Balanced w tasks where
  adds := by
    have hsendings : ((tasks.map Sending.first).map Sending.worth).sum = 0 :=
      List.sum_eq_zero fun x hx => by
        obtain ⟨c, hc, rfl⟩ := List.mem_map.mp hx
        obtain ⟨t, -, rfl⟩ := List.mem_map.mp hc
        rfl
    have hrebuildings : ((rebuilds.map Rebuilding.first).map Rebuilding.worth).sum = 0 :=
      List.sum_eq_zero fun x hx => by
        obtain ⟨c, hc, rfl⟩ := List.mem_map.mp hx
        obtain ⟨r, -, rfl⟩ := List.mem_map.mp hc
        rfl
    have hworth : (first w tasks rebuilds).worth = 0 := by
      rw [worth, first, hsendings, hrebuildings, add_zero]
    rw [hworth]
    exact .refl w
  tells c hc := by
    obtain ⟨t, -, rfl⟩ := List.mem_map.mp hc
    rfl
  tasks := (List.map_map).trans (List.map_id tasks)

variable [Projection κ π]

/-- What a send counts in its phase, it comes to be worth. -/
theorem Balanced.send (h : s.Balanced w tasks) {place : Nat} {c : Sending κ}
    (hplace : s.sendings[place]? = some c) : (s.act (.send place)).Balanced w tasks := by
  obtain ⟨htells, added, hadds, hworth⟩ :=
    (h.tells c (List.mem_of_getElem? hplace)).advance s.world
  rw [act_send hplace]
  refine ⟨?_, fun c' hc' => ?_, ?_⟩
  · have hsum : ((s.sendings.set place (c.advance s.world).1).map Sending.worth).sum =
        (s.sendings.map Sending.worth).sum + added := sum_map_set Sending.worth hplace hworth
    have hall := h.adds.trans hadds
    rw [worth, add_right_comm, ← hsum] at hall
    exact hall
  · rcases List.mem_or_eq_of_mem_set hc' with hold | rfl
    · exact h.tells c' hold
    · exact htells
  · obtain ⟨hlt, rfl⟩ := List.getElem?_eq_some_iff.mp hplace
    rw [← h.tasks, List.map_set]
    show (s.sendings.map Sending.task).set place (s.sendings[place].task) = _
    rw [← List.getElem_map Sending.task (h := by simpa using hlt), List.set_getElem_self]

/-- What a rebuild counts in its phase, it comes to be worth. -/
theorem Balanced.rebuild (h : s.Balanced w tasks) {place : Nat} {c : Rebuilding κ}
    (hplace : s.rebuildings[place]? = some c) : (s.act (.rebuild place)).Balanced w tasks := by
  obtain ⟨added, hadds, hworth⟩ := c.task.advance_adds c.stage s.world c.published
  rw [act_rebuild hplace]
  refine ⟨?_, h.tells, h.tasks⟩
  have hsum : ((s.rebuildings.set place (c.advance s.world).1).map Rebuilding.worth).sum =
      (s.rebuildings.map Rebuilding.worth).sum + added := sum_map_set Rebuilding.worth hplace hworth
  have hall := h.adds.trans hadds
  rw [worth, add_assoc, ← hsum] at hall
  exact hall

/-- No act breaks the balance. -/
theorem Balanced.act (h : s.Balanced w tasks) (a : Act κ π) : (s.act a).Balanced w tasks := by
  cases a with
  | send place =>
    cases hplace : s.sendings[place]? with
    | none =>
      simp only [Service.act, hplace]
      exact h
    | some c => exact h.send hplace
  | rebuild place =>
    cases hplace : s.rebuildings[place]? with
    | none =>
      simp only [Service.act, hplace]
      exact h
    | some c => exact h.rebuild hplace
  | beside happening hquiet =>
    refine ⟨?_, h.tells, h.tasks⟩
    have hall := h.adds.trans (s.world.after_adds hquiet)
    rw [add_zero] at hall
    exact hall

theorem Balanced.actAll (h : s.Balanced w tasks) (acts : List (Act κ π)) :
    (s.actAll acts).Balanced w tasks := by
  induction acts generalizing s with
  | nil => exact h
  | cons a acts ih => exact ih (h.act a)

end Service

/-! ## What each counter says -/

/-- A send is counted once for what became of its command. -/
structure Sending.Counted {κ : Type} (c : Sending κ) : Prop where
  changed : c.worth.commandsChanged = c.notes.committed.toNat
  unchanged : c.worth.commandsUnchanged = (c.stage.isIdle true).toNat
  rejected : c.worth.commandsRejected = (c.stage.isIdle false).toNat
  conflict : c.worth.commandsConflict = c.stage.isConflict.toNat
  conflicts : c.worth.conflicts = c.stage.isConflict.toNat
  failed : c.worth.commandsFailed = c.notes.appendFailed.toNat

theorem Sending.worth_eq {κ : Type} (c : Sending κ) :
    c.worth = c.notes.worth + c.stage.worth := rfl

theorem Sending.counted {κ : Type} {c : Sending κ} (h : c.task.Tells c.notes c.stage) :
    c.Counted := by
  have hrace : c.notes.lostRace.toNat = c.stage.isConflict.toNat := by rw [h.lostRace_eq]
  constructor <;> rw [c.worth_eq, Notes.worth_eq, Stage.worth_eq]
  case unchanged | rejected => exact Nat.zero_add _
  case conflict | conflicts => exact hrace
  case changed | failed => rfl

/-- What became of a snapshot is counted once, if none was misread. -/
theorem Sending.worth_snapshots {κ : Type} {c : Sending κ} (h : c.task.Tells c.notes c.stage)
    (hused : c.task.settings.usesSnapshots = true) (hread : c.notes.misread = false)
    (hsaving : c.stage.isSaving = false) :
    c.worth.snapshotsSaved + c.worth.snapshotsSkipped + c.worth.snapshotFailures =
      c.notes.committed.toNat := by
  rw [← h.settled_eq hused hsaving, ← Notes.worth_snapshots hread, c.worth_eq, Stage.worth_eq]
  rfl

/-- A send is not counted as a rebuild. -/
theorem Sending.worth_rebuild {κ : Type} (c : Sending κ) :
    c.worth.rebuildBatches = 0 ∧ c.worth.rebuildEvents = 0 := by
  rw [c.worth_eq, Notes.worth_eq, Stage.worth_eq]
  exact ⟨rfl, rfl⟩

namespace Service

variable {κ π : Type} {s : Service κ π} (counter : Counters → Nat)

/-- A counter sums up what it says of each send and of each published batch. -/
theorem counter_worth (hcounter : Counters.Field counter) (s : Service κ π) :
    counter s.worth = (s.sendings.map fun c => counter c.worth).sum +
      (s.rebuildings.map fun c =>
        (c.published.map fun batch => counter (.ofBatch batch.length)).sum).sum := by
  rw [worth, hcounter.add, hcounter.sum, hcounter.sum]
  congr 3
  funext c
  exact hcounter.sum _ _

/-- A counter that each send of a kind brings up by one, and no rebuild, counts the sends of this
kind. -/
theorem count_sendings (hcounter : Counters.Field counter) {kind : Sending κ → Bool}
    (hsend : ∀ c ∈ s.sendings, counter c.worth = (kind c).toNat)
    (hbatch : ∀ events, counter (.ofBatch events) = 0) :
    counter s.worth = s.sendings.countP kind := by
  rw [counter_worth _ hcounter, List.map_congr_left hsend, sum_map_toNat]
  simp [hbatch]

/-- A counter that no send touches sums up what it says of each published batch. -/
theorem count_batches (hcounter : Counters.Field counter)
    (hsend : ∀ c : Sending κ, counter c.worth = 0) :
    counter s.worth = (s.rebuildings.map fun c =>
      (c.published.map fun batch => counter (.ofBatch batch.length)).sum).sum := by
  rw [counter_worth _ hcounter]
  simp [hsend]

/-- What the counters tell of a service, where `added` is what was counted. -/
structure Tallies (tasks : List (Task κ)) (s : Service κ π) (added : Counters) : Prop where
  /-- Each event that is counted is a row of the store, and each row is counted. -/
  events : added.eventsAppended = s.world.store.size
  /-- The commands whose events were committed, whether they could be published or not. -/
  changed : added.commandsChanged = s.sendings.countP fun c => c.notes.committed
  unchanged : added.commandsUnchanged = s.sendings.countP fun c => c.stage.isIdle true
  rejected : added.commandsRejected = s.sendings.countP fun c => c.stage.isIdle false
  conflict : added.commandsConflict = s.sendings.countP fun c => c.stage.isConflict
  conflicts : added.conflicts = s.sendings.countP fun c => c.stage.isConflict
  failed : added.commandsFailed = s.sendings.countP fun c => c.notes.appendFailed
  saved : added.snapshotsSaved = s.world.vault.saves
  /-- Where snapshots are used, none was misread and none is still to be dealt with, something has
  become of the snapshot of each command that was committed. -/
  snapshots : (∀ t ∈ tasks, t.settings.usesSnapshots = true) →
    (∀ c ∈ s.sendings, c.notes.misread = false ∧ c.stage.isSaving = false) →
    added.snapshotsSaved + added.snapshotsSkipped + added.snapshotFailures = added.commandsChanged
  batches : added.rebuildBatches = (s.rebuildings.map fun c => c.published.length).sum
  envelopes : added.rebuildEvents = (s.rebuildings.map fun c => c.published.flatten.length).sum
  /-- A send that is answered was committed just if it is answered with changes or with a failure
  of the bus. -/
  committed : ∀ c ∈ s.sendings, ∀ outcome, c.stage = .answered outcome →
    c.notes.committed = c.stage.tellsCommit
  /-- A send whose append failed is answered with the failure. -/
  refused : ∀ c ∈ s.sendings, c.notes.appendFailed = true →
    ∃ cause, c.stage = .answered (.error (.store cause)) ∧ cause.isConflict = false

section Read

variable {w : World MemoryStore κ π} {tasks : List (Task κ)}

theorem Balanced.counted (h : s.Balanced w tasks) : ∀ c ∈ s.sendings, c.Counted :=
  fun c hc => Sending.counted (h.tells c hc)

theorem Balanced.changed (h : s.Balanced w tasks) :
    s.worth.commandsChanged = s.sendings.countP fun c => c.notes.committed :=
  count_sendings _ ⟨rfl, fun _ _ => rfl⟩ (fun c hc => (h.counted c hc).changed) fun _ => rfl

/-- Where all snapshots are used and dealt with, there are as many as changes. -/
theorem Balanced.snapshots (h : s.Balanced w tasks)
    (hused : ∀ t ∈ tasks, t.settings.usesSnapshots = true)
    (hdone : ∀ c ∈ s.sendings, c.notes.misread = false ∧ c.stage.isSaving = false) :
    s.worth.snapshotsSaved + s.worth.snapshotsSkipped + s.worth.snapshotFailures =
      s.worth.commandsChanged := by
  rw [h.changed]
  refine count_sendings (fun c => c.snapshotsSaved + c.snapshotsSkipped + c.snapshotFailures)
    ⟨rfl, fun a b => ?_⟩ (fun c hc => ?_) fun _ => rfl
  · show a.snapshotsSaved + b.snapshotsSaved + (a.snapshotsSkipped + b.snapshotsSkipped) +
      (a.snapshotFailures + b.snapshotFailures) = _
    omega
  · have htask : c.task ∈ tasks := by
      rw [← h.tasks]
      exact List.mem_map_of_mem hc
    obtain ⟨hread, hsaving⟩ := hdone c hc
    exact Sending.worth_snapshots (h.tells c hc) (hused c.task htask) hread hsaving

/-- Each counter can be read off the balance, if there were neither events nor saved snapshots. -/
theorem Balanced.tallies (h : s.Balanced w tasks) (hsize : w.store.size = 0)
    (hsaves : w.vault.saves = 0) : s.Tallies tasks s.worth where
  events := by rw [h.adds.events, hsize, Nat.zero_add]
  changed := h.changed
  unchanged := count_sendings _ ⟨rfl, fun _ _ => rfl⟩ (fun c hc => (h.counted c hc).unchanged)
    fun _ => rfl
  rejected := count_sendings _ ⟨rfl, fun _ _ => rfl⟩ (fun c hc => (h.counted c hc).rejected)
    fun _ => rfl
  conflict := count_sendings _ ⟨rfl, fun _ _ => rfl⟩ (fun c hc => (h.counted c hc).conflict)
    fun _ => rfl
  conflicts := count_sendings _ ⟨rfl, fun _ _ => rfl⟩ (fun c hc => (h.counted c hc).conflicts)
    fun _ => rfl
  failed := count_sendings _ ⟨rfl, fun _ _ => rfl⟩ (fun c hc => (h.counted c hc).failed)
    fun _ => rfl
  saved := by rw [h.adds.saves, hsaves, Nat.zero_add]
  snapshots := h.snapshots
  batches := by
    rw [count_batches _ ⟨rfl, fun _ _ => rfl⟩ fun c => c.worth_rebuild.1]
    simp [Counters.ofBatch]
  envelopes := by
    rw [count_batches _ ⟨rfl, fun _ _ => rfl⟩ fun c => c.worth_rebuild.2]
    simp [Counters.ofBatch, List.length_flatten]
  committed c hc outcome hanswered := by
    have htells := h.tells c hc
    rw [hanswered] at htells ⊢
    exact htells.committed_eq
  refused c hc hfailed := (h.tells c hc).answered_of_appendFailed hfailed

end Read

/-- **Counters add up.** Take any commands and any rebuilds in a world whose store has no events
and whose vault has saved nothing, and let their phases be interleaved in any order, with any
faults between them. Then what was counted since is, counter by counter, what became of the sends
and of the rebuilds, what is in the store and what the vault has saved. -/
theorem counters_add_up [Projection κ π] {w : World MemoryStore κ π} (hfresh : w.Fresh)
    (hsaves : w.vault.saves = 0) (tasks : List (Task κ)) (rebuilds : List (RebuildTask κ))
    (acts : List (Act κ π)) :
    let s := (first w tasks rebuilds).actAll acts
    ∃ added, s.world.counters = w.counters + added ∧ s.Tallies tasks added := by
  intro s
  have hbalanced : s.Balanced w tasks := (balanced_first w tasks rebuilds).actAll acts
  have hsize : w.store.size = 0 := by
    rw [MemoryStore.size, hfresh.events]
    rfl
  exact ⟨s.worth, hbalanced.adds.counters, hbalanced.tallies hsize hsaves⟩

section Race

open Sample

/-- A rebuild of all sequences of a tenant, in batches of two events. -/
def replay : RebuildTask Carrier :=
  ⟨.binary, Registry.empty.bound sequenceType, [], .default, .start, 2⟩

/-- Two additions to one new sequence, whose phases alternate up to the appends, and a rebuild of
what the first of them has stored. -/
def raceAndReplay : Service Carrier Inert :=
  (first .blank [addition [3, 5], addition [4]] [replay]).actAll
    [.send 0, .send 1, .send 0, .send 1, .send 0, .send 1, .send 0, .send 0,
      .rebuild 0, .rebuild 0, .rebuild 0, .rebuild 0]

set_option maxRecDepth 10000 in
/-- One addition is stored and its snapshot saved, the other loses the race, and one batch is
published by the rebuild. -/
theorem race_and_replay_add_up : ∃ added,
    raceAndReplay.world.counters =
        (World.blank : World MemoryStore Carrier Inert).counters + added ∧
      added.eventsAppended = 2 ∧ added.commandsChanged = 1 ∧ added.commandsConflict = 1 ∧
      added.conflicts = 1 ∧ added.commandsFailed = 0 ∧
      added.snapshotsSaved + added.snapshotsSkipped + added.snapshotFailures = 1 ∧
      added.rebuildBatches = 1 ∧ added.rebuildEvents = 2 := by
  obtain ⟨added, hcounters, h⟩ := counters_add_up (World.fresh_blank (π := Inert)) rfl
    [addition [3, 5], addition [4]] [replay]
    [.send 0, .send 1, .send 0, .send 1, .send 0, .send 1, .send 0, .send 0,
      .rebuild 0, .rebuild 0, .rebuild 0, .rebuild 0]
  have hchanged : added.commandsChanged = 1 := h.changed.trans rfl
  have hused : ∀ t ∈ [addition [3, 5], addition [4]], t.settings.usesSnapshots = true := by
    intro t ht
    rcases List.mem_pair.mp ht with rfl | rfl <;> rfl
  have hdone : ∀ c ∈ raceAndReplay.sendings,
      c.notes.misread = false ∧ c.stage.isSaving = false := by
    have hall : (raceAndReplay.sendings.all fun c =>
        !c.notes.misread && !c.stage.isSaving) = true := rfl
    simpa using hall
  exact ⟨added, hcounters, h.events.trans rfl, hchanged, h.conflict.trans rfl,
    h.conflicts.trans rfl, h.failed.trans rfl, (h.snapshots hused hdone).trans hchanged,
    h.batches.trans rfl, h.envelopes.trans rfl⟩

end Race

end Service

end Chronicle

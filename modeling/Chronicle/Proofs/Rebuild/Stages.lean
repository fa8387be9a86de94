import Chronicle.Proofs.Counters
import Chronicle.Proofs.Rebuild.Complete

/-!
# Rebuilds under way

A rebuild resets projections, and then reads and publishes one page after the other; other things
may happen between any two of these. A `RebuildTask` is a rebuild as it was asked for, a
`RebuildStage` is how far it has come, and `RebuildTask.advance` does the next phase.
`advanceBy_of_rebuild` says that a rebuild that nobody disturbs is a task that is advanced until it
ends.

A publication that succeeds counts its batch, and nothing else counts anything (`advance_adds`), so
that what a rebuild has counted is what it has published, however it ends.
-/

namespace Chronicle

/-- A rebuild as it is asked for. -/
structure RebuildTask (κ : Type) where
  codec : Codec
  registry : Registry κ
  /-- The places of the projections that are reset. -/
  resets : List Nat
  tenant : TenantId
  start : GlobalPosition
  batchSize : Nat

/-- How far a rebuild has come. -/
inductive RebuildStage (κ : Type) where
  | waiting
  | reading (run : Rebuild.Run)
  | publishing (run : Rebuild.Run) (stop : GlobalPosition) (batch : List (AnyEnvelope κ))
  | ended (outcome : Except RebuildError RebuildSummary) (run : Rebuild.Run)
  | stopped (fault : Fault)

namespace RebuildTask

variable {κ π : Type} [Projection κ π]

/-! ## The phases -/

/-- Does the next phase. -/
def advance (r : RebuildTask κ) (stage : RebuildStage κ) (w : World MemoryStore κ π) :
    RebuildStage κ × World MemoryStore κ π :=
  match stage with
  | .waiting =>
    if !w.started then (.ended (.error .notStarted) (.first r.start), w)
    else if r.batchSize = 0 then (.ended (.error .invalidBatchSize) (.first r.start), w)
    else
      let (outcome, projections) :=
        if r.start = .start then Bus.reset (κ := κ) r.resets w.bus.projections
        else (.ok (), w.bus.projections)
      let w := { w with bus := { w.bus with projections := projections } }
      match outcome with
      | .error (name, error) => (.ended (.error (.reset name error)) (.first r.start), w)
      | .ok () => (.reading (.first r.start), w)
  | .reading run =>
    match EventStore.loadLog w.store r.tenant (.pageAfter run.cursor r.batchSize) with
    | .error error => (.ended (.error (.store error)) run, w)
    | .ok slice =>
      match slice.lastPosition with
      | none => (.ended (.ok run.summary) run, w)
      | some stop =>
        match slice.rows.mapM fun row => r.registry.decode row r.codec with
        | .error error => (.ended (.error (.translation error)) run, w)
        | .ok batch => (.publishing run stop batch, w)
  | .publishing run stop batch =>
    match w.bus.publish w.tracker batch with
    | .error fault => (.stopped fault, w)
    | .ok (outcome, bus, tracker) =>
      let w := { w with bus := bus, tracker := tracker }
      match outcome with
      | .error error => (.ended (.error (.publish error)) run, w)
      | .ok () => (.reading (run.note r.tenant batch.length stop), w.countBatch batch.length)
  | .ended .. | .stopped _ => (stage, w)

/-- Does so many phases. -/
def advanceBy (r : RebuildTask κ) : Nat → RebuildStage κ → World MemoryStore κ π →
    RebuildStage κ × World MemoryStore κ π
  | 0, stage, w => (stage, w)
  | phases + 1, stage, w => r.advanceBy phases (r.advance stage w).1 (r.advance stage w).2

variable {r : RebuildTask κ} {w w' : World MemoryStore κ π}

theorem advanceBy_succ {stage stage' : RebuildStage κ} (h : r.advance stage w = (stage', w'))
    (phases : Nat) : r.advanceBy (phases + 1) stage w = r.advanceBy phases stage' w' := by
  rw [advanceBy, h]

/-! ## A rebuild that nobody disturbs -/

section

variable {run run' : Rebuild.Run} {outcome : Except RebuildError RebuildSummary}

/-- A page that is read is handed on to its publication. -/
theorem advance_of_page (hsize : 0 < r.batchSize) (havailable : w.store.available = true)
    {page : List RecordedEvent} {stop : GlobalPosition} {batch : List (AnyEnvelope κ)}
    (hpage : w.store.Page r.tenant run.cursor r.batchSize page stop)
    (hread : page.mapM (r.registry.decode · r.codec) = .ok batch) :
    r.advance (.reading run) w = (.publishing run stop batch, w) := by
  obtain ⟨reachedEnd, hload⟩ :=
    w.store.loadLog_pageAfter r.tenant run.cursor havailable hsize
  rw [← hpage.rows_eq, hpage.stop_eq] at hload
  simp only [advance, EventStore.loadLog, hload, hread]

/-- A round that ends a rebuild is one phase or two. -/
theorem advanceBy_of_ends (hsize : 0 < r.batchSize)
    (h : Rebuild.Ends r.codec r.registry r.tenant r.batchSize run w outcome w') :
    ∃ phases, r.advanceBy phases (.reading run) w = (.ended outcome run, w') := by
  cases h with
  | @unread error hload =>
    have hlast : r.advance (.reading run) w = (.ended (.error (.store error)) run, w) := by
      simp only [advance, EventStore.loadLog, hload]
    exact ⟨1, advanceBy_succ hlast 0⟩
  | exhausted havailable hnil =>
    obtain ⟨reachedEnd, hload⟩ :=
      w.store.loadLog_pageAfter r.tenant run.cursor havailable hsize
    rw [hnil, List.take_nil] at hload
    have hlast : r.advance (.reading run) w = (.ended (.ok run.summary) run, w) := by
      simp only [advance, EventStore.loadLog, hload]
      rfl
    exact ⟨1, advanceBy_succ hlast 0⟩
  | @untranslated page stop error havailable hpage hread =>
    obtain ⟨reachedEnd, hload⟩ :=
      w.store.loadLog_pageAfter r.tenant run.cursor havailable hsize
    rw [← hpage.rows_eq, hpage.stop_eq] at hload
    have hlast : r.advance (.reading run) w = (.ended (.error (.translation error)) run, w) := by
      simp only [advance, EventStore.loadLog, hload, hread]
    exact ⟨1, advanceBy_succ hlast 0⟩
  | refused havailable hpage hread hpublish =>
    refine ⟨2, ?_⟩
    rw [advanceBy_succ (advance_of_page hsize havailable hpage hread)]
    simp only [advanceBy, advance, hpublish]

/-- A round that publishes a batch is two phases. -/
theorem advanceBy_of_publishes (hsize : 0 < r.batchSize) {batch : List (AnyEnvelope κ)}
    (h : Rebuild.Publishes r.codec r.registry r.tenant r.batchSize run w batch run' w')
    (phases : Nat) :
    r.advanceBy (phases + 2) (.reading run) w = r.advanceBy phases (.reading run') w' := by
  cases h with
  | page havailable hpage hread hpublish =>
    rw [advanceBy_succ (advance_of_page hsize havailable hpage hread)]
    simp only [advanceBy, advance, hpublish]

/-- Rounds that come to an end are so many phases. -/
theorem advanceBy_of_publishFrom (hsize : 0 < r.batchSize) {rounds : Nat} :
    ∀ {run : Rebuild.Run} {w : World MemoryStore κ π},
      Rebuild.publishFrom r.codec r.registry r.tenant r.batchSize rounds run w =
        .ok (outcome, run', w') →
      ∃ phases, r.advanceBy phases (.reading run) w = (.ended outcome run', w') := by
  induction rounds with
  | zero =>
    intro run w h
    cases h
  | succ rounds ih =>
    intro run w h
    rcases Rebuild.publishFrom_succ_eq_ok hsize h with
      ⟨hends, rfl⟩ | ⟨batch, run₁, w₁, hpublishes, h⟩
    · exact advanceBy_of_ends hsize hends
    · obtain ⟨phases, hrest⟩ := ih h
      exact ⟨phases + 2, (advanceBy_of_publishes hsize hpublishes phases).trans hrest⟩

/-- A rebuild that nobody disturbs is a task that is advanced until it ends. -/
theorem advanceBy_of_rebuild {news : List RebuildProgress}
    (h : Rebuild.run r.codec r.registry r.resets r.tenant r.start r.batchSize w =
      .ok (outcome, news, w')) :
    ∃ phases last, r.advanceBy phases .waiting w = (.ended outcome last, w') ∧
      last.news = news := by
  unfold Rebuild.run at h
  split at h
  · next hstarted =>
    obtain ⟨rfl, rfl, rfl⟩ := Except.ok.inj h
    exact ⟨1, .first r.start, by simp [advanceBy, advance, hstarted], rfl⟩
  next hstarted =>
  split at h
  · next hsize =>
    obtain ⟨rfl, rfl, rfl⟩ := Except.ok.inj h
    exact ⟨1, .first r.start, by simp [advanceBy, advance, hstarted, hsize], rfl⟩
  next hsize =>
  rcases hreset : (if r.start = .start then Bus.reset (κ := κ) r.resets w.bus.projections
    else (.ok (), w.bus.projections)) with ⟨reset, projections⟩
  rw [hreset] at h
  cases reset with
  | error failure =>
    obtain ⟨rfl, rfl, rfl⟩ := Except.ok.inj h
    have hfirst : r.advance .waiting w =
        (.ended (.error (.reset failure.1 failure.2)) (.first r.start),
          { w with bus := { w.bus with projections := projections } }) := by
      simp only [advance, if_neg hstarted, if_neg hsize, hreset]
    exact ⟨1, .first r.start, advanceBy_succ hfirst 0, rfl⟩
  | ok =>
    have hfirst : r.advance .waiting w =
        (.reading (.first r.start),
          { w with bus := { w.bus with projections := projections } }) := by
      simp only [advance, if_neg hstarted, if_neg hsize, hreset]
    obtain ⟨⟨_, last, _⟩, hrounds, h⟩ := bind_eq_ok.mp h
    obtain ⟨rfl, rfl, rfl⟩ := Except.ok.inj h
    obtain ⟨phases, hrest⟩ := advanceBy_of_publishFrom (Nat.pos_of_ne_zero hsize) hrounds
    exact ⟨phases + 1, last, (advanceBy_succ hfirst phases).trans hrest, rfl⟩

end

/-! ## What is counted -/

/-- The batches that a rebuild has published, with the one that its next phase publishes. -/
def note (stage : RebuildStage κ) (w : World MemoryStore κ π)
    (published : List (List (AnyEnvelope κ))) : List (List (AnyEnvelope κ)) :=
  match stage with
  | .publishing _ _ batch =>
    match w.bus.publish w.tracker batch with
    | .ok (.ok (), _, _) => published ++ [batch]
    | .ok (.error _, _, _) | .error _ => published
  | _ => published

omit [Projection κ π] in
/-- All that a rebuild is counted for. -/
def worth (published : List (List (AnyEnvelope κ))) : Counters :=
  (published.map fun batch => .ofBatch batch.length).sum

theorem adds_waiting (r : RebuildTask κ) (w : World MemoryStore κ π) :
    w.Adds 0 (r.advance .waiting w).2 := by
  simp only [advance]
  split
  · exact .refl w
  split
  · exact .refl w
  rcases (if r.start = .start then Bus.reset (κ := κ) r.resets w.bus.projections
    else (.ok (), w.bus.projections)) with ⟨failure | done, projections⟩ <;>
    exact ⟨(add_zero _).symm, rfl, rfl⟩

/-- Nothing is counted before the publication, whether the page can be read or not. -/
theorem adds_reading (r : RebuildTask κ) (run : Rebuild.Run) (w : World MemoryStore κ π) :
    w.Adds 0 (r.advance (.reading run) w).2 := by
  simp only [advance]
  split
  · exact .refl w
  split
  · exact .refl w
  split <;> exact .refl w

/-- Each phase counts the batch that it publishes, if it publishes one, and nothing else. -/
theorem advance_adds (r : RebuildTask κ) (stage : RebuildStage κ) (w : World MemoryStore κ π)
    (published : List (List (AnyEnvelope κ))) :
    ∃ added, w.Adds added (r.advance stage w).2 ∧
      worth (note stage w published) = worth published + added := by
  cases stage with
  | waiting => exact ⟨0, adds_waiting r w, (add_zero _).symm⟩
  | reading run => exact ⟨0, adds_reading r run w, (add_zero _).symm⟩
  | publishing run stop batch =>
    rcases hpublish : w.bus.publish w.tracker batch with fault | ⟨error | done, bus, tracker⟩ <;>
      simp only [advance, note, hpublish]
    · exact ⟨0, .refl w, (add_zero _).symm⟩
    · exact ⟨0, ⟨(add_zero _).symm, rfl, rfl⟩, (add_zero _).symm⟩
    · refine ⟨.ofBatch batch.length, ⟨World.counters_countBatch .., rfl, rfl⟩, ?_⟩
      rw [worth, worth, List.map_append, List.sum_append]
      simp
  | ended | stopped => exact ⟨0, .refl w, (add_zero _).symm⟩

end RebuildTask

end Chronicle

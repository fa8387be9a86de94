import Chronicle.Proofs.Bus.Publication
import Chronicle.Proofs.Registry
import Chronicle.Proofs.Store.Pages
import Chronicle.Rebuild
import Mathlib.Algebra.GroupWithZero.Nat

/-!
# The rounds of a rebuild

A rebuild goes on round by round. A round either ends it (`Ends`) or publishes one page of the log
as a batch (`Publishes`); together with `publishFrom_succ_eq_ok` this is all that is said about the
code of a round.

`Round.Coherent` is what the news of a rebuild tell: the batches are numbered from 1, each starts
where the one before stopped, and the events are counted up. No round breaks it.

`Rounds` is a rebuild during which the store is also used by others, between one round and the
next. A rebuild that nobody disturbs is such a one (`rounds_of_publishFrom`).
-/

namespace Chronicle

namespace Rebuild

variable {κ π : Type}

/-- The world after some batches of a rebuild. -/
def published (w : World MemoryStore κ π) (batches : List (List (AnyEnvelope κ))) (bus : Bus κ π)
    (tracker : CompletionTracker) : World MemoryStore κ π :=
  { w with
    bus := bus
    tracker := tracker
    counters :=
      { w.counters with
        rebuildBatches := w.counters.rebuildBatches + batches.length
        rebuildEvents := w.counters.rebuildEvents + batches.flatten.length } }

theorem published_cons (w : World MemoryStore κ π) (batch : List (AnyEnvelope κ))
    (batches : List (List (AnyEnvelope κ))) (bus bus₁ : Bus κ π)
    (tracker tracker₁ : CompletionTracker) :
    published ({ w with bus := bus₁, tracker := tracker₁ }.countBatch batch.length) batches bus
      tracker = published w (batch :: batches) bus tracker := by
  simp only [published, World.countBatch, List.length_cons, List.flatten_cons, List.length_append,
    Nat.add_assoc, Nat.add_comm 1]

/-! ## What the news tell -/

/-- The news of a rebuild fit together, and fit what the rebuild counts. -/
structure Run.Coherent (tenant : TenantId) (start : GlobalPosition) (run : Run) : Prop where
  numbers : run.news.map RebuildProgress.batch = List.range' 1 run.batches
  tenants : ∀ news ∈ run.news, news.tenant = tenant
  chain : run.news.map RebuildProgress.start ++ [run.cursor] =
    start :: run.news.map RebuildProgress.stop
  events : run.events = (run.news.map RebuildProgress.batchSize).sum
  totals : ∀ i news, run.news[i]? = some news →
    news.eventsProcessed = ((run.news.take (i + 1)).map RebuildProgress.batchSize).sum

/-- What a rebuild has done before its first round. -/
def Run.first (start : GlobalPosition) : Run := ⟨start, 0, 0, []⟩

theorem Run.coherent_first (tenant : TenantId) (start : GlobalPosition) :
    (Run.first start).Coherent tenant start :=
  ⟨rfl, fun _ h => (nomatch h), rfl, rfl, fun _ _ h => nomatch h⟩

theorem Run.Coherent.note {tenant : TenantId} {start : GlobalPosition} {run : Run}
    (h : run.Coherent tenant start) (size : Nat) (stop : GlobalPosition) :
    (run.note tenant size stop).Coherent tenant start where
  numbers := by
    show (run.news ++ [_]).map RebuildProgress.batch = List.range' 1 (run.batches + 1)
    rw [List.map_append, h.numbers, List.range'_concat]
    simp [Nat.add_comm]
  tenants news hnews := by
    rcases List.mem_append.mp hnews with hnews | hnews
    · exact h.tenants news hnews
    · rw [List.mem_singleton.mp hnews]
  chain := by
    show (run.news ++ [_]).map RebuildProgress.start ++ [stop] =
      start :: (run.news ++ [_]).map RebuildProgress.stop
    rw [List.map_append, List.map_append, ← List.cons_append, ← h.chain]
    rfl
  events := by
    show run.events + size = ((run.news ++ [_]).map RebuildProgress.batchSize).sum
    rw [List.map_append, List.sum_append, h.events]
    simp
  totals i news hnews := by
    have hnews' : (run.news ++ [_])[i]? = some news := hnews
    show news.eventsProcessed =
      (((run.news ++ [_]).take (i + 1)).map RebuildProgress.batchSize).sum
    rw [List.getElem?_append] at hnews'
    split at hnews'
    · next hlt =>
      rw [List.take_append_of_le_length (by omega)]
      exact h.totals i news hnews'
    · next hge =>
      have hi : i - run.news.length = 0 := by
        have := (List.getElem?_eq_some_iff.mp hnews').1
        rw [List.length_singleton] at this
        omega
      rw [hi] at hnews'
      obtain rfl := Option.some.inj hnews'
      rw [List.take_of_length_le (by rw [List.length_append, List.length_singleton]; omega),
        List.map_append, List.sum_append, ← h.events]
      simp

/-- A rebuild is where its last news say, or where it began. -/
theorem Run.Coherent.cursor_eq {tenant : TenantId} {start : GlobalPosition} {run : Run}
    (h : run.Coherent tenant start) :
    run.cursor = (run.news.getLast?.map RebuildProgress.stop).getD start := by
  have hlast := congrArg List.getLast? h.chain
  rw [List.getLast?_concat, List.getLast?_cons, List.getLast?_map] at hlast
  exact Option.some.inj hlast

theorem Run.Coherent.length_news {tenant : TenantId} {start : GlobalPosition} {run : Run}
    (h : run.Coherent tenant start) : run.news.length = run.batches := by
  have hlength := congrArg List.length h.numbers
  rwa [List.length_map, List.length_range'] at hlength

/-! ## One round -/

variable [Projection κ π]

section

variable (codec : Codec) (registry : Registry κ) (tenant : TenantId) (batchSize : Nat)

/-- How a round ends a rebuild: with which outcome and which world. -/
inductive Ends (run : Run) (w : World MemoryStore κ π) :
    Except RebuildError RebuildSummary → World MemoryStore κ π → Prop
  | unread {error : StoreError}
      (h : w.store.loadLog tenant (.pageAfter run.cursor batchSize) = .error error) :
      Ends run w (.error (.store error)) w
  | exhausted (havailable : w.store.available = true)
      (h : w.store.rowsAfter tenant run.cursor = []) : Ends run w (.ok run.summary) w
  | untranslated {page : List RecordedEvent} {stop : GlobalPosition} {error : RegistryError}
      (havailable : w.store.available = true)
      (hpage : w.store.Page tenant run.cursor batchSize page stop)
      (hread : page.mapM (registry.decode · codec) = .error error) :
      Ends run w (.error (.translation error)) w
  | refused {page : List RecordedEvent} {stop : GlobalPosition} {batch : List (AnyEnvelope κ)}
      {error : BusError} {bus : Bus κ π} {tracker : CompletionTracker}
      (havailable : w.store.available = true)
      (hpage : w.store.Page tenant run.cursor batchSize page stop)
      (hread : page.mapM (registry.decode · codec) = .ok batch)
      (hpublish : w.bus.publish w.tracker batch = .ok (.error error, bus, tracker)) :
      Ends run w (.error (.publish error)) { w with bus := bus, tracker := tracker }

/-- How a round publishes a batch and leads to the next. -/
inductive Publishes (run : Run) (w : World MemoryStore κ π) :
    List (AnyEnvelope κ) → Run → World MemoryStore κ π → Prop
  | page {page : List RecordedEvent} {stop : GlobalPosition} {batch : List (AnyEnvelope κ)}
      {bus : Bus κ π} {tracker : CompletionTracker} (havailable : w.store.available = true)
      (hpage : w.store.Page tenant run.cursor batchSize page stop)
      (hread : page.mapM (registry.decode · codec) = .ok batch)
      (hpublish : w.bus.publish w.tracker batch = .ok (.ok (), bus, tracker)) :
      Publishes run w batch (run.note tenant batch.length stop)
        ({ w with bus := bus, tracker := tracker }.countBatch batch.length)

end

section

variable {codec : Codec} {registry : Registry κ} {tenant : TenantId} {batchSize : Nat}

theorem publishFrom_of_ends {run : Run} {w w' : World MemoryStore κ π}
    {outcome : Except RebuildError RebuildSummary} (hsize : 0 < batchSize)
    (h : Ends codec registry tenant batchSize run w outcome w') (rounds : Nat) :
    publishFrom codec registry tenant batchSize (rounds + 1) run w = .ok (outcome, run, w') := by
  unfold publishFrom
  simp only [EventStore.loadLog]
  cases h with
  | unread h => rw [h]
  | exhausted havailable h =>
    obtain ⟨reachedEnd, hload⟩ := w.store.loadLog_pageAfter tenant run.cursor havailable hsize
    rw [h, List.take_nil] at hload
    rw [hload]
    rfl
  | untranslated havailable hpage hread =>
    obtain ⟨reachedEnd, hload⟩ := w.store.loadLog_pageAfter tenant run.cursor havailable hsize
    rw [← hpage.rows_eq, hpage.stop_eq] at hload
    rw [hload]
    simp only [hread]
  | refused havailable hpage hread hpublish =>
    obtain ⟨reachedEnd, hload⟩ := w.store.loadLog_pageAfter tenant run.cursor havailable hsize
    rw [← hpage.rows_eq, hpage.stop_eq] at hload
    rw [hload]
    simp only [hread, hpublish]
    rfl

theorem publishFrom_of_publishes {run run' : Run} {w w' : World MemoryStore κ π}
    {batch : List (AnyEnvelope κ)} (hsize : 0 < batchSize)
    (h : Publishes codec registry tenant batchSize run w batch run' w') (rounds : Nat) :
    publishFrom codec registry tenant batchSize (rounds + 1) run w =
      publishFrom codec registry tenant batchSize rounds run' w' := by
  cases h with
  | page havailable hpage hread hpublish =>
    obtain ⟨reachedEnd, hload⟩ := w.store.loadLog_pageAfter tenant run.cursor havailable hsize
    rw [← hpage.rows_eq, hpage.stop_eq] at hload
    rw [publishFrom]
    simp only [EventStore.loadLog]
    rw [hload]
    simp only [hread, hpublish]
    rfl

/-- A round ends the rebuild, publishes a batch, or stops with the fault of a publication. -/
theorem round_cases (codec : Codec) (registry : Registry κ) (tenant : TenantId) {batchSize : Nat}
    (hsize : 0 < batchSize) (run : Run) (w : World MemoryStore κ π) :
    (∃ outcome w', Ends codec registry tenant batchSize run w outcome w') ∨
      (∃ batch run₁ w₁, Publishes codec registry tenant batchSize run w batch run₁ w₁) ∨
      ∃ fault batch, w.bus.publish w.tracker batch = .error fault ∧
        ∀ rounds, publishFrom codec registry tenant batchSize (rounds + 1) run w =
          .error fault := by
  cases hload : w.store.loadLog tenant (.pageAfter run.cursor batchSize) with
  | error error => exact Or.inl ⟨_, _, .unread hload⟩
  | ok slice =>
  obtain ⟨havailable, ⟨hnil, -⟩ | ⟨stop, hstop, hpage⟩⟩ :=
    MemoryStore.loadLog_pageAfter_eq_ok hsize hload
  · exact Or.inl ⟨_, _, .exhausted havailable hnil⟩
  cases hread : slice.rows.mapM (registry.decode · codec) with
  | error error => exact Or.inl ⟨_, _, .untranslated havailable hpage hread⟩
  | ok batch =>
  rcases hpublish : w.bus.publish w.tracker batch with fault | ⟨error | _, bus, tracker⟩
  · refine Or.inr (Or.inr ⟨fault, batch, hpublish, fun rounds => ?_⟩)
    simp only [publishFrom, EventStore.loadLog, hload, hstop, hread, hpublish]
    rfl
  · exact Or.inl ⟨_, _, .refused havailable hpage hread hpublish⟩
  · exact Or.inr (Or.inl ⟨batch, _, _, .page havailable hpage hread hpublish⟩)

theorem publishFrom_succ_eq_ok {rounds : Nat} {run run' : Run} {w w' : World MemoryStore κ π}
    {outcome : Except RebuildError RebuildSummary} (hsize : 0 < batchSize)
    (h : publishFrom codec registry tenant batchSize (rounds + 1) run w =
      .ok (outcome, run', w')) :
    (Ends codec registry tenant batchSize run w outcome w' ∧ run' = run) ∨
      ∃ batch run₁ w₁, Publishes codec registry tenant batchSize run w batch run₁ w₁ ∧
        publishFrom codec registry tenant batchSize rounds run₁ w₁ = .ok (outcome, run', w') := by
  rcases round_cases codec registry tenant hsize run w with
    ⟨_, _, hends⟩ | ⟨batch, run₁, w₁, hpublishes⟩ | ⟨fault, _, -, hstops⟩
  · rw [publishFrom_of_ends hsize hends] at h
    obtain ⟨rfl, rfl, rfl⟩ := Except.ok.inj h
    exact Or.inl ⟨hends, rfl⟩
  · rw [publishFrom_of_publishes hsize hpublishes] at h
    exact Or.inr ⟨batch, run₁, w₁, hpublishes, h⟩
  · rw [hstops] at h
    cases h

/-- A loop that has not ended after some rounds has not ended after fewer. -/
theorem publishFrom_endless_of_succ (hsize : 0 < batchSize) {rounds : Nat} :
    ∀ {run : Run} {w : World MemoryStore κ π},
      publishFrom codec registry tenant batchSize (rounds + 1) run w = .error .endlessLoop →
      publishFrom codec registry tenant batchSize rounds run w = .error .endlessLoop := by
  induction rounds with
  | zero => exact fun _ => rfl
  | succ rounds ih =>
    intro run w h
    rcases round_cases codec registry tenant hsize run w with
      ⟨_, _, hends⟩ | ⟨batch, run₁, w₁, hpublishes⟩ | ⟨fault, _, -, hstops⟩
    · rw [publishFrom_of_ends hsize hends] at h
      cases h
    · rw [publishFrom_of_publishes hsize hpublishes] at h ⊢
      exact ih h
    · rw [hstops] at h ⊢
      exact h

theorem publishFrom_endless_of_le (hsize : 0 < batchSize) {run : Run} {w : World MemoryStore κ π}
    {rounds more : Nat} (hle : rounds ≤ more)
    (h : publishFrom codec registry tenant batchSize more run w = .error .endlessLoop) :
    publishFrom codec registry tenant batchSize rounds run w = .error .endlessLoop := by
  induction hle with
  | refl => exact h
  | step _ ih => exact ih (publishFrom_endless_of_succ hsize h)

/-! ## What some rounds come to -/

/-- A rebuild has gone on from one point to another by publishing some batches. -/
structure Run.Follows (tenant : TenantId) (run run' : Run) (batches : List (List (AnyEnvelope κ))) :
    Prop where
  cursor : run'.cursor.toNat = run.cursor.toNat + batches.flatten.length
  count : run'.batches = run.batches + batches.length
  events : run'.events = run.events + batches.flatten.length
  sizes : run'.news.map RebuildProgress.batchSize =
    run.news.map RebuildProgress.batchSize ++ batches.map List.length
  coherent : ∀ start, run.Coherent tenant start → run'.Coherent tenant start

theorem Run.Follows.refl (tenant : TenantId) (run : Run) : run.Follows (κ := κ) tenant run [] :=
  ⟨rfl, rfl, rfl, (List.append_nil _).symm, fun _ h => h⟩

theorem Run.Follows.cons {run run' : Run} {batch : List (AnyEnvelope κ)}
    {batches : List (List (AnyEnvelope κ))} {stop : GlobalPosition}
    (hstop : stop.toNat = run.cursor.toNat + batch.length)
    (h : (run.note tenant batch.length stop).Follows tenant run' batches) :
    run.Follows tenant run' (batch :: batches) where
  cursor := by
    rw [h.cursor, List.flatten_cons, List.length_append, ← Nat.add_assoc, ← hstop]
    rfl
  count := by
    rw [h.count, List.length_cons]
    show run.batches + 1 + batches.length = _
    omega
  events := by
    rw [h.events, List.flatten_cons, List.length_append, ← Nat.add_assoc]
    rfl
  sizes := by
    rw [h.sizes, List.map_cons]
    show (run.news ++ [_]).map RebuildProgress.batchSize ++ _ = _
    rw [List.map_append, List.append_assoc]
    rfl
  coherent start hrun := h.coherent start (hrun.note batch.length stop)

theorem Run.Follows.rowsAfter_eq {run run' : Run} {batches : List (List (AnyEnvelope κ))}
    {s : MemoryStore} (hs : s.Dense) (h : run.Follows tenant run' batches) :
    s.rowsAfter tenant run'.cursor =
      (s.rowsAfter tenant run.cursor).drop batches.flatten.length := by
  rw [MemoryStore.rowsAfter_eq_drop hs, MemoryStore.rowsAfter_eq_drop hs, List.drop_drop, h.cursor]

theorem Page.length_eq {page : List RecordedEvent} {batch : List (AnyEnvelope κ)}
    (hread : page.mapM (registry.decode · codec) = .ok batch) : page.length = batch.length :=
  (forall₂_of_mapM hread).length_eq

end

/-- Pages that can be read are published one after the other, if the bus accepts them, and the
rebuild goes on behind them. -/
theorem publishFrom_pages {codec : Codec} {registry : Registry κ} {tenant : TenantId}
    {batchSize : Nat} (hsize : 0 < batchSize) {rest : List (List RecordedEvent)}
    {batches : List (List (AnyEnvelope κ))} :
    ∀ {pages : List (List RecordedEvent)} (run : Run) (w : World MemoryStore κ π) {bus : Bus κ π}
      {tracker : CompletionTracker}, w.store.Dense → w.store.available = true →
      batchesOf batchSize (w.store.rowsAfter tenant run.cursor) = pages ++ rest →
      List.Forall₂ (fun page batch => page.mapM (registry.decode · codec) = .ok batch) pages
        batches →
      w.bus.Accepts w.tracker batches bus tracker →
      ∃ run', run.Follows tenant run' batches ∧
        batchesOf batchSize (w.store.rowsAfter tenant run'.cursor) = rest ∧
        ∀ rounds, publishFrom codec registry tenant batchSize (rounds + batches.length) run w =
          publishFrom codec registry tenant batchSize rounds run'
            (published w batches bus tracker) := by
  induction batches with
  | nil =>
    intro pages run w bus tracker _ _ hpages hread haccepts
    cases hread
    cases haccepts
    exact ⟨run, .refl tenant run, hpages, fun rounds => rfl⟩
  | cons batch batches ih =>
    intro pages run w bus tracker hdense havailable hpages hread haccepts
    obtain - | @⟨page, _, pages, _, hpage, hread⟩ := hread
    obtain - | ⟨hfirst, haccepts⟩ := haccepts
    have hne : w.store.rowsAfter tenant run.cursor ≠ [] := by
      intro hnil
      rw [hnil, batchesOf_nil hsize] at hpages
      cases hpages
    obtain ⟨stop, hstop⟩ := MemoryStore.exists_page hsize hne
    rw [batchesOf_of_ne_nil hsize hne, ← hstop.rowsAfter_eq_drop hdense, List.cons_append,
      List.cons.injEq] at hpages
    obtain ⟨rfl, hpages⟩ := hpages
    have hround := Publishes.page havailable hstop hpage hfirst
    obtain ⟨run', hfollows, hrest, hrounds⟩ := ih (run.note tenant batch.length stop)
      ({ w with bus := _, tracker := _ }.countBatch batch.length) hdense havailable hpages hread
      haccepts
    refine ⟨run', .cons ?_ hfollows, hrest, fun rounds => ?_⟩
    · rw [hstop.toNat_stop hdense, Page.length_eq hpage]
    · rw [List.length_cons, ← Nat.add_assoc, publishFrom_of_publishes hsize hround, hrounds]
      rw [published_cons]

/-! ## From the resets on -/

/-- The resets with which a rebuild begins succeed: from the beginning of the log those at the
places `resets`, and from elsewhere there are none. -/
inductive Prepares (resets : List Nat) (start : GlobalPosition) (bus : Bus κ π) : Bus κ π → Prop
  | beginning {projections : List π} (hstart : start = .start)
      (h : Bus.reset (κ := κ) resets bus.projections = (.ok (), projections)) :
      Prepares resets start bus { bus with projections := projections }
  | elsewhere (hstart : start ≠ .start) : Prepares resets start bus bus

/-- The rounds that a rebuild is given that begins at a position. -/
def roundsFrom (start : GlobalPosition) : Nat := 0x10000000000000000 - start.toNat

section

variable {codec : Codec} {registry : Registry κ} {resets : List Nat} {tenant : TenantId}
  {start : GlobalPosition} {batchSize : Nat} {w w' : World MemoryStore κ π}

theorem run_of_publishFrom {bus : Bus κ π} {outcome : Except RebuildError RebuildSummary}
    {last : Run} (hstarted : w.started = true) (hsize : 0 < batchSize)
    (hprepares : Prepares resets start w.bus bus)
    (h : publishFrom codec registry tenant batchSize (roundsFrom start) (.first start)
      { w with bus := bus } = .ok (outcome, last, w')) :
    run codec registry resets tenant start batchSize w = .ok (outcome, last.news, w') := by
  unfold run
  rw [if_neg (by simp [hstarted]), if_neg (by omega)]
  cases hprepares with
  | beginning hstart hreset =>
    rw [if_pos hstart, hreset]
    exact bind_eq_ok.mpr ⟨_, h, rfl⟩
  | elsewhere hstart =>
    rw [if_neg hstart]
    exact bind_eq_ok.mpr ⟨_, h, rfl⟩

/-- A rebuild that ends with anything but an error about how it was asked for, or about a reset,
came to its rounds. -/
theorem run_eq_ok {outcome : Except RebuildError RebuildSummary} {news : List RebuildProgress}
    (h : run codec registry resets tenant start batchSize w = .ok (outcome, news, w')) :
    outcome = .error .notStarted ∨ outcome = .error .invalidBatchSize ∨
      (∃ name error, outcome = .error (.reset name error)) ∨
      ∃ bus last, w.started = true ∧ 0 < batchSize ∧ Prepares resets start w.bus bus ∧
        publishFrom codec registry tenant batchSize (roundsFrom start) (.first start)
          { w with bus := bus } = .ok (outcome, last, w') ∧ news = last.news := by
  unfold run at h
  split at h
  · exact Or.inl (congrArg Prod.fst (Except.ok.inj h)).symm
  next hstarted =>
  split at h
  · exact Or.inr (Or.inl (congrArg Prod.fst (Except.ok.inj h)).symm)
  next hsize =>
  refine Or.inr (Or.inr ?_)
  have hstarted : w.started = true := by simpa using hstarted
  have hsize : 0 < batchSize := by omega
  by_cases hstart : start = .start
  · rw [if_pos hstart] at h
    cases hreset : Bus.reset (κ := κ) resets w.bus.projections with
    | mk reset projections =>
      rw [hreset] at h
      cases reset with
      | error error => exact Or.inl ⟨_, _, (congrArg Prod.fst (Except.ok.inj h)).symm⟩
      | ok =>
        obtain ⟨⟨_, last, _⟩, hrounds, h⟩ := bind_eq_ok.mp h
        obtain ⟨rfl, rfl, rfl⟩ := Except.ok.inj h
        exact Or.inr ⟨_, last, hstarted, hsize, .beginning hstart hreset, hrounds, rfl⟩
  · rw [if_neg hstart] at h
    obtain ⟨⟨_, last, _⟩, hrounds, h⟩ := bind_eq_ok.mp h
    obtain ⟨rfl, rfl, rfl⟩ := Except.ok.inj h
    exact Or.inr ⟨_, last, hstarted, hsize, .elsewhere hstart, hrounds, rfl⟩

theorem Prepares.published_eq {bus bus' : Bus κ π} (h : Prepares resets start bus bus') :
    bus'.published = bus.published ∧ bus'.batches = bus.batches ∧
      bus'.registered = bus.registered := by
  cases h <;> exact ⟨rfl, rfl, rfl⟩

end

/-! ## Rounds with others in between -/

/-- The rounds of a rebuild, between which others use the store: which batches they publish, and
how they end. -/
inductive Rounds (codec : Codec) (registry : Registry κ) (tenant : TenantId) (batchSize : Nat) :
    Run → World MemoryStore κ π → List (List (AnyEnvelope κ)) →
      Except RebuildError RebuildSummary → Run → World MemoryStore κ π → Prop
  | ends {run : Run} {w w' : World MemoryStore κ π}
      {outcome : Except RebuildError RebuildSummary}
      (h : Ends codec registry tenant batchSize run w outcome w') :
      Rounds codec registry tenant batchSize run w [] outcome run w'
  | publishes {run run₁ run' : Run} {w w₁ w' : World MemoryStore κ π}
      {batch : List (AnyEnvelope κ)} {batches : List (List (AnyEnvelope κ))}
      {outcome : Except RebuildError RebuildSummary}
      (h : Publishes codec registry tenant batchSize run w batch run₁ w₁)
      (calls : List StoreCall)
      (hrest : Rounds codec registry tenant batchSize run₁
        { w₁ with store := w₁.store.afterCalls calls } batches outcome run' w') :
      Rounds codec registry tenant batchSize run w (batch :: batches) outcome run' w'

section

variable {codec : Codec} {registry : Registry κ} {tenant : TenantId} {batchSize : Nat}
  {run run' : Run} {w w' : World MemoryStore κ π} {batches : List (List (AnyEnvelope κ))}
  {outcome : Except RebuildError RebuildSummary}

theorem Ends.same (h : Ends codec registry tenant batchSize run w outcome w') :
    w' = { w with bus := w'.bus, tracker := w'.tracker, counters := w'.counters } := by
  cases h <;> rfl

theorem Publishes.same {batch : List (AnyEnvelope κ)}
    (h : Publishes codec registry tenant batchSize run w batch run' w') :
    w' = { w with bus := w'.bus, tracker := w'.tracker, counters := w'.counters } := by
  cases h
  rfl

theorem Ends.store_eq (h : Ends codec registry tenant batchSize run w outcome w') :
    w'.store = w.store := by
  cases h <;> rfl

theorem Ends.bus_eq (h : Ends codec registry tenant batchSize run w outcome w')
    (hbus : ∀ error, outcome ≠ .error (.publish error)) :
    w'.bus = w.bus ∧ w'.tracker = w.tracker := by
  cases h with
  | refused => exact absurd rfl (hbus _)
  | _ => exact ⟨rfl, rfl⟩

theorem Rounds.store (hdense : w.store.Dense)
    (h : Rounds codec registry tenant batchSize run w batches outcome run' w') :
    w'.store.Dense ∧ w.store.Grows w'.store := by
  induction h with
  | ends h => rw [h.store_eq]; exact ⟨hdense, .refl _⟩
  | publishes h calls _ ih =>
    cases h with
    | page =>
      obtain ⟨hdense', hgrows⟩ := ih (MemoryStore.afterCalls_dense hdense calls)
      exact ⟨hdense', (MemoryStore.afterCalls_grows _ calls).trans hgrows⟩

theorem Rounds.follows (hdense : w.store.Dense)
    (h : Rounds codec registry tenant batchSize run w batches outcome run' w') :
    run.Follows tenant run' batches := by
  induction h with
  | ends => exact .refl tenant _
  | publishes h calls _ ih =>
    cases h with
    | page _ hpage hread =>
      refine .cons ?_ (ih (MemoryStore.afterCalls_dense hdense calls))
      rw [hpage.toNat_stop hdense, Page.length_eq hread]

/-- What the rounds have published is what they read, and it is followed by what they left. That
stays so while the store grows. -/
theorem Rounds.reads (hdense : w.store.Dense)
    (h : Rounds codec registry tenant batchSize run w batches outcome run' w') :
    ∃ rows, rows.mapM (registry.decode · codec) = .ok batches.flatten ∧
      ∀ s : MemoryStore, s.Dense → w'.store.Grows s →
        s.rowsAfter tenant run.cursor = rows ++ s.rowsAfter tenant run'.cursor := by
  induction h with
  | ends => exact ⟨[], rfl, fun s _ _ => rfl⟩
  | publishes h calls hrest ih =>
    cases h with
    | page _ hpage hread =>
      have hdense' := MemoryStore.afterCalls_dense hdense calls
      obtain ⟨rows, hrows, hleft⟩ := ih hdense'
      refine ⟨_, mapM_append_eq_ok hread hrows, fun s hs hgrows => ?_⟩
      have hbefore := (MemoryStore.afterCalls_grows _ calls).trans
        ((hrest.store hdense').2.trans hgrows)
      rw [hpage.rowsAfter_eq hdense hs hbefore, List.append_assoc]
      exact congrArg _ (hleft s hs hgrows)

/-- A round that publishes a batch leaves fewer rows. -/
theorem Publishes.left {batch : List (AnyEnvelope κ)} (hdense : w.store.Dense)
    (h : Publishes codec registry tenant batchSize run w batch run' w') :
    w'.store.Dense ∧ (w'.store.rowsAfter tenant run'.cursor).length <
      (w.store.rowsAfter tenant run.cursor).length := by
  cases h with
  | @page page stop _ _ _ _ hpage =>
    refine ⟨hdense, ?_⟩
    have hrows := congrArg List.length (hpage.rowsAfter_eq hdense hdense (.refl _))
    have hpos := List.length_pos_iff.mpr hpage.ne_nil
    rw [List.length_append] at hrows
    show (w.store.rowsAfter tenant stop).length < (w.store.rowsAfter tenant run.cursor).length
    omega

/-- Rounds that do not end in a publication leave a bus that has accepted their batches, and
nothing else. -/
theorem Rounds.accepts (hbus : ∀ error, outcome ≠ .error (.publish error))
    (h : Rounds codec registry tenant batchSize run w batches outcome run' w') :
    w.bus.Accepts w.tracker batches w'.bus w'.tracker := by
  induction h with
  | ends h =>
    obtain ⟨hsame, htracker⟩ := h.bus_eq hbus
    rw [hsame, htracker]
    exact .nil _ _
  | publishes h calls _ ih =>
    cases h with
    | page _ _ _ hpublish => exact .cons hpublish (ih hbus)

theorem Rounds.published (hbus : ∀ error, outcome ≠ .error (.publish error))
    (h : Rounds codec registry tenant batchSize run w batches outcome run' w') :
    w'.bus.published = w.bus.published ++ batches.flatten := (h.accepts hbus).adds.published

/-- Rounds that come through leave no row. -/
theorem Rounds.rowsAfter_eq_nil {summary : RebuildSummary} (houtcome : outcome = .ok summary)
    (h : Rounds codec registry tenant batchSize run w batches outcome run' w') :
    w'.store.rowsAfter tenant run'.cursor = [] := by
  induction h with
  | ends h =>
    subst houtcome
    cases h with
    | exhausted _ hnil => exact hnil
  | publishes _ _ _ ih => exact ih houtcome

/-- A rebuild that ends while nobody else uses the store is one in which others might have. -/
theorem rounds_of_publishFrom (hsize : 0 < batchSize) {rounds : Nat} :
    ∀ {run : Run} {w : World MemoryStore κ π},
      publishFrom codec registry tenant batchSize rounds run w = .ok (outcome, run', w') →
      w' = { w with bus := w'.bus, tracker := w'.tracker, counters := w'.counters } ∧
        ∃ batches, Rounds codec registry tenant batchSize run w batches outcome run' w' := by
  induction rounds with
  | zero =>
    intro run w h
    cases h
  | succ rounds ih =>
    intro run w h
    obtain ⟨hends, rfl⟩ | ⟨batch, run₁, w₁, hpublishes, h⟩ := publishFrom_succ_eq_ok hsize h
    · exact ⟨hends.same, [], .ends hends⟩
    · obtain ⟨hlast, batches, hrest⟩ := ih h
      refine ⟨?_, batch :: batches, .publishes hpublishes [] hrest⟩
      rw [hlast, hpublishes.same]

/-- Each round that publishes leaves fewer rows, so in more rounds than there are rows a rebuild
ends, unless a publication stops with a fault. -/
theorem publishFrom_ends (codec : Codec) (registry : Registry κ) (tenant : TenantId)
    {batchSize : Nat} (hsize : 0 < batchSize) {rounds : Nat} :
    ∀ (run : Run) (w : World MemoryStore κ π), w.store.Dense →
      (w.store.rowsAfter tenant run.cursor).length < rounds →
      (∃ answer, publishFrom codec registry tenant batchSize rounds run w = .ok answer) ∨
        ∃ fault, publishFrom codec registry tenant batchSize rounds run w = .error fault ∧
          ∃ (bus : Bus κ π) (tracker : CompletionTracker) (batch : List (AnyEnvelope κ)),
            bus.publish tracker batch = .error fault := by
  induction rounds with
  | zero => exact fun run w _ hlt => absurd hlt (Nat.not_lt_zero _)
  | succ rounds ih =>
    intro run w hdense hlt
    rcases round_cases codec registry tenant hsize run w with
      ⟨_, _, hends⟩ | ⟨batch, run₁, w₁, hpublishes⟩ | ⟨fault, batch, hpublish, hstops⟩
    · exact Or.inl ⟨_, publishFrom_of_ends hsize hends rounds⟩
    · obtain ⟨hdense', hless⟩ := hpublishes.left hdense
      rw [publishFrom_of_publishes hsize hpublishes]
      exact ih run₁ w₁ hdense' (by omega)
    · exact Or.inr ⟨fault, hstops rounds, w.bus, w.tracker, batch, hpublish⟩

end

end Rebuild

end Chronicle

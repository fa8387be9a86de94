import Chronicle.Proofs.Rebuild.Complete

/-!
# A rebuild that is stopped, and resumed

A batch is read as a whole before any of it is published. So a row that cannot be read keeps back
its own batch, and the rebuild stops behind the last batch that lies before it
(`run_of_bad_row`).

A rebuild that a row or the store has stopped stands where its last news say. What it published is
what lies between its start and that position, however the store was used in the meantime, so a
second rebuild from there publishes what is missing and nothing else (`Stopped.resume`).
-/

namespace Chronicle

/-- Whether a rebuild stopped because an event, or the store, could not be read. -/
def RebuildError.isOfReading : RebuildError → Bool
  | .store _ | .translation _ => true
  | _ => false

namespace Rebuild

section

variable {κ π : Type} [Projection κ π] {codec : Codec} {registry : Registry κ} {tenant : TenantId}
  {batchSize : Nat} {resets : List Nat} {start : GlobalPosition}

/-! ## A row that cannot be read -/

/-- The first row that cannot be read stops a rebuild behind the full batches before it. -/
theorem run_of_bad_row (hsize : 0 < batchSize) {w : World MemoryStore κ π}
    (hstarted : w.started = true) (hdense : w.store.Dense) (havailable : w.store.available = true)
    {good rest : List RecordedEvent} {bad : RecordedEvent} {envelopes : List (AnyEnvelope κ)}
    {error : RegistryError} {bus₀ bus : Bus κ π} {tracker : CompletionTracker}
    (hrows : w.store.rowsAfter tenant start = good ++ bad :: rest)
    (hgood : good.mapM (registry.decode · codec) = .ok envelopes)
    (hbad : registry.decode bad codec = .error error)
    (hprepares : Prepares resets start w.bus bus₀)
    (haccepts : bus₀.Accepts w.tracker
      ((batchesOf batchSize envelopes).take (good.length / batchSize)) bus tracker) :
    ∃ last, (Run.first start).Follows tenant last
        ((batchesOf batchSize envelopes).take (good.length / batchSize)) ∧
      run codec registry resets tenant start batchSize w =
        .ok (.error (.translation error), last.news,
          published w ((batchesOf batchSize envelopes).take (good.length / batchSize)) bus
            tracker) := by
  have hlength : good.length = envelopes.length := (forall₂_of_mapM hgood).length_eq
  have hdiv := Nat.div_add_mod good.length batchSize
  have hmod := Nat.mod_lt good.length hsize
  have hpages : batchesOf batchSize (w.store.rowsAfter tenant start) =
      (batchesOf batchSize good).take (good.length / batchSize) ++
        (batchesOf batchSize (good ++ bad :: rest)).drop (good.length / batchSize) := by
    rw [hrows, ← take_batchesOf_append hsize good (bad :: rest), List.take_append_drop]
  obtain ⟨last, hfollows, -, hrounds⟩ := publishFrom_pages hsize (.first start)
    { w with bus := bus₀ } hdense havailable hpages
    (List.forall₂_take _ (forall₂_batchesOf hsize hgood)) haccepts
  -- fewer rows than a batch are left before the bad one, so that it lies within the next page
  have hleft : w.store.rowsAfter tenant last.cursor =
      good.drop (batchSize * (good.length / batchSize)) ++ bad :: rest := by
    rw [hfollows.rowsAfter_eq hdense, flatten_take_batchesOf hsize, List.length_take, ← hlength,
      Nat.min_eq_left (by omega)]
    show (w.store.rowsAfter tenant start).drop _ = _
    rw [hrows, List.drop_append_of_le_length (by omega)]
  obtain ⟨stop, hpage⟩ := MemoryStore.exists_page hsize
    (show w.store.rowsAfter tenant last.cursor ≠ [] by rw [hleft]; simp)
  have hread : ((w.store.rowsAfter tenant last.cursor).take batchSize).mapM
      (registry.decode · codec) = .error error := by
    have hdropped := List.forall₂_drop (batchSize * (good.length / batchSize))
      (forall₂_of_mapM hgood)
    rw [hleft]
    exact mapM_take_of_error (mapM_of_forall₂ hdropped) hbad (by rw [List.length_drop]; omega)
  have hends : Ends codec registry tenant batchSize last (published { w with bus := bus₀ }
      ((batchesOf batchSize envelopes).take (good.length / batchSize)) bus tracker)
      (.error (.translation error)) _ := .untranslated havailable hpage hread
  refine ⟨last, hfollows, run_of_publishFrom hstarted hsize hprepares ?_⟩
  have hroom := length_rowsAfter_lt hdense tenant start
  have hcount := Nat.div_le_self good.length batchSize
  rw [hrows, List.length_append, List.length_cons] at hroom
  have htake := List.length_take_le (good.length / batchSize) (batchesOf batchSize envelopes)
  obtain ⟨more, hmore⟩ := Nat.exists_eq_add_of_lt
    (show ((batchesOf batchSize envelopes).take (good.length / batchSize)).length < roundsFrom start
      by omega)
  rw [hmore, Nat.add_assoc, Nat.add_comm, hrounds, publishFrom_of_ends hsize hends]
  rfl

/-! ## What was stopped, and the rest -/

/-- A rebuild was stopped by an event or a store that could not be read, when it had published
some batches and told some news. Others may have used the store in the meantime. -/
inductive Stopped (codec : Codec) (registry : Registry κ) (resets : List Nat) (tenant : TenantId)
    (start : GlobalPosition) (batchSize : Nat) (w : World MemoryStore κ π) :
    List (List (AnyEnvelope κ)) → RebuildError → List RebuildProgress → World MemoryStore κ π → Prop
  | intro {bus₀ : Bus κ π} {batches : List (List (AnyEnvelope κ))} {error : RebuildError}
      {last : Run} {w' : World MemoryStore κ π} (hstarted : w.started = true)
      (hsize : 0 < batchSize) (hreading : error.isOfReading = true)
      (hprepares : Prepares resets start w.bus bus₀)
      (hrounds : Rounds codec registry tenant batchSize (.first start) { w with bus := bus₀ }
        batches (.error error) last w') :
      Stopped codec registry resets tenant start batchSize w batches error last.news w'

/-- A rebuild that nobody disturbs, and that an event or the store stops. -/
theorem stopped_of_run {w w' : World MemoryStore κ π} {error : RebuildError}
    {news : List RebuildProgress} (hreading : error.isOfReading = true)
    (h : run codec registry resets tenant start batchSize w = .ok (.error error, news, w')) :
    ∃ batches, Stopped codec registry resets tenant start batchSize w batches error news w' := by
  obtain h | h | ⟨_, _, h⟩ | ⟨bus₀, last, hstarted, hsize, hprepares, hrounds, rfl⟩ := run_eq_ok h
  · cases h; cases hreading
  · cases h; cases hreading
  · cases h; cases hreading
  · obtain ⟨-, batches, hrounds⟩ := rounds_of_publishFrom hsize hrounds
    exact ⟨batches, .intro hstarted hsize hreading hprepares hrounds⟩

variable {w w₁ : World MemoryStore κ π} {batches : List (List (AnyEnvelope κ))}
  {error : RebuildError} {news : List RebuildProgress}

theorem Stopped.published
    (h : Stopped codec registry resets tenant start batchSize w batches error news w₁) :
    w₁.bus.published = w.bus.published ++ batches.flatten := by
  obtain ⟨-, -, hreading, hprepares, hrounds⟩ := h
  rw [← hprepares.published_eq.1]
  refine hrounds.published fun error heq => ?_
  obtain rfl := Except.error.inj heq
  cases hreading

/-- What a rebuild published before it was stopped is what lies between its start and its last
news, and stays so while the store grows. -/
theorem Stopped.reads (hdense : w.store.Dense)
    (h : Stopped codec registry resets tenant start batchSize w batches error news w₁) :
    w₁.store.Dense ∧ ∃ rows, rows.mapM (registry.decode · codec) = .ok batches.flatten ∧
      ∀ s : MemoryStore, s.Dense → w₁.store.Grows s → s.rowsAfter tenant start =
        rows ++ s.rowsAfter tenant ((news.getLast?.map RebuildProgress.stop).getD start) := by
  obtain ⟨-, -, -, -, hrounds⟩ := h
  have hcoherent := (hrounds.follows (by exact hdense)).coherent start
    (Run.coherent_first tenant start)
  obtain ⟨rows, hrows, hleft⟩ := hrounds.reads (by exact hdense)
  refine ⟨(hrounds.store (by exact hdense)).1, rows, hrows, fun s hs hgrows => ?_⟩
  rw [← hcoherent.cursor_eq]
  exact hleft s hs hgrows

variable (codec resets tenant start batchSize) in
/-- **A rebuild stops at a bad row, and can be resumed.** Take any store that calls lead to.

- Let the rows behind the start be some that can be read, then one that cannot, and any others. If
  the engine is started, the store can be reached and the resets succeed, the rebuild fails with
  the error of that row: its tag if that is not bound, and its stream and position if its own type
  cannot read it. It has published the full batches before the row, if the bus accepts these, and
  nothing else.
- A rebuild that an event or the store has stopped, however others used the store in the
  meantime, is resumed by a rebuild from the end of its last news, or from its start if there are
  none: in whatever store calls lead to since, with any registry that now reads every row left,
  any batches and any bus that accepts them, both together publish every row behind the start,
  each once and in order of position.
- A rebuild that fails with such an error while nobody else uses the store is one of these. -/
theorem rebuild_stops_and_resumes (hregistry : registry.Typed) (calls : List StoreCall)
    (hstore : w.store = MemoryStore.empty.afterCalls calls) :
    (∀ good bad rest envelopes reason bus₀ bus tracker, w.started = true →
      w.store.available = true → 0 < batchSize →
      w.store.rowsAfter tenant start = good ++ bad :: rest →
      good.mapM (registry.decode · codec) = .ok envelopes →
      registry.decode bad codec = .error reason → Prepares resets start w.bus bus₀ →
      bus₀.Accepts w.tracker ((batchesOf batchSize envelopes).take (good.length / batchSize)) bus
        tracker →
      ∃ news w', run codec registry resets tenant start batchSize w =
          .ok (.error (.translation reason), news, w') ∧
        ((registry.byTag? bad.event.metadata.aggregateType = none ∧
            reason = .missing bad.event.metadata.aggregateType.toText) ∨
          ∃ binding cause, registry.byTag? bad.event.metadata.aggregateType = some binding ∧
            binding.decode bad codec = .error cause ∧
              reason = .malformed bad.stream bad.position cause) ∧
        w'.bus.published =
          w.bus.published ++ envelopes.take (batchSize * (good.length / batchSize)) ∧
        w'.bus.batches = w.bus.batches + good.length / batchSize ∧
        news.map RebuildProgress.batchSize =
          List.replicate (good.length / batchSize) batchSize) ∧
    (∀ batches error news, ∀ w₁ w₂ : World MemoryStore κ π, ∀ since registry₂ resets₂ batchSize₂
        envelopes bus₀ bus tracker,
      Stopped codec registry resets tenant start batchSize w batches error news w₁ →
      w₂.store = w₁.store.afterCalls since → w₂.started = true → w₂.store.available = true →
      registry₂.Typed → 0 < batchSize₂ →
      let resume := (news.getLast?.map RebuildProgress.stop).getD start
      (w₂.store.rowsAfter tenant resume).mapM (registry₂.decode · codec) = .ok envelopes →
      Prepares resets₂ resume w₂.bus bus₀ →
      bus₀.Accepts w₂.tracker (batchesOf batchSize₂ envelopes) bus tracker →
      ∃ summary news₂ w₃,
        run codec registry₂ resets₂ tenant resume batchSize₂ w₂ = .ok (.ok summary, news₂, w₃) ∧
        w₁.bus.published = w.bus.published ++ batches.flatten ∧
        w₃.bus.published = w₂.bus.published ++ envelopes ∧
        List.Forall₂ AnyEnvelope.Shows (w₂.store.rowsAfter tenant start)
          (batches.flatten ++ envelopes) ∧
        (batches.flatten ++ envelopes).map (fun e => e.position.map GlobalPosition.toNat) =
          (List.range' (start.toNat + 1) (w₂.store.rowsAfter tenant start).length).map some) ∧
    ∀ error news, ∀ w₁ : World MemoryStore κ π, error.isOfReading = true →
      run codec registry resets tenant start batchSize w = .ok (.error error, news, w₁) →
      ∃ batches, Stopped codec registry resets tenant start batchSize w batches error news w₁ := by
  have hdense : w.store.Dense :=
    hstore ▸ MemoryStore.afterCalls_dense MemoryStore.dense_empty calls
  refine ⟨?_, ?_, fun error news w₁ hreading h => stopped_of_run hreading h⟩
  · intro good bad rest envelopes reason bus₀ bus tracker hstarted havailable hsize hrows hgood hbad
      hprepares haccepts
    obtain ⟨last, hfollows, hrun⟩ :=
      run_of_bad_row hsize hstarted hdense havailable hrows hgood hbad hprepares haccepts
    have hadds := haccepts.adds
    have hlength : good.length = envelopes.length := (forall₂_of_mapM hgood).length_eq
    have hsizes := map_length_take_batchesOf hsize envelopes
    rw [← hlength] at hsizes
    have hcount := congrArg List.length hsizes
    rw [List.length_map, List.length_replicate] at hcount
    refine ⟨last.news, _, hrun, Registry.decode_eq_error hbad, ?_, ?_, ?_⟩
    · show bus.published = _
      rw [hadds.published, hprepares.published_eq.1, flatten_take_batchesOf hsize]
    · show bus.batches = _
      rw [hadds.batches, hprepares.published_eq.2.1, hcount]
    · rw [hfollows.sizes, hsizes]
      rfl
  · intro batches error news w₁ w₂ since registry₂ resets₂ batchSize₂ envelopes bus₀ bus tracker
      hstopped hsince hstarted havailable hregistry₂ hsize₂ resume hread hprepares haccepts
    obtain ⟨hdense₁, rows, hrows, hleft⟩ := hstopped.reads hdense
    have hdense₂ : w₂.store.Dense := hsince ▸ MemoryStore.afterCalls_dense hdense₁ since
    have hgrows : w₁.store.Grows w₂.store := hsince ▸ MemoryStore.afterCalls_grows _ since
    obtain ⟨last, -, -, hrun⟩ :=
      run_all hsize₂ hstarted hdense₂ havailable hread hprepares haccepts
    have hshows : List.Forall₂ AnyEnvelope.Shows (w₂.store.rowsAfter tenant start)
        (batches.flatten ++ envelopes) := by
      rw [hleft _ hdense₂ hgrows]
      exact List.rel_append (hregistry.forall₂_shows hrows) (hregistry₂.forall₂_shows hread)
    refine ⟨last.summary, last.news, _, hrun, hstopped.published, ?_, hshows, ?_⟩
    · show bus.published = _
      rw [haccepts.adds.published, hprepares.published_eq.1, flatten_batchesOf hsize₂]
    · rw [← hdense₂.positions_rowsAfter tenant start, List.map_map]
      refine map_eq_of_forall₂ hshows fun h => ?_
      rw [h.position]
      rfl

end

section

open Sample

/-- The calls that store three numbers and that an account was closed. -/
def mixed : List StoreCall := threeNumbers ++ [closing]

/-- The registry of sequences alone. -/
def sequencesOnly : Registry Carrier := Registry.empty.bound sequenceType

theorem typed_sequencesOnly : sequencesOnly.Typed := Registry.typed_empty.bound sequenceType

/-- The world in which a rebuild of sequences alone, in batches of two, is stopped by the account
behind the first batch. -/
def stoppedByAccount : World MemoryStore Carrier (Recorder Carrier ⊕ Inert) :=
  published (stocked mixed []) [(stockedEnvelopes mixed).take 2]
    { (stocked mixed []).bus with published := (stockedEnvelopes mixed).take 2, batches := 1 }
    .empty

/-- The world in which one more number is added then. -/
def resumedLater : World MemoryStore Carrier (Recorder Carrier ⊕ Inert) :=
  { stoppedByAccount with store := stoppedByAccount.store.afterCalls [stocking ⟨3⟩ [6]] }

set_option maxRecDepth 10000 in
/-- A rebuild of sequences alone is stopped by an account behind one full batch. When another
number has been added, a rebuild of both types publishes the rest. -/
theorem mixed_rebuild_stops_and_resumes :
    (∃ news w₁, run .binary sequencesOnly [] .default .start 2 (stocked mixed []) =
        .ok (.error (.translation (.missing "#2")), news, w₁) ∧
      w₁.bus.published = (stockedEnvelopes mixed).take 2) ∧
    ∃ summary news w₃, run .binary registry [] .default ⟨2⟩ 5 resumedLater =
        .ok (.ok summary, news, w₃) ∧
      w₃.bus.published.length = 5 := by
  obtain ⟨hstops, hresumes, hstopped⟩ := rebuild_stops_and_resumes (w := stocked mixed []) .binary
    .default 2 [] .start typed_sequencesOnly mixed rfl
  constructor
  · have hrows : (stocked mixed []).store.rowsAfter .default .start =
        ((stocked mixed []).store.log .default).take 3 ++ _ :: [] := rfl
    obtain ⟨bus, tracker, haccepts⟩ := accepted (stocked mixed []).bus rfl (by decide)
      [(stockedEnvelopes mixed).take 2]
    obtain ⟨news, w₁, hrun, -, hpublished, -⟩ := hstops _ _ [] ((stockedEnvelopes mixed).take 3)
      (.missing "#2") _ bus tracker rfl rfl (by decide) hrows rfl rfl (.beginning rfl rfl) haccepts
    exact ⟨news, w₁, hrun, hpublished⟩
  · obtain ⟨batches, hstopped⟩ := hstopped (.translation (.missing "#2"))
      [⟨.default, 1, 2, 2, ⟨0⟩, ⟨2⟩⟩] stoppedByAccount rfl rfl
    have hread : (resumedLater.store.rowsAfter .default ⟨2⟩).mapM (registry.decode · .binary) =
      .ok ((stockedEnvelopes (mixed ++ [stocking ⟨3⟩ [6]])).drop 2) := rfl
    obtain ⟨bus, tracker, haccepts⟩ := accepted resumedLater.bus rfl (by decide)
      (batchesOf 5 ((stockedEnvelopes (mixed ++ [stocking ⟨3⟩ [6]])).drop 2))
    obtain ⟨summary, news, w₃, hrun, -, hpublished, -⟩ := hresumes batches _ _ _ resumedLater
      [stocking ⟨3⟩ [6]] registry [] 5 _ _ bus tracker hstopped rfl rfl rfl typed_registry
      (by decide) hread (.elsewhere (by decide)) haccepts
    exact ⟨summary, news, w₃, hrun, by rw [hpublished]; rfl⟩

set_option maxRecDepth 10000 in
/-- Nor does a row that cannot be read decide the error by itself: a listed projection that cannot
be reset, and a store that cannot be reached, come first. -/
theorem mixed_rebuild_fails_otherwise :
    let w := stocked mixed [.inr ⟨"stubborn", some (.storage "disk full")⟩]
    let w' := stocked (mixed ++ [.setAvailable false]) []
    (w.started = true ∧ w.store.available = true ∧
      ((w.store.rowsAfter .default .start).map (sequencesOnly.decode · .binary)).getLast? =
        some (.error (.missing "#2")) ∧
      (∀ batches, ∃ bus tracker, w.bus.Accepts w.tracker batches bus tracker) ∧
      run .binary sequencesOnly [0] .default .start 2 w =
        .ok (.error (.reset "stubborn" (.storage "disk full")), [], w)) ∧
    w'.started = true ∧
      ((w'.store.rowsAfter .default .start).map (sequencesOnly.decode · .binary)).getLast? =
        some (.error (.missing "#2")) ∧
      (∀ batches, ∃ bus tracker, w'.bus.Accepts w'.tracker batches bus tracker) ∧
      run .binary sequencesOnly [] .default .start 2 w' =
        .ok (.error (.store .unavailable), [], w') :=
  ⟨⟨rfl, rfl, rfl, accepted _ rfl (by decide), rfl⟩, rfl, rfl, accepted _ rfl (by decide), rfl⟩

end

end Rebuild

end Chronicle

import Chronicle.Proofs.Engine.Histories
import Chronicle.Proofs.Rebuild.Rounds
import Chronicle.Proofs.Sample.Sequence
import Chronicle.Proofs.Store.Calls

/-!
# A rebuild that comes through

Where every row behind its start can be read and the bus accepts every batch, a rebuild publishes
all these rows in their order and ends. It ends by itself, in the round behind its last batch: in no
more rounds than there are batches it does not end. Rounds are enough for any store, since positions
are 64 bits wide and each batch leaves fewer rows; so a rebuild always ends, unless a projection
stops it with a fault (`run_ends`).

`publishFrom_all` says this of the rounds, for any projections, and `run_eq_ok_ok` that there is no
other way to come through; `rebuild_is_complete` is the whole, with the news and with a recorder
that is reset at the beginning.
-/

namespace Chronicle

namespace Rebuild

section

variable {κ π : Type} [Projection κ π] {codec : Codec} {registry : Registry κ} {tenant : TenantId}
  {batchSize : Nat}

/-! ## All rounds -/

/-- The batches are counted up to the last one, which may be smaller. -/
theorem count_le (hsize : 0 < batchSize) (rows : Nat) :
    (rows + batchSize - 1) / batchSize ≤ rows := by
  rcases Nat.eq_zero_or_pos rows with rfl | hpos
  · exact Nat.le_of_eq (Nat.div_eq_of_lt (by omega))
  · obtain ⟨size, rfl⟩ := Nat.exists_eq_succ_of_ne_zero (Nat.ne_of_gt hsize)
    have hmul := Nat.le_mul_of_pos_right size hpos
    refine Nat.div_le_of_le_mul ?_
    rw [Nat.succ_mul]
    omega

/-- A rebuild is given more rounds than it can find rows. -/
theorem length_rowsAfter_lt {s : MemoryStore} (hdense : s.Dense) (tenant : TenantId)
    (start : GlobalPosition) : (s.rowsAfter tenant start).length < roundsFrom start := by
  have hlog := hdense.length_log_lt tenant
  have hstart : start.toNat < 0x10000000000000000 := UInt64.toNat_lt _
  rw [MemoryStore.rowsAfter_eq_drop hdense, List.length_drop]
  unfold roundsFrom
  omega

theorem publishFrom_all (hsize : 0 < batchSize) (run : Run) (w : World MemoryStore κ π)
    {envelopes : List (AnyEnvelope κ)} {bus : Bus κ π} {tracker : CompletionTracker}
    (hdense : w.store.Dense) (havailable : w.store.available = true)
    (hread : (w.store.rowsAfter tenant run.cursor).mapM (registry.decode · codec) = .ok envelopes)
    (haccepts : w.bus.Accepts w.tracker (batchesOf batchSize envelopes) bus tracker) :
    ∃ last, run.Follows tenant last (batchesOf batchSize envelopes) ∧
      ∀ rounds, publishFrom codec registry tenant batchSize rounds run w =
        if (envelopes.length + batchSize - 1) / batchSize < rounds then
          .ok (.ok last.summary, last, published w (batchesOf batchSize envelopes) bus tracker)
        else .error .endlessLoop := by
  obtain ⟨last, hfollows, hleft, hrounds⟩ := publishFrom_pages hsize run w hdense havailable
    (List.append_nil _).symm (forall₂_batchesOf hsize hread) haccepts
  have hnil : w.store.rowsAfter tenant last.cursor = [] := by
    rw [← flatten_batchesOf hsize (w.store.rowsAfter tenant last.cursor), hleft, List.flatten_nil]
  refine ⟨last, hfollows, fun rounds => ?_⟩
  rw [← length_batchesOf]
  split
  · next hroom =>
    obtain ⟨more, rfl⟩ := Nat.exists_eq_add_of_lt hroom
    have hends : Ends codec registry tenant batchSize last
        (published w (batchesOf batchSize envelopes) bus tracker) (.ok last.summary) _ :=
      .exhausted havailable hnil
    rw [Nat.add_assoc, Nat.add_comm, hrounds, publishFrom_of_ends hsize hends]
  · next hroom =>
    have hendless := hrounds 0
    rw [Nat.zero_add] at hendless
    exact publishFrom_endless_of_le hsize (Nat.not_lt.mp hroom) hendless

/-- The whole of a rebuild that begins at a position of a dense store. -/
theorem run_all (hsize : 0 < batchSize) {resets : List Nat} {start : GlobalPosition}
    {w : World MemoryStore κ π} {envelopes : List (AnyEnvelope κ)} {bus₀ bus : Bus κ π}
    {tracker : CompletionTracker} (hstarted : w.started = true) (hdense : w.store.Dense)
    (havailable : w.store.available = true)
    (hread : (w.store.rowsAfter tenant start).mapM (registry.decode · codec) = .ok envelopes)
    (hprepares : Prepares resets start w.bus bus₀)
    (haccepts : bus₀.Accepts w.tracker (batchesOf batchSize envelopes) bus tracker) :
    ∃ last, (Run.first start).Follows tenant last (batchesOf batchSize envelopes) ∧
      (∀ rounds, publishFrom codec registry tenant batchSize rounds (.first start)
          { w with bus := bus₀ } =
        if (envelopes.length + batchSize - 1) / batchSize < rounds then
          .ok (.ok last.summary, last, published w (batchesOf batchSize envelopes) bus tracker)
        else .error .endlessLoop) ∧
      run codec registry resets tenant start batchSize w =
        .ok (.ok last.summary, last.news,
          published w (batchesOf batchSize envelopes) bus tracker) := by
  obtain ⟨last, hfollows, hrounds⟩ :=
    publishFrom_all hsize (.first start) { w with bus := bus₀ } hdense havailable hread haccepts
  refine ⟨last, hfollows, hrounds, run_of_publishFrom hstarted hsize hprepares
    ((hrounds _).trans (if_pos ?_))⟩
  have hlength := (forall₂_of_mapM hread).length_eq
  have hlt := length_rowsAfter_lt hdense tenant start
  have hcount := count_le hsize envelopes.length
  omega

/-- A rebuild that comes through has read all rows behind its start and published what they are
read as, and has changed nothing else. -/
theorem run_eq_ok_ok {resets : List Nat} {start : GlobalPosition} {w w' : World MemoryStore κ π}
    {summary : RebuildSummary} {news : List RebuildProgress} (hdense : w.store.Dense)
    (h : run codec registry resets tenant start batchSize w = .ok (.ok summary, news, w')) :
    w' = { w with bus := w'.bus, tracker := w'.tracker, counters := w'.counters } ∧
      ∃ bus₀ batches, Prepares resets start w.bus bus₀ ∧
        bus₀.Accepts w.tracker batches w'.bus w'.tracker ∧
        (w.store.rowsAfter tenant start).mapM (registry.decode · codec) = .ok batches.flatten := by
  obtain h | h | ⟨_, _, h⟩ | ⟨bus₀, last, -, hsize, hprepares, hrounds, -⟩ := run_eq_ok h
  · cases h
  · cases h
  · cases h
  obtain ⟨hsame, batches, hrounds⟩ := rounds_of_publishFrom hsize hrounds
  have hstore : w'.store = w.store := by
    rw [hsame]
  obtain ⟨rows, hrows, hleft⟩ := hrounds.reads (by exact hdense)
  have hall := hleft w.store hdense (hstore ▸ .refl _)
  rw [← hstore, hrounds.rowsAfter_eq_nil rfl, List.append_nil, hstore] at hall
  refine ⟨hsame, bus₀, batches, hprepares, hrounds.accepts (fun _ h => by cases h), ?_⟩
  rw [← hrows, ← hall]
  rfl

/-- A rebuild ends, whatever it finds, unless a publication stops with a fault. -/
theorem run_ends (codec : Codec) (registry : Registry κ) (resets : List Nat) (tenant : TenantId)
    (start : GlobalPosition) (batchSize : Nat) {w : World MemoryStore κ π}
    (hdense : w.store.Dense) :
    (∃ answer, run codec registry resets tenant start batchSize w = .ok answer) ∨
      ∃ fault, run codec registry resets tenant start batchSize w = .error fault ∧
        ∃ (bus : Bus κ π) (tracker : CompletionTracker) (batch : List (AnyEnvelope κ)),
          bus.publish tracker batch = .error fault := by
  unfold run
  split
  · exact Or.inl ⟨_, rfl⟩
  split
  · exact Or.inl ⟨_, rfl⟩
  next hsize =>
  rcases (if start = .start then Bus.reset (κ := κ) resets w.bus.projections
    else (.ok (), w.bus.projections)) with ⟨failure | _, projections⟩
  · exact Or.inl ⟨_, rfl⟩
  rcases publishFrom_ends codec registry tenant (Nat.pos_of_ne_zero hsize) (.first start)
    { w with bus := { w.bus with projections := projections } } hdense
    (length_rowsAfter_lt hdense tenant start) with ⟨answer, hrounds⟩ | ⟨fault, hrounds, hpublish⟩
  · exact Or.inl ⟨_, bind_eq_ok.mpr ⟨answer, hrounds, rfl⟩⟩
  · exact Or.inr ⟨fault, bind_eq_error.mpr (Or.inl hrounds), hpublish⟩

theorem Run.Follows.cursor_eq {start : GlobalPosition} {last : Run} {s : MemoryStore}
    {batches : List (List (AnyEnvelope κ))} (hdense : s.Dense)
    (h : (Run.first start).Follows tenant last batches)
    (hlength : batches.flatten.length = (s.rowsAfter tenant start).length) :
    last.cursor =
      ((s.rowsAfter tenant start).getLast?.map RecordedEvent.position).getD start := by
  refine GlobalPosition.toNat_inj.mp (h.cursor.trans ?_)
  have hnumbers := congrArg List.getLast? (hdense.positions_rowsAfter tenant start)
  rw [List.getLast?_map, List.getLast?_range'] at hnumbers
  rw [hlength]
  cases hlast : (s.rowsAfter tenant start).getLast? with
  | none =>
    rw [List.getLast?_eq_none_iff.mp hlast]
    rfl
  | some row =>
    have hne : (s.rowsAfter tenant start).length ≠ 0 := fun hzero => by
      rw [List.length_eq_zero_iff.mp hzero] at hlast
      cases hlast
    rw [hlast, if_neg hne] at hnumbers
    have hrow : row.position.toNat = _ := Option.some.inj hnumbers
    show start.toNat + (s.rowsAfter tenant start).length = row.position.toNat
    omega

/-! ## What a rebuild leaves -/

/-- **A rebuild is complete.** Take any store that calls lead to, any tenant, any start and any
size of batches. If the engine is started and the store can be reached, every row behind the start
can be read, the resets succeed, and the bus accepts the envelopes in batches of that size, then

- the rebuild ends with the number of batches and of rows and with the position of the last row,
  or where it began if there is none; and it ends by itself, in the round behind the last batch:
  given any number of rounds it ends if these are more than the batches, and only then;
- it publishes what it read, each row once and in order of position, in batches that are all full
  but the last;
- its news are numbered from 1, each starts where the one before stopped, and they count up the
  events;
- a recorder that was reset, and is registered once, has received the tenant's log and nothing
  else, if the rebuild began at the beginning. -/
theorem rebuild_is_complete {ρ : Type} [Projection κ ρ] (hregistry : registry.Typed)
    (hsize : 0 < batchSize) {resets : List Nat} {start : GlobalPosition}
    {w : World MemoryStore κ (Recorder κ ⊕ ρ)} (calls : List StoreCall)
    (hstore : w.store = MemoryStore.empty.afterCalls calls) (hstarted : w.started = true)
    (havailable : w.store.available = true) {envelopes : List (AnyEnvelope κ)}
    (hread : (w.store.rowsAfter tenant start).mapM (registry.decode · codec) = .ok envelopes)
    {bus₀ bus : Bus κ (Recorder κ ⊕ ρ)} {tracker : CompletionTracker}
    (hprepares : Prepares resets start w.bus bus₀)
    (haccepts : bus₀.Accepts w.tracker (batchesOf batchSize envelopes) bus tracker) :
    let rows := w.store.rowsAfter tenant start
    let count := (rows.length + batchSize - 1) / batchSize
    let batches := batchesOf batchSize envelopes
    ∃ last : Run,
      (last.batches = count ∧ last.events = rows.length ∧
        last.cursor = (rows.getLast?.map RecordedEvent.position).getD start ∧
        run codec registry resets tenant start batchSize w =
          .ok (.ok last.summary, last.news, published w batches bus tracker) ∧
        ∀ rounds, publishFrom codec registry tenant batchSize rounds (.first start)
            { w with bus := bus₀ } =
          if count < rounds then .ok (.ok last.summary, last, published w batches bus tracker)
          else .error .endlessLoop) ∧
      (bus.published = w.bus.published ++ envelopes ∧ bus.batches = w.bus.batches + count ∧
        envelopes.map (fun e => e.position.map GlobalPosition.toNat) =
          (List.range' (start.toNat + 1) rows.length).map some ∧
        List.Forall₂ AnyEnvelope.Shows rows envelopes ∧
        batches.flatten = envelopes ∧ batches.length = count ∧
        ∀ batch ∈ batches.dropLast, batch.length = batchSize) ∧
      (last.Coherent tenant start ∧ last.news.length = count ∧
        last.news.map RebuildProgress.batchSize = batches.map List.length) ∧
      (start = .start → ∀ place ∈ resets, w.bus.registered.count place = 1 →
        ∀ recorder, w.bus.projections[place]? = some (.inl recorder) →
          rows = w.store.log tenant ∧ Bus.HasReceived bus.projections place envelopes) := by
  intro rows count batches
  have hdense : w.store.Dense :=
    hstore ▸ MemoryStore.afterCalls_dense MemoryStore.dense_empty calls
  have hlength : rows.length = envelopes.length := (forall₂_of_mapM hread).length_eq
  have hflatten : batches.flatten = envelopes := flatten_batchesOf hsize envelopes
  have hcount : batches.length = count := by
    rw [length_batchesOf, ← hlength]
  obtain ⟨last, hfollows, hrounds, hrun⟩ :=
    run_all hsize hstarted hdense havailable hread hprepares haccepts
  have hcoherent := hfollows.coherent start (Run.coherent_first tenant start)
  obtain ⟨hpublished, hbatches, hregistered⟩ := hprepares.published_eq
  have hadds := haccepts.adds
  have hshows := hregistry.forall₂_shows hread
  refine ⟨last, ⟨?_, ?_, ?_, hrun, ?_⟩, ⟨?_, ?_, ?_, hshows, hflatten, hcount, ?_⟩,
    ⟨hcoherent, ?_, ?_⟩, ?_⟩
  · rw [hfollows.count, hcount]
    exact Nat.zero_add count
  · rw [hfollows.events, hflatten, hlength]
    exact Nat.zero_add _
  · exact hfollows.cursor_eq hdense (by rw [hflatten, hlength])
  · rwa [← hlength] at hrounds
  · rw [hadds.published, hflatten, hpublished]
  · rw [hadds.batches, hcount, hbatches]
  · rw [← hdense.positions_rowsAfter tenant start, List.map_map]
    refine map_eq_of_forall₂ hshows fun h => ?_
    rw [h.position]
    rfl
  · exact length_of_mem_dropLast_batchesOf hsize envelopes
  · rw [hcoherent.length_news, hfollows.count, hcount]
    exact Nat.zero_add count
  · rw [hfollows.sizes]
    rfl
  · rintro rfl place hplace honce recorder hrecorder
    refine ⟨MemoryStore.rowsAfter_start hdense, ?_⟩
    cases hprepares with
    | elsewhere hstart => exact absurd rfl hstart
    | beginning _ hreset =>
      have hreset := Bus.reset_received hreset ⟨recorder, hrecorder, rfl⟩ hplace
      have hreceived := haccepts.received honce hreset
      rwa [hflatten] at hreceived

end

/-! ## A stocked store -/

section

open Sample

/-- The world behind some calls to its store, in which all projections are registered. -/
def stocked (calls : List StoreCall) (projections : List (Recorder Carrier ⊕ Inert)) :
    World MemoryStore Carrier (Recorder Carrier ⊕ Inert) :=
  { (World.blank : World MemoryStore Carrier (Recorder Carrier ⊕ Inert)) with
    store := MemoryStore.empty.afterCalls calls
    bus := .new projections (List.range projections.length) false }

/-- What is read from the log behind some calls. -/
def stockedEnvelopes (calls : List StoreCall) : List (AnyEnvelope Carrier) :=
  ((((stocked calls []).store.log .default).mapM (registry.decode · .binary)).toOption).getD []

/-- The calls that store three numbers. -/
def threeNumbers : List StoreCall := [stocking .notCreated [3, 4, 5]]

/-- A bus that does not refuse accepts every batch, if its recorders refuse nothing. -/
theorem accepted (bus : Bus Carrier (Recorder Carrier ⊕ Inert)) (hrefuses : bus.refuses = false)
    (hviews : (bus.projections.all fun | .inl view => view.refuses.isNone | .inr _ => true) = true)
    (batches : List (List (AnyEnvelope Carrier))) :
    ∃ bus' tracker', bus.Accepts .empty batches bus' tracker' := by
  refine Bus.accepts_of_willing ?_ batches bus .empty hrefuses (List.all_eq_true.mp hviews)
  intro view envelope hview
  cases view with
  | inl view =>
    have hrefuses := Option.isNone_iff_eq_none.mp hview
    refine ⟨.inl { view with received := view.received ++ [envelope] }, ?_, hview⟩
    show Except.ok ((view.handle envelope).map Sum.inl) = _
    rw [Recorder.handle, hrefuses, if_neg (by simp)]
    rfl
  | inr view => exact ⟨.inr view, rfl, rfl⟩

/-- A bus with one recorder, which is reset and registered. -/
def resetBus : Bus Carrier (Recorder Carrier ⊕ Inert) :=
  .new [.inl (Recorder.new "view").reset] [0] false

set_option maxRecDepth 10000 in
/-- Behind a rebuild in batches of two, a recorder that was reset has received three numbers. -/
theorem stocked_rebuild_is_complete : ∃ news w',
    run .binary registry [0] .default .start 2 (stocked threeNumbers [.inl (.new "view")]) =
        .ok (.ok ⟨2, 3, ⟨3⟩⟩, news, w') ∧
      Bus.HasReceived w'.bus.projections 0 (stockedEnvelopes threeNumbers) := by
  have hread : ((stocked threeNumbers [.inl (.new "view")]).store.rowsAfter .default .start).mapM
      (registry.decode · .binary) = .ok (stockedEnvelopes threeNumbers) := rfl
  have hprepares : Prepares (κ := Carrier) [0] .start
      (stocked threeNumbers [.inl (.new "view")]).bus resetBus :=
    .beginning rfl rfl
  obtain ⟨bus, tracker, haccepts⟩ : ∃ bus tracker, resetBus.Accepts .empty
      (batchesOf 2 (stockedEnvelopes threeNumbers)) bus tracker :=
    accepted resetBus rfl (by decide) _
  obtain ⟨last, ⟨hbatches, hevents, hcursor, hrun, -⟩, -, -, hreceived⟩ := rebuild_is_complete
    typed_registry (by decide) threeNumbers rfl rfl rfl hread hprepares haccepts
  have hsummary : last.summary = ⟨2, 3, ⟨3⟩⟩ := by
    rw [Run.summary, hbatches, hevents, hcursor]
    rfl
  rw [hsummary] at hrun
  exact ⟨_, _, hrun, (hreceived rfl 0 (List.mem_singleton_self 0) rfl _ rfl).2⟩

set_option maxRecDepth 10000 in
/-- The resets are not for nothing: where all rows can be read and the bus accepts them, a rebuild
from the beginning still fails if a projection that is listed cannot be reset. -/
theorem stocked_rebuild_needs_resets :
    let w := stocked threeNumbers [.inr ⟨"stubborn", some (.storage "disk full")⟩]
    w.started = true ∧ w.store.available = true ∧
      (w.store.rowsAfter .default .start).mapM (registry.decode · .binary) =
        .ok (stockedEnvelopes threeNumbers) ∧
      (∃ bus tracker,
        w.bus.Accepts w.tracker (batchesOf 2 (stockedEnvelopes threeNumbers)) bus tracker) ∧
      run .binary registry [0] .default .start 2 w =
        .ok (.error (.reset "stubborn" (.storage "disk full")), [], w) := by
  exact ⟨rfl, rfl, rfl, accepted _ rfl (by decide) _, rfl⟩

end

end Rebuild

end Chronicle

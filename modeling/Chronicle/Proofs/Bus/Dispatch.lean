import Chronicle.Proofs.Bus.Publication
import Chronicle.Proofs.Lists
import Chronicle.Sample.Carrier
import Mathlib.Data.List.Nodup

/-!
# How far a batch is handed on

A bus hands each envelope of a batch to one recorder after the other and ends where one refuses. So
the batch is cut twice: at the first envelope that some recorder refuses, and for this envelope at
the first recorder that does (`Recorder.Refusal`). The envelopes before the cut were handled by all,
were reported and are published; the refused one was handled by the recorders before the cut only
(`dispatch_is_a_consistent_prefix`).

Recorders that are registered once each are found by their places (`Lines`). What all of them take
is handed on to all, and the bus goes on with what is left (`deliver_accepted`,
`publishEach_accepted`); both cuts are then the first step of what is left.
-/

namespace Chronicle

/-! ## Recorders -/

namespace Recorder

variable {κ : Type}

/-- The recorder refuses envelopes of this kind. -/
def Refuses (r : Recorder κ) (envelope : AnyEnvelope κ) : Prop := r.refuses = some envelope.kind

instance (r : Recorder κ) (envelope : AnyEnvelope κ) : Decidable (r.Refuses envelope) :=
  inferInstanceAs (Decidable (_ = _))

/-- A recorder that has received some envelopes more. -/
def keeping (r : Recorder κ) (envelopes : List (AnyEnvelope κ)) : Recorder κ :=
  { r with received := r.received ++ envelopes }

@[simp] theorem keeping_nil (r : Recorder κ) : r.keeping [] = r := by simp [keeping]

@[simp] theorem keeping_keeping (r : Recorder κ) (before since : List (AnyEnvelope κ)) :
    (r.keeping before).keeping since = r.keeping (before ++ since) := by simp [keeping]

theorem map_keeping_keeping (views : List (Recorder κ)) (before since : List (AnyEnvelope κ)) :
    (views.map (Recorder.keeping · before)).map (Recorder.keeping · since) =
      views.map (Recorder.keeping · (before ++ since)) := by
  simp [Function.comp_def]

theorem handle_of_refuses {r : Recorder κ} {envelope : AnyEnvelope κ} (h : r.Refuses envelope) :
    r.handle envelope = .error (.eventProcessing (r.name ++ " refuses " ++ envelope.kind)) :=
  if_pos h

theorem handle_of_not_refuses {r : Recorder κ} {envelope : AnyEnvelope κ}
    (h : ¬ r.Refuses envelope) : r.handle envelope = .ok (r.keeping [envelope]) := if_neg h

/-- Where a batch is cut: the first envelope that some recorder refuses, and the first recorder
that refuses it, with their indices from zero. -/
structure Refusal (views : List (Recorder κ)) (batch : List (AnyEnvelope κ)) (k j : Nat)
    (envelope : AnyEnvelope κ) (view : Recorder κ) : Prop where
  envelope_at : batch[k]? = some envelope
  view_at : views[j]? = some view
  refuses : view.Refuses envelope
  earlier : ∀ e ∈ batch.take k, ∀ v ∈ views, ¬ v.Refuses e
  before : ∀ v ∈ views.take j, ¬ v.Refuses envelope

/-- A batch that is not taken as a whole is cut somewhere. -/
theorem exists_refusal {views : List (Recorder κ)} {batch : List (AnyEnvelope κ)}
    (h : ¬ ∀ e ∈ batch, ∀ v ∈ views, ¬ v.Refuses e) :
    ∃ k j envelope view, Refusal views batch k j envelope view := by
  have hsome : ∃ e ∈ batch, ∃ v ∈ views, v.Refuses e := by
    by_contra hnone
    exact h fun e he v hv hrefuses => hnone ⟨e, he, v, hv, hrefuses⟩
  obtain ⟨k, envelope, hk, hrefused, hearlier⟩ := exists_first hsome
  obtain ⟨j, view, hj, hrefuses, hbefore⟩ := exists_first hrefused
  exact ⟨k, j, envelope, view, hk, hj, hrefuses,
    fun e he v hv hrefuses => hearlier e he ⟨v, hv, hrefuses⟩, hbefore⟩

end Recorder

namespace Bus

variable {κ ρ : Type} {projections : List (Recorder κ ⊕ ρ)} {places : List Nat}
  {views : List (Recorder κ)}

/-! ## Recorders at their places -/

/-- At some places there are these recorders. -/
def Stand (projections : List (Recorder κ ⊕ ρ)) (places : List Nat) (views : List (Recorder κ)) :
    Prop :=
  List.Forall₂ (fun place view => projections[place]? = some (.inl view)) places views

theorem Stand.of_same {projections' : List (Recorder κ ⊕ ρ)} (h : Stand projections places views)
    (hsame : ∀ place ∈ places, projections'[place]? = projections[place]?) :
    Stand projections' places views := by
  induction h with
  | nil => exact .nil
  | cons hfirst _ ih =>
    exact .cons ((hsame _ (List.mem_cons_self ..)).trans hfirst)
      (ih fun place hplace => hsame place (List.mem_cons_of_mem _ hplace))

/-- The registered projections are these recorders, in this order, and none is registered twice. -/
structure Lines (bus : Bus κ (Recorder κ ⊕ ρ)) (views : List (Recorder κ)) : Prop where
  distinct : bus.registered.Nodup
  stand : Stand bus.projections bus.registered views

/-- The projections that are not registered are the same. -/
def Spares (bus bus' : Bus κ (Recorder κ ⊕ ρ)) : Prop :=
  ∀ place ∉ bus.registered, bus'.projections[place]? = bus.projections[place]?

variable [Projection κ ρ] {envelope : AnyEnvelope κ} {view : Recorder κ} {place : Nat}

/-- An envelope that some recorders take is handed on to them and then to those that are left. -/
theorem deliver_accepted (envelope : AnyEnvelope κ) (places more : List Nat) :
    ∀ {views : List (Recorder κ)} {projections : List (Recorder κ ⊕ ρ)}, places.Nodup →
      Stand projections places views → (∀ v ∈ views, ¬ v.Refuses envelope) →
      ∃ projections', deliver envelope (places ++ more) projections =
          deliver envelope more projections' ∧
        Stand projections' places (views.map (Recorder.keeping · [envelope])) ∧
        ∀ other ∉ places, projections'[other]? = projections[other]? := by
  induction places with
  | nil =>
    intro views projections _ hstand _
    cases hstand
    exact ⟨projections, rfl, .nil, fun _ _ => rfl⟩
  | cons place places ih =>
    intro views projections hdistinct hstand hwilling
    obtain ⟨hnew, hdistinct⟩ := List.nodup_cons.mp hdistinct
    cases hstand with
    | @cons _ view _ views hview hstand =>
    have hlt := (List.getElem?_eq_some_iff.mp hview).1
    have hhandle : Projection.handle (.inl view : Recorder κ ⊕ ρ) envelope =
        .ok (.ok (.inl (view.keeping [envelope]))) := by
      have htakes := Recorder.handle_of_not_refuses (hwilling view (List.mem_cons_self ..))
      show (Except.ok (view.handle envelope) >>= _) = _
      rw [htakes]
      rfl
    have hrest : Stand (projections.set place (.inl (view.keeping [envelope]))) places views :=
      Stand.of_same hstand fun other hother => by
        have hne : place ≠ other := fun heq => hnew (heq ▸ hother)
        exact List.getElem?_set_ne hne
    obtain ⟨projections', hdeliver, hstand', hother⟩ :=
      ih hdistinct hrest fun v hv => hwilling v (List.mem_cons_of_mem _ hv)
    refine ⟨projections', ?_, .cons ?_ hstand', fun other hout => ?_⟩
    · rw [List.cons_append, deliver, hview]
      simp only [hhandle]
      exact hdeliver
    · rw [hother place hnew]
      exact List.getElem?_set_self hlt
    · have hne : place ≠ other := fun heq => hout (heq ▸ List.mem_cons_self ..)
      rw [hother other fun hin => hout (List.mem_cons_of_mem _ hin)]
      exact List.getElem?_set_ne hne

/-- The first recorder that refuses an envelope ends its delivery. -/
theorem deliver_refused (hview : projections[place]? = some (.inl view))
    (hrefuses : view.Refuses envelope) (places : List Nat) :
    deliver envelope (place :: places) projections =
      .ok (.error (.projection view.name
        (.eventProcessing (view.name ++ " refuses " ++ envelope.kind))), projections) := by
  have hhandle : Projection.handle (.inl view : Recorder κ ⊕ ρ) envelope =
      .ok (.error (.eventProcessing (view.name ++ " refuses " ++ envelope.kind))) := by
    show (Except.ok (view.handle envelope) >>= _) = _
    rw [Recorder.handle_of_refuses hrefuses]
    rfl
  rw [deliver, hview]
  simp only [hhandle]
  rfl

/-! ## Batches -/

/-- The tracker behind the reports that some envelopes were handled, which a bus makes if it is to
report. -/
def reported (bus : Bus κ (Recorder κ ⊕ ρ)) (tracker : CompletionTracker)
    (envelopes : List (AnyEnvelope κ)) : CompletionTracker :=
  if bus.reports then
    envelopes.foldl (fun tracker e => tracker.complete e.sequenceId e.eventId) tracker
  else tracker

omit [Projection κ ρ] in
theorem reported_cons (bus : Bus κ (Recorder κ ⊕ ρ)) (tracker : CompletionTracker)
    (envelope : AnyEnvelope κ) (envelopes : List (AnyEnvelope κ)) :
    bus.reported tracker (envelope :: envelopes) =
      bus.reported (bus.report tracker envelope) envelopes := by
  unfold reported report
  cases bus.reports <;> rfl

/-- Envelopes that all recorders take are handled by all, reported and published, and the bus goes
on with those that are left. -/
theorem publishEach_accepted (envelopes more : List (AnyEnvelope κ)) :
    ∀ {bus : Bus κ (Recorder κ ⊕ ρ)} {views : List (Recorder κ)} (tracker : CompletionTracker),
      bus.Lines views → (∀ e ∈ envelopes, ∀ v ∈ views, ¬ v.Refuses e) →
      ∃ bus', publishEach (envelopes ++ more) bus tracker =
          publishEach more bus' (bus.reported tracker envelopes) ∧
        bus.Adds bus' envelopes 0 ∧ bus'.Lines (views.map (Recorder.keeping · envelopes)) ∧
        bus.Spares bus' := by
  induction envelopes with
  | nil =>
    intro bus views tracker hlines _
    refine ⟨bus, ?_, ⟨(List.append_nil _).symm, rfl, rfl, rfl, rfl⟩, by simpa using hlines,
      fun _ _ => rfl⟩
    simp [reported]
  | cons envelope envelopes ih =>
    intro bus views tracker hlines hwilling
    obtain ⟨projections, hdeliver, hstand, hother⟩ := deliver_accepted envelope bus.registered []
      hlines.distinct hlines.stand (hwilling envelope (List.mem_cons_self ..))
    rw [List.append_nil] at hdeliver
    have hlines₁ : ({ bus with projections := projections }.note envelope).Lines
        (views.map (Recorder.keeping · [envelope])) := ⟨hlines.distinct, hstand⟩
    have hwilling₁ : ∀ e ∈ envelopes, ∀ v ∈ views.map (Recorder.keeping · [envelope]),
        ¬ v.Refuses e := by
      intro e he v hv
      obtain ⟨old, hold, rfl⟩ := List.mem_map.mp hv
      exact hwilling e (List.mem_cons_of_mem _ he) old hold
    obtain ⟨bus', heach, hadds, hlines', hspares⟩ :=
      ih ({ bus with projections := projections }.report tracker envelope) hlines₁ hwilling₁
    refine ⟨bus', ?_, ⟨?_, hadds.batches, hadds.registered, hadds.refuses, hadds.reports⟩, ?_,
      fun place hplace => (hspares place hplace).trans (hother place hplace)⟩
    · rw [List.cons_append, publishEach, hdeliver, reported_cons]
      exact heach
    · rw [hadds.published]
      exact List.append_assoc bus.published [envelope] envelopes
    · rwa [Recorder.map_keeping_keeping] at hlines'

/-- An envelope that some recorder refuses is handled by those before it, and ends the batch. -/
theorem publishEach_refused {bus : Bus κ (Recorder κ ⊕ ρ)} {before behind : List (Recorder κ)}
    (hlines : bus.Lines (before ++ view :: behind)) (hbefore : ∀ v ∈ before, ¬ v.Refuses envelope)
    (hrefuses : view.Refuses envelope) (envelopes : List (AnyEnvelope κ))
    (tracker : CompletionTracker) :
    ∃ bus', publishEach (envelope :: envelopes) bus tracker =
        .ok (.error (.projection view.name
          (.eventProcessing (view.name ++ " refuses " ++ envelope.kind))), bus', tracker) ∧
      bus.Adds bus' [] 0 ∧
      bus'.Lines (before.map (Recorder.keeping · [envelope]) ++ view :: behind) ∧
      bus.Spares bus' := by
  obtain ⟨hdistinct, hstand⟩ := hlines
  have hfirst := List.forall₂_take_append _ _ _ hstand
  have hlast := List.forall₂_drop_append _ _ _ hstand
  rw [← List.take_append_drop before.length bus.registered, List.nodup_append'] at hdistinct
  obtain ⟨projections, hdeliver, hstand₁, hother⟩ := deliver_accepted envelope
    (bus.registered.take before.length) (bus.registered.drop before.length) hdistinct.1 hfirst
    hbefore
  have hlast₁ : Stand projections (bus.registered.drop before.length) (view :: behind) :=
    Stand.of_same hlast fun place hplace => hother place fun hin =>
      hdistinct.2.2 hin hplace
  rw [List.take_append_drop] at hdeliver
  have hends : deliver envelope (bus.registered.drop before.length) projections =
      .ok (.error (.projection view.name
        (.eventProcessing (view.name ++ " refuses " ++ envelope.kind))), projections) := by
    generalize bus.registered.drop before.length = places at hlast₁
    cases hlast₁ with
    | cons hview _ => exact deliver_refused hview hrefuses _
  refine ⟨{ bus with projections := projections }, ?_,
    ⟨(List.append_nil _).symm, rfl, rfl, rfl, rfl⟩, ⟨?_, ?_⟩, fun place hplace => ?_⟩
  · rw [publishEach, hdeliver, hends]
    rfl
  · show bus.registered.Nodup
    rw [← List.take_append_drop before.length bus.registered, List.nodup_append']
    exact hdistinct
  · show Stand projections bus.registered _
    rw [← List.take_append_drop before.length bus.registered]
    exact List.rel_append hstand₁ hlast₁
  · exact hother place fun hin => hplace (List.mem_of_mem_take hin)

/-- **A batch is handed on up to its first refusal.** Take a bus whose registered projections are
recorders, none of them twice, whatever it has published and counted before. If it refuses, nothing
changes. If it does not and no recorder refuses any envelope of a batch, the publication succeeds:
the records and the list of what was published grow by the batch, and so does what is reported as
handled, and the batch counts. Otherwise the batch is cut at an envelope `k` and a recorder `j`,
which the error names: the recorders before `j` have received the first `k + 1` envelopes, `j` and
those behind it the first `k`; the first `k` are published and reported, and the batch does not
count. Projections that are not registered are never touched. -/
theorem dispatch_is_a_consistent_prefix {bus : Bus κ (Recorder κ ⊕ ρ)}
    {views : List (Recorder κ)} (hlines : bus.Lines views) (tracker : CompletionTracker)
    (batch : List (AnyEnvelope κ)) :
    (bus.refuses = true → bus.publish tracker batch =
      .ok (.error (.publish "in-memory bus refuses publication"), bus, tracker)) ∧
    (bus.refuses = false → (∀ e ∈ batch, ∀ v ∈ views, ¬ v.Refuses e) →
      ∃ bus', bus.publish tracker batch = .ok (.ok (), bus', bus.reported tracker batch) ∧
        bus.Adds bus' batch 1 ∧ bus'.Lines (views.map (Recorder.keeping · batch)) ∧
        bus.Spares bus') ∧
    (bus.refuses = false → (¬ ∀ e ∈ batch, ∀ v ∈ views, ¬ v.Refuses e) →
      (∃ k j envelope view, Recorder.Refusal views batch k j envelope view) ∧
      ∀ k j envelope view, Recorder.Refusal views batch k j envelope view →
        ∃ bus', bus.publish tracker batch =
            .ok (.error (.projection view.name
              (.eventProcessing (view.name ++ " refuses " ++ envelope.kind))), bus',
              bus.reported tracker (batch.take k)) ∧
          bus.Adds bus' (batch.take k) 0 ∧
          bus'.Lines ((views.take j).map (Recorder.keeping · (batch.take (k + 1))) ++
            (views.drop j).map (Recorder.keeping · (batch.take k))) ∧
          bus.Spares bus') := by
  refine ⟨fun hrefuses => by rw [publish_eq, if_pos hrefuses], fun hopen hwilling => ?_, fun hopen hnot =>
    ⟨Recorder.exists_refusal hnot, fun k j envelope view hcut => ?_⟩⟩
  · obtain ⟨each, heach, hadds, hlines', hspares⟩ :=
      publishEach_accepted batch [] tracker hlines hwilling
    rw [List.append_nil, publishEach] at heach
    refine ⟨{ each with batches := each.batches + 1 }, ?_,
      ⟨hadds.published, congrArg (· + 1) hadds.batches, hadds.registered, hadds.refuses,
        hadds.reports⟩, ⟨hlines'.distinct, hlines'.stand⟩, hspares⟩
    rw [publish_eq, hopen, heach]
    rfl
  · obtain ⟨hk, rfl⟩ := List.getElem?_eq_some_iff.mp hcut.envelope_at
    obtain ⟨hj, rfl⟩ := List.getElem?_eq_some_iff.mp hcut.view_at
    -- up to the cut everyone takes everything
    obtain ⟨each, heach, hadds, hlines₁, hspares⟩ :=
      publishEach_accepted (batch.take k) (batch.drop k) tracker hlines hcut.earlier
    rw [List.take_append_drop, List.drop_eq_getElem_cons hk] at heach
    rw [← List.take_append_drop j views, List.drop_eq_getElem_cons hj, List.map_append,
      List.map_cons] at hlines₁
    have hbefore : ∀ v ∈ (views.take j).map (Recorder.keeping · (batch.take k)),
        ¬ v.Refuses batch[k] := by
      intro v hv
      obtain ⟨old, hold, rfl⟩ := List.mem_map.mp hv
      exact hcut.before old hold
    obtain ⟨bus', hends, hadds', hlines', hspares'⟩ := publishEach_refused hlines₁ hbefore
      hcut.refuses (batch.drop (k + 1)) (bus.reported tracker (batch.take k))
    refine ⟨bus', ?_, ⟨?_, ?_, ?_, ?_, ?_⟩, ?_, ?_⟩
    · rw [publish_eq, hopen, heach, hends]
      rfl
    · rw [hadds'.published, hadds.published, List.append_nil]
    · rw [hadds'.batches, hadds.batches]
    · exact hadds'.registered.trans hadds.registered
    · exact hadds'.refuses.trans hadds.refuses
    · exact hadds'.reports.trans hadds.reports
    · rw [Recorder.map_keeping_keeping, List.take_append_getElem] at hlines'
      rw [List.drop_eq_getElem_cons hj, List.map_cons]
      exact hlines'
    · intro place hplace
      exact (hspares' place (hadds.registered ▸ hplace)).trans (hspares place hplace)

end Bus

namespace Sample

/-- What happened to the sequence `7`, in the second step of a sequence of commands. -/
def happened (event : Nat) (version : UInt64) (payload : SequenceEvent) : AnyEnvelope Carrier :=
  AnyEnvelope.erase (κ := Carrier) sequenceType ⟨7, sequenceType.stream (7 : UInt64), .default,
    ⟨.ofNat event⟩, ⟨.ofNat 2⟩, ⟨.ofNat 2⟩, .system, payload, ⟨0, 0⟩, ⟨version⟩⟩ none

/-- A bus that has published one batch. Its three recorders are registered last first, and the
second refuses that sequences are cleared. -/
def wary : Bus Carrier (Recorder Carrier ⊕ Inert) where
  projections := [.inl (.new "first"), .inl ⟨"second", [], some "Cleared.v1", 0⟩,
    .inl ((Recorder.new "third").keeping [happened 1 1 (.itemAdded 3)])]
  registered := [2, 1, 0]
  published := [happened 1 1 (.itemAdded 3)]
  batches := 1
  refuses := false
  reports := true

end Sample

open Sample Recorder in
/-- Of three envelopes the second is refused by the second of three recorders. The first recorder
has received two of them, the others have received one, and one is published and reported. -/
theorem Bus.cleared_sequence_is_refused :
    let views := [(Recorder.new "third").keeping [happened 1 1 (.itemAdded 3)],
      ⟨"second", [], some "Cleared.v1", 0⟩, .new "first"]
    let batch := [happened 2 2 (.itemAdded 4), happened 3 3 .cleared, happened 4 4 (.itemAdded 5)]
    wary.Lines views ∧ Refusal views batch 1 1 (happened 3 3 .cleared)
        ⟨"second", [], some "Cleared.v1", 0⟩ ∧
      ∃ bus', wary.publish .empty batch =
          .ok (.error (.projection "second" (.eventProcessing "second refuses Cleared.v1")), bus',
            CompletionTracker.empty.complete ⟨.ofNat 2⟩ ⟨.ofNat 2⟩) ∧
        bus'.published = [happened 1 1 (.itemAdded 3), happened 2 2 (.itemAdded 4)] ∧
        bus'.batches = 1 ∧
        bus'.Lines [(Recorder.new "third").keeping [happened 1 1 (.itemAdded 3),
            happened 2 2 (.itemAdded 4), happened 3 3 .cleared],
          ⟨"second", [happened 2 2 (.itemAdded 4)], some "Cleared.v1", 0⟩,
          (Recorder.new "first").keeping [happened 2 2 (.itemAdded 4)]] := by
  intro views batch
  have hlines : wary.Lines views := ⟨by decide, .cons rfl (.cons rfl (.cons rfl .nil))⟩
  have hcut : Refusal views batch 1 1 (happened 3 3 .cleared)
      ⟨"second", [], some "Cleared.v1", 0⟩ := ⟨rfl, rfl, rfl, by decide, by decide⟩
  have hnot : ¬ ∀ e ∈ batch, ∀ v ∈ views, ¬ v.Refuses e := by decide
  obtain ⟨-, -, hrefused⟩ := dispatch_is_a_consistent_prefix hlines .empty batch
  obtain ⟨bus', hpublish, hadds, hlines', -⟩ := (hrefused rfl hnot).2 1 1 _ _ hcut
  exact ⟨hlines, hcut, bus', hpublish, hadds.published, hadds.batches, hlines'⟩

end Chronicle

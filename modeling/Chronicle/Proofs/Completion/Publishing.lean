import Chronicle.Proofs.Bus.Acts
import Chronicle.Proofs.Completion.Waits

/-!
# A publication under way

A publication marks every event of its batch as published, hands one event after the other to the
projections, and reports each behind the last of them. If a projection declines an event, or the bus
the whole batch, all events of the batch are released. These are acts, performed one after the
other. Between any two of them others may begin to wait, for any sequence, and the time of any wait
may run out: `Publishing` tells which points a publication can come to among these.

What an act notes in the tracker is a step of a `Watch` (`Bus.Act.tracker_perform`). So what is
unhandled at a point follows from the acts that were done (`Publishing.notes`): the events that are
marked and not yet reported. A publication that nobody interrupts goes through points of this kind
only (`Publishing.of_performAll`).
-/

namespace Chronicle

open Bus (Act performAll)
open Watch (Unhandled Quiet run)

variable {κ π : Type}

namespace AnyEnvelope

/-- The note that an event is published. -/
def starts (e : AnyEnvelope κ) : Watch.Step := .starts e.sequenceId e.eventId

/-- The note that an event is handled. -/
def completes (e : AnyEnvelope κ) : Watch.Step := .completes e.sequenceId e.eventId

/-- What the tracker knows an event by. -/
def key (e : AnyEnvelope κ) : SequenceId × EventId := (e.sequenceId, e.eventId)

end AnyEnvelope

/-! ## What acts note -/

namespace Bus.Act

/-- What an act notes in the tracker, where the bus reports and where it does not. -/
def notes (reports : Bool) : Act κ → List Watch.Step
  | .mark e => [e.starts]
  | .report e => if reports then [e.completes] else []
  | .release e => [e.completes]
  | .enter | .hand .. | .record _ | .conclude => []

variable [Projection κ π] {act : Act κ} {bus bus' : Bus κ π} {tracker tracker' : CompletionTracker}
  {outcome : Except BusError Unit}

/-- An act leaves it at whether the bus reports, and does to the tracker what it notes. -/
theorem perform_eq_ok (h : act.perform bus tracker = .ok (outcome, bus', tracker')) :
    bus'.reports = bus.reports ∧
      ∀ history, tracker = (run history).tracker →
        tracker' = (run (history ++ act.notes bus.reports)).tracker := by
  have hsilent : ∀ history, tracker = (run history).tracker →
      tracker = (run (history ++ [])).tracker := fun history htracker => by
    rw [List.append_nil, htracker]
  cases act with
  | mark | release =>
    obtain ⟨-, rfl, rfl⟩ := Except.ok.inj h
    refine ⟨rfl, ?_⟩
    rintro history rfl
    rw [notes, Watch.run_concat]
    rfl
  | report e =>
    obtain ⟨-, rfl, rfl⟩ := Except.ok.inj h
    refine ⟨rfl, ?_⟩
    rw [notes, Bus.report]
    split
    · rintro history rfl
      rw [Watch.run_concat]
      rfl
    · exact hsilent
  | record | conclude =>
    obtain ⟨-, rfl, rfl⟩ := Except.ok.inj h
    exact ⟨rfl, hsilent⟩
  | enter =>
    rw [perform] at h
    split at h <;>
    · obtain ⟨-, rfl, rfl⟩ := Except.ok.inj h
      exact ⟨rfl, hsilent⟩
  | hand e place =>
    rw [perform] at h
    split at h
    · obtain ⟨-, rfl, rfl⟩ := Except.ok.inj h
      exact ⟨rfl, hsilent⟩
    · obtain ⟨answer, -, h⟩ := bind_eq_ok.mp h
      cases answer with
      | error | ok =>
        obtain ⟨-, rfl, rfl⟩ := Except.ok.inj h
        exact ⟨rfl, hsilent⟩

theorem tracker_perform {history : List Watch.Step}
    (h : act.perform bus (run history).tracker = .ok (outcome, bus', tracker')) :
    tracker' = (run (history ++ act.notes bus.reports)).tracker :=
  (perform_eq_ok h).2 history rfl

/-- Only an act that notes nothing can fail. -/
theorem notes_of_error {error : BusError}
    (h : act.perform bus tracker = .ok (.error error, bus', tracker')) (reports : Bool) :
    act.notes reports = [] := by
  cases act with
  | mark | report | release => cases h
  | enter | hand | record | conclude => rfl

end Bus.Act

/-! ## What is left to do -/

section Script

variable {batch : List (AnyEnvelope κ)} {acts more : List (Act κ)} {e : AnyEnvelope κ} {place : Nat}

/-- The acts of the publication of a batch, as long as none of them fails. -/
def Bus.publication (bus : Bus κ π) (batch : List (AnyEnvelope κ)) : List (Act κ) :=
  batch.map .mark ++ bus.script batch

/-- On a bus that reports, a publication notes all events as published, and then all as handled. -/
theorem notes_publication (batch : List (AnyEnvelope κ)) (bus : Bus κ π) :
    (bus.publication batch).flatMap (Act.notes true) =
      batch.map AnyEnvelope.starts ++ batch.map AnyEnvelope.completes := by
  have hmarks : (batch.map Act.mark).flatMap (Act.notes true) = batch.map AnyEnvelope.starts := by
    rw [List.flatMap_map, List.map_eq_flatMap]
    rfl
  have hacts : ∀ e : AnyEnvelope κ, (bus.acts e).flatMap (Act.notes true) = [e.completes] := by
    intro e
    have hhands : (bus.registered.map (Act.hand e ·)).flatMap (Act.notes true) = [] := by
      rw [List.flatMap_map]
      exact List.flatMap_eq_nil_iff.mpr fun _ _ => rfl
    rw [Bus.acts, List.flatMap_append, hhands]
    rfl
  have hall : (batch.flatMap bus.acts).flatMap (Act.notes true) =
      batch.map AnyEnvelope.completes := by
    rw [List.flatMap_assoc, List.map_eq_flatMap]
    simp only [hacts]
  rw [Bus.publication, Bus.script, List.flatMap_append, List.flatMap_cons, List.flatMap_append,
    hmarks, hall]
  simp [Act.notes]

/-- What is handed to a projection is reported behind that. -/
def ReportsHanded : List (Act κ) → Prop
  | [] => True
  | .hand e _ :: acts => .report e ∈ acts ∧ ReportsHanded acts
  | _ :: acts => ReportsHanded acts

theorem ReportsHanded.append (h : ReportsHanded acts) (hmore : ReportsHanded more) :
    ReportsHanded (acts ++ more) := by
  induction acts with
  | nil => exact hmore
  | cons act acts ih =>
    cases act with
    | hand e place => exact ⟨List.mem_append_left _ h.1, ih h.2⟩
    | mark | enter | report | record | conclude | release => exact ih h

theorem ReportsHanded.of_append (h : ReportsHanded (acts ++ more)) : ReportsHanded more := by
  induction acts with
  | nil => exact h
  | cons act acts ih =>
    cases act with
    | hand e place => exact ih h.2
    | mark | enter | report | record | conclude | release => exact ih h

theorem ReportsHanded.report_mem (h : ReportsHanded acts) (hmem : .hand e place ∈ acts) :
    .report e ∈ acts := by
  induction acts with
  | nil => cases hmem
  | cons act acts ih =>
    rcases List.mem_cons.mp hmem with rfl | hmem
    · exact List.mem_cons_of_mem _ h.1
    · refine List.mem_cons_of_mem _ (ih ?_ hmem)
      cases act with
      | hand e place => exact h.2
      | mark | enter | report | record | conclude | release => exact h

theorem reportsHanded_publication (batch : List (AnyEnvelope κ)) (bus : Bus κ π) :
    ReportsHanded (bus.publication batch) := by
  have hmarks : ReportsHanded (batch.map (Act.mark (κ := κ))) := by
    induction batch with
    | nil => trivial
    | cons e batch ih => exact ih
  have hacts : ∀ e : AnyEnvelope κ, ReportsHanded (bus.acts e) := by
    intro e
    rw [Bus.acts]
    induction bus.registered with
    | nil => trivial
    | cons place places ih => exact ⟨by simp, ih⟩
  have hall : ReportsHanded (batch.flatMap bus.acts) := by
    induction batch with
    | nil => trivial
    | cons e batch ih =>
      rw [List.flatMap_cons]
      exact (hacts e).append (ih hmarks)
  have hlast : ReportsHanded [(Act.conclude : Act κ)] := trivial
  exact hmarks.append (hall.append hlast)

end Script

/-! ## The points of a publication -/

/-- How far the publication of a batch has come. -/
inductive Dispatch (κ : Type) where
  /-- These acts are left. -/
  | acting (left : List (Act κ))
  /-- The publication has failed, and these acts are left to release its events. -/
  | failing (error : BusError) (left : List (Act κ))
  | returned (outcome : Except BusError Unit)

/-- Something was done, and some event has still to be handed to a projection or to be reported. -/
def Dispatch.UnderWay (batch : List (AnyEnvelope κ)) (first : Bus κ π) : Dispatch κ → Prop
  | .acting left => left ≠ first.publication batch ∧
    ∃ e, (∃ place, .hand e place ∈ left) ∨ .report e ∈ left
  | .failing .. | .returned _ => False

/-- The points to which the publication of a batch can come: how far it is, the bus, and what was
done with the tracker since it began, behind what was done before. -/
inductive Publishing [Projection κ π] (batch : List (AnyEnvelope κ)) (first : Bus κ π)
    (before : List Watch.Step) : Dispatch κ → Bus κ π → List Watch.Step → Prop
  | begins : Publishing batch first before (.acting (first.publication batch)) first []
  | acts {act left bus since bus' tracker'}
      (h : Publishing batch first before (.acting (act :: left)) bus since)
      (hact : act.perform bus (run (before ++ since)).tracker = .ok (.ok (), bus', tracker')) :
      Publishing batch first before (.acting left) bus' (since ++ act.notes bus.reports)
  | declines {act left bus since error bus' tracker'}
      (h : Publishing batch first before (.acting (act :: left)) bus since)
      (hact : act.perform bus (run (before ++ since)).tracker =
        .ok (.error error, bus', tracker')) :
      Publishing batch first before (.failing error (batch.map .release)) bus' since
  | releases {act error left bus since bus' tracker'}
      (h : Publishing batch first before (.failing error (act :: left)) bus since)
      (hact : act.perform bus (run (before ++ since)).tracker = .ok (.ok (), bus', tracker')) :
      Publishing batch first before (.failing error left) bus' (since ++ act.notes bus.reports)
  | succeeds {bus since} (h : Publishing batch first before (.acting []) bus since) :
      Publishing batch first before (.returned (.ok ())) bus since
  | fails {error bus since} (h : Publishing batch first before (.failing error []) bus since) :
      Publishing batch first before (.returned (.error error)) bus since
  | waits {stage bus since} (h : Publishing batch first before stage bus since)
      (sequence : SequenceId) (timeout : Duration) :
      Publishing batch first before stage bus (since ++ [.waits sequence timeout])
  | runsOut {stage bus since} (h : Publishing batch first before stage bus since) (place : Nat) :
      Publishing batch first before stage bus (since ++ [.runsOut place])

/-! ## What is unhandled meanwhile -/

section Marks

variable (history : List Watch.Step) {sequence : SequenceId} {event : EventId}

theorem unhandled_starts (e : AnyEnvelope κ) :
    Unhandled (history ++ [e.starts]) sequence event ↔
      e.key = (sequence, event) ∨ Unhandled history sequence event := by
  rw [Watch.unhandled_concat, AnyEnvelope.starts, Watch.Step.mark?, AnyEnvelope.key, Prod.mk.injEq]
  split <;> simp [*]

theorem unhandled_completes (e : AnyEnvelope κ) :
    Unhandled (history ++ [e.completes]) sequence event ↔
      e.key ≠ (sequence, event) ∧ Unhandled history sequence event := by
  rw [Watch.unhandled_concat, AnyEnvelope.completes, Watch.Step.mark?, AnyEnvelope.key, ne_eq,
    Prod.mk.injEq]
  split <;> simp [*]

theorem unhandled_map_starts (batch : List (AnyEnvelope κ)) : ∀ history,
    Unhandled (history ++ batch.map AnyEnvelope.starts) sequence event ↔
      (sequence, event) ∈ batch.map AnyEnvelope.key ∨ Unhandled history sequence event := by
  induction batch with
  | nil => simp
  | cons e batch ih =>
    intro history
    rw [List.map_cons, List.append_cons, ih, unhandled_starts, List.map_cons, List.mem_cons, eq_comm,
      or_left_comm, or_assoc]

theorem unhandled_map_completes (batch : List (AnyEnvelope κ)) : ∀ history,
    Unhandled (history ++ batch.map AnyEnvelope.completes) sequence event ↔
      (sequence, event) ∉ batch.map AnyEnvelope.key ∧ Unhandled history sequence event := by
  induction batch with
  | nil => simp
  | cons e batch ih =>
    intro history
    rw [List.map_cons, List.append_cons, ih, unhandled_completes, List.map_cons, List.mem_cons,
      not_or, ne_eq, eq_comm, and_left_comm, and_assoc]

end Marks

namespace Publishing

variable [Projection κ π] {batch : List (AnyEnvelope κ)} {first bus bus' : Bus κ π}
  {before since : List Watch.Step} {stage : Dispatch κ} {sequence : SequenceId} {event : EventId}

theorem reports_eq (h : Publishing batch first before stage bus since) :
    bus.reports = first.reports := by
  induction h with
  | begins => rfl
  | acts _ hact ih | declines _ hact ih | releases _ hact ih =>
    exact (Act.perform_eq_ok hact).1.trans ih
  | succeeds _ ih | fails _ ih | waits _ _ _ ih | runsOut _ _ ih => exact ih

/-! ## What was noted meanwhile -/

/-- Whether a step notes something of an event. -/
def noted : Watch.Step → Bool
  | .starts .. | .completes .. => true
  | .waits .. | .runsOut _ => false

omit [Projection κ π] in
theorem filter_notes (act : Act κ) (reports : Bool) :
    (act.notes reports).filter noted = act.notes reports := by
  cases act with
  | report => cases reports <;> rfl
  | mark | release | enter | hand | record | conclude => rfl

theorem unhandled_filter_noted (before since : List Watch.Step) :
    Unhandled (before ++ since.filter noted) sequence event ↔
      Unhandled (before ++ since) sequence event :=
  Watch.unhandled_filter before since fun s hs => by cases s <;> first | rfl | cases hs

/-- What is noted in the tracker when the publication of a batch has come so far, on a bus that
reports: the notes of the acts that were done, and behind a failure those of the releases. -/
def Notes (batch : List (AnyEnvelope κ)) (first : Bus κ π) (notes : List Watch.Step) :
    Dispatch κ → Prop
  | .acting left => ∃ done, first.publication batch = done ++ left ∧
    notes = done.flatMap (Act.notes true)
  | .failing _ left => ∃ done past rest, done <+: first.publication batch ∧ batch = past ++ rest ∧
    left = rest.map .release ∧
    notes = done.flatMap (Act.notes true) ++ past.map AnyEnvelope.completes
  | .returned _ => ∃ done, done <+: first.publication batch ∧
    notes = done.flatMap (Act.notes true) ++ batch.map AnyEnvelope.completes

theorem notes (h : Publishing batch first before stage bus since)
    (hreports : first.reports = true) : Notes batch first (since.filter noted) stage := by
  induction h with
  | begins => exact ⟨[], rfl, rfl⟩
  | @acts act left _ _ _ _ h hact ih =>
    obtain ⟨done, hall, hnotes⟩ := ih
    refine ⟨done ++ [act], by rw [hall, List.append_assoc]; rfl, ?_⟩
    rw [List.filter_append, filter_notes, h.reports_eq, hreports, hnotes, List.flatMap_append,
      List.flatMap_singleton]
  | declines _ _ ih =>
    obtain ⟨done, hall, hnotes⟩ := ih
    exact ⟨done, [], batch, ⟨_, hall.symm⟩, rfl, rfl, by rw [hnotes]; simp⟩
  | releases h hact ih =>
    obtain ⟨done, past, rest, hdone, rfl, hleft, hnotes⟩ := ih
    obtain ⟨e, rest, rfl, rfl, rfl⟩ := List.map_eq_cons_iff.mp hleft.symm
    refine ⟨done, past ++ [e], rest, hdone, by simp, rfl, ?_⟩
    rw [List.filter_append, filter_notes, hnotes, List.map_append, List.append_assoc]
    rfl
  | succeeds _ ih =>
    obtain ⟨done, hall, hnotes⟩ := ih
    refine ⟨batch.map .mark, List.prefix_append .., ?_⟩
    rw [List.append_nil] at hall
    rw [hnotes, ← hall, notes_publication, List.flatMap_map, List.map_eq_flatMap]
    rfl
  | fails _ ih =>
    obtain ⟨done, past, rest, hdone, rfl, hleft, hnotes⟩ := ih
    obtain rfl := List.map_eq_nil_iff.mp hleft.symm
    exact ⟨done, hdone, by rw [hnotes, List.append_nil]⟩
  | waits _ _ _ ih | runsOut _ _ ih =>
    rw [List.filter_append]
    simpa [noted] using ih

omit [Projection κ π] in
/-- All that is noted is about events of the batch. -/
theorem Notes.of_batch {notes : List Watch.Step} (h : Notes batch first notes stage) :
    ∀ s ∈ notes, ∃ e ∈ batch, s = e.starts ∨ s = e.completes := by
  have hdone : ∀ {done : List (Act κ)}, done <+: first.publication batch →
      ∀ s ∈ done.flatMap (Act.notes true), ∃ e ∈ batch, s = e.starts ∨ s = e.completes := by
    rintro done ⟨left, hall⟩ s hmem
    have hmem : s ∈ (first.publication batch).flatMap (Act.notes true) := by
      rw [← hall, List.flatMap_append]
      exact List.mem_append_left _ hmem
    rw [notes_publication] at hmem
    rcases List.mem_append.mp hmem with hmem | hmem
    · obtain ⟨e, he, rfl⟩ := List.mem_map.mp hmem
      exact ⟨e, he, Or.inl rfl⟩
    · obtain ⟨e, he, rfl⟩ := List.mem_map.mp hmem
      exact ⟨e, he, Or.inr rfl⟩
  have hreleased : ∀ past ⊆ batch, ∀ s ∈ past.map AnyEnvelope.completes,
      ∃ e ∈ batch, s = e.starts ∨ s = e.completes := by
    intro past hpast s hmem
    obtain ⟨e, he, rfl⟩ := List.mem_map.mp hmem
    exact ⟨e, hpast he, Or.inr rfl⟩
  intro s hmem
  cases stage with
  | acting left =>
    obtain ⟨done, hall, rfl⟩ := h
    exact hdone ⟨left, hall.symm⟩ s hmem
  | failing error left =>
    obtain ⟨done, past, rest, hprefix, rfl, -, rfl⟩ := h
    rcases List.mem_append.mp hmem with hmem | hmem
    · exact hdone hprefix s hmem
    · exact hreleased past (List.subset_append_left ..) s hmem
  | returned outcome =>
    obtain ⟨done, hprefix, rfl⟩ := h
    rcases List.mem_append.mp hmem with hmem | hmem
    · exact hdone hprefix s hmem
    · exact hreleased batch (List.Subset.refl _) s hmem

/-! ## What is unhandled meanwhile -/

/-- At no point does a publication change anything for events that are not of its batch. -/
theorem unhandled_iff {pre : List Watch.Step} (h : Publishing batch first before stage bus since)
    (hreports : first.reports = true) (hpre : pre <+: since)
    (hkey : (sequence, event) ∉ batch.map AnyEnvelope.key) :
    Unhandled (before ++ pre) sequence event ↔ Unhandled before sequence event := by
  have hnone : ∀ s ∈ pre, s.mark? sequence event = none := by
    intro s hmem
    have hbatch := (h.notes hreports).of_batch s
    have hother : ∀ e ∈ batch, ¬(e.sequenceId = sequence ∧ e.eventId = event) := fun e he heq =>
      hkey (List.mem_map.mpr ⟨e, he, Prod.ext heq.1 heq.2⟩)
    cases s with
    | waits | runsOut => rfl
    | starts | completes =>
      obtain ⟨e, he, heq | heq⟩ := hbatch (List.mem_filter.mpr ⟨hpre.subset hmem, rfl⟩)
      all_goals cases heq
      exact if_neg (hother e he)
  rw [Unhandled, Unhandled, List.filterMap_append, List.filterMap_eq_nil_iff.mpr hnone,
    List.append_nil]

/-- While a publication is under way, some event of its batch is unhandled. -/
theorem exists_unhandled (h : Publishing batch first before stage bus since)
    (hnodup : (batch.map AnyEnvelope.key).Nodup) (hreports : first.reports = true)
    (hunder : stage.UnderWay batch first) :
    ∃ e ∈ batch, Unhandled (before ++ since) e.sequenceId e.eventId := by
  cases stage with
  | failing | returned => cases hunder
  | acting left =>
    obtain ⟨hbegun, e, hleft⟩ := hunder
    obtain ⟨done, hall, hnotes⟩ := h.notes hreports
    -- the report of `e` is left in any case, and it is noted behind what was done
    have hlast : .report e ∈ left := by
      have hhanded := reportsHanded_publication batch first
      rw [hall] at hhanded
      exact hleft.elim (fun ⟨place, hmem⟩ => hhanded.of_append.report_mem hmem) id
    have hcompletes : e.completes ∈ left.flatMap (Act.notes true) :=
      List.mem_flatMap.mpr ⟨_, hlast, List.mem_singleton_self _⟩
    have hcut := notes_publication batch first
    rw [hall, List.flatMap_append] at hcut
    simp only [← unhandled_filter_noted before since, hnotes]
    rcases List.append_eq_append_iff.mp hcut with ⟨rest, hstarts, -⟩ | ⟨past, hdone, hrest⟩
    · -- some events are marked and none is reported; the first act of all marks an event
      have hfirst : ∃ e₀ : AnyEnvelope κ, e₀.starts ∈ done.flatMap (Act.notes true) := by
        obtain - | ⟨e₀, rest⟩ := batch
        · rw [List.append_eq_nil_iff.mp hcut |>.2] at hcompletes
          cases hcompletes
        obtain - | ⟨act, done⟩ := done
        · exact absurd hall.symm hbegun
        obtain ⟨rfl, -⟩ := List.cons.inj hall
        exact ⟨e₀, List.mem_cons_self ..⟩
      obtain ⟨marked, behind, rfl, hmarked, -⟩ := List.map_eq_append_iff.mp hstarts
      rw [← hmarked] at hfirst ⊢
      obtain ⟨e₀, hmem⟩ := hfirst
      obtain ⟨e', hmem, -⟩ := List.mem_map.mp hmem
      exact ⟨e', List.mem_append_left _ hmem,
        (unhandled_map_starts marked before).mpr (Or.inl (List.mem_map_of_mem hmem))⟩
    · -- all events are marked and some are reported
      obtain ⟨handled, rest, rfl, hhandled, hleft⟩ := List.map_eq_append_iff.mp hrest
      rw [← hleft] at hcompletes
      obtain ⟨e', hmem, -⟩ := List.mem_map.mp hcompletes
      refine ⟨e', List.mem_append_right _ hmem, ?_⟩
      rw [hdone, ← hhandled, ← List.append_assoc, unhandled_map_completes, unhandled_map_starts]
      rw [List.map_append, List.nodup_append'] at hnodup
      have hkey : e'.key ∈ rest.map AnyEnvelope.key := List.mem_map_of_mem hmem
      refine ⟨fun hpast => hnodup.2.2 hpast hkey, Or.inl ?_⟩
      rw [List.map_append]
      exact List.mem_append_right _ hkey

/-- Behind a publication no event of its batch is unhandled. -/
theorem handled_of_returned {outcome : Except BusError Unit}
    (h : Publishing batch first before (.returned outcome) bus since)
    (hreports : first.reports = true) {e : AnyEnvelope κ} (hmem : e ∈ batch) :
    ¬Unhandled (before ++ since) e.sequenceId e.eventId := by
  obtain ⟨done, -, hnotes⟩ := h.notes hreports
  rw [← unhandled_filter_noted, hnotes, ← List.append_assoc, unhandled_map_completes]
  exact fun hno => hno.1 (List.mem_map_of_mem hmem)

/-- Behind a publication of new events the same is unhandled as before. -/
theorem unhandled_of_returned {outcome : Except BusError Unit}
    (h : Publishing batch first before (.returned outcome) bus since)
    (hreports : first.reports = true)
    (hfresh : ∀ e ∈ batch, ¬Unhandled before e.sequenceId e.eventId) (sequence : SequenceId)
    (event : EventId) :
    Unhandled (before ++ since) sequence event ↔ Unhandled before sequence event := by
  by_cases hkey : (sequence, event) ∈ batch.map AnyEnvelope.key
  · obtain ⟨e, hmem, heq⟩ := List.mem_map.mp hkey
    obtain ⟨rfl, rfl⟩ := Prod.mk.inj heq
    exact iff_of_false (h.handled_of_returned hreports hmem) (hfresh e hmem)
  · exact h.unhandled_iff hreports (List.prefix_refl _) hkey

/-- What was unhandled before a publication of new events is so all the time. -/
theorem steady (h : Publishing batch first before stage bus since)
    (hreports : first.reports = true)
    (hfresh : ∀ e ∈ batch, ¬Unhandled before e.sequenceId e.eventId) :
    ∀ pre, pre <+: since → ∀ sequence event,
      Unhandled before sequence event → Unhandled (before ++ pre) sequence event := by
  intro pre hpre sequence event hunhandled
  refine (h.unhandled_iff hreports hpre fun hkey => ?_).mpr hunhandled
  obtain ⟨e, hmem, heq⟩ := List.mem_map.mp hkey
  obtain ⟨rfl, rfl⟩ := Prod.mk.inj heq
  exact hfresh e hmem hunhandled

/-- A wait that is open when a publication begins, or that begins meanwhile, is answered behind it
exactly if nothing of its sequence is unhandled, unless its time runs out. -/
theorem answers_of_returned {outcome : Except BusError Unit} {place : Nat} {wait : Wait}
    (h : Publishing batch first before (.returned outcome) bus since)
    (hreports : first.reports = true)
    (hfresh : ∀ e ∈ batch, ¬Unhandled before e.sequenceId e.eventId)
    (hwait : (run (before ++ since)).waits[place]? = some wait)
    (hopen : ∀ wait, (run before).waits[place]? = some wait → wait.answers = [])
    (hintime : .runsOut place ∉ since) :
    wait.answers =
      if (run (before ++ since)).tracker.isDone wait.sequence = true then [.ok ()] else [] := by
  have hsound := Watch.sound_run (before ++ since)
  have hquiet : Quiet (before ++ since) wait.sequence ↔ Quiet before wait.sequence :=
    forall_congr' fun event => not_congr (h.unhandled_of_returned hreports hfresh ..)
  have hdone : (run (before ++ since)).tracker.isDone wait.sequence = true ↔
      Quiet (before ++ since) wait.sequence := by
    rw [hsound.tidy.isDone_iff, hsound.quiet_iff]
  rcases Watch.answers_of_steady before since (h.steady hreports hfresh) hwait hopen hintime
    with ⟨hanswers, hpending⟩ | ⟨hanswers, hfirst⟩
  · rw [if_neg (mt hdone.mp hpending), hanswers]
  · rw [if_pos (hdone.mpr (hquiet.mpr hfirst)), hanswers]

/-! ## A publication that nobody interrupts -/

/-- Where each act leads from one stage to the next, so do some acts of which none fails. -/
theorem of_stages {stage : List (Act κ) → Dispatch κ} {done left : List (Act κ)}
    {tracker' : CompletionTracker}
    (hstep : ∀ {act left bus since bus' tracker'},
      Publishing batch first before (stage (act :: left)) bus since →
      act.perform bus (run (before ++ since)).tracker = .ok (.ok (), bus', tracker') →
      Publishing batch first before (stage left) bus' (since ++ act.notes bus.reports)) :
    ∀ {bus : Bus κ π} {since : List Watch.Step},
      Publishing batch first before (stage (done ++ left)) bus since →
      performAll done bus (run (before ++ since)).tracker = .ok (.ok (), bus', tracker') →
      ∃ since', Publishing batch first before (stage left) bus' since' ∧
        tracker' = (run (before ++ since')).tracker := by
  induction done with
  | nil =>
    intro bus since h hperform
    obtain ⟨-, rfl, rfl⟩ := Except.ok.inj hperform
    exact ⟨since, h, rfl⟩
  | cons act done ih =>
    intro bus since h hperform
    rcases hact : act.perform bus (run (before ++ since)).tracker with
      fault | ⟨error | _, bus₁, tracker₁⟩
    · rw [Bus.performAll_cons_of_fault hact] at hperform
      cases hperform
    · rw [Bus.performAll_cons_of_error hact] at hperform
      cases hperform
    · rw [Bus.performAll_cons_of_ok hact, Act.tracker_perform hact, List.append_assoc] at hperform
      exact ih (hstep h hact) hperform

/-- The first acts that are left are performed, and none fails. -/
theorem of_performAll {bus : Bus κ π} {done left : List (Act κ)} {tracker' : CompletionTracker}
    (h : Publishing batch first before (.acting (done ++ left)) bus since)
    (hperform : performAll done bus (run (before ++ since)).tracker =
      .ok (.ok (), bus', tracker')) :
    ∃ since', Publishing batch first before (.acting left) bus' since' ∧
      tracker' = (run (before ++ since')).tracker :=
  of_stages .acts h hperform

/-- The first releases that are left are done. -/
theorem of_releases {bus : Bus κ π} {done left : List (Act κ)} {error : BusError}
    {tracker' : CompletionTracker}
    (h : Publishing batch first before (.failing error (done ++ left)) bus since)
    (hperform : performAll done bus (run (before ++ since)).tracker =
      .ok (.ok (), bus', tracker')) :
    ∃ since', Publishing batch first before (.failing error left) bus' since' ∧
      tracker' = (run (before ++ since')).tracker :=
  of_stages .releases h hperform

/-- One of the acts that are left fails. -/
theorem of_performAll_error {left : List (Act κ)} {error : BusError}
    {tracker' : CompletionTracker} :
    ∀ {bus : Bus κ π} {since : List Watch.Step},
      Publishing batch first before (.acting left) bus since →
      performAll left bus (run (before ++ since)).tracker = .ok (.error error, bus', tracker') →
      ∃ since', Publishing batch first before (.failing error (batch.map .release)) bus' since' ∧
        tracker' = (run (before ++ since')).tracker := by
  induction left with
  | nil =>
    intro bus since h hperform
    cases hperform
  | cons act left ih =>
    intro bus since h hperform
    rcases hact : act.perform bus (run (before ++ since)).tracker with
      fault | ⟨found | _, bus₁, tracker₁⟩
    · rw [Bus.performAll_cons_of_fault hact] at hperform
      cases hperform
    · have htracker := Act.tracker_perform hact
      rw [Act.notes_of_error hact, List.append_nil] at htracker
      rw [Bus.performAll_cons_of_error hact] at hperform
      obtain ⟨rfl, rfl, rfl⟩ := Except.ok.inj hperform
      exact ⟨since, h.declines hact, htracker⟩
    · rw [Bus.performAll_cons_of_ok hact, Act.tracker_perform hact, List.append_assoc] at hperform
      exact ih (h.acts hact) hperform

end Publishing

end Chronicle

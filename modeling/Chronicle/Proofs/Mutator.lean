import Chronicle.Mutator.Calls
import Chronicle.Proofs.Store.Numbers
import Chronicle.Table
import Chronicle.Sample.Sequence

/-!
# What calls make of a mutator

Events that all have a transition move the state by the fold of their transitions. An event that has
none ends this, and what was moved before it stays: `perform_applyEach` says both in one equation.
From it events can be applied in parts, by one mutator or by another with the same table that was
given the state between the parts. What is done with a copy is done at another place of the bench
and is not seen at this one.
-/

namespace Chronicle.Mutator

variable {σ ε : Type} {m : Mutator σ ε}

/-! ## The table -/

theorem find?_register (m : Mutator σ ε) (kind other : String) (transition : Transition σ ε) :
    (m.register kind transition).find? other =
      if other = kind then some transition else m.find? other := by
  have hrest := Table.lookup_filter_ne kind other m.transitions
  rw [find?, register, List.lookup_cons]
  by_cases h : other = kind
  · rw [if_pos h, h, beq_self_eq_true]
  · rw [if_neg h] at hrest ⊢
    rw [beq_eq_false_iff_ne.mpr h]
    simp only [ne_eq, decide_not] at hrest
    exact hrest

/-- The last transition that a kind was given is the one it has. -/
theorem find?_foldl_register (registrations : List (String × Transition σ ε)) (m : Mutator σ ε)
    (kind : String) :
    (registrations.foldl (fun m r => m.register r.1 r.2) m).find? kind =
      (registrations.reverse.lookup kind).or (m.find? kind) := by
  induction registrations generalizing m with
  | nil => rfl
  | cons r registrations ih =>
    obtain ⟨registered, transition⟩ := r
    rw [List.foldl_cons, ih, find?_register, List.reverse_cons, List.lookup_append, Option.or_assoc]
    by_cases h : kind = registered
    · simp [h]
    · simp [List.lookup_cons, h, beq_eq_false_iff_ne.mpr h]

/-! ## One event -/

section

variable [EventKind ε]

/-- Whether an event has a transition. -/
def takes (m : Mutator σ ε) (event : ε) : Bool := m.handles (EventKind.kind event)

/-- The state behind an event. One without a transition leaves it as it is. -/
def onward (m : Mutator σ ε) (state : σ) (event : ε) : Checked σ :=
  match m.find? (EventKind.kind event) with
  | none => .ok state
  | some transition => transition event state

/-- How it ends when events are applied: at the first without a transition, or well. -/
def verdict [Wire σ] (m : Mutator σ ε) (events : List ε) : Except UnhandledKind Unit :=
  match events.find? fun event => !m.takes event with
  | none => .ok ()
  | some event => .error ⟨EventKind.kind event, Wire.typeName σ⟩

variable [Wire σ]

/-- The initial state that a mutator holds while a transition runs is never left behind. -/
theorem applyInPlace_does (event : ε) :
    (applyInPlace event : InPlace (Mutator σ ε) UnhandledKind Unit).Does
      fun m => m.apply event := by
  intro m
  simp only [applyInPlace, apply, InPlace.perform_bind, InPlace.perform_get]
  cases hfind : m.find? (EventKind.kind event) with
  | none => rfl
  | some transition =>
    cases hstate : transition event m.current with
    | error fault => simp [hstate, Except.map]
    | ok state => simp [hstate, Except.map, InPlace.settle, seed, reset]

theorem apply_of_takes {event : ε} (h : m.takes event = true) :
    m.apply event = (m.onward m.current event).map fun state => .ok (m.seed state) := by
  obtain ⟨transition, hfind⟩ := Option.isSome_iff_exists.mp h
  simp only [apply, onward, hfind, seed]

theorem apply_of_not_takes {event : ε} (h : m.takes event = false) :
    m.apply event = .ok (.error ⟨EventKind.kind event, Wire.typeName σ⟩) := by
  have hfind : m.find? (EventKind.kind event) = none :=
    Option.isNone_iff_eq_none.mp (by simpa [takes, handles] using h)
  simp only [apply, hfind]

theorem perform_applyInPlace_of_takes {event : ε} (h : m.takes event = true) :
    (applyInPlace event).perform m = (m.onward m.current event).map fun state =>
      (.ok (), m.seed state) := by
  refine (applyInPlace_does event m).trans ?_
  show Except.map _ (m.apply event) = _
  rw [apply_of_takes h]
  cases m.onward m.current event <;> rfl

theorem perform_applyInPlace_of_not_takes {event : ε} (h : m.takes event = false) :
    (applyInPlace event).perform m =
      .ok (.error ⟨EventKind.kind event, Wire.typeName σ⟩, m) := by
  refine (applyInPlace_does event m).trans ?_
  show Except.map _ (m.apply event) = _
  rw [apply_of_not_takes h]
  rfl

/-! ## Events in their order -/

theorem verdict_cons_of_takes {event : ε} {events : List ε} (h : m.takes event = true) :
    m.verdict (event :: events) = m.verdict events := by
  simp only [verdict, List.find?_cons, h, Bool.not_true]

theorem verdict_cons_of_not_takes {event : ε} {events : List ε} (h : m.takes event = false) :
    m.verdict (event :: events) = .error ⟨EventKind.kind event, Wire.typeName σ⟩ := by
  simp only [verdict, List.find?_cons, h, Bool.not_false]

/-- Applying events moves the state by the transitions of those in front of the first that has
none. -/
theorem perform_applyEach (m : Mutator σ ε) (events : List ε) :
    (applyEach events).perform m =
      ((events.takeWhile m.takes).foldlM m.onward m.current).map fun state =>
        (m.verdict events, m.seed state) := by
  induction events generalizing m with
  | nil => rfl
  | cons event events ih =>
    rw [applyEach, InPlace.perform_bind]
    cases htakes : m.takes event with
    | false =>
      rw [perform_applyInPlace_of_not_takes htakes, verdict_cons_of_not_takes htakes,
        List.takeWhile_cons_of_neg (by simp [htakes])]
      rfl
    | true =>
      rw [perform_applyInPlace_of_takes htakes, verdict_cons_of_takes htakes,
        List.takeWhile_cons_of_pos htakes, List.foldlM_cons]
      cases m.onward m.current event with
      | error fault => rfl
      | ok state => exact ih (m.seed state)

/-- Events behind others are applied by whoever has the state between them. -/
theorem perform_applyEach_append (before since : List ε) :
    (applyEach (before ++ since)).perform m =
      match (applyEach before).perform m with
      | .ok (.ok (), held) => (applyEach since).perform held
      | .ok (.error error, held) => .ok (.error error, held)
      | .error fault => .error fault := by
  induction before generalizing m with
  | nil => rfl
  | cons event before ih =>
    simp only [List.cons_append, applyEach, InPlace.perform_bind]
    rcases (applyInPlace event).perform m with fault | ⟨error | ⟨⟩, held⟩
    · rfl
    · rfl
    · exact ih

theorem exists_error_verdict_iff (events : List ε) :
    (∃ error, m.verdict events = .error error) ↔ ∃ event ∈ events, m.takes event = false := by
  cases hfind : events.find? fun event => !m.takes event with
  | none =>
    simp only [verdict, hfind]
    simpa using hfind
  | some event =>
    simp only [verdict, hfind]
    exact ⟨fun _ => ⟨event, List.mem_of_find?_eq_some hfind, by simpa using List.find?_some hfind⟩,
      fun _ => ⟨_, rfl⟩⟩

end

/-! ## Copies -/

namespace Bench

variable [EventKind ε] [Wire σ] {bench bench' : Bench σ ε} {place : Nat}

/-- A step that is taken at another place, or only copies, leaves a mutator as it is. -/
theorem getElem?_step {step : Step σ ε} {outcome : Except UnhandledKind Unit}
    (hstep : bench.step step = .ok (outcome, bench')) (hplace : place < bench.length)
    (hother : ∀ call, step ≠ .call place call) : bench'[place]? = bench[place]? := by
  cases step with
  | copy source =>
    cases hstep
    exact List.getElem?_append_left hplace
  | call source call =>
    have hne : source ≠ place := fun heq => hother call (by rw [heq])
    simp only [Bench.step] at hstep
    split at hstep
    · cases hstep
      rfl
    · obtain ⟨⟨told, m⟩, -, hmade⟩ := bind_eq_ok.mp hstep
      cases hmade
      exact List.getElem?_set_ne hne

theorem length_le_step {step : Step σ ε} {outcome : Except UnhandledKind Unit}
    (hstep : bench.step step = .ok (outcome, bench')) : bench.length ≤ bench'.length := by
  cases step with
  | copy source =>
    cases hstep
    rw [List.length_append]
    exact Nat.le_add_right _ _
  | call source call =>
    simp only [Bench.step] at hstep
    split at hstep
    · cases hstep
      exact Nat.le_refl _
    · obtain ⟨⟨told, m⟩, -, hmade⟩ := bind_eq_ok.mp hstep
      cases hmade
      exact Nat.le_of_eq List.length_set.symm

/-- Whatever is done at other places, with copies and copies of copies, a mutator stays as it is. -/
theorem getElem?_run {steps : List (Step σ ε)} :
    ∀ {bench bench' : Bench σ ε} {outcomes : List (Except UnhandledKind Unit)},
      bench.run steps = .ok (outcomes, bench') → place < bench.length →
      (∀ call, .call place call ∉ steps) → bench'[place]? = bench[place]? := by
  induction steps with
  | nil =>
    intro bench bench' outcomes hrun _ _
    cases hrun
    rfl
  | cons step steps ih =>
    intro bench bench' outcomes hrun hplace hothers
    obtain ⟨⟨outcome, between⟩, hstep, hrest⟩ := bind_eq_ok.mp hrun
    obtain ⟨⟨further, last⟩, hlater, hmade⟩ := bind_eq_ok.mp hrest
    cases hmade
    have hfirst := getElem?_step hstep hplace fun call heq =>
      hothers call (heq ▸ List.mem_cons_self)
    rw [← hfirst]
    exact ih hlater (Nat.lt_of_lt_of_le hplace (length_le_step hstep)) fun call hmem =>
      hothers call (List.mem_cons_of_mem _ hmem)

end Bench

/-! ## The laws of a mutator -/

section

variable [EventKind ε] [Wire σ]

/-- Events move the state by the fold of the transitions in front of the first event that has none,
and end there with an error that names its kind. Nothing else has changed then. A mutator with the
same table that was given the state behind some events goes on from there like the one that has
applied them. The transition of a kind is the last that was registered for it, and what is done at
other places of a bench, with copies too, leaves a mutator as it is. -/
theorem events_fold_the_transitions (m : Mutator σ ε) :
    (∀ events : List ε, (applyEach events).perform m =
        ((events.takeWhile m.takes).foldlM m.onward m.current).map fun state =>
          (m.verdict events, m.seed state)) ∧
      (∀ (events : List ε) outcome after, (applyEach events).perform m = .ok (outcome, after) →
        ((∃ error, outcome = .error error) ↔ ∃ event ∈ events, m.takes event = false) ∧
          after.transitions = m.transitions ∧ after.initial = m.initial) ∧
      (∀ (before since : List ε) outcome held,
        (applyEach before).perform m = .ok (outcome, held) →
          match outcome with
          | .ok () => ∀ fresh : Mutator σ ε,
              fresh.transitions = m.transitions → fresh.initial = m.initial →
                (applyEach since).perform (fresh.seed held.current) =
                  (applyEach (before ++ since)).perform m
          | .error error => (applyEach (before ++ since)).perform m = .ok (.error error, held)) ∧
      (∀ (registrations : List (String × Transition σ ε)) kind,
        (registrations.foldl (fun m r => m.register r.1 r.2) m).find? kind =
          (registrations.reverse.lookup kind).or (m.find? kind)) ∧
      ∀ (bench bench' : Bench σ ε) steps outcomes place,
        bench.run steps = .ok (outcomes, bench') → bench[place]? = some m →
          (∀ call, .call place call ∉ steps) → bench'[place]? = some m := by
  have hleaves : ∀ (events : List ε) outcome after,
      (applyEach events).perform m = .ok (outcome, after) →
        outcome = m.verdict events ∧ after = m.seed after.current := by
    intro events outcome after happly
    rw [perform_applyEach, map_eq_ok] at happly
    obtain ⟨state, -, hmade⟩ := happly
    cases hmade
    exact ⟨rfl, rfl⟩
  refine ⟨perform_applyEach m, fun events outcome after happly => ?_,
    fun before since outcome held happly => ?_,
    fun registrations kind => find?_foldl_register registrations m kind,
    fun bench bench' steps outcomes place hrun hplace hothers => ?_⟩
  · obtain ⟨rfl, hafter⟩ := hleaves events outcome after happly
    rw [hafter]
    exact ⟨exists_error_verdict_iff events, rfl, rfl⟩
  · have hwhole : (applyEach (before ++ since)).perform m = _ :=
      perform_applyEach_append before since
    rw [happly] at hwhole
    match outcome with
    | .error error => exact hwhole
    | .ok () =>
      intro fresh htable hinitial
      have hheld : fresh.seed held.current = held := by
        rw [(hleaves before _ held happly).2, seed, seed, htable, hinitial]
      rw [hheld, hwhole]
  · have hlt : place < bench.length := (List.getElem?_eq_some_iff.mp hplace).1
    rw [Bench.getElem?_run hrun hlt hothers, hplace]

end

/-- A sequence that cannot be cleared, whose additions were given another transition. -/
def growingOnly : Mutator Sample.SequenceState Sample.SequenceEvent :=
  ((new .empty).register "ItemAdded.v1" fun _ state => .ok state).register "ItemAdded.v1"
    Sample.SequenceState.onItemAdded

/-- It adds up to the clearing, in one go or in two, and stays as it is when a copy adds. -/
theorem growingOnly_adds_up_to_the_clearing :
    (applyEach [.itemAdded 3, .itemAdded 4]).perform growingOnly =
        .ok (.ok (), growingOnly.seed ⟨[3, 4], 7⟩) ∧
      (applyEach [.itemAdded 5, .cleared]).perform (growingOnly.seed ⟨[3, 4], 7⟩) =
        (applyEach [.itemAdded 3, .itemAdded 4, .itemAdded 5, .cleared]).perform growingOnly ∧
      (applyEach [.itemAdded 3, .itemAdded 4, .itemAdded 5, .cleared]).perform growingOnly =
        .ok (.error ⟨"Cleared.v1", Wire.typeName Sample.SequenceState⟩,
          growingOnly.seed ⟨[3, 4, 5], 12⟩) ∧
      ∀ outcomes bench, Bench.run [growingOnly] [.copy 0, .call 1 (.apply (.itemAdded 3))] =
        .ok (outcomes, bench) → bench[0]? = some growingOnly := by
  obtain ⟨hfold, -, hsplit, -, hbench⟩ := events_fold_the_transitions growingOnly
  have hbefore : (applyEach [.itemAdded 3, .itemAdded 4]).perform growingOnly =
      .ok (.ok (), growingOnly.seed ⟨[3, 4], 7⟩) := hfold _
  refine ⟨hbefore, hsplit _ _ _ _ hbefore growingOnly rfl rfl, hfold _,
    fun outcomes bench hrun => ?_⟩
  refine hbench _ _ _ _ _ hrun rfl fun call hmem => ?_
  simp at hmem

end Chronicle.Mutator

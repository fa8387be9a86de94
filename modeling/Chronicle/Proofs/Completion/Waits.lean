import Chronicle.Proofs.Completion.Views
import Mathlib.Data.List.Induction
import Mathlib.Data.List.Nodup

/-!
# Waits and the sequences they are for

A `Watch` is a tracker with all who ever began to wait for a sequence, each with the answers that it
was given. Events are published and handled, waits begin and their times run out, in any order:
events may be handled that were never published, a sequence may be done and be published to again,
and a time may run out that no longer matters.

Whatever is done, the tracker stays exact (`Watch.Sound`): what is unhandled, and who waits for what,
follows from the steps alone. So each wait is answered as its sequence and its time decide
(`Stands`): with the first step behind which nothing of the sequence is unhandled, or with the step
at which the time runs out, whichever comes first, and never again.
-/

namespace Chronicle

/-- One who began to wait. -/
structure Wait where
  sequence : SequenceId
  timeout : Duration
  /-- The number under which it was enrolled, unless the sequence was done. -/
  number : Option Nat
  answers : List (Except CompletionTimeout Unit)

namespace Wait

/-- A wait is told of those who are released. -/
def told (wait : Wait) (released : List Nat) : Wait :=
  match wait.number with
  | none => wait
  | some number =>
    { wait with answers := wait.answers ++ List.replicate (released.count number) (.ok ()) }

/-- The time of a wait runs out. One who no longer waits and was not told so takes its sequence for
done. -/
def runOut (wait : Wait) (tracker : CompletionTracker) : Wait × CompletionTracker :=
  match wait.number with
  | none => (wait, tracker)
  | some number =>
    let (waited, tracker) := tracker.expire wait.sequence number
    if waited then
      ({ wait with answers := wait.answers ++ [.error ⟨wait.sequence, wait.timeout⟩] }, tracker)
    else if wait.answers.isEmpty then ({ wait with answers := [.ok ()] }, tracker)
    else (wait, tracker)

/-- A wait for a sequence that was enrolled under a number and is not answered. -/
def OpenUnder (wait : Wait) (sequence : SequenceId) (number : Nat) : Prop :=
  wait.sequence = sequence ∧ wait.number = some number ∧ wait.answers = []

theorem told_of_mem {wait : Wait} {released : List Nat} (hnodup : released.Nodup) {number : Nat}
    (hnumber : wait.number = some number) (hmem : number ∈ released) :
    wait.told released = { wait with answers := wait.answers ++ [.ok ()] } := by
  rw [told, hnumber]
  simp only [List.count_eq_one_of_mem hnodup hmem, List.replicate_one]

theorem told_of_not_mem {wait : Wait} {released : List Nat}
    (h : ∀ number, wait.number = some number → number ∉ released) : wait.told released = wait := by
  unfold told
  split
  · rfl
  · next number hnumber =>
    rw [List.count_eq_zero_of_not_mem (h number hnumber), List.replicate_zero, List.append_nil]

theorem runOut_views (wait : Wait) (tracker : CompletionTracker) :
    (tracker.Tidy → (wait.runOut tracker).2.Tidy) ∧
      (wait.runOut tracker).2.nextWaiter = tracker.nextWaiter ∧
      ∀ sequence, (wait.runOut tracker).2.outstanding sequence = tracker.outstanding sequence := by
  unfold runOut
  split
  · exact ⟨id, rfl, fun _ => rfl⟩
  · next number _ =>
    have hviews : (tracker.Tidy → (tracker.expire wait.sequence number).2.Tidy) ∧
        (tracker.expire wait.sequence number).2.nextWaiter = tracker.nextWaiter ∧
        ∀ sequence, (tracker.expire wait.sequence number).2.outstanding sequence =
          tracker.outstanding sequence :=
      ⟨fun h => h.expire .., tracker.nextWaiter_expire ..,
        fun _ => tracker.outstanding_expire ..⟩
    simp only
    split
    · exact hviews
    · split <;> exact hviews

theorem number_told (wait : Wait) (released : List Nat) :
    (wait.told released).number = wait.number := by
  unfold told
  split <;> simp [*]

end Wait

/-- A tracker and all who ever began to wait. -/
structure Watch where
  tracker : CompletionTracker
  waits : List Wait

namespace Watch

/-- One thing that is done. -/
inductive Step where
  | starts (sequence : SequenceId) (event : EventId)
  | completes (sequence : SequenceId) (event : EventId)
  | waits (sequence : SequenceId) (timeout : Duration)
  /-- The time of the wait at a place runs out. -/
  | runsOut (place : Nat)

def step (w : Watch) : Step → Watch
  | .starts sequence event => ⟨w.tracker.start sequence event, w.waits⟩
  | .completes sequence event =>
    let tracker := w.tracker.complete sequence event
    ⟨tracker, w.waits.map fun wait =>
      wait.told (tracker.released.drop w.tracker.released.length)⟩
  | .waits sequence timeout =>
    match w.tracker.enroll sequence with
    | (none, tracker) => ⟨tracker, w.waits ++ [⟨sequence, timeout, none, [.ok ()]⟩]⟩
    | (some number, tracker) => ⟨tracker, w.waits ++ [⟨sequence, timeout, some number, []⟩]⟩
  | .runsOut place =>
    match w.waits[place]? with
    | none => w
    | some wait => ⟨(wait.runOut w.tracker).2, w.waits.set place (wait.runOut w.tracker).1⟩

/-- What some steps lead to from the beginning. -/
def run (steps : List Step) : Watch := steps.foldl step ⟨.empty, []⟩

theorem run_concat (steps : List Step) (s : Step) : run (steps ++ [s]) = (run steps).step s := by
  simp [run]

/-! ## What follows from the steps alone -/

/-- What a step notes of an event: that it is published, or that it is handled. -/
def Step.mark? (sequence : SequenceId) (event : EventId) : Step → Option Bool
  | .starts s e => if s = sequence ∧ e = event then some true else none
  | .completes s e => if s = sequence ∧ e = event then some false else none
  | _ => none

/-- The latest that was noted of an event is that it is published. -/
def Unhandled (steps : List Step) (sequence : SequenceId) (event : EventId) : Prop :=
  (steps.filterMap (Step.mark? sequence event)).getLast? = some true

/-- Nothing of a sequence is unhandled. -/
def Quiet (steps : List Step) (sequence : SequenceId) : Prop :=
  ∀ event, ¬Unhandled steps sequence event

theorem unhandled_concat (steps : List Step) (s : Step) (sequence : SequenceId) (event : EventId) :
    Unhandled (steps ++ [s]) sequence event ↔
      s.mark? sequence event = some true ∨
        s.mark? sequence event = none ∧ Unhandled steps sequence event := by
  unfold Unhandled
  cases h : s.mark? sequence event <;> simp [h]

theorem unhandled_waits (steps : List Step) (awaited : SequenceId) (timeout : Duration)
    (sequence : SequenceId) (event : EventId) :
    Unhandled (steps ++ [.waits awaited timeout]) sequence event ↔
      Unhandled steps sequence event := by
  simp [unhandled_concat, Step.mark?]

theorem unhandled_runsOut (steps : List Step) (place : Nat) (sequence : SequenceId)
    (event : EventId) :
    Unhandled (steps ++ [.runsOut place]) sequence event ↔ Unhandled steps sequence event := by
  simp [unhandled_concat, Step.mark?]

/-- What is unhandled does not depend on steps that note nothing. -/
theorem unhandled_filter (before since : List Step) {p : Step → Bool} {sequence : SequenceId}
    {event : EventId} (hp : ∀ s, p s = false → s.mark? sequence event = none) :
    Unhandled (before ++ since.filter p) sequence event ↔
      Unhandled (before ++ since) sequence event := by
  have hmarks : (since.filter p).filterMap (Step.mark? sequence event) =
      since.filterMap (Step.mark? sequence event) := by
    rw [List.filterMap_filter]
    refine List.filterMap_congr fun s _ => ?_
    cases hs : p s with
    | true => rfl
    | false => exact (hp s hs).symm
  rw [Unhandled, Unhandled, List.filterMap_append, List.filterMap_append, hmarks]

/-- How a wait that began behind some steps stands behind some more: it is open, it was answered
when nothing of its sequence was unhandled, or when its time ran out. -/
inductive Stands (before since : List Step) (place : Nat) (sequence : SequenceId)
    (timeout : Duration) : List (Except CompletionTimeout Unit) → Prop
  | waiting (hpending : ∀ pre, pre <+: since → ¬Quiet (before ++ pre) sequence)
      (hintime : .runsOut place ∉ since) : Stands before since place sequence timeout []
  | done {pre : List Step} (hpre : pre <+: since) (hquiet : Quiet (before ++ pre) sequence)
      (hintime : .runsOut place ∉ pre) : Stands before since place sequence timeout [.ok ()]
  | late {pre : List Step} (hpre : pre ++ [.runsOut place] <+: since)
      (hpending : ∀ earlier, earlier <+: pre → ¬Quiet (before ++ earlier) sequence) :
      Stands before since place sequence timeout [.error ⟨sequence, timeout⟩]

/-! ## The tracker is exact -/

/-- The tracker tells what is unhandled, and enrolled are those whose waits are not answered. -/
structure Sound (steps : List Step) (w : Watch) : Prop where
  tidy : w.tracker.Tidy
  marks : ∀ sequence event,
    event ∈ w.tracker.outstanding sequence ↔ Unhandled steps sequence event
  nodup : ∀ sequence, (w.tracker.waiters sequence).Nodup
  numbers : w.waits.filterMap Wait.number = List.range w.tracker.nextWaiter
  enrolled : ∀ sequence number, number ∈ w.tracker.waiters sequence ↔
    ∃ wait ∈ w.waits, wait.OpenUnder sequence number
  unnumbered : ∀ wait ∈ w.waits, wait.number = none → wait.answers ≠ []

variable {steps : List Step} {w : Watch} {place : Nat} {wait : Wait}

theorem Sound.quiet_iff (h : Sound steps w) (sequence : SequenceId) :
    Quiet steps sequence ↔ w.tracker.outstanding sequence = [] := by
  rw [List.eq_nil_iff_forall_not_mem, Quiet]
  exact forall_congr' fun event => not_congr (h.marks sequence event).symm

/-- No two waits have the same number. -/
theorem Sound.place_eq (h : Sound steps w) {other : Nat} {wait' : Wait} {number : Nat}
    (hwait : w.waits[place]? = some wait) (hwait' : w.waits[other]? = some wait')
    (hnumber : wait.number = some number) (hnumber' : wait'.number = some number) :
    place = other := by
  have hpairwise : w.waits.Pairwise fun a b =>
      ∀ n, a.number = some n → ∀ n', b.number = some n' → n ≠ n' := by
    rw [← List.pairwise_filterMap, h.numbers]
    exact List.nodup_range
  obtain ⟨hlt, rfl⟩ := List.getElem?_eq_some_iff.mp hwait
  obtain ⟨hlt', rfl⟩ := List.getElem?_eq_some_iff.mp hwait'
  rcases Nat.lt_trichotomy place other with hless | heq | hless
  · exact absurd rfl (List.pairwise_iff_getElem.mp hpairwise _ _ hlt hlt' hless _ hnumber _ hnumber')
  · exact heq
  · exact absurd rfl (List.pairwise_iff_getElem.mp hpairwise _ _ hlt' hlt hless _ hnumber' _ hnumber)

/-- One whose wait is answered is not enrolled, with any sequence. -/
theorem Sound.not_mem_waiters (h : Sound steps w) (hwait : w.waits[place]? = some wait)
    {number : Nat} (hnumber : wait.number = some number) (hanswered : wait.answers ≠ [])
    (sequence : SequenceId) : number ∉ w.tracker.waiters sequence := by
  intro hmem
  obtain ⟨wait', hmem', -, hnumber', hopen⟩ := (h.enrolled sequence number).mp hmem
  obtain ⟨other, hwait'⟩ := List.mem_iff_getElem?.mp hmem'
  obtain rfl := h.place_eq hwait hwait' hnumber hnumber'
  obtain rfl := Option.some.inj (hwait.symm.trans hwait')
  exact hanswered hopen

/-- One whose wait is not answered is enrolled, with the sequence that it waits for. -/
theorem Sound.mem_waiters (h : Sound steps w) (hwait : w.waits[place]? = some wait)
    (hopen : wait.answers = []) :
    ∃ number, wait.number = some number ∧ number ∈ w.tracker.waiters wait.sequence := by
  cases hnumber : wait.number with
  | none => exact absurd hopen (h.unnumbered wait (List.mem_of_getElem? hwait) hnumber)
  | some number =>
    exact ⟨number, rfl,
      (h.enrolled _ _).mpr ⟨wait, List.mem_of_getElem? hwait, rfl, hnumber, hopen⟩⟩

/-! ## One step -/

theorem step_completes (w : Watch) (sequence : SequenceId) (event : EventId) :
    w.step (.completes sequence event) =
      ⟨w.tracker.complete sequence event, w.waits.map fun wait => wait.told
        (if w.tracker.empties sequence event = true then w.tracker.waiters sequence else [])⟩ := by
  simp only [step, CompletionTracker.released_complete, List.drop_left]

/-- A wait that is answered is not answered again when its time runs out, and nobody is taken
out. -/
theorem Sound.runOut_of_answered (h : Sound steps w) (hwait : w.waits[place]? = some wait)
    (hanswered : wait.answers ≠ []) :
    (wait.runOut w.tracker).1 = wait ∧
      ∀ other, (wait.runOut w.tracker).2.waiters other = w.tracker.waiters other := by
  unfold Wait.runOut
  cases hnumber : wait.number with
  | none => exact ⟨rfl, fun other => rfl⟩
  | some number =>
    have hout := h.not_mem_waiters hwait hnumber hanswered
    have hfst : (w.tracker.expire wait.sequence number).1 = false := by
      simp [CompletionTracker.expire_fst, hout]
    have hempty : wait.answers.isEmpty = false := by
      rw [List.isEmpty_eq_false_iff]
      exact hanswered
    simp only [hfst, hempty, Bool.false_eq_true, if_false]
    refine ⟨trivial, fun other => ?_⟩
    rw [CompletionTracker.waiters_expire]
    split
    · next heq =>
      subst heq
      exact List.filter_eq_self.mpr fun n hn => decide_eq_true fun heq => hout _ (heq ▸ hn)
    · rfl

/-- A wait that is not answered is taken out when its time runs out, and is answered so. -/
theorem Sound.runOut_of_open (h : Sound steps w) (hwait : w.waits[place]? = some wait)
    (hopen : wait.answers = []) :
    ∃ number, wait.number = some number ∧ wait.runOut w.tracker =
      ({ wait with answers := [.error ⟨wait.sequence, wait.timeout⟩] },
        (w.tracker.expire wait.sequence number).2) := by
  obtain ⟨number, hnumber, hmem⟩ := h.mem_waiters hwait hopen
  have hfst : (w.tracker.expire wait.sequence number).1 = true := by
    rw [CompletionTracker.expire_fst]
    exact List.contains_iff_mem.mpr hmem
  refine ⟨number, hnumber, ?_⟩
  simp only [Wait.runOut, hnumber, hfst, if_true, hopen, List.nil_append]

/-- How a step turns the answers of the wait at a place. -/
inductive Turns (s : Step) (place : Nat) (wait : Wait) (w' : Watch) :
    List (Except CompletionTimeout Unit) → Prop
  | settled (hanswered : wait.answers ≠ []) : Turns s place wait w' wait.answers
  | late (hopen : wait.answers = []) (hstep : s = .runsOut place) :
      Turns s place wait w' [.error ⟨wait.sequence, wait.timeout⟩]
  | done (hopen : wait.answers = []) (hstep : s ≠ .runsOut place)
      (hquiet : w'.tracker.outstanding wait.sequence = []) : Turns s place wait w' [.ok ()]
  | waiting (hopen : wait.answers = []) (hstep : s ≠ .runsOut place)
      (hpending : w'.tracker.outstanding wait.sequence ≠ []) : Turns s place wait w' []

/-- A wait that the step says nothing of, and whose sequence does not become quiet. -/
theorem Turns.same {s : Step} {w' : Watch} (hstep : s ≠ .runsOut place)
    (hpending : wait.answers = [] → w'.tracker.outstanding wait.sequence ≠ []) :
    Turns s place wait w' wait.answers := by
  by_cases hopen : wait.answers = []
  · have hwaiting := Turns.waiting hopen hstep (hpending hopen)
    rwa [← hopen] at hwaiting
  · exact .settled hopen

/-- A wait is released only if it is not answered and an event is the last of its sequence. -/
theorem Sound.told_of_kept (h : Sound steps w) (hwait : w.waits[place]? = some wait)
    {sequence : SequenceId} {event : EventId}
    (hkept : ¬(wait.answers = [] ∧ wait.sequence = sequence ∧
      w.tracker.empties sequence event = true)) :
    wait.told (if w.tracker.empties sequence event = true then w.tracker.waiters sequence else []) =
      wait := by
  refine Wait.told_of_not_mem fun number hnumber hmem => ?_
  split at hmem
  · next hempties =>
    obtain ⟨wait', hmem', hsequence, hnumber', hopen⟩ := (h.enrolled _ _).mp hmem
    obtain ⟨other, hwait'⟩ := List.mem_iff_getElem?.mp hmem'
    obtain rfl := h.place_eq hwait hwait' hnumber hnumber'
    obtain rfl := Option.some.inj (hwait.symm.trans hwait')
    exact hkept ⟨hopen, hsequence, hempties⟩
  · cases hmem

/-- The sequence of a wait that is not answered has unhandled events. -/
theorem Sound.outstanding_of_open (h : Sound steps w) (hwait : w.waits[place]? = some wait)
    (hopen : wait.answers = []) : w.tracker.outstanding wait.sequence ≠ [] := by
  obtain ⟨number, -, hmem⟩ := h.mem_waiters hwait hopen
  intro hquiet
  rw [CompletionTracker.waiters_of_isDone ((h.tidy.isDone_iff _).mpr hquiet)] at hmem
  cases hmem

theorem Sound.turns (h : Sound steps w) (hwait : w.waits[place]? = some wait) (s : Step) :
    ∃ answers, (w.step s).waits[place]? = some { wait with answers := answers } ∧
      Turns s place wait (w.step s) answers := by
  have hpending := h.outstanding_of_open hwait
  cases s with
  | starts sequence event =>
    refine ⟨wait.answers, hwait, .same (by simp) fun hopen => ?_⟩
    simp only [step, CompletionTracker.outstanding_start]
    split
    · exact List.ne_nil_of_mem List.mem_insert_self
    · exact hpending hopen
  | completes sequence event =>
    rw [step_completes, List.getElem?_map, hwait, Option.map_some]
    by_cases hreleased : wait.answers = [] ∧ wait.sequence = sequence ∧
      w.tracker.empties sequence event = true
    · obtain ⟨hopen, rfl, hempties⟩ := hreleased
      obtain ⟨number, hnumber, hmem⟩ := h.mem_waiters hwait hopen
      rw [if_pos hempties, Wait.told_of_mem (h.nodup _) hnumber hmem, hopen]
      refine ⟨_, rfl, .done hopen (by simp) ?_⟩
      rw [CompletionTracker.outstanding_complete, if_pos rfl]
      exact List.isEmpty_iff.mp hempties
    · rw [h.told_of_kept hwait hreleased]
      refine ⟨wait.answers, rfl, .same (by simp) fun hopen => ?_⟩
      simp only [CompletionTracker.outstanding_complete]
      split
      · next hsequence =>
        exact fun hnil => hreleased ⟨hopen, hsequence, List.isEmpty_iff.mpr hnil⟩
      · exact hpending hopen
  | waits sequence timeout =>
    have hlt := (List.getElem?_eq_some_iff.mp hwait).1
    rcases w.tracker.enroll_cases sequence with ⟨-, henroll⟩ | ⟨t, -, henroll, hviews⟩
    · have hstep : w.step (.waits sequence timeout) =
          ⟨w.tracker, w.waits ++ [⟨sequence, timeout, none, [.ok ()]⟩]⟩ := by
        simp only [step, henroll]
      rw [hstep]
      exact ⟨wait.answers, (List.getElem?_append_left hlt).trans hwait, .same (by simp) hpending⟩
    · have hstep : w.step (.waits sequence timeout) =
          ⟨t, w.waits ++ [⟨sequence, timeout, some w.tracker.nextWaiter, []⟩]⟩ := by
        simp only [step, henroll]
      rw [hstep]
      refine ⟨wait.answers, (List.getElem?_append_left hlt).trans hwait, .same (by simp) ?_⟩
      rwa [hviews.outstanding]
  | runsOut other =>
    cases hother : w.waits[other]? with
    | none =>
      have hne : other ≠ place := by
        rintro rfl
        cases hother.symm.trans hwait
      have hstep : w.step (.runsOut other) = w := by simp only [step, hother]
      rw [hstep]
      exact ⟨wait.answers, hwait, .same (by simpa using hne) hpending⟩
    | some wait' =>
      have hstep : w.step (.runsOut other) =
          ⟨(wait'.runOut w.tracker).2, w.waits.set other (wait'.runOut w.tracker).1⟩ := by
        simp only [step, hother]
      rw [hstep]
      by_cases hplace : other = place
      · subst hplace
        obtain rfl := Option.some.inj (hwait.symm.trans hother)
        rw [List.getElem?_set_self (List.getElem?_eq_some_iff.mp hwait).1]
        by_cases hopen : wait.answers = []
        · obtain ⟨number, -, hout⟩ := h.runOut_of_open hwait hopen
          exact ⟨_, by rw [hout], .late hopen rfl⟩
        · exact ⟨_, by rw [(h.runOut_of_answered hwait hopen).1], .settled hopen⟩
      · rw [List.getElem?_set_ne hplace]
        refine ⟨wait.answers, hwait, .same (by simpa using hplace) fun hopen => ?_⟩
        rw [(wait'.runOut_views w.tracker).2.2]
        exact hpending hopen

/-! ### What a step preserves -/

theorem Sound.starts (h : Sound steps w) (sequence : SequenceId) (event : EventId) :
    Sound (steps ++ [.starts sequence event]) (w.step (.starts sequence event)) where
  tidy := h.tidy.start ..
  marks other e := by
    simp only [step, CompletionTracker.outstanding_start, unhandled_concat, Step.mark?, ← h.marks]
    by_cases hs : sequence = other <;> by_cases he : event = e <;>
      simp [hs, he, Ne.symm, List.mem_insert_iff, eq_comm]
  nodup other := by
    rw [step, CompletionTracker.waiters_start]
    exact h.nodup other
  numbers := h.numbers
  enrolled other number := by
    rw [step, CompletionTracker.waiters_start]
    exact h.enrolled other number
  unnumbered := h.unnumbered

theorem Sound.completes (h : Sound steps w) (sequence : SequenceId) (event : EventId) :
    Sound (steps ++ [.completes sequence event]) (w.step (.completes sequence event)) := by
  rw [step_completes]
  refine ⟨h.tidy.complete .., fun other e => ?_, fun other => ?_, ?_, fun other number => ?_, ?_⟩
  · simp only [CompletionTracker.outstanding_complete, unhandled_concat, Step.mark?, ← h.marks]
    by_cases hs : sequence = other <;> by_cases he : event = e <;>
      simp [hs, he, Ne.symm, eq_comm]
  · simp only [CompletionTracker.waiters_complete]
    split
    · exact List.nodup_nil
    · exact h.nodup other
  · simp only [List.filterMap_map, Function.comp_def, Wait.number_told,
      CompletionTracker.nextWaiter_complete]
    exact h.numbers
  · simp only [CompletionTracker.waiters_complete]
    constructor
    · intro hmem
      split at hmem
      · cases hmem
      next hkept =>
      obtain ⟨wait, hwait, hopen⟩ := (h.enrolled other number).mp hmem
      obtain ⟨place, hplace⟩ := List.mem_iff_getElem?.mp hwait
      have htold := h.told_of_kept hplace
        fun hreleased => hkept ⟨hopen.1.symm.trans hreleased.2.1, hreleased.2.2⟩
      exact ⟨wait, List.mem_map.mpr ⟨wait, hwait, htold⟩, hopen⟩
    · rintro ⟨_, hmem, hopen⟩
      obtain ⟨wait, hwait, rfl⟩ := List.mem_map.mp hmem
      obtain ⟨place, hplace⟩ := List.mem_iff_getElem?.mp hwait
      by_cases hreleased : wait.answers = [] ∧ wait.sequence = sequence ∧
        w.tracker.empties sequence event = true
      · obtain ⟨hnil, rfl, hempties⟩ := hreleased
        obtain ⟨_, hnumber, hin⟩ := h.mem_waiters hplace hnil
        rw [if_pos hempties, Wait.told_of_mem (h.nodup _) hnumber hin, hnil] at hopen
        cases hopen.2.2
      · rw [h.told_of_kept hplace hreleased] at hopen
        rw [if_neg fun hgone => hreleased ⟨hopen.2.2, hopen.1.trans hgone.1, hgone.2⟩]
        exact (h.enrolled other number).mpr ⟨wait, hwait, hopen⟩
  · intro _ hmem hnumber
    obtain ⟨wait, hwait, rfl⟩ := List.mem_map.mp hmem
    rw [Wait.number_told] at hnumber
    rw [Wait.told_of_not_mem fun number hnumber' => by rw [hnumber] at hnumber'; cases hnumber']
    exact h.unnumbered wait hwait hnumber

theorem Sound.waits (h : Sound steps w) (sequence : SequenceId) (timeout : Duration) :
    Sound (steps ++ [.waits sequence timeout]) (w.step (.waits sequence timeout)) := by
  rcases w.tracker.enroll_cases sequence with ⟨-, henroll⟩ | ⟨t, -, henroll, hviews⟩
  · simp only [step, henroll]
    refine ⟨h.tidy, fun other event => ?_, h.nodup, ?_, fun other number => ?_, ?_⟩
    · rw [unhandled_waits]
      exact h.marks other event
    · simpa using h.numbers
    · simpa [or_and_right, exists_or, Wait.OpenUnder] using h.enrolled other number
    · simpa [or_imp, forall_and] using h.unnumbered
  · have htidy := h.tidy.enroll sequence
    rw [henroll] at htidy
    have hfresh : ∀ other, w.tracker.nextWaiter ∉ w.tracker.waiters other := by
      intro other hmem
      obtain ⟨wait, hwait, -, hnumber, -⟩ := (h.enrolled other _).mp hmem
      have hmem' := List.mem_filterMap.mpr ⟨wait, hwait, hnumber⟩
      rw [h.numbers, List.mem_range] at hmem'
      exact Nat.lt_irrefl _ hmem'
    simp only [step, henroll]
    refine ⟨htidy, fun other event => ?_, fun other => ?_, ?_, fun other number => ?_, ?_⟩
    · rw [unhandled_waits, hviews.outstanding]
      exact h.marks other event
    · rw [hviews.waiters]
      split
      · exact List.nodup_append.mpr ⟨h.nodup _, by simp, fun a ha b hb => by
          rintro rfl
          exact hfresh _ (List.mem_singleton.mp hb ▸ ha)⟩
      · exact h.nodup other
    · simp [hviews.nextWaiter, h.numbers, List.range_succ]
    · rw [hviews.waiters]
      by_cases hother : other = sequence
      · subst hother
        simp [or_and_right, exists_or, Wait.OpenUnder, h.enrolled, eq_comm]
      · simp [or_and_right, exists_or, Wait.OpenUnder, h.enrolled, hother, Ne.symm hother]
    · simpa [or_imp, forall_and] using h.unnumbered

theorem set_same (hwait : w.waits[place]? = some wait) : w.waits.set place wait = w.waits := by
  rw [← (List.getElem?_eq_some_iff.mp hwait).2, List.set_getElem_self]

theorem numbers_set (hwait : w.waits[place]? = some wait) {wait' : Wait}
    (hnumber : wait'.number = wait.number) :
    (w.waits.set place wait').filterMap Wait.number = w.waits.filterMap Wait.number := by
  have hmap : (w.waits.set place wait').map Wait.number = w.waits.map Wait.number := by
    rw [List.map_set, hnumber, ← List.map_set, set_same hwait]
  simpa [List.filterMap_map] using congrArg (List.filterMap id) hmap

/-- A wait whose time runs out is the only one that is taken out. -/
theorem Sound.runsOut_of_open (h : Sound steps w) (hwait : w.waits[place]? = some wait)
    (hopen : wait.answers = []) :
    Sound (steps ++ [.runsOut place])
      ⟨(wait.runOut w.tracker).2, w.waits.set place (wait.runOut w.tracker).1⟩ := by
  obtain ⟨htidy, hnext, houtstanding⟩ := wait.runOut_views w.tracker
  obtain ⟨number, hnumber, hout⟩ := h.runOut_of_open hwait hopen
  have hlt := (List.getElem?_eq_some_iff.mp hwait).1
  have hwaiters := fun other => w.tracker.waiters_expire wait.sequence other number
  rw [hout] at htidy hnext houtstanding ⊢
  refine ⟨htidy h.tidy, fun other event => ?_, fun other => ?_, ?_, fun other n => ?_, ?_⟩
  · rw [houtstanding, unhandled_runsOut]
    exact h.marks other event
  · simp only [hwaiters]
    split
    · exact (h.nodup _).filter _
    · exact h.nodup other
  · rw [hnext, ← h.numbers]
    exact numbers_set hwait rfl
  · simp only [hwaiters]
    constructor
    · intro hmem
      have hkept : n ∈ w.tracker.waiters other ∧ ¬(other = wait.sequence ∧ n = number) := by
        split at hmem
        · next heq =>
          subst heq
          obtain ⟨hin, hne⟩ := List.mem_filter.mp hmem
          exact ⟨hin, fun hboth => of_decide_eq_true hne hboth.2⟩
        · next hne => exact ⟨hmem, fun hboth => hne hboth.1⟩
      obtain ⟨wait', hmem', hopen'⟩ := (h.enrolled other n).mp hkept.1
      obtain ⟨place', hwait'⟩ := List.mem_iff_getElem?.mp hmem'
      have hplace : place ≠ place' := by
        rintro rfl
        obtain rfl := Option.some.inj (hwait.symm.trans hwait')
        exact hkept.2 ⟨hopen'.1.symm, Option.some.inj (hopen'.2.1.symm.trans hnumber)⟩
      refine ⟨wait', List.mem_iff_getElem?.mpr ⟨place', ?_⟩, hopen'⟩
      rw [List.getElem?_set_ne hplace, hwait']
    · rintro ⟨wait', hmem', hopen'⟩
      obtain ⟨place', hwait'⟩ := List.mem_iff_getElem?.mp hmem'
      by_cases hplace : place = place'
      · subst hplace
        rw [List.getElem?_set_self hlt] at hwait'
        obtain rfl := Option.some.inj hwait'
        cases hopen'.2.2
      · rw [List.getElem?_set_ne hplace] at hwait'
        have hmem := (h.enrolled other n).mpr ⟨wait', List.mem_of_getElem? hwait', hopen'⟩
        split
        · next heq =>
          refine List.mem_filter.mpr ⟨heq ▸ hmem, decide_eq_true fun hn => hplace ?_⟩
          exact h.place_eq hwait hwait' hnumber (hn ▸ hopen'.2.1)
        · exact hmem
  · intro wait' hmem' hnone
    rcases List.mem_or_eq_of_mem_set hmem' with hmem' | rfl
    · exact h.unnumbered wait' hmem' hnone
    · cases hnone.symm.trans hnumber

theorem Sound.runsOut (h : Sound steps w) (place : Nat) :
    Sound (steps ++ [.runsOut place]) (w.step (.runsOut place)) := by
  cases hwait : w.waits[place]? with
  | none =>
    simp only [step, hwait]
    refine ⟨h.tidy, fun other event => ?_, h.nodup, h.numbers, h.enrolled, h.unnumbered⟩
    rw [unhandled_runsOut]
    exact h.marks other event
  | some wait =>
    simp only [step, hwait]
    obtain ⟨htidy, hnext, houtstanding⟩ := wait.runOut_views w.tracker
    by_cases hopen : wait.answers = []
    · exact h.runsOut_of_open hwait hopen
    · obtain ⟨hsame, hwaiters⟩ := h.runOut_of_answered hwait hopen
      rw [hsame, set_same hwait]
      refine ⟨htidy h.tidy, fun other event => ?_, fun other => ?_, hnext ▸ h.numbers,
        fun other number => ?_, h.unnumbered⟩
      · rw [houtstanding, unhandled_runsOut]
        exact h.marks other event
      · rw [hwaiters]
        exact h.nodup other
      · rw [hwaiters]
        exact h.enrolled other number

theorem Sound.step (h : Sound steps w) (s : Step) : Sound (steps ++ [s]) (w.step s) := by
  cases s with
  | starts sequence event => exact h.starts sequence event
  | completes sequence event => exact h.completes sequence event
  | waits sequence timeout => exact h.waits sequence timeout
  | runsOut place => exact h.runsOut place

theorem sound_run (steps : List Step) : Sound steps (run steps) := by
  induction steps using List.reverseRecOn with
  | nil =>
    refine ⟨CompletionTracker.tidy_empty, fun sequence event => ?_, fun sequence => ?_, rfl,
      fun sequence number => ?_, fun _ hmem => by cases hmem⟩
    · simp [run, CompletionTracker.empty, CompletionTracker.outstanding, Table.get?_empty,
        Unhandled]
    · simp [run, CompletionTracker.empty, CompletionTracker.waiters, Table.get?_empty]
    · simp [run, CompletionTracker.empty, CompletionTracker.waiters, Table.get?_empty]
  | append_singleton steps s ih =>
    rw [run_concat]
    exact ih.step s

/-! ## Waits are answered once, and in time -/

section Stands

variable {before since : List Step} {sequence : SequenceId} {timeout : Duration}
  {answers : List (Except CompletionTimeout Unit)}

/-- Where a wait that is answered stands, it stands ever after. -/
theorem Stands.mono {since' : List Step} (h : Stands before since place sequence timeout answers)
    (hanswered : answers ≠ []) (hsince : since <+: since') :
    Stands before since' place sequence timeout answers := by
  cases h with
  | waiting => exact absurd rfl hanswered
  | done hpre hquiet hintime => exact .done (hpre.trans hsince) hquiet hintime
  | late hpre hpending => exact .late (hpre.trans hsince) hpending

/-- A wait does not stand in two ways. -/
theorem Stands.unique {answers' : List (Except CompletionTimeout Unit)}
    (h : Stands before since place sequence timeout answers)
    (h' : Stands before since place sequence timeout answers') : answers = answers' := by
  have hdone_late : ∀ {pre pre' : List Step}, pre <+: since → .runsOut place ∉ pre →
      Quiet (before ++ pre) sequence → pre' ++ [.runsOut place] <+: since →
      ¬∀ earlier, earlier <+: pre' → ¬Quiet (before ++ earlier) sequence := by
    intro pre pre' hpre hintime hquiet hpre' hpending
    rcases List.prefix_or_prefix_of_prefix hpre hpre' with hle | hle
    · rcases List.prefix_concat_iff.mp hle with rfl | hle
      · exact hintime (List.mem_append_right _ (List.mem_singleton_self _))
      · exact hpending pre hle hquiet
    · exact hintime (hle.subset (List.mem_append_right _ (List.mem_singleton_self _)))
  cases h with
  | waiting hpending hintime =>
    cases h' with
    | waiting => rfl
    | done hpre hquiet => exact absurd hquiet (hpending _ hpre)
    | late hpre =>
      exact absurd (hpre.subset (List.mem_append_right _ (List.mem_singleton_self _))) hintime
  | done hpre hquiet hintime =>
    cases h' with
    | waiting hpending => exact absurd hquiet (hpending _ hpre)
    | done => rfl
    | late hpre' hpending' => exact absurd hpending' (hdone_late hpre hintime hquiet hpre')
  | late hpre hpending =>
    cases h' with
    | waiting _ hintime' =>
      exact absurd (hpre.subset (List.mem_append_right _ (List.mem_singleton_self _))) hintime'
    | done hpre' hquiet' hintime' => exact absurd hpending (hdone_late hpre' hintime' hquiet' hpre)
    | late => rfl

theorem Stands.step {s : Step} (hsound : Sound (before ++ since) w)
    (h : Stands before since place wait.sequence wait.timeout wait.answers)
    (hturns : Turns s place wait (w.step s) answers) :
    Stands before (since ++ [s]) place wait.sequence wait.timeout answers := by
  have hquiet := (hsound.step s).quiet_iff wait.sequence
  rw [List.append_assoc] at hquiet
  cases hturns with
  | settled hanswered => exact h.mono hanswered (List.prefix_append ..)
  | late hopen hstep =>
    rw [hopen] at h
    cases h with
    | waiting hpending => exact .late (hstep ▸ List.prefix_refl _) hpending
  | done hopen hstep hdone =>
    rw [hopen] at h
    cases h with
    | waiting _ hintime =>
      refine .done (List.prefix_refl _) (hquiet.mpr hdone) fun hmem => ?_
      rcases List.mem_append.mp hmem with hmem | hmem
      · exact hintime hmem
      · exact hstep (List.mem_singleton.mp hmem).symm
  | waiting hopen hstep hmore =>
    rw [hopen] at h
    cases h with
    | waiting hpending hintime =>
      refine .waiting (fun pre hpre => ?_) fun hmem => ?_
      · rcases List.prefix_concat_iff.mp hpre with rfl | hpre
        · exact fun hno => hmore (hquiet.mp hno)
        · exact hpending pre hpre
      · rcases List.mem_append.mp hmem with hmem | hmem
        · exact hintime hmem
        · exact hstep (List.mem_singleton.mp hmem).symm

/-- A wait stands as its sequence and its time decide, whatever is done behind its beginning. -/
theorem stands_run (before since : List Step) (sequence : SequenceId) (timeout : Duration) :
    ∃ wait, (run (before ++ [.waits sequence timeout] ++ since)).waits[(run before).waits.length]? =
        some wait ∧ wait.sequence = sequence ∧ wait.timeout = timeout ∧
      Stands (before ++ [.waits sequence timeout]) since (run before).waits.length wait.sequence
        wait.timeout wait.answers := by
  induction since using List.reverseRecOn with
  | nil =>
    have hquiet := (sound_run (before ++ [.waits sequence timeout])).quiet_iff sequence
    rw [List.append_nil, run_concat] at *
    rcases (run before).tracker.enroll_cases sequence with
      ⟨hdone, henroll⟩ | ⟨t, hpending, henroll, hviews⟩
    · simp only [step, henroll] at hquiet ⊢
      refine ⟨_, List.getElem?_concat_length .., rfl, rfl, .done (List.prefix_refl _) ?_ (by simp)⟩
      rw [List.append_nil]
      exact hquiet.mpr (((sound_run before).tidy.isDone_iff _).mp hdone)
    · simp only [step, henroll] at hquiet ⊢
      refine ⟨_, List.getElem?_concat_length .., rfl, rfl, .waiting (fun pre hpre => ?_) (by simp)⟩
      obtain rfl := List.prefix_nil.mp hpre
      rw [List.append_nil, hquiet, hviews.outstanding, ← (sound_run before).tidy.isDone_iff,
        hpending]
      exact Bool.false_ne_true
  | append_singleton since s ih =>
    obtain ⟨wait, hwait, rfl, rfl, hstands⟩ := ih
    have hsound := sound_run (before ++ [.waits wait.sequence wait.timeout] ++ since)
    obtain ⟨answers, hanswers, hturns⟩ := hsound.turns hwait s
    have hnext := hstands.step hsound hturns
    rw [← List.append_assoc, run_concat]
    exact ⟨_, hanswers, rfl, rfl, hnext⟩

end Stands

/-! ## Sequences that do not become quiet -/

/-- Behind a step there is at each place the wait that was there before, or one that begins with
the step. -/
theorem Sound.step_cases (h : Sound steps w) (s : Step) {wait' : Wait}
    (hwait' : (w.step s).waits[place]? = some wait') :
    (∃ wait, w.waits[place]? = some wait ∧ wait'.sequence = wait.sequence ∧
      Turns s place wait (w.step s) wait'.answers) ∨
    w.waits[place]? = none ∧
      (wait'.answers = [.ok ()] ∧ (w.step s).tracker.outstanding wait'.sequence = [] ∨
        wait'.answers = [] ∧ (w.step s).tracker.outstanding wait'.sequence ≠ []) := by
  cases hwait : w.waits[place]? with
  | some wait =>
    obtain ⟨answers, hanswers, hturns⟩ := h.turns hwait s
    obtain rfl := Option.some.inj (hanswers.symm.trans hwait')
    exact Or.inl ⟨wait, rfl, rfl, hturns⟩
  | none =>
    refine Or.inr ⟨rfl, ?_⟩
    cases s with
    | starts => cases hwait.symm.trans hwait'
    | completes =>
      rw [step_completes, List.getElem?_map, hwait] at hwait'
      cases hwait'
    | runsOut other =>
      simp only [Watch.step] at hwait'
      split at hwait'
      · cases hwait.symm.trans hwait'
      · rw [List.getElem?_eq_none_iff] at hwait
        rw [List.getElem?_eq_none (by rwa [List.length_set])] at hwait'
        cases hwait'
    | waits sequence timeout =>
      rw [List.getElem?_eq_none_iff] at hwait
      rcases w.tracker.enroll_cases sequence with
        ⟨hdone, henroll⟩ | ⟨t, hpending, henroll, hviews⟩
      · simp only [Watch.step, henroll] at hwait' ⊢
        rw [List.getElem?_append_right hwait, List.getElem?_singleton] at hwait'
        split at hwait'
        · obtain rfl := Option.some.inj hwait'
          exact Or.inl ⟨rfl, (h.tidy.isDone_iff _).mp hdone⟩
        · cases hwait'
      · simp only [Watch.step, henroll] at hwait' ⊢
        rw [List.getElem?_append_right hwait, List.getElem?_singleton] at hwait'
        split at hwait'
        · obtain rfl := Option.some.inj hwait'
          refine Or.inr ⟨rfl, fun hquiet => ?_⟩
          rw [hviews.outstanding, ← h.tidy.isDone_iff, hpending] at hquiet
          cases hquiet
        · cases hwait'

/-- While nothing that was unhandled at the beginning is handled, no wait is answered whose sequence
had something unhandled, unless its time runs out. -/
theorem answers_of_steady (before since : List Step)
    (hsteady : ∀ pre, pre <+: since → ∀ sequence event,
      Unhandled before sequence event → Unhandled (before ++ pre) sequence event) :
    ∀ {wait' : Wait}, (run (before ++ since)).waits[place]? = some wait' →
      (∀ wait, (run before).waits[place]? = some wait → wait.answers = []) →
      .runsOut place ∉ since →
      wait'.answers = [] ∧ ¬Quiet (before ++ since) wait'.sequence ∨
        wait'.answers = [.ok ()] ∧ Quiet before wait'.sequence := by
  induction since using List.reverseRecOn with
  | nil =>
    intro wait' hwait' hopen _
    rw [List.append_nil] at *
    have hnil := hopen wait' hwait'
    refine Or.inl ⟨hnil, ?_⟩
    rw [(sound_run before).quiet_iff]
    exact (sound_run before).outstanding_of_open hwait' hnil
  | append_singleton since s ih =>
    intro wait' hwait' hopen hintime
    have hstep : .runsOut place ≠ s := fun heq =>
      hintime (List.mem_append_right _ (List.mem_singleton.mpr heq))
    have hquiet := (sound_run (before ++ (since ++ [s]))).quiet_iff wait'.sequence
    have hsteady' := hsteady (since ++ [s]) (List.prefix_refl _) wait'.sequence
    have hbefore : Quiet (before ++ (since ++ [s])) wait'.sequence →
        Quiet before wait'.sequence := fun h event => mt (hsteady' event) (h event)
    rw [← List.append_assoc, run_concat] at hwait' hquiet
    rw [← List.append_assoc] at hbefore ⊢
    rcases (sound_run (before ++ since)).step_cases s hwait' with
      ⟨wait, hwait, hsequence, hturns⟩ | ⟨-, ⟨hanswers, hdone⟩ | ⟨hanswers, hpending⟩⟩
    · have hbegun := ih (fun pre hpre => hsteady pre (hpre.trans (List.prefix_append ..))) hwait
        hopen fun hmem => hintime (List.mem_append_left _ hmem)
      rw [← hsequence] at hbegun
      generalize hlast : wait'.answers = answers at hturns ⊢
      cases hturns with
      | settled hanswered =>
        rcases hbegun with ⟨hnil, -⟩ | hdone
        · exact absurd hnil hanswered
        · exact Or.inr hdone
      | late _ heq => exact absurd heq.symm hstep
      | done _ _ hdone =>
        rw [← hsequence] at hdone
        exact Or.inr ⟨rfl, hbefore (hquiet.mpr hdone)⟩
      | waiting _ _ hpending =>
        rw [← hsequence] at hpending
        exact Or.inl ⟨rfl, mt hquiet.mp hpending⟩
    · exact Or.inr ⟨hanswers, hbefore (hquiet.mpr hdone)⟩
    · exact Or.inl ⟨hanswers, mt hquiet.mp hpending⟩

/-- **The tracker is exact.** Whatever is done, in whatever order: unhandled are the events of which
the latest that was noted is that they are published; a sequence is done exactly if it has none,
and those that are not done are counted. A wait is answered at once if its sequence is done; else
it is answered once: when nothing of its sequence is unhandled any more, or when its time runs out,
whichever comes first. Nobody whose wait is answered is still enrolled, with any sequence. -/
theorem tracker_is_exact (steps : List Step) :
    let w := run steps
    (∀ sequence event, event ∈ w.tracker.outstanding sequence ↔
      Unhandled steps sequence event) ∧
    (∀ sequence, w.tracker.isDone sequence = true ↔ Quiet steps sequence) ∧
    (∃ pending : List SequenceId, pending.Nodup ∧
      (∀ sequence, sequence ∈ pending ↔ ∃ event, Unhandled steps sequence event) ∧
      w.tracker.size = pending.length) ∧
    (∀ before since sequence timeout, steps = before ++ .waits sequence timeout :: since →
      ∃ wait, w.waits[(run before).waits.length]? = some wait ∧ wait.sequence = sequence ∧
        wait.timeout = timeout ∧ ∀ answers, wait.answers = answers ↔
          Stands (before ++ [.waits sequence timeout]) since (run before).waits.length sequence
            timeout answers) ∧
    ∀ wait ∈ w.waits, wait.answers ≠ [] → ∀ number, wait.number = some number →
      ∀ sequence, number ∉ w.tracker.waiters sequence := by
  intro w
  have hsound : Sound steps w := sound_run steps
  refine ⟨hsound.marks, fun sequence => ?_, ?_, fun before since sequence timeout hsteps => ?_,
    fun wait hmem hanswered number hnumber => ?_⟩
  · rw [hsound.tidy.isDone_iff, hsound.quiet_iff]
  · obtain ⟨pending, hnodup, hpending, hsize⟩ := hsound.tidy.size_eq
    refine ⟨pending, hnodup, fun sequence => ?_, hsize⟩
    rw [hpending, ne_eq, ← hsound.quiet_iff, Quiet]
    simp only [not_forall, not_not]
  · obtain ⟨wait, hwait, rfl, rfl, hstands⟩ := stands_run before since sequence timeout
    rw [List.append_assoc, List.singleton_append, ← hsteps] at hwait
    exact ⟨wait, hwait, rfl, rfl, fun answers => ⟨fun heq => heq ▸ hstands, hstands.unique⟩⟩
  · obtain ⟨place, hwait⟩ := List.mem_iff_getElem?.mp hmem
    exact hsound.not_mem_waiters hwait hnumber hanswered

/-- The sequence is done, and begun again before the time of the wait runs out. -/
example :
    let sequence : SequenceId := ⟨.ofNat 1⟩
    (run [.starts sequence ⟨.ofNat 2⟩, .waits sequence (.ofMillis 10),
      .completes sequence ⟨.ofNat 2⟩, .starts sequence ⟨.ofNat 3⟩, .runsOut 0]).waits.map
        Wait.answers = [[.ok ()]] := rfl

end Watch

end Chronicle

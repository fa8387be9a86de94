import Chronicle.Retry
import Mathlib.Data.List.Basic

/-!
# How a retried operation ends

An operation that is retried fails some times, each time in a way that is worth another attempt
(`Retry.Fails`), and is run once more. How that last run ends is how the whole ends, unless a fault
comes of the delay behind it: `Retry.Ends` has one constructor for each case, and `retryFrom_ends`
says that there are no others.
-/

namespace Chronicle

variable {σ α ε : Type}

namespace Retry

/-- An operation is run once for each of some errors, fails with it, and is to be run again. -/
inductive Fails (retryable : ε → Bool) (operation : σ → Checked (Except ε α × σ)) :
    List ε → σ → σ → Prop
  | never {s} : Fails retryable operation [] s s
  | again {error errors s s' s''} (hrun : operation s = .ok (.error error, s'))
      (hretry : retryable error = true) (hrest : Fails retryable operation errors s' s'') :
      Fails retryable operation (error :: errors) s s''

/-- How an operation ends that has failed so many times and is run for the last time. -/
inductive Ends (delay : Nat → Checked Duration) (retryable : ε → Bool)
    (operation : σ → Checked (Except ε α × σ)) (left attempt failures : Nat) (last : σ) :
    Checked (Except ε α × List Duration × σ) → Prop
  | answers {outcome pauses s} (hrun : operation last = .ok (outcome, s))
      (hlimit : ∀ error, outcome = .error error → retryable error = true → failures = left)
      (hpauses : (List.range' attempt failures).mapM delay = .ok pauses) :
      Ends delay retryable operation left attempt failures last (.ok (outcome, pauses, s))
  | stops {fault} (hrun : operation last = .error fault) :
      Ends delay retryable operation left attempt failures last (.error fault)
  | undelayed {error s fault} (hrun : operation last = .ok (.error error, s))
      (hretry : retryable error = true) (hleft : failures < left)
      (hdelay : delay (attempt + failures) = .error fault) :
      Ends delay retryable operation left attempt failures last (.error fault)

/-- What the first failure and its delay add to an end. -/
theorem Ends.behind_failure {delay : Nat → Checked Duration} {retryable : ε → Bool}
    {operation : σ → Checked (Except ε α × σ)} {left attempt failures : Nat} {last : σ}
    {result : Checked (Except ε α × List Duration × σ)} {pause : Duration}
    (h : Ends delay retryable operation left (attempt + 1) failures last result)
    (hpause : delay attempt = .ok pause) :
    Ends delay retryable operation (left + 1) attempt (failures + 1) last
      (result.map fun (outcome, pauses, s) => (outcome, pause :: pauses, s)) := by
  cases h with
  | answers hrun hlimit hpauses =>
    refine .answers hrun (fun error heq hretry => by rw [hlimit error heq hretry]) ?_
    rw [List.range'_succ, List.mapM_cons, hpause, hpauses]
    rfl
  | stops hrun => exact .stops hrun
  | undelayed hrun hretry hleft hdelay =>
    refine .undelayed hrun hretry (Nat.succ_lt_succ hleft) ?_
    rwa [Nat.add_right_comm, Nat.add_assoc] at hdelay

end Retry

/-! ## One run -/

section Run

variable {delay : Nat → Checked Duration} {retryable : ε → Bool}
  {operation : σ → Checked (Except ε α × σ)} {attempt : Nat} {s s' : σ}

theorem retryFrom_of_fault {fault : Fault} (hrun : operation s = .error fault) (left : Nat) :
    retryFrom delay retryable operation left attempt s = .error fault := by
  rw [retryFrom, hrun]
  rfl

/-- An answer that is not worth another attempt is the last. -/
theorem retryFrom_of_answer {outcome : Except ε α} (hrun : operation s = .ok (outcome, s'))
    (hover : ∀ error, outcome = .error error → retryable error = false) (left : Nat) :
    retryFrom delay retryable operation left attempt s = .ok (outcome, [], s') := by
  rw [retryFrom, hrun]
  cases outcome with
  | ok value => rfl
  | error error =>
    show (if retryable error = true then _ else _) = _
    rw [hover error rfl]
    rfl

theorem retryFrom_zero_of_failure {error : ε} (hrun : operation s = .ok (.error error, s'))
    (hretry : retryable error = true) :
    retryFrom delay retryable operation 0 attempt s = .ok (.error error, [], s') := by
  rw [retryFrom, hrun]
  show (if retryable error = true then _ else _) = _
  rw [if_pos hretry]
  rfl

theorem retryFrom_succ_of_failure {error : ε} (hrun : operation s = .ok (.error error, s'))
    (hretry : retryable error = true) (left : Nat) :
    retryFrom delay retryable operation (left + 1) attempt s =
      delay attempt >>= fun pause =>
        (retryFrom delay retryable operation left (attempt + 1) s').map
          fun (outcome, pauses, s) => (outcome, pause :: pauses, s) := by
  rw [retryFrom, hrun]
  show (if retryable error = true then _ else _) = _
  rw [if_pos hretry]
  cases delay attempt with
  | error fault => rfl
  | ok pause =>
    show (retryFrom delay retryable operation left (attempt + 1) s' >>= _) = Except.map _ _
    cases retryFrom delay retryable operation left (attempt + 1) s' <;> rfl

end Run

theorem run_cases (retryable : ε → Bool) (operation : σ → Checked (Except ε α × σ)) (s : σ) :
    (∃ fault, operation s = .error fault) ∨
      (∃ outcome s', operation s = .ok (outcome, s') ∧
        ∀ error, outcome = .error error → retryable error = false) ∨
      ∃ error s', operation s = .ok (.error error, s') ∧ retryable error = true := by
  rcases hrun : operation s with fault | ⟨error | value, s'⟩
  · exact Or.inl ⟨fault, rfl⟩
  · cases hretry : retryable error with
    | false =>
      exact Or.inr (Or.inl ⟨_, s', rfl, fun _ heq => Except.error.inj heq ▸ hretry⟩)
    | true => exact Or.inr (Or.inr ⟨error, s', rfl, hretry⟩)
  · exact Or.inr (Or.inl ⟨_, s', rfl, fun _ heq => by cases heq⟩)

/-! ## All runs -/

/-- An operation that may be retried so often fails at most so often before its last run. -/
theorem retryFrom_ends (delay : Nat → Checked Duration) (retryable : ε → Bool)
    (operation : σ → Checked (Except ε α × σ)) (left attempt : Nat) (s : σ) :
    ∃ errors last, Retry.Fails retryable operation errors s last ∧ errors.length ≤ left ∧
      Retry.Ends delay retryable operation left attempt errors.length last
        (retryFrom delay retryable operation left attempt s) := by
  rcases run_cases retryable operation s with
    ⟨fault, hrun⟩ | ⟨outcome, s', hrun, hover⟩ | ⟨error, s', hrun, hretry⟩
  · refine ⟨[], s, .never, Nat.zero_le _, ?_⟩
    rw [retryFrom_of_fault hrun]
    exact .stops hrun
  · refine ⟨[], s, .never, Nat.zero_le _, ?_⟩
    rw [retryFrom_of_answer hrun hover]
    refine .answers hrun (fun error heq hretry => ?_) rfl
    rw [hover error heq] at hretry
    cases hretry
  · cases left with
    | zero =>
      refine ⟨[], s, .never, Nat.le_refl _, ?_⟩
      rw [retryFrom_zero_of_failure hrun hretry]
      exact .answers hrun (fun _ _ _ => rfl) rfl
    | succ left =>
      rw [retryFrom_succ_of_failure hrun hretry]
      cases hpause : delay attempt with
      | error fault =>
        exact ⟨[], s, .never, Nat.zero_le _, .undelayed hrun hretry (Nat.zero_lt_succ _) hpause⟩
      | ok pause =>
        obtain ⟨errors, last, hfails, hle, hends⟩ :=
          retryFrom_ends delay retryable operation left (attempt + 1) s'
        exact ⟨error :: errors, last, .again hrun hretry hfails, Nat.succ_le_succ hle,
          hends.behind_failure hpause⟩

/-- To retry an operation on what a state stands for is to retry it on the state. -/
theorem retryFrom_of_embedding {τ : Type} {delay : Nat → Checked Duration} {retryable : ε → Bool}
    {operation : σ → Checked (Except ε α × σ)} {operation' : τ → Checked (Except ε α × τ)}
    {f : σ → τ}
    (hsame : ∀ s, operation' (f s) = (operation s).map fun (outcome, s) => (outcome, f s))
    (left attempt : Nat) (s : σ) :
    retryFrom delay retryable operation' left attempt (f s) =
      (retryFrom delay retryable operation left attempt s).map
        fun (outcome, pauses, s) => (outcome, pauses, f s) := by
  have hrun' := hsame s
  rcases run_cases retryable operation s with
    ⟨fault, hrun⟩ | ⟨outcome, s', hrun, hover⟩ | ⟨error, s', hrun, hretry⟩
  · rw [hrun] at hrun'
    rw [retryFrom_of_fault hrun, retryFrom_of_fault hrun']
    rfl
  · rw [hrun] at hrun'
    rw [retryFrom_of_answer hrun hover, retryFrom_of_answer hrun' hover]
    rfl
  · rw [hrun] at hrun'
    cases left with
    | zero =>
      rw [retryFrom_zero_of_failure hrun hretry, retryFrom_zero_of_failure hrun' hretry]
      rfl
    | succ left =>
      rw [retryFrom_succ_of_failure hrun hretry, retryFrom_succ_of_failure hrun' hretry,
        retryFrom_of_embedding hsame left]
      cases delay attempt with
      | error fault => rfl
      | ok pause => cases retryFrom delay retryable operation left (attempt + 1) s' <;> rfl

end Chronicle

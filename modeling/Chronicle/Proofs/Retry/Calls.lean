import Chronicle.Proofs.Lists
import Chronicle.Proofs.Retry
import Mathlib.Order.Bounds.Basic

/-!
# How often a retried operation is called

An operation that answers its calls from a sequence is called until the first answer that is not
worth another attempt, or until the retries are used up. Calls and pauses are noted on a tape, so
what happened and in which order can be read off it. `calls_end_at_the_first_answer` says which call
is the last, whatever the policy, and that pauses and calls alternate.

A pause with a random part may have no length. Then the loop stops in front of a call that was due,
and so it does behind every failure where the share that may be random is not a number.
-/

namespace Chronicle

variable {σ α ε : Type}

/-! ## The loop, run by run -/

section Loop

variable {maxRetries attempt : UInt64} {delay : Nat → Checked Duration} {retryable : ε → Bool}
  {operation : σ → Checked (Except ε α × σ)} {pause : Duration → σ → σ} {s s' : σ}

theorem toNat_succ_of_lt (h : attempt < maxRetries) : (attempt + 1).toNat = attempt.toNat + 1 := by
  have hlt : attempt.toNat < maxRetries.toNat := h
  rw [UInt64.toNat_add]
  exact Nat.mod_eq_of_lt (Nat.lt_of_le_of_lt hlt maxRetries.toNat_lt)

theorem retryLoop_of_fault {fault : Fault} (hrun : operation s = .error fault) :
    retryLoop maxRetries delay retryable operation pause attempt s = .error fault := by
  rw [retryLoop, hrun]
  rfl

/-- An answer that is not worth another attempt is the last. -/
theorem retryLoop_of_answer {outcome : Except ε α} (hrun : operation s = .ok (outcome, s'))
    (hover : ∀ error, outcome = .error error → retryable error = false) :
    retryLoop maxRetries delay retryable operation pause attempt s = .ok (outcome, s') := by
  rw [retryLoop, hrun]
  cases outcome with
  | ok value => rfl
  | error error =>
    show (if retryable error = true then _ else _) = _
    rw [hover error rfl]
    rfl

/-- With no retries left, a failure is the last answer. -/
theorem retryLoop_of_exhausted {error : ε} (hrun : operation s = .ok (.error error, s'))
    (hretry : retryable error = true) (hlimit : maxRetries ≤ attempt) :
    retryLoop maxRetries delay retryable operation pause attempt s = .ok (.error error, s') := by
  rw [retryLoop, hrun]
  show (if retryable error = true then _ else _) = _
  rw [if_pos hretry, if_pos hlimit]
  rfl

/-- Behind a failure that is worth another attempt comes a pause, and the loop goes on. The counter
does not pass its width. -/
theorem retryLoop_of_failure {error : ε} (hrun : operation s = .ok (.error error, s'))
    (hretry : retryable error = true) (hleft : attempt < maxRetries) :
    retryLoop maxRetries delay retryable operation pause attempt s =
      delay attempt.toNat >>= fun span =>
        retryLoop maxRetries delay retryable operation pause (attempt + 1) (pause span s') := by
  have hnext : checkedAdd attempt 1 = .ok (attempt + 1) :=
    checkedAdd_eq_ok_iff_toNat.mpr (toNat_succ_of_lt hleft)
  rw [retryLoop, hrun]
  show (if retryable error = true then _ else _) = _
  rw [if_pos hretry, if_neg (UInt64.not_le.mpr hleft)]
  cases delay attempt.toNat with
  | error fault => rfl
  | ok span =>
    dsimp only [bind, Except.bind]
    split
    · next fault hfault => rw [hnext] at hfault; cases hfault
    · next next hok =>
      rw [hnext] at hok
      cases hok
      rfl

end Loop

/-- An operation that notes what it was left with and takes no part in pauses. -/
def Retry.beside (operation : σ → Checked (Except ε α × σ)) (c : σ × List Duration) :
    Checked (Except ε α × σ × List Duration) :=
  (operation c.1).map fun (outcome, s) => (outcome, s, c.2)

/-- A loop that lists its pauses does what is done where the retries left are counted. -/
theorem retryLoop_eq_retryFrom (maxRetries : UInt64) (delay : Nat → Checked Duration)
    (retryable : ε → Bool) (operation : σ → Checked (Except ε α × σ)) :
    ∀ (left : Nat) (attempt : UInt64) (s : σ) (spans : List Duration),
      maxRetries.toNat = attempt.toNat + left →
      retryLoop maxRetries delay retryable (Retry.beside operation)
          (fun span (s, spans) => (s, spans ++ [span])) attempt (s, spans) =
        (retryFrom delay retryable operation left attempt.toNat s).map
          fun (outcome, pauses, s) => (outcome, s, spans ++ pauses) := by
  intro left attempt s spans hleft
  rcases run_cases retryable operation s with
    ⟨fault, hrun⟩ | ⟨outcome, s', hrun, hover⟩ | ⟨error, s', hrun, hretry⟩
  · have hbeside : Retry.beside operation (s, spans) = .error fault := by
      rw [Retry.beside, hrun]; rfl
    rw [retryFrom_of_fault hrun, retryLoop_of_fault hbeside]
    rfl
  · have hbeside : Retry.beside operation (s, spans) = .ok (outcome, s', spans) := by
      rw [Retry.beside, hrun]; rfl
    rw [retryFrom_of_answer hrun hover, retryLoop_of_answer hbeside hover]
    simp [Except.map]
  · have hbeside : Retry.beside operation (s, spans) = .ok (.error error, s', spans) := by
      rw [Retry.beside, hrun]; rfl
    cases left with
    | zero =>
      have hlimit : maxRetries ≤ attempt := UInt64.le_iff_toNat_le.mpr (Nat.le_of_eq hleft)
      rw [retryFrom_zero_of_failure hrun hretry, retryLoop_of_exhausted hbeside hretry hlimit]
      simp [Except.map]
    | succ left =>
      have hlt : attempt < maxRetries := UInt64.lt_iff_toNat_lt.mpr (by omega)
      have hsucc := toNat_succ_of_lt hlt
      rw [retryFrom_succ_of_failure hrun hretry, retryLoop_of_failure hbeside hretry hlt]
      cases delay attempt.toNat with
      | error fault => rfl
      | ok span =>
        have hrest := retryLoop_eq_retryFrom maxRetries delay retryable operation left
          (attempt + 1) s' (spans ++ [span]) (by omega)
        rw [hsucc] at hrest
        refine hrest.trans ?_
        show _ = Except.map _ (Except.map _ _)
        cases retryFrom delay retryable operation left (attempt.toNat + 1) s' with
        | error fault => rfl
        | ok result => simp [Except.map]

/-- To retry an operation as a policy permits, with one draw for all pauses, is to run it. -/
theorem RetryPolicy.retry_eq_run (policy : RetryPolicy Float) (draw : Float) (retryable : ε → Bool)
    (operation : σ → Checked (Except ε α × σ)) (s : σ) :
    (policy.retry draw retryable operation s).map
        (fun (outcome, pauses, s) => (outcome, s, pauses)) =
      policy.run (fun _ => draw) retryable (Retry.beside operation)
        (fun span (s, spans) => (s, spans ++ [span])) (s, []) :=
  (retryLoop_eq_retryFrom policy.maxRetries (policy.jitteredDelay draw) retryable operation _ 0 s []
    (Nat.zero_add _).symm).symm

/-! ## Calls and pauses -/

namespace Retry

/-- What happens while an operation is retried. -/
inductive Moment where
  | called
  | paused (span : Duration)
  deriving DecidableEq

/-- An operation that answers its calls from a sequence, counted from 1, and notes them. -/
def answering (outcomes : Nat → Except ε α) (tape : List Moment) :
    Checked (Except ε α × List Moment) :=
  .ok (outcomes (tape.count .called + 1), tape ++ [.called])

/-- Notes a pause. -/
def pausing (span : Duration) (tape : List Moment) : List Moment := tape ++ [.paused span]

/-- One call more than pauses, and each pause between two calls. -/
def tape (spans : List Duration) : List Moment :=
  .called :: spans.flatMap fun span => [.paused span, .called]

theorem count_called_tape (spans : List Duration) :
    (tape spans).count .called = spans.length + 1 := by
  induction spans with
  | nil => rfl
  | cons span spans ih =>
    have hcons : (tape (span :: spans)).count .called = (tape spans).count .called + 1 := by
      simp [tape]
    rw [hcons, ih, List.length_cons]

theorem pausing_called_tape (before : List Moment) (span : Duration) (spans : List Duration) :
    pausing span (before ++ [.called]) ++ tape spans = before ++ tape (span :: spans) := by
  simp [pausing, tape]

/-- An answer is not worth another attempt. -/
def Settles (retryable : ε → Bool) (outcome : Except ε α) : Prop :=
  ∀ error, outcome = .error error → retryable error = false

/-- The calls past some number behind which there is none: the answer is not worth another attempt,
or the retries are used up. -/
def lastCalls (past maxRetries : Nat) (retryable : ε → Bool) (outcomes : Nat → Except ε α) :
    Set Nat :=
  {i | past < i ∧ (Settles retryable (outcomes i) ∨ i = maxRetries + 1)}

/-- The next call is the last. -/
theorem isLeast_lastCalls_succ {past maxRetries : Nat} {retryable : ε → Bool}
    {outcomes : Nat → Except ε α}
    (h : Settles retryable (outcomes (past + 1)) ∨ past = maxRetries) :
    IsLeast (lastCalls past maxRetries retryable outcomes) (past + 1) :=
  ⟨⟨Nat.lt_succ_self _, h.imp_right (congrArg Nat.succ)⟩, fun _ hmem => hmem.1⟩

/-- The next call is not the last. -/
theorem isLeast_lastCalls_of_again {past maxRetries last : Nat} {retryable : ε → Bool}
    {outcomes : Nat → Except ε α} {error : ε} (hfails : outcomes (past + 1) = .error error)
    (hretry : retryable error = true) (hleft : past < maxRetries)
    (h : IsLeast (lastCalls (past + 1) maxRetries retryable outcomes) last) :
    IsLeast (lastCalls past maxRetries retryable outcomes) last := by
  refine ⟨⟨Nat.lt_of_succ_lt h.1.1, h.1.2⟩, fun i hi => h.2 ⟨?_, hi.2⟩⟩
  rcases Nat.lt_or_eq_of_le (Nat.succ_le_of_lt hi.1) with hlater | rfl
  · exact hlater
  · rcases hi.2 with hsettles | hlast
    · rw [hsettles error hfails] at hretry
      cases hretry
    · exact absurd (Nat.succ.inj hlast) (Nat.ne_of_lt hleft)

/-- The loop ends with the first call that can be the last, however many were made before, and notes
its pauses where they were made. -/
theorem retryLoop_answering (maxRetries : UInt64) (delay : Nat → Checked Duration)
    (retryable : ε → Bool) (outcomes : Nat → Except ε α) :
    ∀ (left : Nat) (attempt : UInt64), maxRetries.toNat = attempt.toNat + left →
      ∃ retries, IsLeast (lastCalls attempt.toNat maxRetries.toNat retryable outcomes)
          (attempt.toNat + retries + 1) ∧
        ∀ before : List Moment, before.count .called = attempt.toNat →
          retryLoop maxRetries delay retryable (answering outcomes) pausing attempt before =
            ((List.range' attempt.toNat retries).mapM delay).map fun spans =>
              (outcomes (attempt.toNat + retries + 1), before ++ tape spans) := by
  intro left attempt hleft
  have hrun : ∀ before : List Moment, before.count .called = attempt.toNat →
      answering outcomes before =
        .ok (outcomes (attempt.toNat + 1), before ++ [.called]) := by
    intro before hcalls
    rw [answering, hcalls]
  by_cases hsettles : Settles retryable (outcomes (attempt.toNat + 1))
  · exact ⟨0, isLeast_lastCalls_succ (.inl hsettles), fun before hcalls =>
      retryLoop_of_answer (hrun before hcalls) hsettles⟩
  obtain ⟨error, hfails, hretry⟩ : ∃ error, outcomes (attempt.toNat + 1) = .error error ∧
      retryable error = true := by
    simpa [Settles] using hsettles
  cases left with
  | zero =>
    have hlimit : maxRetries ≤ attempt := UInt64.le_iff_toNat_le.mpr (Nat.le_of_eq hleft)
    refine ⟨0, isLeast_lastCalls_succ (.inr hleft.symm), fun before hcalls => ?_⟩
    rw [retryLoop_of_exhausted (by rw [hrun before hcalls, hfails]) hretry hlimit, ← hfails]
    rfl
  | succ left =>
    have hlt : attempt < maxRetries := UInt64.lt_iff_toNat_lt.mpr (by omega)
    have hsucc := toNat_succ_of_lt hlt
    obtain ⟨retries, hleast, hrest⟩ :=
      retryLoop_answering maxRetries delay retryable outcomes left (attempt + 1) (by omega)
    rw [hsucc, Nat.add_right_comm attempt.toNat 1 retries] at hleast
    rw [hsucc, Nat.add_right_comm attempt.toNat 1 retries] at hrest
    refine ⟨retries + 1, isLeast_lastCalls_of_again hfails hretry hlt hleast,
      fun before hcalls => ?_⟩
    rw [retryLoop_of_failure (by rw [hrun before hcalls, hfails]) hretry hlt, List.range'_succ,
      List.mapM_cons]
    cases delay attempt.toNat with
    | error fault => rfl
    | ok span =>
      refine (hrest (pausing span (before ++ [.called])) (by simp [pausing, hcalls])).trans ?_
      cases hspans : (List.range' (attempt.toNat + 1) retries).mapM delay with
      | error fault => rfl
      | ok spans =>
        exact congrArg (fun moments => Except.ok (outcomes (attempt.toNat + retries + 2), moments))
          (pausing_called_tape before span spans)

end Retry

/-! ## Pauses with a random part -/

/-- What is not a number does not compare with any. -/
theorem compare_of_isNaN {x : Float} (h : x.isNaN = true) (y : Float) :
    x.toModel.unpack.compare y.toModel.unpack = none ∧
      y.toModel.unpack.compare x.toModel.unpack = none := by
  have hx : x.toModel.unpack = .notANumber := by
    have hunpacked : x.toModel.unpack.isNaN = true := h
    cases hkind : x.toModel.unpack with
    | notANumber => rfl
    | _ => rw [hkind] at hunpacked; cases hunpacked
  rw [hx]
  exact ⟨rfl, by cases y.toModel.unpack <;> rfl⟩

theorem not_lt_of_compare {x y : Float} (h : x.toModel.unpack.compare y.toModel.unpack = none) :
    ¬ x < y := by
  intro hlt
  have hless : (x.toModel.unpack.compare y.toModel.unpack == some .lt) = true :=
    of_decide_eq_true hlt
  rw [h] at hless
  cases hless

theorem beq_of_compare {x y : Float} (h : x.toModel.unpack.compare y.toModel.unpack = none) :
    (x == y) = false := by
  show (x.toModel.unpack.compare y.toModel.unpack == some .eq) = false
  rw [h]
  rfl

namespace RetryPolicy

variable {policy : RetryPolicy Float} {draw : Float} {attempt : Nat}

/-- Without a random part, a pause is the delay. -/
theorem jitteredDelay_of_shareless (h : (policy.jitterShare == 0) = true) :
    policy.jitteredDelay draw attempt = .ok (policy.delay attempt) := by
  rw [jitteredDelay, if_pos h]

/-- A share that is not a number is not brought between none and all. -/
theorem jitterShare_of_isNaN (h : policy.jitter.isNaN = true) :
    policy.jitterShare = policy.jitter := by
  rw [jitterShare, if_neg (not_lt_of_compare (compare_of_isNaN h 0).1),
    if_neg (not_lt_of_compare (compare_of_isNaN h 1).2)]

/-- Nothing can be drawn where the share is not a number. -/
theorem jitteredDelay_of_isNaN (h : policy.jitter.isNaN = true) :
    policy.jitteredDelay draw attempt = .error .emptyInterval := by
  rw [jitteredDelay, jitterShare_of_isNaN h, beq_of_compare (compare_of_isNaN h 0).1, h]
  rfl

/-! ## The last call -/

/-- The operation is called until the first answer that is not worth another attempt, or once more
than it may be retried, whichever comes first, and the answer is that of this call. The pauses are
the delays behind the attempts in their order, one before each repeated call.

Pauses that have no random part always have a length. Else a pause may be too long, and none has a
length if its random part is a share that is not a number: then the loop stops without an answer,
although a call was due. -/
theorem calls_end_at_the_first_answer (policy : RetryPolicy Float) (draws : Nat → Float)
    (retryable : ε → Bool) (outcomes : Nat → Except ε α) :
    ∃ last, IsLeast {i | 0 < i ∧
          (Retry.Settles retryable (outcomes i) ∨ i = policy.maxRetries.toNat + 1)} last ∧
      (policy.run draws retryable (Retry.answering outcomes) Retry.pausing [] =
        ((List.range (last - 1)).mapM fun attempt =>
          policy.jitteredDelay (draws attempt) attempt).map fun spans =>
            (outcomes last, Retry.tape spans)) ∧
      (∀ answer moments,
        policy.run draws retryable (Retry.answering outcomes) Retry.pausing [] =
          .ok (answer, moments) → answer = outcomes last ∧ moments.count .called = last) ∧
      ((policy.jitterShare == 0) = true →
        policy.run draws retryable (Retry.answering outcomes) Retry.pausing [] =
          .ok (outcomes last, Retry.tape ((List.range (last - 1)).map policy.delay))) ∧
      (policy.jitter.isNaN = true → 1 < last →
        policy.run draws retryable (Retry.answering outcomes) Retry.pausing [] =
          .error .emptyInterval) := by
  obtain ⟨retries, hleast, hrest⟩ := Retry.retryLoop_answering policy.maxRetries
    (fun attempt => policy.jitteredDelay (draws attempt) attempt) retryable outcomes
    policy.maxRetries.toNat 0 (Nat.zero_add _).symm
  rw [show (0 : UInt64).toNat = 0 from rfl, Nat.zero_add] at hleast
  have hrun := hrest [] rfl
  rw [show (0 : UInt64).toNat = 0 from rfl, Nat.zero_add, ← List.range_eq_range'] at hrun
  refine ⟨retries + 1, hleast, hrun, fun answer moments hok => ?_, fun hshare => ?_,
    fun hjitter hmore => ?_⟩
  · obtain ⟨spans, hspans, hmade⟩ := map_eq_ok.mp (hrun.symm.trans hok)
    cases hmade
    refine ⟨rfl, ?_⟩
    have hlength := (forall₂_of_mapM hspans).length_eq
    rw [List.nil_append, Retry.count_called_tape, ← hlength, List.length_range]
  · have hspans : ((List.range retries).mapM fun attempt =>
        policy.jitteredDelay (draws attempt) attempt) =
          .ok ((List.range retries).map policy.delay) := by
      simp only [jitteredDelay_of_shareless hshare]
      exact List.mapM_pure
    rw [hspans] at hrun
    exact hrun
  · cases retries with
    | zero => exact absurd hmore (Nat.lt_irrefl 1)
    | succ retries =>
      rw [List.range_succ_eq_map, List.mapM_cons, jitteredDelay_of_isNaN hjitter] at hrun
      exact hrun

/-- An operation that always fails is called three times where two retries are permitted. -/
theorem three_calls_with_two_pauses :
    let policy : RetryPolicy Float := ⟨2, .ofMillis 10, .ofMillis 1000, 2, 0⟩
    (policy.jitterShare == 0) = true ∧
      policy.run (fun _ => 0.5) (fun _ : Unit => true)
          (Retry.answering fun _ => (.error () : Except Unit Unit)) Retry.pausing [] =
        .ok (.error (), [.called, .paused (policy.delay 0), .called, .paused (policy.delay 1),
          .called]) := by
  intro policy
  have hshare : (policy.jitterShare == 0) = true := by decide
  obtain ⟨last, ⟨⟨-, hlast⟩, -⟩, -, -, hzero, -⟩ :=
    calls_end_at_the_first_answer policy (fun _ => 0.5) (fun _ : Unit => true)
      fun _ => (.error () : Except Unit Unit)
  rcases hlast with hsettles | rfl
  · exact absurd (hsettles () rfl) (by decide)
  · exact ⟨hshare, hzero hshare⟩

/-- The second call of an operation would be answered. Yet it is not made, because the share of the
pause before it that may be random is not a number. -/
theorem undrawn_pause_stops_the_loop :
    let policy : RetryPolicy Float := ⟨3, .zero, .zero, 2, 0 / 0⟩
    let outcomes : Nat → Except Unit Unit := fun i => if i = 1 then .error () else .ok ()
    IsLeast {i | 0 < i ∧ (Retry.Settles (fun _ => true) (outcomes i) ∨
        i = policy.maxRetries.toNat + 1)} 2 ∧
      policy.run (fun _ => 0.5) (fun _ => true) (Retry.answering outcomes) Retry.pausing [] =
        .error .emptyInterval := by
  intro policy outcomes
  refine ⟨⟨⟨Nat.two_pos, .inl fun _ hfails => nomatch hfails⟩, fun i hi => ?_⟩, ?_⟩
  · rcases hi.2 with hsettles | hlast
    · refine Nat.succ_le_of_lt (Nat.lt_of_le_of_ne hi.1 fun hone => ?_)
      subst hone
      exact absurd (hsettles () rfl) (by decide)
    · exact hlast ▸ (by decide)
  · have hjitter : policy.jitter.isNaN = true := by decide
    have hfirst : Retry.answering outcomes [] = .ok (.error (), [.called]) := rfl
    rw [run, retryLoop_of_failure hfirst rfl (by decide), jitteredDelay_of_isNaN hjitter]
    rfl

end RetryPolicy

end Chronicle

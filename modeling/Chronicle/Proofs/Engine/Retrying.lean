import Chronicle.Proofs.Engine.Attempts
import Chronicle.Proofs.Retry
import Chronicle.Proofs.Sample.Sequence

/-!
# A command that is sent again

A command is sent again when its append found the stream at another version. Such an attempt has
stored nothing. An attempt that has stored its events is not answered with a conflict, whatever
becomes of its publication, so it is the last. So whatever others append meanwhile, the events of
at most one attempt are stored, and the answer tells whether they are
(`retrying_commits_at_most_once`).
-/

namespace Chronicle

open Engine (sendWithRetry)

variable {κ π : Type} [Projection κ π] {t : Task κ} {c c' last : Contest κ π}

theorem EngineError.isRetryable_iff {error : EngineError} :
    error.isRetryable = true ↔
      ∃ stream expected actual, error = .store (.conflict stream expected actual) := by
  constructor
  · intro h
    cases error with
    | store error =>
      cases error with
      | conflict stream expected actual => exact ⟨stream, expected, actual, rfl⟩
      | _ => cases h
    | _ => cases h
  · rintro ⟨stream, expected, actual, rfl⟩
    rfl

namespace Task

omit [Projection κ π] in
theorem Settles.idles_of_isRetryable {error : EngineError} (h : t.Settles c c' (.error error))
    (hretry : error.isRetryable = true) : c.Idles c' := by
  obtain ⟨_, _, _, rfl⟩ := EngineError.isRetryable_iff.mp hretry
  exact h

/-- Attempts that are repeated have stored nothing. -/
theorem idles_of_fails {conflicts : List EngineError} (hdense : c.world.store.Dense)
    (h : Retry.Fails EngineError.isRetryable t.sendAmong conflicts c last) : c.Idles last := by
  induction h with
  | never => exact .refl _
  | again hrun hretry _ ih =>
    have hfirst := (settles_of_sendAmong hdense hrun).idles_of_isRetryable hretry
    exact hfirst.trans (ih (hfirst.stays.dense hdense))

/-- Where nobody else works, this is how a command is sent again. -/
theorem retry_sendAmong_alone (t : Task κ) (policy : RetryPolicy Float) (draw : Float)
    (w : World MemoryStore κ π) :
    retryFrom (policy.jitteredDelay draw) EngineError.isRetryable t.sendAmong
        policy.maxRetries.toNat 0 ⟨w, []⟩ =
      (sendWithRetry t.settings t.A t.command policy draw w).map
        fun (outcome, pauses, w) => (outcome, pauses, ⟨w, []⟩) :=
  retryFrom_of_embedding t.sendAmong_alone _ _ _

/-- **To send again commits at most once.** Let a command be sent, and again after each conflict,
but so many times at most, with whatever delays, while others call the store between any two phases
of any attempt. The attempts before the last fail with a conflict and store nothing. What the whole
is answered is what the last attempt is answered, and it says what is stored: if it is an answer
with changes, or an error of the bus, then one append of the events of the command has succeeded,
which were decided on the state of the stream as it was just before; else, after a conflict in
particular, no append has. A fault comes of a delay, when nothing is stored, or of the last attempt,
which has stored its events once or not at all. -/
theorem retrying_commits_at_most_once (t : Task κ) (delay : Nat → Checked Duration)
    (retries : Nat) {c : Contest κ π} (hdense : c.world.store.Dense) :
    (∀ policy draw (w : World MemoryStore κ π),
      retryFrom (policy.jitteredDelay draw) EngineError.isRetryable t.sendAmong
          policy.maxRetries.toNat 0 ⟨w, []⟩ =
        (sendWithRetry t.settings t.A t.command policy draw w).map
          fun (outcome, pauses, w) => (outcome, pauses, ⟨w, []⟩)) ∧
    ∃ conflicts last, Retry.Fails EngineError.isRetryable t.sendAmong conflicts c last ∧
      conflicts.length ≤ retries ∧ c.Idles last ∧
      match retryFrom delay EngineError.isRetryable t.sendAmong retries 0 c with
      | .ok (outcome, pauses, c') =>
        t.sendAmong last = .ok (outcome, c') ∧ pauses.length = conflicts.length ∧
          t.Settles last c' outcome ∧ t.Settles c c' outcome
      | .error fault =>
        (∃ error c', t.sendAmong last = .ok (.error error, c') ∧ error.isRetryable = true ∧
          delay conflicts.length = .error fault ∧ c.Idles c') ∨
        ∃ c', t.runAmong 5 .waiting last = (.stopped fault, c') ∧
          (c.Idles c' ∨ ∃ version, t.CommitsOnce c c' version) := by
  refine ⟨t.retry_sendAmong_alone, ?_⟩
  obtain ⟨conflicts, last, hfails, hle, hends⟩ :=
    retryFrom_ends delay EngineError.isRetryable t.sendAmong retries 0 c
  have hidles := idles_of_fails hdense hfails
  have hdense' := hidles.stays.dense hdense
  refine ⟨conflicts, last, hfails, hle, hidles, ?_⟩
  generalize retryFrom delay EngineError.isRetryable t.sendAmong retries 0 c = result at hends
  cases hends with
  | answers hrun _ hpauses =>
    have hsettles := settles_of_sendAmong hdense' hrun
    have hlength := (forall₂_of_mapM hpauses).length_eq
    rw [List.length_range'] at hlength
    exact ⟨hrun, hlength.symm, hsettles, hsettles.mono hidles (.refl _)⟩
  | undelayed hrun hretry _ hdelay =>
    have hfailed := (settles_of_sendAmong hdense' hrun).idles_of_isRetryable hretry
    rw [Nat.zero_add] at hdelay
    exact Or.inl ⟨_, _, hrun, hretry, hdelay, hidles.trans hfailed⟩
  | stops hrun =>
    rcases t.sendAmong_cases last with ⟨_, _, -, hsend⟩ | ⟨fault, c', hstopped, hsend⟩
    · cases hsend.symm.trans hrun
    · obtain rfl := Except.error.inj (hsend.symm.trans hrun)
      rcases attempted_of_runAmong hdense' hstopped with hquiet | ⟨version, hcommits⟩
      · exact Or.inr ⟨c', hstopped, Or.inl (hidles.trans hquiet)⟩
      · exact Or.inr ⟨c', hstopped, Or.inr ⟨version, hcommits.mono hidles (.refl _)⟩⟩

open Sample in
/-- A new sequence to which others add 3 and 4 just before the third phase of what comes next. -/
def forestalled : Contest Carrier Inert := ⟨.blank, [[], [], [stocking .notCreated [3, 4]]]⟩

open Sample in
set_option maxRecDepth 10000 in
/-- The number 5 is added to a sequence to which others add 3 and 4 meanwhile: the first attempt
fails, and the second stores its event behind theirs. -/
theorem addition_is_sent_again : ∃ c' : Contest Carrier Inert,
    forestalled.world.store.Dense ∧
      retryFrom (fun _ => .ok (.ofMillis 10)) EngineError.isRetryable (addition [5]).sendAmong 3 0
          forestalled = .ok (.ok ⟨true, true, none, ⟨3⟩⟩, [.ofMillis 10], c') ∧
      (addition [5]).CommitsOnce forestalled c' ⟨3⟩ := by
  have hfirst : (addition [5]).sendAmong forestalled =
      .ok (.error (.store (.conflict (sequenceType.stream (7 : UInt64)) ⟨0⟩ ⟨2⟩)),
        ((addition [5]).runAmong 5 .waiting forestalled).2) := rfl
  have hsecond : ∃ c', (addition [5]).sendAmong ((addition [5]).runAmong 5 .waiting forestalled).2 =
      .ok (.ok ⟨true, true, none, ⟨3⟩⟩, c') := ⟨_, rfl⟩
  obtain ⟨c', hsecond⟩ := hsecond
  have hanswer : retryFrom (fun _ => .ok (.ofMillis 10)) EngineError.isRetryable
      (addition [5]).sendAmong 3 0 forestalled =
        .ok (.ok ⟨true, true, none, ⟨3⟩⟩, [.ofMillis 10], c') := by
    rw [retryFrom_succ_of_failure hfirst rfl,
      retryFrom_of_answer hsecond (fun _ heq => by cases heq)]
    rfl
  have hdense : forestalled.world.store.Dense := MemoryStore.dense_empty
  obtain ⟨-, conflicts, last, -, -, -, hends⟩ := retrying_commits_at_most_once (addition [5])
    (fun _ => .ok (.ofMillis 10)) 3 hdense
  rw [hanswer] at hends
  exact ⟨c', hdense, hanswer, hends.2.2.2⟩

end Task

end Chronicle

import Chronicle.Codec.Number
import Chronicle.Codec.Wire

/-!
# Retrying with growing delays

An operation that fails in a way worth another attempt is run again after a delay. The delay
grows by a factor with every attempt up to a longest one; from the second on it is a whole
number of milliseconds. On top comes a random part of it, at most the share called jitter.

The arithmetic of factors is a parameter, so the same rule can be run in floating point and
reasoned about in exact numbers.
-/

namespace Chronicle

/-- The arithmetic of growing delays. -/
class Scaling (ρ : Type) where
  ofNat : Nat → ρ
  mul : ρ → ρ → ρ
  pow : ρ → Nat → ρ
  isFinite : ρ → Bool
  /-- Whether a number is at most another. -/
  le : ρ → ρ → Bool
  /-- The whole part of a number that is finite, cut to 64 bits. -/
  truncate : ρ → UInt64

/-- How often and after which delays an operation is run again. -/
structure RetryPolicy (ρ : Type) where
  maxRetries : UInt64
  initialDelay : Duration
  maxDelay : Duration
  multiplier : ρ
  jitter : ρ

namespace RetryPolicy

variable {ρ : Type}

/-- The largest power to which the factor is raised. -/
def maxPower : Nat := 2147483647

/-- The delay after an attempt, counted from 0. -/
def delay [Scaling ρ] (policy : RetryPolicy ρ) (attempt : Nat) : Duration :=
  if attempt = 0 then policy.initialDelay.min policy.maxDelay
  else
    let millis := Scaling.mul (Scaling.ofNat policy.initialDelay.millis)
      (Scaling.pow policy.multiplier (Nat.min attempt maxPower))
    if Scaling.isFinite millis && !Scaling.le (Scaling.ofNat policy.maxDelay.millis) millis then
      .ofMillis (Scaling.truncate millis)
    else policy.maxDelay

end RetryPolicy

/-! ## Running an operation -/

section Run

variable {σ α ε : Type}

/-- Runs an operation that has failed `attempt` times and may be run `left` more times after
this. The delays it waited for come with the outcome. -/
def retryFrom (delay : Nat → Checked Duration) (retryable : ε → Bool)
    (operation : σ → Checked (Except ε α × σ)) :
    Nat → Nat → σ → Checked (Except ε α × List Duration × σ)
  | left, attempt, s => do
    let (outcome, s) ← operation s
    match outcome with
    | .ok value => return (.ok value, [], s)
    | .error error =>
      if retryable error then
        match left with
        | 0 => return (.error error, [], s)
        | left + 1 =>
          let pause ← delay attempt
          let (outcome, pauses, s) ← retryFrom delay retryable operation left (attempt + 1) s
          return (outcome, pause :: pauses, s)
      else return (.error error, [], s)

/-- Runs an operation that has failed `attempt` times, and again after each failure that is worth
it until so many are retried. The pause before a run changes the state, as the runs do. -/
def retryLoop (maxRetries : UInt64) (delay : Nat → Checked Duration) (retryable : ε → Bool)
    (operation : σ → Checked (Except ε α × σ)) (pause : Duration → σ → σ) (attempt : UInt64)
    (s : σ) : Checked (Except ε α × σ) := do
  let (outcome, s) ← operation s
  match outcome with
  | .ok value => return (.ok value, s)
  | .error error =>
    if retryable error then
      if maxRetries ≤ attempt then return (.error error, s)
      else
        let span ← delay attempt.toNat
        match _ : checkedAdd attempt 1 with
        | .error fault => .error fault
        | .ok next => retryLoop maxRetries delay retryable operation pause next (pause span s)
    else return (.error error, s)
termination_by maxRetries.toNat - attempt.toNat
decreasing_by
  -- The comparison comes before the counter is advanced, so it cannot pass its width.
  rename_i hleft hnext
  obtain ⟨hfits, rfl⟩ := checkedAdd_eq_ok_iff.mp hnext
  have hlt : attempt.toNat < maxRetries.toNat := Nat.not_le.mp hleft
  rw [UInt64.toNat_add, Nat.mod_eq_of_lt hfits]
  exact Nat.sub_lt_sub_left hlt (Nat.lt_succ_self _)

end Run

/-! ## Floating point -/

/-- Multiplies a result by powers of a base, by squaring. -/
def powBySquaring (result base : Float) (exponent : Nat) : Float :=
  let result := if exponent % 2 = 1 then result * base else result
  if exponent < 2 then result
  else powBySquaring result (base * base) (exponent / 2)
termination_by exponent
decreasing_by omega

instance : Scaling Float where
  ofNat n := Float.ofScientific n false 0
  mul a b := a * b
  pow base exponent := powBySquaring 1 base exponent
  isFinite := Float.isFinite
  le a b := a ≤ b
  truncate := Float.toUInt64

namespace RetryPolicy

/-- Three retries, the first after 10 ms, each delay twice the one before and none above a second,
with a tenth more at random. -/
def standard : RetryPolicy Float := ⟨3, .ofMillis 10, .ofMillis 1000, 2, 0.1⟩

/-- The length of a span in seconds. -/
def inSeconds (d : Duration) : Float :=
  Float.ofScientific d.seconds false 0 + Float.ofScientific d.subsecNanos false 0 / 1000000000

/-- The span nearest to a number of seconds, if that is one. -/
def ofSeconds? (seconds : Float) : Option Duration :=
  if 0 ≤ seconds && seconds < 18446744073709551616 then
    let (mantissa, exponent) := seconds.frExp
    let digits := (mantissa * 9007199254740992).toUInt64.toNat * 1000000000
    let shift := exponent - 53
    let nanos :=
      if 0 ≤ shift then digits <<< shift.natAbs
      else
        let unit := 1 <<< shift.natAbs
        let whole := digits / unit
        let twice := digits % unit * 2
        if unit < twice ∨ (twice = unit ∧ whole % 2 = 1) then whole + 1 else whole
    Duration.ofNanos? nanos
  else none

/-- The share of the delay that may be added, between none and all of it. -/
def jitterShare (policy : RetryPolicy Float) : Float :=
  if policy.jitter < 0 then 0 else if 1 < policy.jitter then 1 else policy.jitter

/-- The delay after an attempt with a random part. The draw is a number between 0 and 1. -/
def jitteredDelay (policy : RetryPolicy Float) (draw : Float) (attempt : Nat) : Checked Duration :=
  let base := policy.delay attempt
  let share := policy.jitterShare
  if share == 0 then .ok base
  else if share.isNaN then .error .emptyInterval
  else
    match ofSeconds? (draw * share * inSeconds base) with
    | none => .error .durationScale
    | some extra => base.checkedAdd extra

end RetryPolicy

/-- Runs an operation, and again after each failure that is worth it, as often as the policy
permits. -/
def RetryPolicy.retry {σ α ε : Type} (policy : RetryPolicy Float) (draw : Float)
    (retryable : ε → Bool) (operation : σ → Checked (Except ε α × σ)) (s : σ) :
    Checked (Except ε α × List Duration × σ) :=
  retryFrom (policy.jitteredDelay draw) retryable operation policy.maxRetries.toNat 0 s

/-- Runs an operation as often as the policy permits. Pauses change the state, and the random part
of each is drawn anew. -/
def RetryPolicy.run {σ α ε : Type} (policy : RetryPolicy Float) (draws : Nat → Float)
    (retryable : ε → Bool) (operation : σ → Checked (Except ε α × σ)) (pause : Duration → σ → σ)
    (s : σ) : Checked (Except ε α × σ) :=
  retryLoop policy.maxRetries (fun attempt => policy.jitteredDelay (draws attempt) attempt)
    retryable operation pause 0 s

/-- Doubles. They are read from JSON and never written in it. -/
def Format.double : Format Float where
  toBinary f := Bytes.littleEndian 8 f.toBits.toNat
  ofBinary bytes :=
    (Bytes.number? 8 bytes).map fun (n, rest) => (Float.ofBits (UInt64.ofNat n), rest)
  toJson _ := none
  ofJson
    | .number n => n.toFloat?
    | _ => none
  missing := none

instance : Wire (RetryPolicy Float) :=
  ⟨"RetryPolicy",
    Format.record
      (Fields.optional "max_retries" Format.uint64 RetryPolicy.standard.maxRetries <|
        Fields.optional "initial_delay" Format.duration RetryPolicy.standard.initialDelay <|
        Fields.optional "max_delay" Format.duration RetryPolicy.standard.maxDelay <|
        Fields.optional "multiplier" Format.double RetryPolicy.standard.multiplier <|
        Fields.optional "jitter" Format.double RetryPolicy.standard.jitter <| Fields.none)
      (fun p => (p.maxRetries, p.initialDelay, p.maxDelay, p.multiplier, p.jitter, ()))
      (fun (maxRetries, initialDelay, maxDelay, multiplier, jitter, _) =>
        ⟨maxRetries, initialDelay, maxDelay, multiplier, jitter⟩)⟩

end Chronicle

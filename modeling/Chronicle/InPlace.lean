import Chronicle.Fault

/-!
# Changes in place

A value that is changed in place is changed step by step, and an error does not undo the steps
before it. `InPlace` is for changes told in the order of their steps. Most of them come to the same
as a function that answers with another value or with an error (`Does`): where they fail, they have
changed nothing.
-/

namespace Chronicle

/-- Steps that change a value in its place. -/
abbrev InPlace (σ ε : Type) := ExceptT ε (StateT σ Checked)

namespace InPlace

variable {σ ε α β : Type}

/-- Takes steps with a value: how they end, and what has become of the value. -/
def perform (steps : InPlace σ ε α) (value : σ) : Checked (Except ε α × σ) := steps.run.run value

@[simp] theorem perform_pure (a : α) (value : σ) :
    (pure a : InPlace σ ε α).perform value = .ok (.ok a, value) := rfl

@[simp] theorem perform_throw (error : ε) (value : σ) :
    (throw error : InPlace σ ε α).perform value = .ok (.error error, value) := rfl

@[simp] theorem perform_get (value : σ) :
    (get : InPlace σ ε σ).perform value = .ok (.ok value, value) := rfl

@[simp] theorem perform_modify (change : σ → σ) (value : σ) :
    (modify change : InPlace σ ε PUnit).perform value = .ok (.ok ⟨⟩, change value) := rfl

/-- A computation that may stop changes nothing. -/
@[simp] theorem perform_lift (x : Checked α) (value : σ) :
    (liftM x : InPlace σ ε α).perform value = x.map fun a => (.ok a, value) := by
  cases x <;> rfl

@[simp] theorem perform_bind (steps : InPlace σ ε α) (next : α → InPlace σ ε β) (value : σ) :
    (steps >>= next).perform value =
      match steps.perform value with
      | .ok (.ok a, value) => (next a).perform value
      | .ok (.error error, value) => .ok (.error error, value)
      | .error fault => .error fault := by
  show (steps.run.run value >>= fun answer => _) = _
  unfold perform
  cases steps.run.run value with
  | error fault => rfl
  | ok answer =>
    obtain ⟨outcome, value⟩ := answer
    cases outcome <;> rfl

/-- What has become of a value that was to be replaced by another. -/
def settle (before : σ) : Except ε σ → Except ε Unit × σ
  | .ok after => (.ok (), after)
  | .error error => (.error error, before)

/-- Steps come to the same as a function. -/
def Does (steps : InPlace σ ε Unit) (f : σ → Checked (Except ε σ)) : Prop :=
  ∀ value, steps.perform value = (f value).map (settle value)

/-- Steps that come to the same as a function either make of a value what the function does, or
fail where it does and leave the value as it was. -/
theorem Does.perform_eq_ok {steps : InPlace σ ε Unit} {f : σ → Checked (Except ε σ)}
    (h : steps.Does f) {before after : σ} {outcome : Except ε Unit}
    (hrun : steps.perform before = .ok (outcome, after)) :
    (f before = .ok (.ok after) ∧ outcome = .ok ()) ∨
      ∃ error, f before = .ok (.error error) ∧ outcome = .error error ∧ after = before := by
  rw [h before] at hrun
  rcases hf : f before with fault | error | value
  · rw [hf] at hrun
    cases hrun
  · rw [hf] at hrun
    cases hrun
    exact Or.inr ⟨error, rfl, rfl, rfl⟩
  · rw [hf] at hrun
    cases hrun
    exact Or.inl ⟨rfl, rfl⟩

theorem Does.perform_eq_error {steps : InPlace σ ε Unit} {f : σ → Checked (Except ε σ)}
    (h : steps.Does f) {value : σ} {fault : Fault} (hrun : steps.perform value = .error fault) :
    f value = .error fault := by
  rw [h value] at hrun
  cases hf : f value with
  | error found =>
    rw [hf] at hrun
    cases hrun
    rfl
  | ok outcome =>
    rw [hf] at hrun
    cases hrun

end InPlace

end Chronicle

import Chronicle.Proofs.Sample.Sequence
import Mathlib.Algebra.GroupWithZero.Nat

/-!
# What a sequence is to be

`SequenceModel` says what becomes of a sequence by commands alone, without events, versions and
widths: the numbers it holds, the sum of all that were ever added, and how many events there have
been. A command that does not stop makes of the events of a sequence what the model says
(`SequenceModel.Models.step`); it stops only where a number would pass its width.
-/

namespace Chronicle.Sample

structure SequenceModel where
  items : List UInt32
  lifetimeTotal : Nat
  /-- How many events there have been. -/
  emitted : Nat
  deriving DecidableEq

namespace SequenceModel

def empty : SequenceModel := ⟨[], 0, 0⟩

/-- Numbers that are added are put behind the others, and an empty sequence is not cleared. -/
def step (m : SequenceModel) : SequenceCommand → SequenceModel
  | .add values =>
    ⟨m.items ++ values, m.lifetimeTotal + (values.map UInt32.toNat).sum, m.emitted + values.length⟩
  | .clear => if m.items = [] then m else ⟨[], m.lifetimeTotal, m.emitted + 1⟩

/-- The state is the one that the model says. -/
structure Tells (m : SequenceModel) (state : SequenceState) : Prop where
  items : state.items = m.items
  total : state.lifetimeTotal.toNat = m.lifetimeTotal

/-- The events lead to the state that the model says, and are as many as it says. -/
structure Models (m : SequenceModel) (events : List SequenceEvent) : Prop where
  state : ∃ state, sequenceType.fold? events = some state ∧ m.Tells state
  emitted : events.length = m.emitted

theorem models_empty : empty.Models [] := ⟨⟨_, rfl, rfl, rfl⟩, rfl⟩

end SequenceModel

/-! ## Adding numbers -/

theorem SequenceState.find?_itemAdded (value : UInt32) :
    mutator.find? (EventKind.kind (SequenceEvent.itemAdded value)) = some onItemAdded := rfl

theorem SequenceState.find?_cleared :
    mutator.find? (EventKind.kind SequenceEvent.cleared) = some onCleared := rfl

theorem SequenceState.onItemAdded_cases (value : UInt32) (state : SequenceState) :
    onItemAdded (.itemAdded value) state = .error .addition ∨
      ∃ moved, onItemAdded (.itemAdded value) state = .ok moved ∧
        moved.items = state.items ++ [value] ∧
        moved.lifetimeTotal.toNat = state.lifetimeTotal.toNat + value.toNat := by
  cases htotal : checkedAdd state.lifetimeTotal value.toUInt64 with
  | error fault =>
    obtain rfl := (checkedAdd_eq_error_iff.mp htotal).2
    exact .inl (by rw [onItemAdded, htotal]; rfl)
  | ok total =>
    have hsum := checkedAdd_eq_ok_iff_toNat.mp htotal
    rw [UInt32.toNat_toUInt64] at hsum
    exact .inr ⟨_, by rw [onItemAdded, htotal]; rfl, rfl, hsum⟩

/-- Numbers that are added one after the other are all put behind the others and summed up, unless
a version or the sum would pass 64 bits. -/
theorem play_additions (values : List UInt32) : ∀ (state : SequenceState) (version : Version),
    (Decision.emitAll (values.map .itemAdded)).play SequenceState.mutator state version =
        .error .addition ∨
      ∃ last following, (Decision.emitAll (values.map .itemAdded)).play SequenceState.mutator state
          version = .ok ⟨.accepted, values.map .itemAdded, last, following⟩ ∧
        last.items = state.items ++ values ∧
        last.lifetimeTotal.toNat = state.lifetimeTotal.toNat + (values.map UInt32.toNat).sum := by
  induction values with
  | nil => exact fun state version => .inr ⟨state, version, rfl, (List.append_nil _).symm, rfl⟩
  | cons value values ih =>
    intro state version
    rw [List.map_cons, Decision.emitAll,
      Decision.play_emit (SequenceState.find?_itemAdded value)]
    cases hnext : version.next with
    | error fault =>
      obtain ⟨-, rfl⟩ := Version.next_eq_error hnext
      exact .inl rfl
    | ok following =>
      rcases SequenceState.onItemAdded_cases value state with
        hstops | ⟨moved, hmoved, hitems, htotal⟩
      · rw [hstops]
        exact .inl rfl
      rw [hmoved]
      rcases ih moved following with hstops | ⟨last, final, hlast, hitems', htotal'⟩
      · refine .inl ?_
        show (Decision.play _ (Decision.emitAll _) moved following >>= _) = _
        rw [hstops]
        rfl
      · refine .inr ⟨last, final, ?_, ?_, ?_⟩
        · show (Decision.play _ (Decision.emitAll _) moved following >>= _) = _
          rw [hlast]
          rfl
        · rw [hitems', hitems, List.append_assoc, List.singleton_append]
        · rw [htotal', htotal, List.map_cons, List.sum_cons, Nat.add_assoc]

/-! ## One command -/

section

variable {command : CommandEnvelope UInt64 SequenceCommand} {state : SequenceState}
  {version : Version}

/-- A command to a sequence stops where a number would pass its width; else it is accepted, and
comes to what the model says. -/
theorem SequenceModel.Tells.play {m : SequenceModel} (h : m.Tells state)
    (command : CommandEnvelope UInt64 SequenceCommand) (version : Version) :
    (SequenceCommand.handle command state).play SequenceState.mutator state version =
        .error .addition ∨
      ∃ events last following,
        (SequenceCommand.handle command state).play SequenceState.mutator state version =
          .ok ⟨.accepted, events, last, following⟩ ∧
        (m.step command.payload).Tells last ∧
        (m.step command.payload).emitted = m.emitted + events.length := by
  unfold SequenceCommand.handle
  cases command.payload with
  | add values =>
    rcases play_additions values state version with
      hstops | ⟨last, following, hplay, hitems, htotal⟩
    · exact .inl hstops
    · refine .inr ⟨_, last, following, hplay, ⟨?_, ?_⟩, ?_⟩
      · rw [hitems, h.items]
        rfl
      · rw [htotal, h.total]
        rfl
      · rw [List.length_map]
        rfl
  | clear =>
    dsimp only
    split
    · next hempty =>
      have hnone : m.items = [] := h.items.symm.trans (List.isEmpty_iff.mp hempty)
      rw [step, if_pos hnone]
      exact .inr ⟨[], state, version, rfl, h, rfl⟩
    · next hsome =>
      have hsome' : m.items ≠ [] := fun hnone =>
        hsome (List.isEmpty_iff.mpr (h.items.trans hnone))
      rw [Decision.play_emitOnly SequenceState.find?_cleared]
      cases hnext : version.next with
      | error fault =>
        obtain ⟨-, rfl⟩ := Version.next_eq_error hnext
        exact .inl rfl
      | ok following =>
        refine .inr ⟨[.cleared], _, following, rfl, ?_, ?_⟩
        · rw [step, if_neg hsome']
          exact ⟨rfl, h.total⟩
        · rw [step, if_neg hsome']
          rfl

/-- What the model says of the events of a sequence it says of them with those of a command too. -/
theorem SequenceModel.Models.step {m : SequenceModel} {events : List SequenceEvent}
    (h : m.Models events) (hstate : sequenceType.fold? events = some state)
    {play : Play SequenceState SequenceEvent}
    (hplay : (SequenceCommand.handle command state).play SequenceState.mutator state version =
      .ok play) :
    play.verdict = .accepted ∧ (m.step command.payload).Models (events ++ play.events) := by
  obtain ⟨found, hfound, htells⟩ := h.state
  obtain rfl := Option.some.inj (hstate.symm.trans hfound)
  rcases htells.play command version with
    hstops | ⟨added, last, following, hplay', htells', hemitted⟩
  · cases hstops.symm.trans hplay
  obtain rfl := Except.ok.inj (hplay'.symm.trans hplay)
  refine ⟨rfl, ⟨last, ?_, htells'⟩, ?_⟩
  · rw [AggregateType.fold?_append, hstate]
    exact (Decision.play_events hplay).1
  · rw [List.length_append, h.emitted, hemitted]

theorem SequenceCommand.play_eq_error {fault : Fault}
    (h : (SequenceCommand.handle command state).play SequenceState.mutator state version =
      .error fault) : fault = .addition := by
  have htells : (SequenceModel.mk state.items state.lifetimeTotal.toNat 0).Tells state := ⟨rfl, rfl⟩
  rcases htells.play command version with
    hstops | ⟨_, _, _, hplay, -⟩
  · exact Except.error.inj (h.symm.trans hstops)
  · cases hplay.symm.trans h

end

end Chronicle.Sample

import Chronicle.Proofs.Aggregate.Buffer
import Chronicle.Store.Memory
import Mathlib.Data.List.Induction

/-!
# When the expected version moves

The version that the stream of an instance is expected to have is fixed when the instance is made
ready. Of all calls only this one moves it (`expected_of_call`), but nothing keeps an instance from
being made ready again, behind events that it has applied. So it stays where it is exactly as long
as no instance is made ready at another version than before
(`expected_version_is_frozen_until_marked_again`).
-/

namespace Chronicle

namespace Aggregate

variable {A : AggregateType}

/-- Some calls lead from one instance to another. -/
def Leads (a : Aggregate A) (ids : IdSupply) (calls : List (Call A)) (b : Aggregate A)
    (ids' : IdSupply) : Prop := ∃ answers, a.callAll ids calls = .ok (answers, b, ids')

theorem leads_concat_iff {a b : Aggregate A} {ids ids' : IdSupply} {calls : List (Call A)}
    {c : Call A} : a.Leads ids (calls ++ [c]) b ids' ↔
      ∃ next middle answer, a.Leads ids calls next middle ∧
        next.call middle c = .ok (answer, b, ids') := by
  constructor
  · rintro ⟨answers, h⟩
    obtain ⟨told, rest, next, middle, htold, hrest, -⟩ := callAll_append_eq_ok.mp h
    obtain ⟨answer, rest, last, ids'', hcall, hdone, -⟩ := callAll_cons_eq_ok hrest
    cases hdone
    exact ⟨next, middle, answer, ⟨told, htold⟩, hcall⟩
  · rintro ⟨next, middle, answer, ⟨told, htold⟩, hcall⟩
    refine ⟨_, callAll_append_eq_ok.mpr ⟨told, [answer], next, middle, htold, ?_, rfl⟩⟩
    rw [callAll, hcall]
    rfl

/-- Whatever a command comes to, the expected version stays. -/
theorem conclude_expected (a : Aggregate A) (p : Play A.State A.Event)
    (envelopes : List (EventEnvelope A.Id A.Event)) :
    (a.conclude p envelopes).2.expected = a.expected := by
  cases h : p.verdict <;> simp [conclude, h, rollBack, moved]

/-- A call moves the expected version only if it makes the instance ready. -/
theorem expected_of_call {a b : Aggregate A} {ids ids' : IdSupply} {c : Call A}
    {answer : Except AggregateError (Answer A)} (h : a.call ids c = .ok (answer, b, ids')) :
    (c = .markReady ∧ b.expected = a.current) ∨ (c ≠ .markReady ∧ b.expected = a.expected) := by
  cases call_eq_ok h with
  | marked => exact Or.inl ⟨rfl, rfl⟩
  | restored hrestore =>
    obtain ⟨-, rfl⟩ := restore_eq_ok_iff.mp hrestore
    exact Or.inr ⟨nofun, rfl⟩
  | replayed hreplay =>
    obtain ⟨-, -, state, -, rfl⟩ := replay_eq_ok_iff.mp hreplay
    exact Or.inr ⟨nofun, rfl⟩
  | applied happly =>
    obtain ⟨-, version, state, -, -, rfl⟩ := apply_eq_ok_iff.mp happly
    exact Or.inr ⟨nofun, rfl⟩
  | refused hc =>
    refine Or.inr ⟨?_, rfl⟩
    rintro rfl
    cases hc
  | executed hexecute =>
    refine Or.inr ⟨nofun, ?_⟩
    rcases execute_eq_ok hexecute with ⟨-, -, rfl⟩ | ⟨-, p, envelopes, -, -, hconclude⟩
    · rfl
    · obtain rfl : b = _ := congrArg Prod.snd hconclude
      exact a.conclude_expected p envelopes
  | taken => exact Or.inr ⟨nofun, rfl⟩

/-- **The expected version is frozen until an instance is made ready again.** Behind the call that
makes an instance ready, whatever is called and whichever calls fail, the expected version is the
one the instance was at, as long as it is not made ready again; and where it is, the version stays
frozen exactly if the instance is at the same version each time. -/
theorem expected_version_is_frozen_until_marked_again (a : Aggregate A) (ids : IdSupply)
    (calls : List (Call A)) :
    (.markReady ∉ calls → ∀ before next ids', before <+: calls →
        a.markReady.Leads ids before next ids' → next.expected = a.current) ∧
      ((∀ before next ids', before <+: calls → a.markReady.Leads ids before next ids' →
          next.expected = a.current) ↔
        ∀ before next ids', before ++ [.markReady] <+: calls →
          a.markReady.Leads ids before next ids' → next.current = a.current) := by
  have hfrozen : (∀ before next ids', before ++ [.markReady] <+: calls →
        a.markReady.Leads ids before next ids' → next.current = a.current) →
      ∀ before next ids', before <+: calls → a.markReady.Leads ids before next ids' →
        next.expected = a.current := by
    -- by induction on the calls made so far, from the last one: only a call that makes the instance
    -- ready moves the expected version, and it then finds the instance where it was
    intro hmarked before
    induction before using List.reverseRecOn with
    | nil =>
      rintro next ids' - ⟨answers, h⟩
      cases h
      rfl
    | append_singleton before c ih =>
      intro last ids' hbefore hlast
      obtain ⟨next, middle, answer, hnext, hcall⟩ := leads_concat_iff.mp hlast
      rcases expected_of_call hcall with ⟨rfl, hexpected⟩ | ⟨-, hexpected⟩
      · rw [hexpected]
        exact hmarked before next middle hbefore hnext
      · rw [hexpected]
        exact ih next middle ((List.prefix_append before [c]).trans hbefore) hnext
  refine ⟨fun hnone => hfrozen fun before next ids' hbefore _ => ?_, fun h => ?_, hfrozen⟩
  · exact absurd (hbefore.subset (by simp)) hnone
  · intro before next ids' hbefore hnext
    exact h _ next.markReady ids' hbefore (leads_concat_iff.mpr ⟨next, ids', _, hnext, rfl⟩)

end Aggregate

open Sample Aggregate in
/-- A sequence that is made ready again behind an event that it has applied expects its stream to
hold the event. An append of the event behind the expected version is refused. -/
theorem Aggregate.sequence_marked_again_expects_its_own_event :
    ∃ b ids, growing.markReady.Leads ⟨0⟩
        [.apply (telling .clear) (SequenceEvent.itemAdded 1), .markReady] b ids ∧
      growing.markReady.expected = ⟨0⟩ ∧ b.expected = ⟨1⟩ ∧
      EventStore.appendEnvelopes MemoryStore.empty .json ⟨1⟩ .default b.stream b.expected
          b.uncommitted =
        .ok (.error (.misplaced 1 b.stream ⟨1⟩ ⟨2⟩), MemoryStore.empty) :=
  ⟨_, _, ⟨_, rfl⟩, rfl, rfl, rfl⟩

end Chronicle

import Chronicle.Completion.Tracker

/-!
# What can be seen of a tracker

Of a tracker one sees the unhandled events of each sequence, those who wait for it, whether it is
done, and who was released. Here is what each step of a tracker does to these views.

A tracker is `Tidy` if no sequence without unhandled events has an entry, and none has two. Every
step leaves a tidy tracker tidy, and in a tidy one a sequence is done exactly if it has no
unhandled events (`Tidy.isDone_iff`).
-/

namespace Chronicle.CompletionTracker

/-- Those who wait for a sequence. -/
def waiters (t : CompletionTracker) (sequence : SequenceId) : List Nat :=
  match t.sequences.get? sequence with
  | some pending => pending.waiters
  | none => []

variable {t : CompletionTracker} {sequence other : SequenceId} {event : EventId} {waiter : Nat}

/-! ## Noting that an event is published -/

theorem outstanding_start (t : CompletionTracker) (sequence other : SequenceId) (event : EventId) :
    (t.start sequence event).outstanding other =
      if other = sequence then (t.outstanding sequence).insert event else t.outstanding other := by
  by_cases h : other = sequence
  · subst h
    simp only [outstanding, start, Table.get?_set, if_true]
    cases t.sequences.get? other <;> rfl
  · simp only [outstanding, start, Table.get?_set, if_neg h]

theorem waiters_start (t : CompletionTracker) (sequence other : SequenceId) (event : EventId) :
    (t.start sequence event).waiters other = t.waiters other := by
  by_cases h : other = sequence
  · subst h
    simp only [waiters, start, Table.get?_set, if_true]
    cases t.sequences.get? other <;> rfl
  · simp only [waiters, start, Table.get?_set, if_neg h]

/-! ## Noting that an event is handled -/

/-- Whether nothing of a sequence is unhandled once an event of it is handled. -/
def empties (t : CompletionTracker) (sequence : SequenceId) (event : EventId) : Bool :=
  ((t.outstanding sequence).filter (· ≠ event)).isEmpty

/-- An event is handled of a sequence that has no entry, as the last one of its sequence, or before
others of it. -/
theorem complete_cases (t : CompletionTracker) (sequence : SequenceId) (event : EventId) :
    (t.sequences.get? sequence = none ∧ t.complete sequence event = t) ∨
    ∃ pending, t.sequences.get? sequence = some pending ∧
      ((t.empties sequence event = true ∧ t.complete sequence event =
          { t with
            sequences := t.sequences.erase sequence
            released := t.released ++ pending.waiters }) ∨
        (t.empties sequence event = false ∧ t.complete sequence event =
          { t with
            sequences := t.sequences.set sequence
              ⟨(t.outstanding sequence).filter (· ≠ event), pending.waiters⟩ })) := by
  cases hget : t.sequences.get? sequence with
  | none => exact Or.inl ⟨rfl, by rw [complete, hget]⟩
  | some pending =>
    have hout : t.outstanding sequence = pending.outstanding := by rw [outstanding, hget]
    refine Or.inr ⟨pending, rfl, ?_⟩
    rw [complete, hget, empties, hout]
    cases h : (pending.outstanding.filter (· ≠ event)).isEmpty with
    | true => exact Or.inl ⟨rfl, by simp only [h, if_true]⟩
    | false => exact Or.inr ⟨rfl, by simp only [h, Bool.false_eq_true, if_false]⟩

theorem outstanding_complete (t : CompletionTracker) (sequence other : SequenceId)
    (event : EventId) :
    (t.complete sequence event).outstanding other =
      if other = sequence then (t.outstanding sequence).filter (· ≠ event)
      else t.outstanding other := by
  rcases t.complete_cases sequence event with
    ⟨hget, h⟩ | ⟨pending, hget, ⟨hempty, h⟩ | ⟨-, h⟩⟩
  · by_cases ho : other = sequence <;> simp [h, ho, outstanding, hget]
  · rw [empties, List.isEmpty_iff] at hempty
    rw [h, hempty]
    by_cases ho : other = sequence <;> simp [ho, outstanding, Table.get?_erase]
  · rw [h]
    by_cases ho : other = sequence <;> simp [ho, outstanding, Table.get?_set]

theorem waiters_complete (t : CompletionTracker) (sequence other : SequenceId) (event : EventId) :
    (t.complete sequence event).waiters other =
      if other = sequence ∧ t.empties sequence event = true then [] else t.waiters other := by
  rcases t.complete_cases sequence event with
    ⟨hget, h⟩ | ⟨pending, hget, ⟨hempty, h⟩ | ⟨hempty, h⟩⟩
  · by_cases ho : other = sequence <;> simp [h, ho, waiters, hget]
  · by_cases ho : other = sequence <;> simp [h, ho, hempty, waiters, Table.get?_erase]
  · by_cases ho : other = sequence <;> simp [h, ho, hempty, waiters, hget, Table.get?_set]

/-- With the last event of a sequence those who wait for it are released. -/
theorem released_complete (t : CompletionTracker) (sequence : SequenceId) (event : EventId) :
    (t.complete sequence event).released =
      t.released ++ if t.empties sequence event = true then t.waiters sequence else [] := by
  rcases t.complete_cases sequence event with
    ⟨hget, h⟩ | ⟨pending, hget, ⟨hempty, h⟩ | ⟨hempty, h⟩⟩ <;> simp [*, waiters]

theorem nextWaiter_complete (t : CompletionTracker) (sequence : SequenceId) (event : EventId) :
    (t.complete sequence event).nextWaiter = t.nextWaiter := by
  rcases t.complete_cases sequence event with ⟨-, h⟩ | ⟨_, -, ⟨-, h⟩ | ⟨-, h⟩⟩ <;> rw [h]

/-! ## Beginning to wait -/

/-- What changes when one begins to wait for a sequence that is not done. -/
structure Enrolls (t : CompletionTracker) (sequence : SequenceId) (t' : CompletionTracker) :
    Prop where
  nextWaiter : t'.nextWaiter = t.nextWaiter + 1
  released : t'.released = t.released
  outstanding : ∀ other, t'.outstanding other = t.outstanding other
  waiters : ∀ other, t'.waiters other =
    if other = sequence then t.waiters sequence ++ [t.nextWaiter] else t.waiters other

/-- Who begins to wait for a sequence that is done is not enrolled. -/
theorem enroll_cases (t : CompletionTracker) (sequence : SequenceId) :
    (t.isDone sequence = true ∧ t.enroll sequence = (none, t)) ∨
      ∃ t', t.isDone sequence = false ∧ t.enroll sequence = (some t.nextWaiter, t') ∧
        t.Enrolls sequence t' := by
  unfold isDone
  cases hget : t.sequences.get? sequence with
  | none => exact Or.inl ⟨rfl, by rw [enroll, hget]⟩
  | some pending =>
    refine Or.inr ⟨{ t with
      sequences := t.sequences.set sequence ⟨pending.outstanding, pending.waiters ++ [t.nextWaiter]⟩
      nextWaiter := t.nextWaiter + 1 }, rfl, by rw [enroll, hget], rfl, rfl, fun other => ?_,
      fun other => ?_⟩
    · by_cases ho : other = sequence <;>
        simp [CompletionTracker.outstanding, Table.get?_set, ho, hget]
    · by_cases ho : other = sequence <;>
        simp [CompletionTracker.waiters, Table.get?_set, ho, hget]

/-! ## Ending a wait -/

theorem expire_fst (t : CompletionTracker) (sequence : SequenceId) (waiter : Nat) :
    (t.expire sequence waiter).1 = (t.waiters sequence).contains waiter := by
  unfold expire waiters
  cases t.sequences.get? sequence <;> rfl

theorem outstanding_expire (t : CompletionTracker) (sequence other : SequenceId) (waiter : Nat) :
    (t.expire sequence waiter).2.outstanding other = t.outstanding other := by
  unfold expire
  cases hget : t.sequences.get? sequence with
  | none => rfl
  | some pending =>
    by_cases h : other = sequence <;> simp [outstanding, Table.get?_set, h, hget]

theorem waiters_expire (t : CompletionTracker) (sequence other : SequenceId) (waiter : Nat) :
    (t.expire sequence waiter).2.waiters other =
      if other = sequence then (t.waiters sequence).filter (· ≠ waiter) else t.waiters other := by
  unfold expire
  cases hget : t.sequences.get? sequence with
  | none => by_cases h : other = sequence <;> simp [waiters, h, hget]
  | some pending => by_cases h : other = sequence <;> simp [waiters, Table.get?_set, h, hget]

theorem nextWaiter_expire (t : CompletionTracker) (sequence : SequenceId) (waiter : Nat) :
    (t.expire sequence waiter).2.nextWaiter = t.nextWaiter := by
  unfold expire
  cases t.sequences.get? sequence <;> rfl

theorem released_expire (t : CompletionTracker) (sequence : SequenceId) (waiter : Nat) :
    (t.expire sequence waiter).2.released = t.released := by
  unfold expire
  cases t.sequences.get? sequence <;> rfl

/-! ## Tidy trackers -/

/-- A sequence has an entry only while some of its events are unhandled, and has one. -/
structure Tidy (t : CompletionTracker) : Prop where
  outstanding : ∀ {sequence pending}, t.sequences.get? sequence = some pending →
    pending.outstanding ≠ []
  nodup : t.sequences.keys.Nodup

theorem tidy_empty : empty.Tidy where
  outstanding hget := by cases hget
  nodup := List.nodup_nil

/-- A sequence is done exactly if none of its events is unhandled. -/
theorem Tidy.isDone_iff (h : t.Tidy) (sequence : SequenceId) :
    t.isDone sequence = true ↔ t.outstanding sequence = [] := by
  unfold isDone CompletionTracker.outstanding
  cases hget : t.sequences.get? sequence with
  | none => simp
  | some pending => simpa using h.outstanding hget

/-- Nobody waits for a sequence that is done. -/
theorem waiters_of_isDone (h : t.isDone sequence = true) : t.waiters sequence = [] := by
  rw [waiters, Option.isNone_iff_eq_none.mp h]

/-- A tidy tracker counts the sequences that have unhandled events. -/
theorem Tidy.size_eq (h : t.Tidy) :
    ∃ pending : List SequenceId, pending.Nodup ∧
      (∀ sequence, sequence ∈ pending ↔ t.outstanding sequence ≠ []) ∧
      t.size = pending.length := by
  refine ⟨t.sequences.keys, h.nodup, fun sequence => ?_, (Table.length_keys _).symm⟩
  rw [Table.mem_keys_iff, ne_eq, ne_eq, ← h.isDone_iff, isDone, Option.isNone_iff_eq_none]

/-- A tracker stays tidy if one entry is given unhandled events. -/
theorem Tidy.set (h : t.Tidy) (sequence : SequenceId) {outstanding : List EventId}
    (hsome : outstanding ≠ []) (waiters : List Nat) (nextWaiter : Nat) (released : List Nat) :
    Tidy ⟨t.sequences.set sequence ⟨outstanding, waiters⟩, nextWaiter, released⟩ where
  outstanding hget := by
    rw [Table.get?_set] at hget
    split at hget
    · obtain rfl := Option.some.inj hget
      exact hsome
    · exact h.outstanding hget
  nodup := Table.nodup_keys_set h.nodup ..

theorem Tidy.start (h : t.Tidy) (sequence : SequenceId) (event : EventId) :
    (t.start sequence event).Tidy :=
  h.set sequence (List.ne_nil_of_mem List.mem_insert_self) _ _ _

theorem Tidy.complete (h : t.Tidy) (sequence : SequenceId) (event : EventId) :
    (t.complete sequence event).Tidy := by
  rcases t.complete_cases sequence event with
    ⟨-, heq⟩ | ⟨pending, hget, ⟨-, heq⟩ | ⟨hmore, heq⟩⟩ <;> rw [heq]
  · exact h
  · refine ⟨fun hother => ?_, Table.nodup_keys_erase h.nodup _⟩
    rw [Table.get?_erase] at hother
    split at hother
    · cases hother
    · exact h.outstanding hother
  · refine h.set sequence (fun hnil => ?_) _ _ _
    rw [empties, List.isEmpty_iff.mpr hnil] at hmore
    cases hmore

theorem Tidy.enroll (h : t.Tidy) (sequence : SequenceId) : (t.enroll sequence).2.Tidy := by
  unfold CompletionTracker.enroll
  split
  · exact h
  · next hget => exact h.set sequence (h.outstanding hget) _ _ _

theorem Tidy.expire (h : t.Tidy) (sequence : SequenceId) (waiter : Nat) :
    (t.expire sequence waiter).2.Tidy := by
  unfold CompletionTracker.expire
  split
  · exact h
  · next hget => exact h.set sequence (h.outstanding hget) _ _ _

end Chronicle.CompletionTracker

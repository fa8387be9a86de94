import Chronicle.Proofs.Aggregate.Play

/-!
# An instance from its first event to its command

What bringing an instance up to date and handling a command do to it, said through the readings of
events and decisions: replaying folds the transitions over the payloads and ends at the version of
the last event, and executing plays the decision of the handler and concludes from its verdict.
-/

namespace Chronicle

namespace Aggregate

variable {A : AggregateType}

/-! ## Replaying -/

/-- The version that an instance at some version has behind some events. -/
def behind (version : Version) (envelopes : List (EventEnvelope A.Id A.Event)) : Version :=
  (envelopes.getLast?.map EventEnvelope.version).getD version

theorem behind_cons (version : Version) (envelope : EventEnvelope A.Id A.Event)
    (envelopes : List (EventEnvelope A.Id A.Event)) :
    behind version (envelope :: envelopes) = behind envelope.version envelopes := by
  cases h : envelopes.getLast? <;> simp [behind, List.getLast?_cons, h]

/-- An instance taken through some events. -/
def through (a : Aggregate A) (state : A.State)
    (envelopes : List (EventEnvelope A.Id A.Event)) : Aggregate A :=
  { a with mutator := a.mutator.seed state, current := behind a.current envelopes }

/-- One event is replayed when it is newer and its transition has an answer. -/
theorem replay_eq_ok_iff {a a' : Aggregate A} {envelope : EventEnvelope A.Id A.Event} :
    a.replay envelope = .ok (.ok a') ↔
      a.status = .hydrating ∧ a.current < envelope.version ∧
        ∃ state, a.mutator.next? a.state envelope.payload = some state ∧
          a' = { a with mutator := a.mutator.seed state, current := envelope.version } := by
  unfold replay
  by_cases hstatus : a.status = .hydrating
  case neg => simp [ensure, hstatus]
  have hensure : a.ensure .hydrating = .ok () := by simp [ensure, hstatus]
  simp only [hensure, hstatus, true_and]
  by_cases hle : envelope.version ≤ a.current
  case pos =>
    have hlt : ¬ a.current < envelope.version := by
      rw [Version.lt_iff_toNat_lt]
      rw [Version.le_iff_toNat_le] at hle
      omega
    simp [hle, hlt]
  have hlt : a.current < envelope.version := by
    rw [Version.lt_iff_toNat_lt]
    rw [Version.le_iff_toNat_le] at hle
    omega
  simp only [hle, if_false, hlt, true_and]
  constructor
  · intro h
    obtain ⟨outcome, hm, h⟩ := bind_eq_ok.mp h
    cases outcome with
    | error error => cases h
    | ok m =>
      obtain ⟨state, hstate, rfl⟩ := Mutator.apply_eq_ok_iff.mp hm
      obtain rfl := Except.ok.inj (Except.ok.inj h)
      exact ⟨state, hstate, rfl⟩
  · rintro ⟨state, hstate, rfl⟩
    rw [Mutator.apply_eq_ok_iff.mpr ⟨state, hstate, rfl⟩]
    rfl

/-- Where a replay comes through, it has folded the transitions over the payloads. -/
theorem replayAll_eq_ok {envelopes : List (EventEnvelope A.Id A.Event)} :
    ∀ {a a' : Aggregate A}, a.replayAll envelopes = .ok (.ok a') →
      ∃ state, (envelopes.map EventEnvelope.payload).foldlM a.mutator.next? a.state = some state ∧
        a' = a.through state envelopes := by
  induction envelopes with
  | nil =>
    intro a a' h
    obtain rfl := Except.ok.inj (Except.ok.inj h)
    exact ⟨a.state, rfl, rfl⟩
  | cons envelope envelopes ih =>
    intro a a' h
    obtain ⟨outcome, hreplay, h⟩ := bind_eq_ok.mp h
    cases outcome with
    | error error => cases h
    | ok next =>
      obtain ⟨-, -, state, hstate, rfl⟩ := replay_eq_ok_iff.mp hreplay
      obtain ⟨last, hfold, rfl⟩ := ih h
      refine ⟨last, ?_, ?_⟩
      · rw [List.map_cons, List.foldlM_cons, hstate]
        exact hfold
      · simp [through, behind_cons]

/-- A replay comes through when the transitions explain all events and their versions count up
from that of the instance. -/
theorem replayAll_of_fold {envelopes : List (EventEnvelope A.Id A.Event)} :
    ∀ {a : Aggregate A} {state : A.State}, a.status = .hydrating →
      envelopes.map (fun e => e.version.toNat) =
        List.range' (a.current.toNat + 1) envelopes.length →
      (envelopes.map EventEnvelope.payload).foldlM a.mutator.next? a.state = some state →
      a.replayAll envelopes = .ok (.ok (a.through state envelopes)) := by
  induction envelopes with
  | nil =>
    intro a state _ _ hfold
    obtain rfl := Option.some.inj hfold
    rfl
  | cons envelope envelopes ih =>
    intro a state hstatus hversions hfold
    rw [List.map_cons, List.length_cons, List.range'_succ, List.cons.injEq] at hversions
    obtain ⟨hversion, hversions⟩ := hversions
    rw [List.map_cons, List.foldlM_cons] at hfold
    obtain ⟨first, hfirst, hfold⟩ := Option.bind_eq_some_iff.mp hfold
    have hlt : a.current < envelope.version := by
      rw [Version.lt_iff_toNat_lt]
      omega
    have hreplay := replay_eq_ok_iff.mpr ⟨hstatus, hlt, first, hfirst, rfl⟩
    have hrest := ih (a := { a with mutator := a.mutator.seed first, current := envelope.version })
      hstatus (by rw [← hversion] at hversions; exact hversions) hfold
    rw [replayAll, hreplay]
    show replayAll _ envelopes = _
    rw [hrest]
    simp [through, behind_cons]

/-- The version behind events that count up is their number behind the version before them. -/
theorem toNat_behind {version : Version} {envelopes : List (EventEnvelope A.Id A.Event)}
    (h : envelopes.map (fun e => e.version.toNat) =
      List.range' (version.toNat + 1) envelopes.length) :
    (behind version envelopes).toNat = version.toNat + envelopes.length := by
  cases hlast : envelopes.getLast? with
  | none => simp [List.getLast?_eq_none_iff.mp hlast, behind]
  | some last =>
    have hmap : (envelopes.map fun e => e.version.toNat).getLast? = some last.version.toNat := by
      rw [List.getLast?_map, hlast]; rfl
    rw [h, List.getLast?_range'] at hmap
    split at hmap
    · cases hmap
    · have := Option.some.inj hmap
      simp only [behind, hlast, Option.map_some, Option.getD_some]
      omega

/-! ## Executing -/

/-- What an instance answers to a command whose decision was played, and what becomes of it. -/
def conclude (a : Aggregate A) (p : Play A.State A.Event)
    (envelopes : List (EventEnvelope A.Id A.Event)) :
    Except AggregateError CommandResult × Aggregate A :=
  let moved := a.moved p envelopes
  match p.verdict with
  | .accepted => (.ok (.accept moved.hasChanges p.version), moved)
  | .rejected reason => (.ok (.reject reason a.expected), moved.rollBack)
  | .abandoned error => (.error error, moved)

/-- Executing a command is playing the decision of its handler and concluding from the verdict. -/
theorem execute_eq_play (a : Aggregate A) (command : CommandEnvelope A.Id A.Command)
    (ids : IdSupply) (hready : a.status = .ready) :
    (∃ fault, (A.handle command a.state).play a.mutator a.state a.current = .error fault ∧
      a.execute command ids = .error fault) ∨
    ∃ p envelopes ids', (A.handle command a.state).play a.mutator a.state a.current = .ok p ∧
      a.Stamped command a.current p.events envelopes ∧
      a.execute command ids = .ok ((a.conclude p envelopes).1, (a.conclude p envelopes).2, ids')
    := by
  have hensure : a.ensure .ready = .ok () := by simp [ensure, hready]
  simp only [execute, hensure, handle]
  rcases follow_eq_play command (A.handle command a.state) a ids hready with
    ⟨fault, hplay, hfollow⟩ | ⟨p, envelopes, ids', hplay, hstamped, hfollow⟩
  · rw [hfollow]
    exact Or.inl ⟨fault, hplay, rfl⟩
  · rw [hfollow]
    refine Or.inr ⟨p, envelopes, ids', hplay, hstamped, ?_⟩
    cases hverdict : p.verdict <;> simp only [conclude, hverdict] <;> rfl

end Aggregate

end Chronicle

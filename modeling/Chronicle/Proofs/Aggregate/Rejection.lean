import Chronicle.Proofs.Aggregate.Buffer
import Chronicle.Sample.Scripted

/-!
# What a rejection takes back

A handler may apply events before it rejects its command. The new events are then discarded, and the
instance is at the version that its stream is expected to have; but each event has moved the state,
and the state is left where it was moved to. So an instance that has rejected a command is not the
one it was before (`rejection_takes_back_all_but_the_state` says when it is), and is not used again.
-/

namespace Chronicle

namespace Aggregate

variable {A : AggregateType}

/-- Whatever a handler decides, the instance has grown by the events that it applied. -/
theorem exists_grows_handle {a moved : Aggregate A} {command : CommandEnvelope A.Id A.Command}
    {ids ids' : IdSupply} {verdict : Verdict} (hready : a.status = .ready)
    (h : a.handle command ids = .ok (verdict, moved, ids')) :
    ∃ envelopes, a.Grows envelopes moved := by
  rcases follow_eq_play command (A.handle command a.state) a ids hready with
    ⟨fault, -, hfollow⟩ | ⟨p, envelopes, ids'', hplay, hstamped, hfollow⟩
  · rw [handle, hfollow] at h
    cases h
  · rw [handle, hfollow] at h
    cases h
    exact ⟨envelopes, grows_moved hplay hstamped⟩

/-- A command that the handler rejects is answered with the expected version, and what the handler
has made of the instance is rolled back. -/
theorem execute_of_rejected {a moved : Aggregate A} {command : CommandEnvelope A.Id A.Command}
    {ids ids' : IdSupply} {reason : String} (hready : a.status = .ready)
    (h : a.handle command ids = .ok (.rejected reason, moved, ids')) :
    a.execute command ids = .ok (.ok (.reject reason moved.expected), moved.rollBack, ids') := by
  have hensure : a.ensure .ready = .ok () := by simp [ensure, hready]
  simp only [execute, hensure, h]
  rfl

/-- What has grown and is rolled back differs from what it was in its state and version. -/
theorem Grows.rollBack_eq {a moved : Aggregate A}
    {envelopes : List (EventEnvelope A.Id A.Event)} (h : a.Grows envelopes moved)
    (hclean : a.uncommitted = []) : moved.rollBack = a.placedAt moved.state a.expected := by
  obtain ⟨id, tenant, status, mutator, expected, current, uncommitted⟩ := a
  obtain ⟨id', tenant', status', mutator', expected', current', uncommitted'⟩ := moved
  obtain ⟨hid, htenant, hstatus, hexpected, hmutator, -, -, -, -⟩ := h
  simp only at hid htenant hstatus hexpected hmutator hclean
  subst hid htenant hstatus hexpected hclean
  simp only [rollBack, placedAt]
  rw [hmutator]
  rfl

theorem placedAt_eq_self_iff {a : Aggregate A} {state : A.State} {version : Version} :
    a.placedAt state version = a ↔ state = a.state ∧ version = a.current := by
  constructor
  · intro h
    exact ⟨congrArg Aggregate.state h, congrArg Aggregate.current h⟩
  · rintro ⟨rfl, rfl⟩
    rfl

/-- **A rejection takes back the new events and the version, but not the state.** Where the handler
of an instance without new events rejects a command, whatever it applied before, the instance has
no new events afterwards and is at the version its stream is expected to have. Its state is the one
that the discarded events led to, behind the committed ones. So it is as it was before exactly if
it was at the expected version and the discarded events lead back to its state. -/
theorem rejection_takes_back_all_but_the_state {a moved : Aggregate A}
    {command : CommandEnvelope A.Id A.Command} {ids ids' : IdSupply} {reason : String}
    (hready : a.status = .ready) (hclean : a.uncommitted = [])
    (hreject : a.handle command ids = .ok (.rejected reason, moved, ids')) :
    ∃ b, a.execute command ids = .ok (.ok (.reject reason a.expected), b, ids') ∧
      (b.id = a.id ∧ b.tenant = a.tenant ∧ b.status = .ready ∧ b.expected = a.expected ∧
        b.uncommitted = [] ∧ b.current = a.expected) ∧
      (∀ (start : A.State) (committed : List A.Event),
        committed.foldlM a.mutator.next? start = some a.state →
          (committed ++ moved.uncommitted.map EventEnvelope.payload).foldlM a.mutator.next? start =
            some b.state) ∧
      (b = a ↔ moved.state = a.state ∧ a.expected = a.current) := by
  obtain ⟨envelopes, hgrows⟩ := exists_grows_handle hready hreject
  have hrun := execute_of_rejected hready hreject
  rw [hgrows.expected, hgrows.rollBack_eq hclean] at hrun
  have hdiscarded : moved.uncommitted = envelopes := by rw [hgrows.uncommitted, hclean]; rfl
  refine ⟨_, hrun, ⟨rfl, rfl, hready, rfl, hclean, rfl⟩, ?_, placedAt_eq_self_iff⟩
  intro start committed hcommitted
  rw [List.foldlM_append, hcommitted, hdiscarded]
  exact hgrows.folds

end Aggregate

namespace Sample

/-- A scripted aggregate that is ready and has no events. -/
def probeReady : Aggregate (probe "probe") :=
  (Aggregate.hydrating .default ("1" : String) ScriptState.fullMutator).markReady

/-- A scripted aggregate is told a script. -/
def scripting (script : List ScriptStep) : CommandEnvelope String (List ScriptStep) :=
  .new "1" script ⟨.ofNat 1⟩ ⟨.ofNat 2⟩ ⟨0, 0⟩

end Sample

open Sample Aggregate in
/-- A script that adds five and is then refused leaves the five in the total, and no event. -/
theorem Aggregate.refused_five_stays_in_the_total :
    ∃ b ids, (probeReady.status = .ready ∧ probeReady.uncommitted = [] ∧ ∃ moved,
        probeReady.handle (scripting [.emit (.added 5), .reject "no"]) ⟨0⟩ =
          .ok (.rejected "no", moved, ids)) ∧
      probeReady.execute (scripting [.emit (.added 5), .reject "no"]) ⟨0⟩ =
        .ok (.ok (.reject "no" ⟨0⟩), b, ids) ∧
      b.uncommitted = [] ∧ b.current = ⟨0⟩ ∧ b ≠ probeReady := by
  have hreject : probeReady.handle (scripting [.emit (.added 5), .reject "no"]) ⟨0⟩ =
      .ok (.rejected "no", _, _) := rfl
  obtain ⟨b, hrun, ⟨-, -, -, -, huncommitted, hcurrent⟩, -, hsame⟩ :=
    rejection_takes_back_all_but_the_state rfl rfl hreject
  refine ⟨b, _, ⟨rfl, rfl, _, hreject⟩, hrun, huncommitted, hcurrent, fun h => ?_⟩
  exact absurd (congrArg ScriptState.total (hsame.mp h).1) (by decide)

open Sample Aggregate in
/-- Neither the state nor the version comes back with a rejection: the state is moved by what the
handler applied, and the version is taken back behind events that were handed over. -/
theorem Aggregate.rejection_does_not_roll_back :
    (probeReady.status = .ready ∧ probeReady.uncommitted = [] ∧ ∃ b ids,
      probeReady.execute (scripting [.emit (.added 5), .reject "no"]) ⟨0⟩ =
        .ok (.ok (.reject "no" ⟨0⟩), b, ids) ∧ b.state ≠ probeReady.state) ∧
    ∃ told a ids, probeReady.callAll ⟨0⟩
        [.apply (scripting []) (ScriptEvent.added 1), .takeUncommitted] = .ok (told, a, ids) ∧
      a.status = .ready ∧ a.uncommitted = [] ∧ ∃ b ids',
        a.execute (scripting [.reject "no"]) ids = .ok (.ok (.reject "no" ⟨0⟩), b, ids') ∧
          b.current ≠ a.current := by
  refine ⟨⟨rfl, rfl, _, _, rfl, fun h => ?_⟩, _, _, _, rfl, rfl, rfl, _, _, rfl, by decide⟩
  exact absurd (congrArg ScriptState.total h) (by decide)

end Chronicle

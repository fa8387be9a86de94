import Chronicle.Proofs.Engine.Governed
import Chronicle.Proofs.Sample.Ledger

/-!
# The logs of accounts

Whatever commands are sent to accounts, and however their phases are interleaved, each stream of an
account is in good order at all times, because its law is kept (`accountType_upholds`) by all who
write it (`System.Governed`). So its events can be replayed up to any of them, from the beginning
and from every snapshot that was ever kept.
-/

namespace Chronicle

/-- In front of any of its events a log that means a state means one too. -/
theorem AggregateType.fold?_take {A : AggregateType} {events : List A.Event} {last : A.State}
    (h : A.fold? events = some last) (count : Nat) :
    ∃ state, A.fold? (events.take count) = some state := by
  rw [← List.take_append_drop count events, fold?_append] at h
  obtain ⟨state, hstate, -⟩ := Option.bind_eq_some_iff.mp h
  exact ⟨state, hstate⟩

/-- Going on from a faithful snapshot, up to any event behind it, comes to what going through all
events comes to. -/
theorem StoredSnapshot.Faithful.resumes {stored : StoredSnapshot} {A : AggregateType}
    {codec : Codec} {rows : List RecordedEvent} {events : List A.Event}
    (h : stored.Faithful A codec rows) (hevents : rows.mapM (A.read? codec) = some events) :
    ∃ kept, codec.decode stored.data = .ok kept ∧ stored.version.toNat ≤ events.length ∧
      ∀ count, stored.version.toNat ≤ count →
        ((events.take count).drop stored.version.toNat).foldlM A.mutator.next? kept =
          A.fold? (events.take count) := by
  obtain ⟨hle, kept, hdecode, hstate⟩ := h
  rw [AggregateType.stateOf?, AggregateType.mapM_read?_take hevents] at hstate
  have hfold : A.fold? (events.take stored.version.toNat) = some kept := hstate
  refine ⟨kept, hdecode, ?_, fun count hcount => ?_⟩
  · rwa [← (mapM_eq_some_iff.mp hevents).length_eq]
  · have hfirst : (events.take count).take stored.version.toNat =
        events.take stored.version.toNat := by
      rw [List.take_take, Nat.min_eq_left hcount]
    conv_rhs => rw [← List.take_append_drop stored.version.toNat (events.take count)]
    rw [AggregateType.fold?_append, hfirst, hfold]
    rfl

namespace System

open Sample

variable {κ π : Type} [Projection κ π]

/-- **Account logs are well formed.** Take any tasks that write streams of accounts by commands to
accounts only, all with one codec, in a world without events and snapshots, and any order in which
their phases are interleaved. Then the rows of each stream of an account are events in good order.
Replayed up to any of them they come to a state, which never needs more than there is, and whose
balance is exactly what was put in less what was taken out; and so they do when they are replayed
from any snapshot of the stream that was kept at any time before. -/
theorem account_logs_are_well_formed {codec : Codec} {tasks : List (Task κ)}
    (htasks : ∀ t ∈ tasks, t.Obeys accountType codec (fun command => command.payload.Fits) ∨
      ∀ id, t.stream ≠ accountType.stream id)
    {w : World MemoryStore κ π} (hfresh : w.Fresh) (moves : List Move) (tenant : TenantId)
    (id : AccountId) :
    ∃ events : List AccountEvent,
      ((((first w tasks).moveAll moves).world.store.tenant tenant).rows
          (accountType.stream id)).mapM (accountType.read? codec) = some events ∧
        WellFormed events ∧
        (∀ count, ∃ state, accountType.fold? (events.take count) = some state ∧
          (state.balance.toNat : Int) =
            deposits (events.take count) - withdrawals (events.take count)) ∧
        ∀ before since stored, moves = before ++ since →
          ((first w tasks).moveAll before).world.vault.get? tenant (accountType.stream id) =
            some stored →
          ∃ kept : AccountState, codec.decode stored.data = .ok kept ∧
            stored.version.toNat ≤ events.length ∧
            ∀ count, stored.version.toNat ≤ count →
              ((events.take count).drop stored.version.toNat).foldlM AccountState.mutator.next?
                kept = accountType.fold? (events.take count) := by
  have hobeys : ∀ t ∈ tasks, (t.tenant, t.stream) = (tenant, accountType.stream id) →
      t.Obeys accountType codec fun command => command.payload.Fits := fun t ht hown =>
    (htasks t ht).resolve_right fun hother => hother id (Prod.mk.inj hown).2
  have hgoverned : ∀ moves, ((first w tasks).moveAll moves).Governed accountType codec
      (fun command => command.payload.Fits) Ledger tenant (accountType.stream id) :=
    governed_moveAll (accountType_upholds codec)
      (governed_first hfresh (accountType_upholds codec).nil hobeys)
  have hlawful := (hgoverned moves).lawful
  obtain ⟨events, hevents, hledger⟩ := hlawful.obeys
  obtain ⟨last, hlast⟩ := hlawful.means
  rw [AggregateType.stateOf?, hevents] at hlast
  refine ⟨events, hevents, hledger.toWellFormed, fun count => ?_, ?_⟩
  · obtain ⟨state, hstate⟩ := AggregateType.fold?_take (A := accountType) hlast count
    have hbalance := balance_of_fold? hstate
    exact ⟨state, hstate, by omega⟩
  · rintro before since stored rfl hget
    -- the snapshot was faithful when it was kept, and rows are only added
    have hrows := (moveAll_grows ((first w tasks).moveAll before) since).rows tenant
      (accountType.stream id)
    rw [← moveAll_append] at hrows
    exact (((hgoverned before).lawful.kept stored hget).mono hrows).resumes hevents

section Branch

/-- An account is opened and 5 are put in; then two commands to take 3 out have their phases
alternate. -/
def branch : List (Task Carrier) × List Move :=
  ([teller (.openFor "ada"), teller (.deposit 5), teller (.withdraw 3), teller (.withdraw 3)],
    List.replicate 5 (.advance 0) ++ List.replicate 5 (.advance 1) ++
      [.advance 2, .advance 3, .advance 2, .advance 3, .advance 2, .advance 3, .advance 3])

/-- Only one of the two comes through: the account is left with 2. -/
theorem branch_is_well_formed :
    let events : List AccountEvent := [.opened "ada", .deposited 5, .withdrawn 3]
    ((((first World.blank branch.1).moveAll branch.2 : System Carrier Inert).world.store.tenant
        .default).rows (accountType.stream ⟨.ofNat 5⟩)).mapM (accountType.read? .binary) =
          some events ∧
      WellFormed events ∧ accountType.fold? events = some ⟨some "ada", 2, false⟩ := by
  intro events
  have hname : ("ada" : String).utf8ByteSize < UInt64.size := by decide
  have htasks : ∀ t ∈ branch.1, t.Obeys accountType .binary
      (fun command => command.payload.Fits) ∨ ∀ id, t.stream ≠ accountType.stream id := by
    intro t ht
    refine .inl ?_
    simp only [branch, List.mem_cons, List.not_mem_nil, or_false] at ht
    rcases ht with rfl | rfl | rfl | rfl
    · exact .of rfl hname
    all_goals exact .of rfl trivial
  obtain ⟨found, hfound, hwell, -⟩ := account_logs_are_well_formed htasks
    (World.fresh_blank (π := Inert)) branch.2 .default ⟨.ofNat 5⟩
  have hevents : ((((first World.blank branch.1).moveAll branch.2 :
      System Carrier Inert).world.store.tenant .default).rows
        (accountType.stream ⟨.ofNat 5⟩)).mapM (accountType.read? .binary) = some events := by
    decide +kernel
  obtain rfl := Option.some.inj (hfound.symm.trans hevents)
  exact ⟨hevents, hwell, by decide +kernel⟩

end Branch

end System

end Chronicle

import Chronicle.Proofs.Codec.RoundTrip
import Chronicle.Proofs.Engine.Phases
import Chronicle.Proofs.Sample.Account
import Chronicle.Proofs.Sample.Sequence

/-!
# States and commands come back as they were written

A vault gives back a state that it saved, at the version at which it saved it
(`SnapshotVault.Recalls`): it keeps the bytes of the state, and it is the codec that has to make the
state of them again (`SnapshotVault.recalls`). So a state that comes back of the codec is never
read as another one, and what a command carries to another process arrives there.
-/

namespace Chronicle

/-- A state that a vault saves is found again at the same version, as long as the vault refuses
nothing, the policy wants the version and the snapshot has not expired. -/
def SnapshotVault.Recalls (A : AggregateType) (codec : Codec) (state : A.State) : Prop :=
  ∀ (v : SnapshotVault) (policy : SnapshotPolicy) (now later : Timestamp) (tenant : TenantId)
    (stream : StreamId) (version : Version),
    v.refusesSaves = false → v.refusesLoads = false → policy.persistsAt version = true →
    policy.isExpired now later = false →
    ∃ kept, v.write A policy codec now tenant stream version (some state) = (.saved, kept) ∧
      kept.read A policy codec later tenant stream = .found state version

theorem SnapshotVault.recalls {A : AggregateType} {codec : Codec} {state : A.State}
    (h : codec.RoundTrips state) : Recalls A codec state := by
  obtain ⟨data, hencode, hdecode⟩ := h
  intro v policy now later tenant stream version hsaves hloads hwanted hfresh
  refine ⟨_, write_of_wanted hwanted hencode hsaves, ?_⟩
  let record : StoredSnapshot := ⟨stream, version, A.tag, data, now⟩
  have hget : (v.kept tenant record).get? tenant stream = some record :=
    (v.get?_plant record tenant stream).trans (if_pos rfl)
  exact read_eq_found_iff.mpr ⟨hloads, record, hget, rfl, hfresh, hdecode, rfl⟩

namespace Sample

theorem scalar_accountId : Wire.Scalar AccountId fun _ => True :=
  .identifier AccountId.uuid AccountId.mk rfl fun _ => rfl

/-- **States and commands come back exactly.** Every state of a sequence and of an account comes
back of both codecs, and out of a vault as well, and so does every command with a scalar id and a
plain payload, where its time is read back of its text. In the binary form lengths have to be
countable in 64 bits; what is longer fits into no memory. -/
theorem sample_values_come_back (codec : Codec) :
    (∀ state : SequenceState, (codec = .binary → state.Fits) →
      codec.RoundTrips state ∧ SnapshotVault.Recalls sequenceType codec state) ∧
    (∀ state : AccountState, (codec = .binary → state.Fits) →
      codec.RoundTrips state ∧ SnapshotVault.Recalls accountType codec state) ∧
    ∀ {ι κ : Type} [Wire ι] [Wire κ] {fitsId : ι → Prop} {fitsPayload : κ → Prop},
      Wire.Scalar ι fitsId → Wire.Plain κ fitsPayload → ∀ command : CommandEnvelope ι κ,
        Timestamp.ofText? command.timestamp.toText = some command.timestamp →
        (codec = .binary → command.Fits fitsId fitsPayload) → codec.RoundTrips command := by
  refine ⟨fun state hfits => ?_, fun state hfits => ?_, fun hid hpayload command htime hfits => ?_⟩
  · have hback : codec.RoundTrips state :=
      Codec.roundTrips (fun hbinary => SequenceState.readsBack (hfits hbinary)) state.hasForm
    exact ⟨hback, SnapshotVault.recalls hback⟩
  · have hback : codec.RoundTrips state :=
      Codec.roundTrips (fun hbinary => AccountState.readsBack (hfits hbinary)) state.hasForm
    exact ⟨hback, SnapshotVault.recalls hback⟩
  · exact CommandEnvelope.roundTrips hid hpayload htime hfits

/-- A command that carries texts, one of them beyond ASCII. -/
def request : CommandEnvelope UInt64 (List String) :=
  .new 9 ["a", "ü"] ⟨.ofNat 1⟩ ⟨.ofNat 2⟩ ⟨951868799, 5000000⟩

/-- The command comes back, to a sequence and to an account, and so does the state of a closed
account with the largest balance there is. -/
theorem request_comes_back :
    Codec.binary.RoundTrips request ∧
    Codec.json.RoundTrips { request with aggregateId := (⟨.ofNat 3⟩ : AccountId) } ∧
    SnapshotVault.Recalls accountType .json ⟨some "Zoë", 18446744073709551615, true⟩ := by
  have htime : Timestamp.ofText? request.timestamp.toText = some request.timestamp := by decide
  obtain ⟨-, -, hcommands⟩ := sample_values_come_back .binary
  obtain ⟨-, haccounts, hcommands'⟩ := sample_values_come_back .json
  refine ⟨hcommands .uint64 (.list .text) request htime fun _ => ?_,
    hcommands' scalar_accountId (.list .text) _ htime nofun, (haccounts _ nofun).2⟩
  exact ⟨trivial, by decide, by decide, by decide, by decide, by decide⟩

end Sample

end Chronicle

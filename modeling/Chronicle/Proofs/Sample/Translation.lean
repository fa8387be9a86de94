import Chronicle.Proofs.Codec.RoundTrip
import Chronicle.Proofs.Sample.Account
import Chronicle.Proofs.Sample.Sequence

/-!
# Stored rows come back as they were written

An envelope is written as a stored event, and what is read of a row that holds this event is the
envelope itself, directly and through a registry; written once more it is the same stored event
(`AggregateType.TranslatesBack`). Nothing is asked of the row: neither that its stream is that of
the instance nor that its version or its position is a possible one.

The law is that of an id whose text comes back and of a payload that comes back of the codec
(`AggregateType.translatesBack`).
-/

namespace Chronicle

/-- The envelope of an instance comes back of the row at which it is stored. -/
def AggregateType.TranslatesBack (A : AggregateType) (codec : Codec)
    (envelope : EventEnvelope A.Id A.Event) (position : GlobalPosition) : Prop :=
  ∃ event, envelope.serialize codec A.tag = .ok event ∧
    let row : RecordedEvent := ⟨envelope.stream, envelope.version, position, event⟩
    EventEnvelope.ofRecorded row codec = .ok envelope ∧
    ∀ {κ : Type} [Carries κ A.Id A.Event] (registry : Registry κ),
      registry.byTag? A.tag = some (.of A) →
      ∃ erased decoded, registry.decode row codec = .ok erased ∧
        erased = .erase A envelope (some position) ∧
        erased.typed? A.Id A.Event = some decoded ∧ decoded = envelope ∧
        decoded.serialize codec A.tag = .ok event

theorem AggregateType.translatesBack {A : AggregateType} {codec : Codec}
    {envelope : EventEnvelope A.Id A.Event}
    (hid : InstanceId.ofText (InstanceId.toText envelope.aggregateId) = .ok envelope.aggregateId)
    (hpayload : codec.RoundTrips envelope.payload) (position : GlobalPosition) :
    A.TranslatesBack codec envelope position := by
  obtain ⟨data, hencode, hdecode⟩ := hpayload
  have hserialize : envelope.serialize codec A.tag =
      .ok ⟨envelope.kind, data, envelope.metadata A.tag⟩ := by
    rw [EventEnvelope.serialize, hencode]
    rfl
  have hparse : parseId (InstanceId.toText envelope.aggregateId) = .ok envelope.aggregateId := by
    rw [parseId, hid]
    rfl
  have hrecorded : EventEnvelope.ofRecorded ⟨envelope.stream, envelope.version, position,
      ⟨envelope.kind, data, envelope.metadata A.tag⟩⟩ codec = .ok envelope :=
    EventEnvelope.ofRecorded_of_parts hparse hdecode rfl
  refine ⟨_, hserialize, hrecorded, fun registry hbound => ?_⟩
  exact ⟨_, envelope, Registry.decode_of_bound hbound hrecorded, rfl, Carries.unwrap?_wrap envelope,
    rfl, hserialize⟩

namespace Sample

/-- **Stored rows translate back exactly**, those of sequences and of accounts, in both codecs and
wherever they are stored. In the binary form the name that an event carries has to be countable in
64 bits; a longer one fits into no memory. -/
theorem sample_rows_translate_back (codec : Codec) (position : GlobalPosition) :
    (∀ envelope : EventEnvelope UInt64 SequenceEvent,
      sequenceType.TranslatesBack codec envelope position) ∧
    ∀ envelope : EventEnvelope AccountId AccountEvent,
      (codec = .binary → envelope.payload.Fits) →
        accountType.TranslatesBack codec envelope position := by
  constructor
  · intro envelope
    have hpayload : codec.RoundTrips envelope.payload :=
      Codec.roundTrips (fun _ => envelope.payload.readsBack) envelope.payload.hasForm
    exact AggregateType.translatesBack (InstanceId.ofText_toText_uint64 envelope.aggregateId)
      hpayload position
  · intro (envelope : EventEnvelope accountType.Id accountType.Event) hfits
    have hpayload : codec.RoundTrips envelope.payload :=
      Codec.roundTrips (fun hbinary => AccountEvent.readsBack (hfits hbinary))
        (AccountEvent.hasForm envelope.payload)
    exact AggregateType.translatesBack (accountType_ofText_toText envelope.aggregateId) hpayload
      position

/-- The event that an account was opened for someone whose name needs more than seven bits. -/
def opening : EventEnvelope AccountId AccountEvent :=
  ⟨⟨.ofNat 1⟩, ⟨"account-1"⟩, .default, ⟨.ofNat 2⟩, ⟨.ofNat 3⟩, ⟨.ofNat 4⟩, .system, .opened "Zoë",
    ⟨0, 0⟩, ⟨1⟩⟩

/-- The opening is read of its row by a registry in which sequences and accounts were registered
one after the other. -/
theorem opening_translates_back : ∃ before registry event,
    (Registry.empty : Registry Carrier).register sequenceType = .ok before ∧
      before.register accountType = .ok registry ∧
      opening.serialize .binary accountType.tag = .ok event ∧
      registry.decode ⟨opening.stream, opening.version, ⟨5⟩, event⟩ .binary =
        .ok (.erase accountType opening (some ⟨5⟩)) := by
  obtain ⟨-, haccounts⟩ := sample_rows_translate_back .binary ⟨5⟩
  obtain ⟨event, hevent, -, hregistries⟩ := haccounts opening fun _ => by
    show "Zoë".utf8ByteSize < _
    decide
  have hfirst : (Registry.empty : Registry Carrier).register sequenceType =
      .ok (Registry.empty.bound sequenceType) := rfl
  have hregister : (Registry.empty.bound sequenceType : Registry Carrier).register accountType =
      .ok registry := rfl
  obtain ⟨erased, -, hdecode, rfl, -⟩ :=
    hregistries registry (Registry.byTag?_of_register hregister).1
  exact ⟨_, registry, event, hfirst, hregister, hevent, hdecode⟩

end Sample

end Chronicle

import Chronicle.Proofs.Lists
import Chronicle.Registry

/-!
# What a registry reads

A registry that registers aggregate types has a binding for each, and nothing else. Whatever such
a registry reads from a stored event shows the event's own header and its place in the log.
-/

namespace Chronicle

variable {κ : Type}

/-- An envelope shows what is known of a stored event, and where it is stored. -/
structure AnyEnvelope.Shows (row : RecordedEvent) (envelope : AnyEnvelope κ) : Prop where
  tag : envelope.tag = row.event.metadata.aggregateType
  stream : envelope.stream = row.stream
  tenant : envelope.tenant = row.event.metadata.tenant
  version : envelope.version = row.version
  position : envelope.position = some row.position
  kind : envelope.kind = row.event.kind
  eventId : envelope.eventId = row.event.metadata.eventId
  commandId : envelope.commandId = row.event.metadata.commandId
  sequenceId : envelope.sequenceId = row.event.metadata.sequenceId

namespace EventEnvelope

/-- A recorded event that can be read has an id and a payload of its own kind. -/
theorem ofRecorded_eq_ok {ι ε : Type} [InstanceId ι] [EventKind ε] [Wire ε] {row : RecordedEvent}
    {codec : Codec} {envelope : EventEnvelope ι ε} (h : ofRecorded row codec = .ok envelope) :
    ∃ id payload, parseId row.event.metadata.aggregateId = .ok id ∧
      codec.decode row.event.data = .ok payload ∧ EventKind.kind payload = row.event.kind ∧
        envelope = ofParts row id payload := by
  obtain ⟨id, hid, h⟩ := bind_eq_ok.mp h
  obtain ⟨payload, hpayload, h⟩ := bind_eq_ok.mp h
  split at h
  · next hkind =>
    exact ⟨id, payload, mapError_eq_ok.mp hid, mapError_eq_ok.mp hpayload, hkind,
      (Except.ok.inj h).symm⟩
  · cases h

theorem ofRecorded_of_parts {ι ε : Type} [InstanceId ι] [EventKind ε] [Wire ε]
    {row : RecordedEvent} {codec : Codec} {id : ι} {payload : ε}
    (hid : parseId row.event.metadata.aggregateId = .ok id)
    (hpayload : codec.decode row.event.data = .ok payload)
    (hkind : EventKind.kind payload = row.event.kind) :
    ofRecorded row codec = .ok (ofParts row id payload) := by
  unfold ofRecorded
  rw [hid, hpayload]
  exact if_pos hkind

end EventEnvelope

namespace Registry

/-- Every binding is that of an aggregate type, under its own tag. -/
def Typed (registry : Registry κ) : Prop :=
  ∀ tag binding, registry.byTag? tag = some binding →
    ∃ (A : AggregateType) (_ : Carries κ A.Id A.Event), A.tag = tag ∧ binding = .of A

theorem typed_empty : (Registry.empty : Registry κ).Typed := fun _ _ h => nomatch h

theorem byTag?_bound (registry : Registry κ) (A : AggregateType) [Carries κ A.Id A.Event]
    (tag : TypeTag) :
    (registry.bound A).byTag? tag = if tag = A.tag then some (.of A) else registry.byTag? tag :=
  Table.get?_set registry.byTag A.tag tag (.of A)

theorem byName?_bound (registry : Registry κ) (A : AggregateType) [Carries κ A.Id A.Event]
    (name : String) :
    (registry.bound A).byName? name = if name = A.name then some A.tag else registry.byName? name :=
  Table.get?_set registry.byName A.name name A.tag

theorem Typed.bound {registry : Registry κ} (h : registry.Typed) (A : AggregateType)
    [carries : Carries κ A.Id A.Event] : (registry.bound A).Typed := by
  intro tag binding hbinding
  rw [byTag?_bound] at hbinding
  split at hbinding
  · next htag => exact ⟨A, carries, htag.symm, (Option.some.inj hbinding).symm⟩
  · exact h tag binding hbinding

/-- A type is registered where neither its name nor its tag is bound. -/
theorem register_eq_ok_iff {registry registry' : Registry κ} {A : AggregateType}
    [Carries κ A.Id A.Event] :
    registry.register A = .ok registry' ↔
      registry.byName? A.name = none ∧ registry.byTag? A.tag = none ∧
        registry' = registry.bound A := by
  unfold register
  cases registry.byName? A.name <;> cases registry.byTag? A.tag <;> simp [eq_comm]

/-- A type that is registered is bound to its tag, and the types before it stay bound. -/
theorem byTag?_of_register {registry registry' : Registry κ} {A : AggregateType}
    [Carries κ A.Id A.Event] (h : registry.register A = .ok registry') :
    registry'.byTag? A.tag = some (.of A) ∧ ∀ {tag binding},
      registry.byTag? tag = some binding → registry'.byTag? tag = some binding := by
  obtain ⟨-, hfree, rfl⟩ := register_eq_ok_iff.mp h
  constructor
  · rw [byTag?_bound, if_pos rfl]
  · intro tag binding hbound
    have hne : tag ≠ A.tag := fun heq => by
      rw [heq, hfree] at hbound
      cases hbound
    rw [byTag?_bound, if_neg hne, hbound]

/-- A stored event is read by the binding of its tag. -/
theorem decode_eq_ok {registry : Registry κ} {row : RecordedEvent} {codec : Codec}
    {envelope : AnyEnvelope κ} (h : registry.decode row codec = .ok envelope) :
    ∃ binding, registry.byTag? row.event.metadata.aggregateType = some binding ∧
      binding.decode row codec = .ok envelope := by
  unfold Registry.decode at h
  split at h
  · cases h
  · next binding hbinding => exact ⟨binding, hbinding, mapError_eq_ok.mp h⟩

/-- A stored event whose tag is bound to a type that can read it, is read by that type. -/
theorem decode_of_bound {registry : Registry κ} {row : RecordedEvent} {codec : Codec}
    {A : AggregateType} [Carries κ A.Id A.Event] {envelope : EventEnvelope A.Id A.Event}
    (hbound : registry.byTag? row.event.metadata.aggregateType = some (.of A))
    (hrecorded : EventEnvelope.ofRecorded row codec = .ok envelope) :
    registry.decode row codec = .ok (.erase A envelope (some row.position)) := by
  unfold Registry.decode
  rw [hbound]
  show ((EventEnvelope.ofRecorded row codec).map _).mapError _ = _
  rw [hrecorded]
  rfl

/-- An envelope whose id and payload come back is read of the row it is stored as. -/
theorem decode_of_serialize {registry : Registry κ} {codec : Codec} {A : AggregateType}
    [Carries κ A.Id A.Event] {envelope : EventEnvelope A.Id A.Event} {event : SerializedEvent}
    (hbound : registry.byTag? A.tag = some (.of A))
    (hid : InstanceId.ofText (InstanceId.toText envelope.aggregateId) = .ok envelope.aggregateId)
    (hpayload : ∀ data, codec.encode envelope.payload = .ok data →
      codec.decode data = .ok envelope.payload)
    (h : envelope.serialize codec A.tag = .ok event) (position : GlobalPosition) :
    registry.decode ⟨envelope.stream, envelope.version, position, event⟩ codec =
      .ok (.erase A envelope (some position)) := by
  obtain ⟨data, hdata, rfl⟩ := map_eq_ok.mp h
  have hparse : parseId (InstanceId.toText envelope.aggregateId) = .ok envelope.aggregateId := by
    rw [parseId, hid]
    rfl
  exact decode_of_bound hbound (EventEnvelope.ofRecorded_of_parts hparse (hpayload data hdata) rfl)

/-- A stored event that cannot be read has a tag that is not bound, or its own type cannot read
it. -/
theorem decode_eq_error {registry : Registry κ} {row : RecordedEvent} {codec : Codec}
    {error : RegistryError} (h : registry.decode row codec = .error error) :
    (registry.byTag? row.event.metadata.aggregateType = none ∧
        error = .missing row.event.metadata.aggregateType.toText) ∨
      ∃ binding reason, registry.byTag? row.event.metadata.aggregateType = some binding ∧
        binding.decode row codec = .error reason ∧
          error = .malformed row.stream row.position reason := by
  unfold Registry.decode at h
  split at h
  · next hnone => exact Or.inl ⟨hnone, (Except.error.inj h).symm⟩
  · next binding hbinding =>
    cases hdecode : binding.decode row codec with
    | ok found => rw [hdecode] at h; cases h
    | error reason =>
      rw [hdecode] at h
      exact Or.inr ⟨binding, reason, hbinding, hdecode, (Except.error.inj h).symm⟩

theorem Typed.shows {registry : Registry κ} (hregistry : registry.Typed) {row : RecordedEvent}
    {codec : Codec} {envelope : AnyEnvelope κ} (h : registry.decode row codec = .ok envelope) :
    envelope.Shows row := by
  obtain ⟨binding, hbinding, hdecode⟩ := decode_eq_ok h
  obtain ⟨A, _, htag, rfl⟩ := hregistry _ binding hbinding
  obtain ⟨found, hrecorded, rfl⟩ := map_eq_ok.mp hdecode
  obtain ⟨id, payload, -, -, hkind, rfl⟩ := EventEnvelope.ofRecorded_eq_ok hrecorded
  exact ⟨htag, rfl, rfl, rfl, rfl, hkind, rfl, rfl, rfl⟩

theorem Typed.forall₂_shows {registry : Registry κ} (hregistry : registry.Typed) {codec : Codec}
    {rows : List RecordedEvent} {envelopes : List (AnyEnvelope κ)}
    (h : rows.mapM (registry.decode · codec) = .ok envelopes) :
    List.Forall₂ AnyEnvelope.Shows rows envelopes :=
  (forall₂_of_mapM h).imp fun _ _ => hregistry.shows

end Registry

end Chronicle

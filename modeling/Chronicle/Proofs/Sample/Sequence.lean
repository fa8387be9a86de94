import Chronicle.Proofs.Codec.JsonForm
import Chronicle.Proofs.Engine.Ownership
import Chronicle.Proofs.Registry
import Chronicle.Proofs.Text.Decimal
import Chronicle.Sample.Carrier

/-!
# Sequences come back of their bytes

The type of sequences loses nothing in either codec. An event always comes back; a state comes back
of JSON always, and of the binary form where its numbers can be counted in 64 bits. Each event adds
one number at most, so that this holds of every state that a stream can come to mean.
-/

namespace Chronicle.Sample

/-! ## The bytes of events and states -/

theorem SequenceEvent.readsBack (event : SequenceEvent) :
    (Wire.format (α := SequenceEvent)).ReadsBack event := by
  cases event with
  | itemAdded value =>
    exact Format.union_readsBack (by decide)
      (Variants.holding_readsBack (Format.uint32_readsBack value)) rfl
  | cleared =>
    exact Format.union_readsBack (by decide)
      (Variants.ReadsBack.behind_holding Variants.plain_readsBack) rfl

theorem SequenceEvent.hasForm (event : SequenceEvent) :
    (Wire.format (α := SequenceEvent)).HasForm event := by
  cases event with
  | itemAdded value =>
    exact Format.union_hasForm (Variants.holding_shows (Format.uint32_hasForm value)) rfl
  | cleared =>
    exact Format.union_hasForm (Variants.Shows.behind_holding Variants.plain_shows (by decide)) rfl

/-- An event comes back of the bytes that either codec writes. -/
theorem SequenceEvent.decode_encode (event : SequenceEvent) {codec : Codec} {data : Bytes}
    (h : codec.encode event = .ok data) : codec.decode data = .ok event :=
  Codec.decode_encode (fun _ => event.readsBack) event.hasForm h

/-- The numbers of a sequence can be counted. -/
def SequenceState.Fits (state : SequenceState) : Prop := state.items.length < UInt64.size

theorem SequenceState.readsBack {state : SequenceState} (h : state.Fits) :
    (Wire.format (α := SequenceState)).ReadsBack state := by
  have hitems : Format.uint32.list.ReadsBack state.items :=
    Format.list_readsBack h fun value _ => Format.uint32_readsBack value
  have htotal := Format.uint64_readsBack state.lifetimeTotal
  exact Format.record_readsBack (.required hitems (.required htotal Fields.none_readsBack)) rfl

theorem SequenceState.hasForm (state : SequenceState) :
    (Wire.format (α := SequenceState)).HasForm state := by
  have hitems : Format.uint32.list.HasForm state.items :=
    Format.list_hasForm fun value _ => Format.uint32_hasForm value
  have htotal := Format.uint64_hasForm state.lifetimeTotal
  exact Format.record_hasForm (by decide) (.required hitems (.required htotal Fields.none_hasForm))
    rfl

/-! ## The length of a sequence -/

namespace SequenceState

/-- An event adds one number at most. -/
theorem length_of_next? {state following : SequenceState} {event : SequenceEvent}
    (h : mutator.next? state event = some following) :
    following.items.length ≤ state.items.length + 1 := by
  cases event with
  | itemAdded value =>
    change (onItemAdded (.itemAdded value) state).toOption = some following at h
    cases htotal : checkedAdd state.lifetimeTotal value.toUInt64 with
    | error fault =>
      rw [onItemAdded, htotal] at h
      cases h
    | ok total =>
      rw [onItemAdded, htotal] at h
      obtain rfl := Option.some.inj h
      exact Nat.le_of_eq List.length_append
  | cleared =>
    obtain rfl := Option.some.inj h
    exact Nat.zero_le _

theorem length_of_foldlM {events : List SequenceEvent} :
    ∀ {state last : SequenceState}, events.foldlM mutator.next? state = some last →
      last.items.length ≤ state.items.length + events.length := by
  induction events with
  | nil =>
    intro state last h
    obtain rfl := Option.some.inj h
    exact Nat.le_refl _
  | cons event events ih =>
    intro state last h
    rw [List.foldlM_cons] at h
    obtain ⟨following, hnext, hrest⟩ := Option.bind_eq_some_iff.mp h
    have hfirst := length_of_next? hnext
    have hlast := ih hrest
    rw [List.length_cons]
    omega

end SequenceState

/-- Sequences lose nothing in either codec. -/
theorem sequenceType_lossless {codec : Codec} : sequenceType.Lossless codec where
  id := InstanceId.ofText_toText_uint64
  event event _ := event.decode_encode
  state events state _ hfew hfold hencode := by
    have hlength : state.items.length ≤ 0 + events.length := SequenceState.length_of_foldlM hfold
    have hfits : state.Fits := Nat.lt_of_le_of_lt hlength (by omega)
    exact Codec.decode_encode (fun _ => SequenceState.readsBack hfits) state.hasForm hencode

/-! ## Streams -/

theorem sequence_stream_inj {id other : UInt64} :
    sequenceType.stream id = sequenceType.stream other ↔ id = other := by
  refine StreamId.forAggregate_inj.trans ⟨fun h => ?_, fun h => by rw [h]⟩
  have hread := InstanceId.ofText_toText_uint64 id
  rw [h, InstanceId.ofText_toText_uint64] at hread
  exact (Except.ok.inj hread).symm

theorem sequence_stream_ne (sequence : UInt64) (id : AccountId) :
    sequenceType.stream sequence ≠ accountType.stream id :=
  StreamId.forAggregate_ne_iff.mpr ⟨by decide, by decide⟩ _ _

/-! ## A command -/

/-- Numbers are added to a sequence, by an engine with the standard settings. -/
def addition (values : List UInt32) : Task Carrier where
  settings := .standard
  A := sequenceType
  command := .new (7 : UInt64) (.add values) ⟨.ofNat 1⟩ ⟨.ofNat 2⟩ ⟨0, 0⟩

/-! ## Stored numbers -/

/-- The addition of a small number to a sequence, as it is stored. -/
def storedAddition (value : UInt8) : SerializedEvent :=
  ⟨"ItemAdded.v1", [0, 0, 0, 0, value, 0, 0, 0],
    ⟨⟨1⟩, "7", .default, ⟨.ofNat 1⟩, ⟨.ofNat 2⟩, ⟨.ofNat 3⟩, .system, ⟨0, 0⟩⟩⟩

/-- The call that appends some numbers to a sequence at a version. -/
def stocking (expected : Version) (values : List UInt8) : StoreCall :=
  .append .default (sequenceType.stream (7 : UInt64)) expected (values.map storedAddition)

/-- The call that stores that an account was closed. -/
def closing : StoreCall :=
  .append .default ⟨"account-1"⟩ .notCreated
    [⟨"AccountClosed.v1", [3, 0, 0, 0],
      ⟨⟨2⟩, (Uuid.ofNat 1).toText, .default, ⟨.ofNat 1⟩, ⟨.ofNat 2⟩, ⟨.ofNat 3⟩, .system, ⟨0, 0⟩⟩⟩]

/-- The registry of sequences and accounts. -/
def registry : Registry Carrier := (Registry.empty.bound sequenceType).bound accountType

theorem typed_registry : registry.Typed := (Registry.typed_empty.bound sequenceType).bound accountType

theorem registry_sequence : registry.byTag? sequenceType.tag = some (.of sequenceType) := rfl

theorem registry_account : registry.byTag? accountType.tag = some (.of accountType) := rfl

end Chronicle.Sample

import Chronicle.Codec.Format
import Chronicle.Identity

/-!
# Codecs

A `Codec` turns values into the bytes of stored payloads and back. A type whose values can be
stored is a `Wire` type: it has a format and the name under which failures report it.
-/

namespace Chronicle

/-- A type whose values can be stored. -/
class Wire (α : Type) where
  /-- The name under which failures report the type. -/
  typeName : String
  format : Format α

/-- The form of stored payloads. -/
inductive Codec where
  | binary
  | json
  deriving DecidableEq, Repr

/-- Why a payload cannot be written or read. -/
inductive CodecError where
  | encode (typeName reason : String)
  | decode (typeName reason : String)
  deriving DecidableEq, Repr

namespace CodecError

/-- The reason given where a format does not say what is wrong. -/
def untold : String := "..."

/-- The type that could not be written or read. -/
def typeName : CodecError → String
  | .encode name _ => name
  | .decode name _ => name

/-- The text reported for a failure. -/
def message : CodecError → String
  | .encode name reason => "failed to encode " ++ name ++ ": " ++ reason
  | .decode name reason => "failed to decode " ++ name ++ ": " ++ reason

/-- The name of a failure. -/
def label : CodecError → String
  | .encode .. => "Encode"
  | .decode .. => "Decode"

end CodecError

namespace Codec

/-- The name of a codec. -/
def name : Codec → String
  | .binary => "bincode"
  | .json => "json"

/-- The bytes of a value. -/
def encode {α : Type} [Wire α] (codec : Codec) (value : α) : Except CodecError Bytes :=
  match codec with
  | .binary => .ok ((Wire.format (α := α)).toBinary value)
  | .json =>
    match (Wire.format (α := α)).toJson value with
    | some document => .ok document.render
    | none => .error (.encode (Wire.typeName α) CodecError.untold)

/-- The value that some bytes hold, with the codec they were written with. Bytes behind a binary
value are left alone; JSON must be one document. -/
def decode? {α : Type} [Wire α] (codec : Codec) (bytes : Bytes) : Option α :=
  match codec with
  | .binary => ((Wire.format (α := α)).ofBinary bytes).map Prod.fst
  | .json => (Json.parse? bytes).bind (Wire.format (α := α)).ofJson

/-- The value that some bytes hold, or the failure to report. -/
def decode {α : Type} [Wire α] (codec : Codec) (bytes : Bytes) : Except CodecError α :=
  match codec.decode? bytes with
  | some value => .ok value
  | none => .error (.decode (Wire.typeName α) CodecError.untold)

/-- The format of the name of a codec. -/
def nameFormat : Format Codec :=
  Format.union (Variants.plain "bincode" <| Variants.plain "json" <| Variants.none)
    (fun
      | .binary => .inl ()
      | .json => .inr (.inl ()))
    (fun
      | .inl _ => .binary
      | .inr (.inl _) => .json)

end Codec

/-! ## Storable types -/

instance : Wire UInt64 := ⟨"u64", .uint64⟩

instance : Wire UInt32 := ⟨"u32", .uint32⟩

instance : Wire UInt8 := ⟨"u8", .uint8⟩

instance : Wire Int32 := ⟨"i32", .int32⟩

instance : Wire Int64 := ⟨"i64", .int64⟩

instance : Wire Bool := ⟨"bool", .bool⟩

instance : Wire String := ⟨"alloc::string::String", .string⟩

instance {α : Type} [Wire α] : Wire (List α) :=
  ⟨"alloc::vec::Vec<" ++ Wire.typeName α ++ ">", (Wire.format (α := α)).list⟩

instance {α : Type} [Wire α] : Wire (Option α) :=
  ⟨"core::option::Option<" ++ Wire.typeName α ++ ">", (Wire.format (α := α)).option⟩

instance {α β : Type} [Wire α] [Wire β] : Wire (α × β) :=
  ⟨"(" ++ Wire.typeName α ++ ", " ++ Wire.typeName β ++ ")",
    (Wire.format (α := α)).pair (Wire.format (α := β))⟩

instance : Wire Timestamp := ⟨"chrono::datetime::DateTime<chrono::offset::utc::Utc>", .timestamp⟩

instance : Wire Duration := ⟨"core::time::Duration", .duration⟩

instance : Wire StreamId :=
  ⟨"eventloom_core::stream::StreamId", Format.string.rename StreamId.text StreamId.mk⟩

instance : Wire TenantId :=
  ⟨"eventloom_core::stream::TenantId", Format.string.rename TenantId.text TenantId.mk⟩

instance : Wire Version :=
  ⟨"eventloom_core::stream::Version", Format.uint64.rename Version.val Version.mk⟩

instance : Wire GlobalPosition :=
  ⟨"eventloom_core::stream::GlobalPosition",
    Format.uint64.rename GlobalPosition.val GlobalPosition.mk⟩

instance : Wire TypeTag :=
  ⟨"eventloom_core::type_registry::TypeTag", Format.uint32.rename TypeTag.val TypeTag.mk⟩

instance : Wire UpperBound :=
  ⟨"eventloom_core::stream::UpperBound",
    Format.union
      (Variants.holding "Version" (Wire.format (α := Version)) <|
        Variants.plain "End" <| Variants.none)
      (fun
        | .version last => .inl last
        | .unbounded => .inr (.inl ()))
      (fun
        | .inl last => .version last
        | .inr (.inl _) => .unbounded)⟩

instance : Wire VersionRange :=
  ⟨"eventloom_core::stream::VersionRange",
    Format.record
      (Fields.required "after" (Wire.format (α := Version)) <|
        Fields.required "to" (Wire.format (α := UpperBound)) <| Fields.none)
      (fun range => (range.after, range.upTo, ()))
      (fun (after, upTo, _) => ⟨after, upTo⟩)⟩

instance : Wire EventId :=
  ⟨"eventloom_core::identity::EventId", Format.uuid.rename EventId.uuid EventId.mk⟩

instance : Wire CommandId :=
  ⟨"eventloom_core::identity::CommandId", Format.uuid.rename CommandId.uuid CommandId.mk⟩

instance : Wire SequenceId :=
  ⟨"eventloom_core::identity::SequenceId", Format.uuid.rename SequenceId.uuid SequenceId.mk⟩

instance : Wire PrincipalId :=
  ⟨"eventloom_core::identity::PrincipalId", Format.string.rename PrincipalId.text PrincipalId.mk⟩

instance : Wire Codec := ⟨"eventloom_core::codec::Codec", Codec.nameFormat⟩

end Chronicle

import Chronicle.Fault

/-!
# Streams, tenants and the numbers that order events

Each aggregate instance owns one stream, named by its type and its id with a hyphen between
them. Within a stream events are numbered by `Version`, from 1; within a tenant's log by
`GlobalPosition`, also from 1. A `VersionRange` leaves its lower end out and its upper end in.
-/

namespace Chronicle

/-! ## Streams and tenants -/

/-- The name of a stream. -/
structure StreamId where
  text : String
  deriving DecidableEq, Repr

/-- The stream of one aggregate instance. -/
def StreamId.forAggregate (aggregateType : String) (instanceText : String) : StreamId :=
  ⟨aggregateType ++ "-" ++ instanceText⟩

/-- Whether a stream's name starts with some text. -/
def StreamId.startsWith (stream : StreamId) (start : String) : Bool :=
  start.toList.isPrefixOf stream.text.toList

/-- Reads the name of a stream, which is not empty. -/
def StreamId.ofText? (text : String) : Option StreamId :=
  if text = "" then none else some ⟨text⟩

/-- The text reported where the name of a stream is empty. -/
def StreamId.emptyMessage : String := "Invalid stream ID: Stream ID cannot be empty"

/-- The name of a tenant; the empty name is the default tenant's. -/
structure TenantId where
  text : String
  deriving DecidableEq, Repr

namespace TenantId

/-- The default tenant. -/
def default : TenantId := ⟨""⟩

/-- Whether a tenant is the default one. -/
def isDefault (tenant : TenantId) : Bool := tenant.text.isEmpty

/-- A tenant as shown to people. -/
def toText (tenant : TenantId) : String := if tenant.isDefault then "<default>" else tenant.text

end TenantId

/-! ## Versions -/

/-- The number of an event in its stream; zero stands for a stream without events. -/
structure Version where
  val : UInt64
  deriving DecidableEq, Repr

namespace Version

/-- The version of a stream without events. -/
def notCreated : Version := ⟨0⟩

instance : LE Version := ⟨fun a b => a.val ≤ b.val⟩

instance : LT Version := ⟨fun a b => a.val < b.val⟩

instance (a b : Version) : Decidable (a ≤ b) := inferInstanceAs (Decidable (a.val ≤ b.val))

instance (a b : Version) : Decidable (a < b) := inferInstanceAs (Decidable (a.val < b.val))

/-- A version as a number. -/
def toNat (v : Version) : Nat := v.val.toNat

/-- A version as text. -/
def toText (v : Version) : String := toString v.toNat

/-- The version so many events later. -/
def add (v : Version) (n : UInt64) : Checked Version := (checkedAdd v.val n).map Version.mk

/-- The version of the next event. -/
def next (v : Version) : Checked Version := v.add 1

/-- The version so many events earlier, if there were so many. -/
def checkedSub? (v : Version) (n : UInt64) : Option Version :=
  if n ≤ v.val then some ⟨v.val - n⟩ else none

/-- The version so many events earlier, zero at the least. -/
def sub (v : Version) (n : UInt64) : Version := (v.checkedSub? n).getD notCreated

/-- How many events lie between an earlier version and this one. -/
def distanceFrom (v earlier : Version) : UInt64 := (v.sub earlier.val).val

/-- Whether a stream of this version has no events. -/
def isNotCreated (v : Version) : Bool := v.val == 0

end Version

/-! ## Ranges of versions -/

/-- The upper end of a range. -/
inductive UpperBound where
  | version (last : Version)
  | unbounded
  deriving DecidableEq, Repr

/-- Whether a version lies at or below an upper end. -/
def UpperBound.admits : UpperBound → Version → Bool
  | .version last, v => v ≤ last
  | .unbounded, _ => true

/-- An upper end as text. -/
def UpperBound.toText : UpperBound → String
  | .version last => last.toText
  | .unbounded => "end"

/-- The versions above `after`, up to and with `upTo`. -/
structure VersionRange where
  after : Version
  upTo : UpperBound
  deriving DecidableEq, Repr

namespace VersionRange

/-- Every version. -/
def all : VersionRange := ⟨.notCreated, .unbounded⟩

/-- Every version above one. -/
def above (v : Version) : VersionRange := ⟨v, .unbounded⟩

/-- Whether a version lies in a range. -/
def contains (range : VersionRange) (v : Version) : Bool := range.after < v && range.upTo.admits v

/-- Whether the bounds of a range leave no room between them. -/
def isEmpty (range : VersionRange) : Bool :=
  match range.upTo with
  | .version last => last ≤ range.after
  | .unbounded => false

/-- A range as text. -/
def toText (range : VersionRange) : String :=
  "(" ++ range.after.toText ++ ", " ++ range.upTo.toText ++ "]"

end VersionRange

/-! ## Positions and type tags -/

/-- The number of an event in its tenant's log; zero stands before the first. -/
structure GlobalPosition where
  val : UInt64
  deriving DecidableEq, Repr

namespace GlobalPosition

/-- The position before the first event. -/
def start : GlobalPosition := ⟨0⟩

instance : LE GlobalPosition := ⟨fun a b => a.val ≤ b.val⟩

instance : LT GlobalPosition := ⟨fun a b => a.val < b.val⟩

instance (a b : GlobalPosition) : Decidable (a ≤ b) := inferInstanceAs (Decidable (a.val ≤ b.val))

instance (a b : GlobalPosition) : Decidable (a < b) := inferInstanceAs (Decidable (a.val < b.val))

/-- A position as a number. -/
def toNat (p : GlobalPosition) : Nat := p.val.toNat

/-- A position as text. -/
def toText (p : GlobalPosition) : String := toString p.toNat

/-- The position of the next event. -/
def next (p : GlobalPosition) : Checked GlobalPosition :=
  (checkedAdd p.val 1).map GlobalPosition.mk

/-- The position so many events later, the last one at the most. -/
def add (p : GlobalPosition) (n : UInt64) : GlobalPosition :=
  match checkedAdd p.val n with
  | .ok sum => ⟨sum⟩
  | .error _ => ⟨0xffffffffffffffff⟩

end GlobalPosition

/-- The number that marks the aggregate type of a stored event or snapshot. -/
structure TypeTag where
  val : UInt32
  deriving DecidableEq, Repr

/-- A type tag as text. -/
def TypeTag.toText (tag : TypeTag) : String := "#" ++ toString tag.val.toNat

end Chronicle

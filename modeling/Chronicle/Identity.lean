import Chronicle.Stream
import Chronicle.Text.Integer
import Chronicle.Text.Quoted
import Chronicle.Uuid

/-!
# Identities

Events, commands and causal sequences are named by UUIDs, principals by text; new ones are taken
from a supply. The ids of aggregates are of any type that can be written and read back; reading
fails with the cause and the raw text.
-/

namespace Chronicle

/-- The identity of one event. -/
structure EventId where
  uuid : Uuid
  deriving DecidableEq

/-- The identity of one command. -/
structure CommandId where
  uuid : Uuid
  deriving DecidableEq

/-- The identity that a command and all that it causes share. -/
structure SequenceId where
  uuid : Uuid
  deriving DecidableEq

/-- The identity of one account. -/
structure AccountId where
  uuid : Uuid
  deriving DecidableEq

/-- On whose behalf a command runs. -/
structure PrincipalId where
  text : String
  deriving DecidableEq, Repr

/-- The principal of commands that no one in particular issued. -/
def PrincipalId.system : PrincipalId := ⟨"system"⟩

/-! ## Fresh identities -/

/-- A supply of identifiers, each given out once. -/
structure IdSupply where
  next : Nat
  deriving DecidableEq, Repr

namespace IdSupply

/-- The next identifier of a supply and the supply behind it. -/
def fresh (ids : IdSupply) : Uuid × IdSupply := (.ofNat ids.next, ⟨ids.next + 1⟩)

end IdSupply

/-! ## Ids of aggregates -/

/-- Why a text names no instance. -/
inductive IdFlaw where
  | integer (flaw : Text.Integer.Flaw)
  | boolean
  | emptyStream
  | uuid
  deriving DecidableEq, Repr

/-- The text reported for a flaw; that of an identifier is not told in more detail. -/
def IdFlaw.message : IdFlaw → String
  | .integer flaw => flaw.message
  | .boolean => "provided string was not `true` or `false`"
  | .emptyStream => StreamId.emptyMessage
  | .uuid => "..."

/-- A text that names no instance, and why. -/
structure ParseIdError where
  raw : String
  flaw : IdFlaw
  deriving DecidableEq, Repr

/-- The text reported where an id cannot be read. -/
def ParseIdError.message (e : ParseIdError) : String :=
  "cannot parse aggregate id " ++ Text.quoted e.raw ++ ": " ++ e.flaw.message

/-- A type whose values are written as text and read back. -/
class InstanceId (ι : Type) where
  toText : ι → String
  ofText : String → Except IdFlaw ι

/-- Reads the id of an instance. -/
def parseId {ι : Type} [InstanceId ι] (raw : String) : Except ParseIdError ι :=
  (InstanceId.ofText raw).mapError fun flaw => ⟨raw, flaw⟩

instance : InstanceId UInt64 where
  toText n := toString n.toNat
  ofText raw := ((Text.Integer.unsigned 0xffffffffffffffff raw).mapError .integer).map UInt64.ofNat

instance : InstanceId UInt32 where
  toText n := toString n.toNat
  ofText raw := ((Text.Integer.unsigned 0xffffffff raw).mapError .integer).map UInt32.ofNat

instance : InstanceId UInt8 where
  toText n := toString n.toNat
  ofText raw := ((Text.Integer.unsigned 0xff raw).mapError .integer).map UInt8.ofNat

instance : InstanceId Int64 where
  toText n := toString n.toInt
  ofText raw := ((Text.Integer.signed 0x7fffffffffffffff raw).mapError .integer).map Int64.ofInt

instance : InstanceId Bool where
  toText b := if b then "true" else "false"
  ofText raw :=
    if raw = "true" then .ok true else if raw = "false" then .ok false else .error .boolean

instance : InstanceId String where
  toText := id
  ofText := .ok

instance : InstanceId StreamId where
  toText stream := stream.text
  ofText raw := match StreamId.ofText? raw with
    | some stream => .ok stream
    | none => .error .emptyStream

instance : InstanceId AccountId where
  toText account := account.uuid.toText
  ofText raw := match Uuid.ofText? raw with
    | some uuid => .ok ⟨uuid⟩
    | none => .error .uuid

end Chronicle

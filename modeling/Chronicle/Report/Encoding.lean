import Chronicle.Codec.Wire
import Chronicle.Report.Failure
import Chronicle.Request.Event

/-!
# Encodings in reports

What a codec makes of a value, and what it reads from bytes. A value that was read is shown with
the bytes that each codec would write for it.
-/

namespace Chronicle.Report

/-- The bytes of a value. -/
def encoding {α : Type} [Wire α] (codec : Codec) (value : α) : Json :=
  match codec.encode value with
  | .ok bytes => Json.record [("ok", Json.record [("hex", hex bytes), ("codec", .str codec.name)])]
  | .error e => codecFailure e

/-- The value that some bytes hold. -/
def decoding (α : Type) [Wire α] (codec : Codec) (bytes : Bytes) : Json :=
  match codec.decode (α := α) bytes with
  | .error e => codecFailure e
  | .ok value =>
    let written (c : Codec) (shown : Bytes → Json) : Json :=
      match c.encode value with
      | .ok bytes => shown bytes
      | .error _ => .null
    Json.record [("ok", Json.record [("value", Sample.storedJson value),
      ("bincode", written .binary hex), ("json", written .json content),
      ("codec", .str codec.name)])]

/-- Writes the value that a request gives, or reads the bytes that it gives. -/
def codecOn (α : Type) [Wire α] (read : Request → Option α) (r : Request) : Option Json :=
  match r.text? "hex", r.text? "utf8" with
  | some digits, _ => some (decoding α r.codec (Request.unhex digits))
  | _, some text => some (decoding α r.codec (Bytes.ofText text))
  | _, _ => (read (r.part "value")).map (encoding r.codec)

end Chronicle.Report

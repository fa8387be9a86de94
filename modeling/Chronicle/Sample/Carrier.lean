import Chronicle.Registry
import Chronicle.Sample.Account
import Chronicle.Sample.Scripted
import Chronicle.Sample.Sequence

/-!
# Envelopes of the sample types

The carrier that holds the typed envelopes of every sample aggregate type, so that all of them
go over one bus.
-/

namespace Chronicle.Sample

/-- A typed envelope of one of the sample types. -/
inductive Carrier where
  | sequence (envelope : EventEnvelope UInt64 SequenceEvent)
  | account (envelope : EventEnvelope AccountId AccountEvent)
  | scripted (envelope : EventEnvelope String ScriptEvent)

instance : Carries Carrier UInt64 SequenceEvent where
  wrap := .sequence
  unwrap?
    | .sequence envelope => some envelope
    | _ => none
  unwrap?_wrap _ := rfl

instance : Carries Carrier AccountId AccountEvent where
  wrap := .account
  unwrap?
    | .account envelope => some envelope
    | _ => none
  unwrap?_wrap _ := rfl

instance : Carries Carrier String ScriptEvent where
  wrap := .scripted
  unwrap?
    | .scripted envelope => some envelope
    | _ => none
  unwrap?_wrap _ := rfl

end Chronicle.Sample

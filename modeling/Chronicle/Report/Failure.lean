import Chronicle.Rebuild
import Chronicle.Report.Basic

/-!
# Failures in reports

A failure is shown by the names of its causes and its text. The failures of stores also tell
whether they are conflicts, those of engines whether another attempt may help and whether only
the wait failed.
-/

namespace Chronicle.Report

/-- A failure with more members. -/
def failureWith (label message : String) (more : List (String × Json)) : Json :=
  Json.record ([("error", .str label), ("message", .str message)] ++ more)

/-- A failure. -/
def failure (label message : String) : Json := failureWith label message []

/-- An operation that broke off. -/
def fault (f : Fault) : Json := failure "panic" f.message

/-- A payload that a codec refused. -/
def codecFailure (e : CodecError) : Json :=
  failureWith e.label e.message [("type_name", .str e.typeName)]

/-- A recorded event that could not be read. -/
def translationFailure (e : TranslationError) : Json := failure e.label e.message

/-- A text that is no id. -/
def idFailure (e : ParseIdError) : Json := failure "ParseIdError" e.message

/-- A failure of a store. -/
def storeFailure (e : StoreError) : Json :=
  failureWith e.label e.message [("conflict", .bool e.isConflict)]

/-- A failure of an instance. -/
def aggregateFailure (e : AggregateError) : Json := failure e.label e.message

/-- A failure of a registry. -/
def registryFailure (e : RegistryError) : Json := failure e.label e.message

/-- A failure of a bus. -/
def busFailure (e : BusError) : Json := failure e.label e.message

/-- A wait that ended too early. -/
def timeoutFailure (e : CompletionTimeout) : Json := failure "PublicationTimeout" e.message

/-- The number that a sequence is, as a text. -/
def sequenceText (id : SequenceId) : String := toString id.uuid.toNat

/-- The members for a failure of an engine. -/
def engineMembers (e : EngineError) : List (String × Json) :=
  [("error", .str e.label), ("message", .str (e.message sequenceText)),
    ("retryable", .bool e.isRetryable), ("timeout", .bool e.isTimeout)]

/-- A failure of an engine. -/
def engineFailure (e : EngineError) : Json := Json.record (engineMembers e)

/-- The news of one published batch of a rebuild. -/
def progress (p : RebuildProgress) : Json :=
  arr [.str p.tenant.text, num p.batch, num p.batchSize, num p.eventsProcessed, position p.start,
    position p.stop]

/-- What a computation gave that may have broken off. -/
def checked : Checked Json → Json
  | .ok json => Json.record [("ok", json)]
  | .error f => fault f

end Chronicle.Report

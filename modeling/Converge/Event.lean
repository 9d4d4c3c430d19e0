import Converge.Key

/-!
# Events

An event is a notification about an object. Notifications that repeat the latest one about their
object are counted and not listed again.

## Main definitions

* `Notice`: what happened to an object.
* `Event`: a notice with its time and how often it was repeated.
* `Event.repeats`, `Event.folded`: when an event repeats another and what then becomes of that.
-/

namespace Converge

/-- Whether a notification reports something wrong. -/
inductive Severity where
  | normal
  | warning
  deriving DecidableEq

namespace Severity

/-- The name of a severity. -/
def name : Severity → String
  | normal => "Normal"
  | warning => "Warning"

instance : ToString Severity := ⟨name⟩

/-- A severity is written as its name. -/
def codec : Codec Severity := .oneOf name [normal, warning]

end Severity

/-- Something that happened to an object. -/
structure Notice where
  subject : ObjectKey
  severity : Severity
  /-- One word for what happened. -/
  reason : String
  message : String
  deriving DecidableEq

/-- A recorded notice. -/
structure Event extends Notice where
  /-- When it last happened, in seconds since 1970. -/
  timestamp : UInt64
  /-- How often it happened. -/
  count : UInt32 := 1
  deriving DecidableEq

namespace Event

/-- An event from its parts. -/
def ofParts (subject : ObjectKey) (severity : Severity) (reason message : String)
    (timestamp : UInt64) (count : UInt32) : Event :=
  { subject, severity, reason, message, timestamp, count }

/-- An event without a count has happened once. -/
def codec : Codec Event := .record "Event" <|
  pure ofParts
    <*> .field "subject" (fun e : Event => e.subject) ObjectKey.codec
    <*> .field "eventType" (fun e => e.severity) Severity.codec
    <*> .field "reason" (fun e => e.reason) .string
    <*> .field "message" (fun e => e.message) .string
    <*> .field "timestamp" timestamp .uint64
    <*> .field "count" count .uint32 (.defaulted 1)

/-- Whether an event says the same as `last`, whoever its subject is. -/
def repeats (e last : Event) : Bool :=
  last.severity == e.severity && last.reason == e.reason && last.message == e.message

/-- `last` after the event `e` repeated it: counted once more, up to the largest count, and moved
to the time of `e`. -/
def folded (last e : Event) : Event :=
  { last with
    count := if last.count.toNat + 1 < UInt32.size then last.count + 1 else last.count
    timestamp := e.timestamp }

end Event

end Converge

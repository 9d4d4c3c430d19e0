import Converge.Json.Record

/-!
# Conditions

A condition is a named observation about a resource, true, false or unknown, with the time at
which its truth last changed.

## Main definitions

* `Condition`, `ConditionStatus`.
* `Condition.revise`: an observation after a later one of the same type.
-/

namespace Converge

/-- Whether what a condition names is the case. -/
inductive ConditionStatus where
  | holds
  | fails
  | unknown
  deriving DecidableEq

namespace ConditionStatus

/-- The name of a condition status. -/
def name : ConditionStatus → String
  | holds => "True"
  | fails => "False"
  | unknown => "Unknown"

/-- A condition status is written as its name. -/
def codec : Codec ConditionStatus := .oneOf name [holds, fails, unknown]

end ConditionStatus

/-- An observation about a resource. -/
structure Condition where
  /-- What is observed; a resource has one current condition of a type. -/
  type : String
  status : ConditionStatus
  reason : String
  message : String
  /-- When the status last changed, in seconds since 1970; zero for a time not yet set. -/
  lastTransition : UInt64 := 0
  deriving DecidableEq

namespace Condition

/-- A condition may come without a message and without a time. -/
def codec : Codec Condition := .record "Condition" <|
  pure mk
    <*> .field "type" type .string
    <*> .field "status" status ConditionStatus.codec
    <*> .field "reason" reason .string
    <*> .field "message" message .string (.defaulted "")
    <*> .field "lastTransitionTime" lastTransition .uint64 (.defaulted 0)

/-- The observation with the time `now` if it has none. -/
def stamped (c : Condition) (now : UInt64) : Condition :=
  if c.lastTransition = 0 then { c with lastTransition := now } else c

/-- Whether a later observation of the same type says something else. -/
def differs (old new : Condition) : Bool :=
  old.status != new.status || old.reason != new.reason || old.message != new.message

/-- An observation after a later one of the same type: the time moves only with the status. -/
def revise (old new : Condition) : Condition where
  type := old.type
  status := new.status
  reason := new.reason
  message := new.message
  lastTransition := if old.status = new.status then old.lastTransition else new.lastTransition

end Condition

end Converge

import Converge.Object

/-!
# Errors of a store

Why a store could not read, change or write an object. That an object does not exist is an error
only for an operation that has to find it.

## Main definitions

* `StoreError`, `StoreError.message`.
* `StoreError.isConflict`: whether a write came too late.
-/

namespace Converge

/-- Part of a store's work, where an error is known by its text only. -/
inductive StoreStage where
  | validation
  | serialization
  | deserialization
  | backend
  deriving DecidableEq

/-- What an error text says of a part of the store's work. -/
def StoreStage.label : StoreStage → String
  | validation => "invalid object"
  | serialization => "serialization error"
  | deserialization => "deserialization error"
  | backend => "backend error"

/-- Why a store operation failed. -/
inductive StoreError where
  /-- The object was written since it was read: the write is based on version `expected`. -/
  | conflict (key : String) (expected stored : UInt64)
  /-- The object does not exist. -/
  | missing (key : String)
  /-- The change to the object failed. -/
  | mutate (failure : Failure)
  /-- The object is of another kind. -/
  | wrongKind (expected found : String)
  /-- The change gave the object another kind, namespace or name. -/
  | moved (source target : String)
  /-- The object is not one of its kind. -/
  | undecodable (error : DecodeError)
  /-- Some part of the store's work failed. -/
  | reported (stage : StoreStage) (text : String)
  deriving DecidableEq

namespace StoreError

/-- The text of a store error. -/
def message : StoreError → String
  | conflict key expected stored =>
    s!"conflict writing {key}: stored version {stored}, write based on {expected}"
  | missing key => s!"object {key} does not exist"
  | mutate failure => s!"mutation failed: {failure.message}"
  | wrongKind expected found =>
    s!"{StoreStage.validation.label}: expected kind {expected}, got {found}"
  | moved source target => s!"{StoreStage.validation.label}: mutation moved {source} to {target}"
  | undecodable error => s!"{StoreStage.deserialization.label}: {error.message}"
  | reported stage text => s!"{stage.label}: {text}"

/-- Whether a write was refused because the object was written since it was read. -/
def isConflict : StoreError → Bool
  | conflict .. => true
  | _ => false

end StoreError

end Converge

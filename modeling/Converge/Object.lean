import Converge.Metadata

/-!
# Objects

The store keeps objects of any kind: metadata, and a specification and a status that may be any
structured values.

## Main definitions

* `Object`: an object of any kind.
* `Object.same`: equality of objects.
* `Failure`: an error of a change to an object, with what was going on when it arose.
-/

namespace Converge

/-- An object of any kind. -/
structure Object where
  kind : String
  metadata : Metadata
  /-- What is wanted. -/
  spec : Json := .null
  /-- What is observed. -/
  status : Json := .null

namespace Object

/-- An object without specification and status. -/
def empty (kind : String) (key : ObjectKey) : Object := { kind, metadata := .ofKey key }

/-- The key of the object. -/
def key (o : Object) : ObjectKey := o.metadata.key

/-- The text under which the object is stored. -/
def tableKey (o : Object) : String := Converge.tableKey o.kind o.key

/-- The object with another version. -/
def withVersion (o : Object) (version : UInt64) : Object :=
  { o with metadata := { o.metadata with version } }

/-- Equality of objects. -/
def same (a b : Object) : Bool :=
  a.kind == b.kind && a.metadata == b.metadata && a.spec.same b.spec && a.status.same b.status

/-- Every object is the same as itself. -/
theorem same_self (a : Object) : a.same a = true := by simp [same, Json.same_self]

/-- An object without a specification or status has null in its place. -/
def codec : Codec Object := .record "DynamicObject" <|
  pure mk
    <*> .field "kind" kind .string
    <*> .field "metadata" metadata Metadata.codec
    <*> .field "spec" spec .json (.defaulted .null)
    <*> .field "status" status .json (.defaulted .null)

end Object

/-! ### Failures of a change -/

/-- An error with the activities in which it arose, the innermost first. -/
structure Failure where
  cause : String
  contexts : List String := []
  deriving DecidableEq

namespace Failure

/-- The failure seen from an activity that contains it. -/
def within (f : Failure) (context : String) : Failure :=
  { f with contexts := f.contexts ++ [context] }

/-- The activities from the outermost inwards, and then the cause. -/
def message (f : Failure) : String := ": ".intercalate (f.contexts.reverse ++ [f.cause])

end Failure

/-- A change to an object that may fail. -/
abbrev Change := Object → Except Failure Object

end Converge

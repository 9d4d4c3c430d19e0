import Converge.Key

/-!
# Object metadata

What every object carries beside its content: its name and namespace, the version that the store
counts up with every write, labels, and a reference to the object that owns it. An object has at
most one controlling owner, which lives in the same namespace.

## Main definitions

* `OwnerReference`, `Metadata`.
* `Metadata.setController`: make an object the controlling owner.
* `OwnershipError`, `OwnershipError.message`: why it cannot become the controlling owner.
-/

namespace Converge

/-- A reference to an owner by kind and name. -/
structure OwnerReference where
  kind : String
  name : String
  /-- Whether the owner controls the object. -/
  controller : Bool
  deriving DecidableEq

/-- An owner does not control the object unless the reference says so. -/
def OwnerReference.codec : Codec OwnerReference := .record "OwnerReference" <|
  pure mk
    <*> .field "kind" kind .string
    <*> .field "name" name .string
    <*> .field "controller" controller .boolean (.defaulted false)

/-- Metadata of an object. -/
structure Metadata where
  name : String
  /-- The namespace. -/
  ns : String
  /-- How often the object was written; zero for one that was never stored. -/
  version : UInt64 := 0
  labels : Table String := ∅
  owner : Option OwnerReference := none
  deriving DecidableEq

/-- Why an object cannot become the controlling owner of another. -/
inductive OwnershipError where
  | crossNamespace (owner object : String)
  | alreadyControlled (kind name : String)
  deriving DecidableEq

/-- The text of an ownership error. -/
def OwnershipError.message : OwnershipError → String
  | crossNamespace owner object =>
    s!"cross-namespace owner references are not allowed: owner in {owner}, object in {object}"
  | alreadyControlled kind name => s!"object is already controlled by {kind} {name}"

namespace Metadata

/-- The key of the object. -/
def key (m : Metadata) : ObjectKey := ⟨m.ns, m.name⟩

/-- Metadata of an object that was never stored. -/
def ofKey (key : ObjectKey) : Metadata := { name := key.name, ns := key.ns }

/-- Labels and owner are left out when there are none; the version is always written. -/
def codec : Codec Metadata := .record "ObjectMeta" <|
  pure mk
    <*> .field "name" name .string
    <*> .field "namespace" ns .string
    <*> .field "resourceVersion" version .uint64 (.defaulted 0)
    <*> .field "labels" labels .texts (.omitted ∅ Table.isEmpty)
    <*> .field "ownerReference" owner OwnerReference.codec.nullable (.omitted none Option.isNone)

/-- Make an object of kind `kind` with metadata `owner` the controlling owner. It has to be in
the same namespace, and an object that controls already cannot be replaced by another. -/
def setController (m : Metadata) (kind : String) (owner : Metadata) :
    Except OwnershipError Metadata :=
  if owner.ns ≠ m.ns then .error (.crossNamespace owner.ns m.ns)
  else
    let update : Metadata := { m with owner := some ⟨kind, owner.name, true⟩ }
    match m.owner with
    | none => .ok update
    | some current =>
      if current.controller && (current.kind != kind || current.name != owner.name) then
        .error (.alreadyControlled current.kind current.name)
      else .ok update

end Metadata

end Converge

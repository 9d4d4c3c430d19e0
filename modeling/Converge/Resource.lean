import Converge.Store.Error

/-!
# Typed resources

Objects of a known kind have a specification and a status of known types. They are read from
objects of any kind and written back as such; a specification or status that is null counts as
absent.

## Main definitions

* `Resource`: metadata with a typed specification and status.
* `ResourceKind`: the name of a kind and how its specification and status are written.
* `ResourceKind.ofObject`, `ResourceKind.toObject`: the conversions.
-/

namespace Converge

/-- An object of a known kind. -/
structure Resource (σ τ : Type) where
  metadata : Metadata
  /-- What is wanted. -/
  spec : σ
  /-- What is observed. -/
  status : τ
  deriving DecidableEq

/-- The key of a resource. -/
def Resource.key {σ τ : Type} (r : Resource σ τ) : ObjectKey := r.metadata.key

/-- A kind of objects with specifications of type `σ` and statuses of type `τ`. -/
structure ResourceKind (σ τ : Type) where
  name : String
  spec : Codec σ
  /-- What an absent specification means. -/
  specPresence : Presence σ
  status : Codec τ
  /-- What an absent status means. -/
  statusPresence : Presence τ

namespace ResourceKind

variable {σ τ : Type}

/-- The codec of the resources of a kind. -/
def codec (kind : ResourceKind σ τ) : Codec (Resource σ τ) := .record kind.name <|
  pure Resource.mk
    <*> .field "metadata" Resource.metadata Metadata.codec
    <*> .field "spec" Resource.spec kind.spec kind.specPresence
    <*> .field "status" Resource.status kind.status kind.statusPresence

/-- The sections of an object as one structured value, without those that are null. -/
def sections (o : Object) : Json :=
  let present (name : String) (value : Json) := if value.isNull then [] else [(name, value)]
  .ofMembers ([("metadata", Metadata.codec.encode o.metadata)] ++ present "spec" o.spec
    ++ present "status" o.status)

/-- The resource that an object is. -/
def ofObject (kind : ResourceKind σ τ) (o : Object) : Except StoreError (Resource σ τ) :=
  if o.kind ≠ kind.name then .error (.wrongKind kind.name o.kind)
  else (kind.codec.decode (sections o)).mapError .undecodable

/-- A resource as an object. -/
def toObject (kind : ResourceKind σ τ) (r : Resource σ τ) : Object where
  kind := kind.name
  metadata := r.metadata
  spec := kind.spec.encode r.spec
  status := kind.status.encode r.status

end ResourceKind

end Converge

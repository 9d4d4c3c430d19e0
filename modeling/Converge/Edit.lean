import Converge.Catalog

/-!
# Edits of objects

Changes of an object that are written down as a list of single edits, and builders made of them.

## Main definitions

* `Edit`, `Edit.apply`, `Edit.applyAll`.
* `EditedBuilder`: a builder described by its placeholder and its edits.
-/

namespace Converge

/-- A single change of an object. -/
inductive Edit where
  | spec (value : Json)
  | status (value : Json)
  | label (key value : String)
  | unlabel (key : String)
  | name (value : String)
  | ns (value : String)
  | kind (value : String)
  | version (value : UInt64)
  | owner (value : Option OwnerReference)
  /-- Make the object with the given kind and metadata the controlling owner. -/
  | control (kind : String) (owner : Metadata)
  | fail (failure : Failure)

namespace Edit

/-- The object after an edit. -/
def apply (o : Object) : Edit → Except Failure Object
  | spec value => .ok { o with spec := value }
  | status value => .ok { o with status := value }
  | label key value =>
    .ok { o with metadata := { o.metadata with labels := o.metadata.labels.insert key value } }
  | unlabel key =>
    .ok { o with metadata := { o.metadata with labels := o.metadata.labels.erase key } }
  | name value => .ok { o with metadata := { o.metadata with name := value } }
  | ns value => .ok { o with metadata := { o.metadata with ns := value } }
  | kind value => .ok { o with kind := value }
  | version value => .ok (o.withVersion value)
  | owner value => .ok { o with metadata := { o.metadata with owner := value } }
  | control ownerKind metadata =>
    match o.metadata.setController ownerKind metadata with
    | .ok metadata => .ok { o with metadata }
    | .error e => .error { cause := e.message }
  | fail failure => .error failure

/-- Edits in order, up to the first that fails. -/
def applyAll (edits : List Edit) : Change := fun o => edits.foldlM apply o

end Edit

/-- A builder described by the kind and key of its object and its edits. The key is taken from the
database where it is left open. -/
structure EditedBuilder where
  kind : String
  /-- The namespace. -/
  ns : Option String := none
  name : Option String := none
  edits : List Edit := []

/-- The builder for a database. -/
def EditedBuilder.builder (b : EditedBuilder) (a : Aggregate) : Builder where
  placeholder := .empty b.kind ⟨b.ns.getD a.ns, b.name.getD a.name⟩
  build := Edit.applyAll b.edits

/-- A catalog of described builders. -/
def Catalog.edited (builders : List EditedBuilder) : Catalog := fun a => builders.map (·.builder a)

end Converge

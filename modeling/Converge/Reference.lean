import Converge.Key

/-!
# References to objects

A reference names an object of a kind that its place determines, in a namespace that it may leave
open.

## Main definitions

* `Reference`: a name with an optional namespace.
* `Reference.key`: the key it denotes for an object in a given namespace.
-/

namespace Converge

/-- A name with an optional namespace. -/
structure Reference where
  name : String
  /-- The namespace, when it is not that of the referring object. -/
  ns : Option String := none
  deriving DecidableEq

namespace Reference

/-- The key that a reference denotes for an object in namespace `home`. -/
def key (r : Reference) (home : String) : ObjectKey := ⟨r.ns.getD home, r.name⟩

/-- The namespace is left out when it is open. -/
def codec : Codec Reference := .record "NamespacedRef" <|
  pure mk
    <*> .field "name" name .string
    <*> .field "namespace" ns Codec.string.nullable (.omitted none Option.isNone)

end Reference

end Converge

import Converge.Json.Parser
import Converge.Store.Objects

/-!
# Manifests

A manifest is JSON text of one object or of an array of objects. It is checked as a whole before
any of its objects is stored.

## Main definitions

* `Manifest.ofJson`, `Manifest.parse`: the objects of a manifest.
* `ManifestError`, `ManifestError.message`: why a text is no manifest.
* `Store.putAll`: storing objects in order.
-/

namespace Converge

/-- Why a text is no manifest. -/
inductive ManifestError where
  /-- The text is no JSON. -/
  | malformed
  /-- A value is no object. -/
  | undecodable (error : DecodeError)
  /-- An object has no kind or no name. -/
  | incomplete
  deriving DecidableEq

/-- The text of a manifest error. -/
def ManifestError.message : ManifestError → String
  | malformed => "malformed manifest"
  | undecodable error => error.message
  | incomplete => "manifest object is missing kind or metadata.name"

namespace Manifest

/-- The levels of nested arrays and objects that a manifest may have. -/
def nestingLimit : Nat := 127

/-- The values of a manifest: the elements of an array, or the one value. -/
def elements : Json → List Json
  | .arr elements => elements
  | value => [value]

/-- Whether an object has a kind and a name. -/
def isComplete (o : Object) : Bool := !o.kind.isEmpty && !o.metadata.name.isEmpty

/-- The objects of a manifest. -/
def ofJson (value : Json) : Except ManifestError (List Object) := do
  let objects ← ((elements value).mapM Object.codec.decode).mapError .undecodable
  if objects.all isComplete then return objects else throw .incomplete

/-- The objects of a manifest given as text. -/
def parse (text : String) : Except ManifestError (List Object) :=
  match Json.parse? text nestingLimit with
  | some value => ofJson value
  | none => .error .malformed

end Manifest

/-- Store objects in order, and tell the versions they got. -/
def Store.putAll : List Object → Store → List UInt64 × Store
  | [], s => ([], s)
  | o :: rest, s =>
    let (version, s) := s.put o
    let (versions, s) := putAll rest s
    (version :: versions, s)

end Converge

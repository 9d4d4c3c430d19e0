import Converge.Json.Record

/-!
# Object keys

Every object has a kind, a namespace and a name. The key of an object is its namespace and name;
kind, namespace and name joined by slashes are the text under which a store keeps it.

## Main definitions

* `ObjectKey`: a namespace and a name.
* `ObjectKey.parse?`: the key that a text `namespace/name` denotes.
* `ObjectKey.le`: the order of keys, by namespace and then by name.
* `tableKey`: the text under which an object is stored.
-/

namespace Converge

/-- A name in a namespace. -/
structure ObjectKey where
  /-- The namespace. -/
  ns : String
  name : String
  deriving DecidableEq

namespace ObjectKey

/-- A key is displayed as namespace and name with a slash between them. -/
def display (key : ObjectKey) : String := key.ns ++ "/" ++ key.name

instance : ToString ObjectKey := ⟨display⟩

/-- The key that a text denotes: both parts have to be there, and neither may hold a slash. -/
def parse? (text : String) : Option ObjectKey :=
  let cs := text.toList
  let ns := cs.takeWhile (· != '/')
  match cs.dropWhile (· != '/') with
  | [] => none
  | _ :: name =>
    if ns.isEmpty || name.isEmpty || name.contains '/' then none
    else some ⟨String.ofList ns, String.ofList name⟩

/-- Keys are ordered by namespace, and within a namespace by name. -/
def le (a b : ObjectKey) : Bool := a.ns < b.ns || (a.ns == b.ns && a.name ≤ b.name)

/-- A key needs both its parts. -/
def codec : Codec ObjectKey := .record "ObjectKey" <|
  pure mk <*> .field "namespace" ns .string <*> .field "name" name .string

end ObjectKey

/-- The text under which an object of a kind is stored. -/
def tableKey (kind : String) (key : ObjectKey) : String :=
  kind ++ "/" ++ key.ns ++ "/" ++ key.name

end Converge

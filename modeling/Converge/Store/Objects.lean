import Converge.Store.Basic

/-!
# Objects in a store

Every write of an object gives it the next version. A client that wants to replace a status says
which version it has read, and is refused when the object was written since. Two ways to write an
object keep the status it has: storing one that comes without a status, and changing one in place.

## Main definitions

* `Store.find?`, `Store.list`: reading.
* `Store.put`: storing an object as given.
* `Store.delete`: removing an object.
* `Store.upsert`: creating an object or changing the one that is there.
* `Store.writeStatus`: replacing the status of an object.
-/

namespace Converge.Store

/-! ### Reading -/

/-- The object of a kind at a key. -/
def find? (s : Store) (kind : String) (key : ObjectKey) : Option Object :=
  s.objects.find? (tableKey kind key)

/-- The objects of a kind: those whose table keys begin with the kind and a slash, in the order
of their table keys. -/
def list (s : Store) (kind : String) : List Object :=
  (s.objects.startingWith (kind ++ "/")).map (·.2)

/-! ### Writing -/

/-- The store with `o` under `key`. -/
def withObject (s : Store) (key : String) (o : Object) : Store :=
  { s with objects := s.objects.insert key o }

/-- The object to store for `o` where `stored?` is stored: it gets the next version, and without
a status it keeps the one that is stored. -/
def revision (stored? : Option Object) (o : Object) : Object :=
  match stored? with
  | none => o.withVersion 1
  | some stored =>
    { o with status := if o.status.isNull then stored.status else o.status }.withVersion
      (stored.metadata.version + 1)

/-- Store an object as given, and tell its new version. -/
def put (o : Object) (s : Store) : UInt64 × Store :=
  let o' := revision (s.objects.find? o.tableKey) o
  (o'.metadata.version, s.withObject o.tableKey o')

/-- Remove the object of a kind at a key, and tell whether there was one. -/
def delete (kind : String) (key : ObjectKey) (s : Store) : Bool × Store :=
  let key := tableKey kind key
  (s.objects.contains key, { s with objects := s.objects.erase key })

/-- What became of an object that was to be created or changed. -/
inductive Upserted where
  | created
  | updated
  | unchanged
  deriving DecidableEq

namespace Upserted

/-- The name of an outcome. -/
def name : Upserted → String
  | created => "created"
  | updated => "updated"
  | unchanged => "unchanged"

instance : ToString Upserted := ⟨name⟩

/-- Whether the object was written. -/
def changed : Upserted → Bool
  | unchanged => false
  | _ => true

end Upserted

/-- The object that a change makes of `o`, which has to stay under the key `key`. -/
def applyChange (key : String) (change : Change) (o : Object) : Except StoreError Object := do
  let changed ← (change o).mapError .mutate
  if changed.tableKey ≠ key then .error (.moved key changed.tableKey)
  else return changed

/-- Create `placeholder` as `change` makes it, or apply `change` to the object that is stored in
its place. A stored object keeps its status, and is written only if anything else changed. -/
def upsert (placeholder : Object) (change : Change) : Action Upserted :=
  transact fun s => do
    let key := placeholder.tableKey
    match s.objects.find? key with
    | none =>
      let o ← applyChange key change placeholder
      return (.created, s.withObject key (o.withVersion 1))
    | some stored =>
      let changed ← applyChange key change stored
      let o := { changed with status := stored.status }.withVersion stored.metadata.version
      if o.same stored then return (.unchanged, s)
      else return (.updated, s.withObject key (o.withVersion (stored.metadata.version + 1)))

/-- Replace the status of a stored object by that of `o`, and tell its new version. The version of
`o` has to be the one that is stored. -/
def writeStatus (o : Object) : Action UInt64 :=
  transact fun s =>
    let key := o.tableKey
    match s.objects.find? key with
    | none => .error (.missing key)
    | some stored =>
      if stored.metadata.version ≠ o.metadata.version then
        .error (.conflict key o.metadata.version stored.metadata.version)
      else
        let version := stored.metadata.version + 1
        .ok (version, s.withObject key ({ stored with status := o.status }.withVersion version))

end Converge.Store

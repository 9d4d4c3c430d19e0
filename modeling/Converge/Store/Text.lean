import Converge.Json.Parser
import Converge.Json.Printer
import Converge.Store.World

/-!
# The store as text

A store keeps its objects as JSON text. An operation on an object reads the text that is kept of
it, and what it stores is written as text again. Reading takes back what was written, except that
a floating-point number can become one of its neighbours, and that a text with too many levels of
nested values, or with a number that is too large, cannot be read. Then no operation on the object
succeeds but its removal.

Tenants and events hold nothing that reading could change, and are kept as they are.

## Main definitions

* `Codec.toText`, `Codec.ofText`: values as text.
* `TextStore`: the content of a store whose objects are text.
* `TextStore.find?`, `TextStore.list`: reading.
* `TextStore.put`, `TextStore.upsert`, `TextStore.writeStatus`, `TextStore.delete`: writing.
* `TextStore.opened`, `TextStore.saved`: the store that is read from the texts, and the texts of a
  store.
* `TextStore.collaborators`: the answers of a store whose objects are text.
-/

namespace Converge

/-! ### Values as text -/

namespace Codec

variable {α : Type}

/-- The levels of nested arrays and objects that a text may have. -/
def nestingLimit : Nat := 127

/-- The text of a value. -/
def toText (c : Codec α) (a : α) : String := (c.encode a).compact

/-- The value that a text stands for. -/
def ofText (c : Codec α) (text : String) : Except StoreError α :=
  match Json.parse? text nestingLimit with
  | some value => (c.decode value).mapError .undecodable
  | none => .error (.reported .deserialization "malformed text")

end Codec

/-! ### The store -/

/-- The content of a store whose objects are text. -/
structure TextStore where
  /-- The texts of objects under kind, namespace and name joined by slashes. -/
  objects : Table String := ∅
  /-- Tenant requests under their paths. -/
  tenants : Table TenantRequest := ∅
  /-- Events under their subjects and numbers. -/
  events : Table Event := ∅
  /-- The number of the latest event. -/
  sequence : Nat := 0

namespace TextStore

instance : EmptyCollection TextStore := ⟨{}⟩

/-- An operation on a store, which may fail. -/
abbrev Action (α : Type) := TextStore → Except StoreError α × TextStore

/-- The image of a store that is kept on disk. -/
def codec : Codec TextStore := .record "TextStore" <|
  pure mk
    <*> .field "objects" objects .texts
    <*> .field "tenants" tenants TenantRequest.codec.table
    <*> .field "events" events Event.codec.table
    <*> .field "sequence" sequence .nat

/-! ### Reading -/

/-- The object whose text is kept under a table key. -/
def objectAt (t : TextStore) (key : String) : Except StoreError (Option Object) :=
  match t.objects.find? key with
  | some text => (Object.codec.ofText text).map some
  | none => .ok none

/-- The object of a kind at a key. -/
def find? (t : TextStore) (kind : String) (key : ObjectKey) : Except StoreError (Option Object) :=
  t.objectAt (tableKey kind key)

/-- The objects of a kind, in the order of their table keys, if all of them can be read. -/
def list (t : TextStore) (kind : String) : Except StoreError (List Object) :=
  (t.objects.startingWith (kind ++ "/")).mapM fun entry => Object.codec.ofText entry.2

/-! ### Writing -/

/-- The store with the text of `o` under `key`. -/
def withObject (t : TextStore) (key : String) (o : Object) : TextStore :=
  { t with objects := t.objects.insert key (Object.codec.toText o) }

/-- What an operation answers about the object under a table key, and the object that it then
writes there, if any. -/
abbrev Revision (α : Type) := Option Object → Except StoreError (α × Option Object)

/-- Read the object under a table key, and write what a revision makes of it. -/
def revise {α : Type} (key : String) (revision : Revision α) : Action α := fun t =>
  match t.objectAt key >>= revision with
  | .ok (a, some o) => (.ok a, t.withObject key o)
  | .ok (a, none) => (.ok a, t)
  | .error e => (.error e, t)

/-- Storing an object as given. -/
def putting (o : Object) : Revision UInt64 := fun stored? =>
  let o' := Store.revision stored? o
  .ok (o'.metadata.version, some o')

/-- Creating an object or changing the one that is there. -/
def upserting (placeholder : Object) (change : Change) : Revision Store.Upserted
  | none => do
    let o ← Store.applyChange placeholder.tableKey change placeholder
    return (.created, some (o.withVersion 1))
  | some stored => do
    let changed ← Store.applyChange placeholder.tableKey change stored
    let o := { changed with status := stored.status }.withVersion stored.metadata.version
    if o.same stored then return (.unchanged, none)
    else return (.updated, some (o.withVersion (stored.metadata.version + 1)))

/-- Replacing the status of an object that has the version of `o`. -/
def restating (o : Object) : Revision UInt64
  | none => .error (.missing o.tableKey)
  | some stored =>
    if stored.metadata.version ≠ o.metadata.version then
      .error (.conflict o.tableKey o.metadata.version stored.metadata.version)
    else
      let version := stored.metadata.version + 1
      .ok (version, some ({ stored with status := o.status }.withVersion version))

/-- Store an object as given, and tell its new version. -/
def put (o : Object) : Action UInt64 := revise o.tableKey (putting o)

/-- Create `placeholder` as `change` makes it, or apply `change` to the object that is stored in
its place. -/
def upsert (placeholder : Object) (change : Change) : Action Store.Upserted :=
  revise placeholder.tableKey (upserting placeholder change)

/-- Replace the status of a stored object by that of `o`, and tell its new version. -/
def writeStatus (o : Object) : Action UInt64 := revise o.tableKey (restating o)

/-- Remove the object of a kind at a key, and tell whether there was one. -/
def delete (kind : String) (key : ObjectKey) (t : TextStore) : Bool × TextStore :=
  let key := tableKey kind key
  (t.objects.contains key, { t with objects := t.objects.erase key })

/-! ### Tenants and events -/

/-- What is kept beside the objects, as a store without objects. -/
def registry (t : TextStore) : Store :=
  { tenants := t.tenants, events := t.events, sequence := t.sequence }

/-- The store with other tenants and events. -/
def withRegistry (t : TextStore) (s : Store) : TextStore :=
  { t with tenants := s.tenants, events := s.events, sequence := s.sequence }

/-- The tenant registered at a path. -/
def tenant? (t : TextStore) (path : String) : Option TenantRequest := t.tenants.find? path

/-- Register a tenant, and tell whether its path was free. -/
def putTenant (request : TenantRequest) (t : TextStore) : Bool × TextStore :=
  let (created, s) := t.registry.putTenant request
  (created, t.withRegistry s)

/-- The events of a subject, the oldest first. -/
def listEvents (t : TextStore) (subject : ObjectKey) : List Event := t.registry.listEvents subject

/-- Record an event. -/
def putEvent (e : Event) (t : TextStore) : TextStore := t.withRegistry (t.registry.putEvent e)

/-- Record a notice at time `now`. -/
def record (notice : Notice) (now : UInt64) (t : TextStore) : TextStore :=
  t.putEvent { toNotice := notice, timestamp := now }

/-! ### The store that is read -/

/-- The store that is read from the texts. An object that cannot be read is not in it. -/
def opened (t : TextStore) : Store :=
  { t.registry with objects := t.objects.filterMap fun text => (Object.codec.ofText text).toOption }

/-- The texts of the store `s`, which has come about by operations from the one that is read from
the texts. Of an object that is still the same the text is kept, and so is what cannot be read. -/
def saved (t : TextStore) (s : Store) : TextStore :=
  let read := t.opened.objects
  let kept := t.objects.filter fun key text =>
    s.objects.contains key || !(Object.codec.ofText text).toBool
  let changed := s.objects.filter fun key o => !(read.find? key).any o.same
  { t.withRegistry s with objects := kept.union (changed.map Object.codec.toText) }

/-! ### The store as a world -/

/-- The answers of a store whose clock shows `now`. -/
def collaborators (now : UInt64) : Collaborators TextStore where
  get kind key t := (t.find? kind key, t)
  upsert placeholder change t := t.upsert placeholder change
  writeStatus o t :=
    let (result, t) := t.writeStatus o
    (result.map fun _ => (), t)
  record notice t := t.record notice now
  provision request t := (.ok (), (t.putTenant request).2)

end TextStore

end Converge

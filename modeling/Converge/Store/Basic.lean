import Converge.Event
import Converge.Tenant

/-!
# The store

A store keeps objects of all kinds under the text of their kind and key, tenants under their
path, and events under their subject and a running number.

Objects are values here, as they are when they have been read. A store that runs keeps texts of
them (`Converge.Store.Text`); it does the same as long as its objects are read as they were
written.

## Main definitions

* `Store`: the content of a store.
* `Store.Action`: an operation on a store, which may fail.
* `Store.transact`: an operation that leaves the store as it was when it fails.
* `Store.codec`: the image of a store that is kept on disk.
-/

namespace Converge

/-- The content of a store. -/
structure Store where
  /-- Objects under kind, namespace and name joined by slashes. -/
  objects : Table Object := ∅
  /-- Tenant requests under their paths. -/
  tenants : Table TenantRequest := ∅
  /-- Events under their subjects and numbers. -/
  events : Table Event := ∅
  /-- The number of the latest event. -/
  sequence : Nat := 0

namespace Store

instance : EmptyCollection Store := ⟨{}⟩

/-- An operation on a store, which may fail. -/
abbrev Action (α : Type) := Store → Except StoreError α × Store

/-- Run an operation that gives a new store only when it succeeds, and otherwise leave the store
as it is. -/
def transact {α : Type} (body : Store → Except StoreError (α × Store)) : Action α := fun s =>
  match body s with
  | .ok (a, s') => (.ok a, s')
  | .error e => (.error e, s)

/-- An operation that fails in a transaction leaves the store as it was. -/
theorem transact_error {α : Type} {body : Store → Except StoreError (α × Store)} {s : Store}
    {e : StoreError} (h : (transact body s).1 = .error e) : (transact body s).2 = s := by
  unfold transact at h ⊢
  cases hb : body s <;> simp_all

/-- The image of a store that is kept on disk. -/
def codec : Codec Store := .record "Store" <|
  pure mk
    <*> .field "objects" objects Object.codec.table
    <*> .field "tenants" tenants TenantRequest.codec.table
    <*> .field "events" events Event.codec.table
    <*> .field "sequence" sequence .nat

end Store

end Converge

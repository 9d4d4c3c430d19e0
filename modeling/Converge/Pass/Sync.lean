import Converge.Pass.Basic

/-!
# Bringing owned objects to their shape

The builders of a database run in order, each in one write of the store, up to the first that
fails. What a builder has made gets the database as its controlling owner.

## Main definitions

* `Builder.owned`: a builder's change, followed by the claim of ownership.
* `Reconciler.sync`: the builders of a database.
-/

namespace Converge

/-- The change that a builder makes to an object of the database with metadata `owner`. -/
def Builder.owned (b : Builder) (owner : Metadata) : Change := fun o => do
  let o ← (b.build o).mapError (·.within "building resource")
  match o.metadata.setController Database.kind.name owner with
  | .ok metadata => return { o with metadata }
  | .error e =>
    throw { cause := e.message, contexts := ["setting controller reference"] }

namespace Reconciler

/-- Run builders in order, up to the first that fails. -/
def syncEach (r : Reconciler) (a : Aggregate) : List Builder → Program Flow
  | [] => return .proceed a
  | b :: rest => do
    let kind := b.placeholder.kind
    let key := b.placeholder.key
    let target := s!"Resource: {kind}, Namespace: {key.ns}, Name: {key.name}"
    let result ← Program.upsert b.placeholder (b.owned a.database.metadata) .done
    match result with
    | .ok outcome =>
      if outcome.changed then
        a.inform "Provisioning" s!"{target}, changed, result: {outcome}"
      r.syncEach a rest
    | .error e =>
      a.warn "ProvisioningFailed" s!"{target}, failed to sync, error: {e.message}"
      return .fail r.delays.default (.sync kind key e) a

/-- Bring every object that the database owns to its shape. -/
def sync (r : Reconciler) (a : Aggregate) : Program Flow := r.syncEach a (r.catalog a)

end Reconciler

end Converge

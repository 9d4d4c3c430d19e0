import Converge.Pass.Status

/-!
# Gates of a pass

Before anything is written the storage cluster of a database has to be ready. Before the database
can become ready its workload has to run as many nodes as the specification asks for.

## Main definitions

* `Reconciler.awaitStorage`: the gate of the storage cluster.
* `Reconciler.awaitScale`: the gate of the compute nodes, and the step to readiness.
-/

namespace Converge.Reconciler

/-- Halt until the storage cluster of the database is there and ready. -/
def awaitStorage (r : Reconciler) (a : Aggregate) : Program Flow := do
  let key := a.storageKey
  let delay := r.delays.storageAwait
  match ← .fetch StorageCluster.kind key with
  | .error e =>
    a.warn "Pending" s!"Failed to get StorageCluster ({key}) resource, error: {e.message}"
    return .fail delay (.fetch StorageCluster.kind.name key e) a
  | .ok none =>
    a.warn "Pending" s!"Storage ({key}) not found."
    return .wait delay a
  | .ok (some storage) =>
    if StorageCluster.isReady storage then return .proceed { a with storage := some storage }
    else
      let state := storage.status.state
      a.warn "Pending" <|
        s!"Referenced storage cluster ({key}) in a bad state: {state} != " ++
          StorageCluster.readyState
      return .wait delay a

/-- Make the database ready when its tenant was created and it is not ready yet. -/
def promote (r : Reconciler) (a : Aggregate) : Program Flow := do
  if a.status.state ≠ .ready && a.tenantInitialized then
    a.inform "ResourcesReady" "Resources are ready and database is initialized"
    r.persistAndHalt (a.withState .ready)
  else return .proceed a

/-- Halt until the workload of a database that is not serverless runs the wanted number of nodes,
and then make the database ready when its tenant was created. -/
def awaitScale (r : Reconciler) (a : Aggregate) : Program Flow := do
  if a.resources.isServerless then r.promote a
  else
    let key := a.key
    match ← .fetch Workload.kind key with
    | .error e =>
      a.warn "Syncing" s!"Failed to get Workload ({key}) resource, error: {e.message}"
      return .fail r.delays.default (.fetch Workload.kind.name key e) a
    | .ok none => return .wait r.delays.default a
    | .ok (some workload) =>
      let running := workload.status.replicas
      let desired := a.spec.nodes
      if running = desired then r.promote a
      else
        a.inform "Provisioning" <|
          s!"Waiting for number of running nodes to match expected: {running} != {desired}"
        r.persistAndHalt (a.withState .provisioning)

end Converge.Reconciler

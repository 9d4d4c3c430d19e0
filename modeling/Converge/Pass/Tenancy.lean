import Converge.Pass.Status

/-!
# Creating the tenant

That a tenant is about to be created is announced in the status of its database first, in a pass
of its own. Then the creator of tenants is asked, and its success enters the status. The creator
may be asked again for a tenant that exists.

## Main definitions

* `Reconciler.announceTenant`: the announcement.
* `Reconciler.storageOf`: the part of the request that depends on the storage asked for.
* `Reconciler.createTenant`: the request.
-/

namespace Converge

/-- The condition of a tenant that is about to be created. -/
def tenantInProgress : Condition where
  type := tenantInitialized
  status := .fails
  reason := "InProgress"
  message := "Tenant creation in progress"

/-- The condition of a tenant that was created. -/
def tenantCompleted : Condition where
  type := tenantInitialized
  status := .holds
  reason := "Completed"
  message := "Tenant creation is complete"

/-- What a tenant request says about storage: the units, whether they can be shared, and the
tenant of the shared database inside which the new one lives. -/
structure TenantStorage where
  units : List StorageUnit := []
  shared : Bool := false
  sharedDatabasePath : Option String := none

namespace Reconciler

/-- Announce the creation of the tenant, unless that was done before. -/
def announceTenant (r : Reconciler) (now : UInt64) (a : Aggregate) : Program Flow :=
  let known := (a.status.condition? tenantInitialized).isSome
  if known && a.status.state = .initializing then return .proceed a
  else
    let a := if known then a else a.observe tenantInProgress now
    r.persistAndHalt (a.withState .initializing)

/-- The storage part of the tenant request, or the wish to wait for the shared database. -/
def storageOf (r : Reconciler) (a : Aggregate) : Program (Except Requeue TenantStorage) := do
  match a.resources with
  | .dedicated units => return .ok { units }
  | .shared units => return .ok { units, shared := true }
  | .serverless reference =>
    let key := reference.key a.ns
    let delay := r.delays.sharedDatabaseAwait
    match ← .fetch Database.kind key with
    | .error e =>
      a.warn "Pending" s!"Failed to get Database ({key}) resource, error: {e.message}"
      return .error { after := delay, error := some (.fetch Database.kind.name key e) }
    | .ok none =>
      a.warn "Pending" s!"Database ({key}) not found."
      return .error { after := delay }
    | .ok (some database) =>
      let state := database.status.state
      if state = .ready then
        let path := tenantPath database.spec.domain database.metadata.name
        return .ok { sharedDatabasePath := some path }
      else
        let wanted := DatabaseState.ready
        a.warn "Pending" s!"Referenced shared Database ({key}) in a bad state: {state} != {wanted}"
        return .error { after := delay }

/-- The request for the tenant of a database in a storage cluster. -/
def tenantRequest (r : Reconciler) (a : Aggregate) (cluster : StorageCluster)
    (storage : TenantStorage) : TenantRequest where
  storageEndpoint := cluster.endpoint r.clusterDomain
  path := a.path
  storageUnits := storage.units
  shared := storage.shared
  sharedDatabasePath := storage.sharedDatabasePath
  useSecureChannel := cluster.spec.grpc.tlsEnabled

/-- Create the tenant, and write that it was created into the status. -/
def createTenant (r : Reconciler) (now : UInt64) (a : Aggregate) : Program Flow := do
  match ← r.storageOf a with
  | .error wish => return .halt wish a
  | .ok storage =>
    match a.storage with
    | none => return .wait r.delays.storageAwait a
    | some cluster =>
      let request := r.tenantRequest a cluster storage
      let path := request.path
      let result ← Program.provision request .done
      match result with
      | .error e =>
        a.warn "InitializingFailed" s!"Error creating tenant {path}: {e.message}"
        return .fail r.delays.tenantCreation (.provisioning path e) a
      | .ok () =>
        a.inform "Initialized" s!"Tenant {path} created"
        r.persistAndHalt (a.observe tenantCompleted now)

end Reconciler

end Converge

import Converge.StorageCluster
import Converge.Tenant

/-!
# A database during a pass

What a pass knows about its database: the database as it was loaded, with the status as the pass
has changed it, the storage it asks for, and the storage cluster once that was found ready.

## Main definitions

* `Aggregate`, `Aggregate.ofDatabase`.
* `Aggregate.storageKey`, `Aggregate.path`, `Aggregate.storageEndpoint`: derived names.
* `Aggregate.tenantInitialized`: whether the tenant was created.
-/

namespace Converge

/-- The type of the condition that tells whether the tenant of a database was created. -/
def tenantInitialized : String := "TenantInitialized"

/-- What a pass knows about its database. -/
structure Aggregate where
  database : Database
  resources : Resources
  /-- The storage cluster, once it was found ready. -/
  storage : Option StorageCluster := none
  deriving DecidableEq

namespace Aggregate

/-- A loaded database, which has to ask for storage in exactly one way. -/
def ofDatabase (database : Database) : Except ResourcesError Aggregate := do
  let resources ← database.spec.resolve
  return { database, resources }

/-- The key of the database. -/
def key (a : Aggregate) : ObjectKey := a.database.key

/-- The name of the database. -/
def name (a : Aggregate) : String := a.database.metadata.name

/-- The namespace of the database. -/
def ns (a : Aggregate) : String := a.database.metadata.ns

/-- What is wanted of the database; a pass never changes it. -/
def spec (a : Aggregate) : DatabaseSpec := a.database.spec

/-- The status that the pass has arrived at so far. -/
def status (a : Aggregate) : DatabaseStatus := a.database.status

/-- The aggregate with another status. -/
def withStatus (a : Aggregate) (status : DatabaseStatus) : Aggregate :=
  { a with database := { a.database with status } }

/-- The aggregate with another state. -/
def withState (a : Aggregate) (state : DatabaseState) : Aggregate :=
  a.withStatus { a.status with state }

/-- The aggregate after an observation about its database at time `now`. -/
def observe (a : Aggregate) (c : Condition) (now : UInt64) : Aggregate :=
  a.withStatus (a.status.setCondition c now).1

/-- The key of the storage cluster that the database refers to. -/
def storageKey (a : Aggregate) : ObjectKey := a.spec.storageCluster.key a.ns

/-- Whether the tenant of the database was created. -/
def tenantInitialized (a : Aggregate) : Bool := a.status.isTrue Converge.tenantInitialized

/-- The path of the tenant of the database. -/
def path (a : Aggregate) : String := tenantPath a.spec.domain a.name

/-- Where the storage cluster is reached, once there is one. -/
def storageEndpoint (a : Aggregate) (domain : String) : Option String :=
  a.storage.map (·.endpoint domain)

end Aggregate

end Converge

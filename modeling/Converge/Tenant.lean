import Converge.Database

/-!
# Tenants

The place of a database inside a storage cluster is a tenant, known by its path. Whoever creates
tenants is asked with a request that says all there is to know.

## Main definitions

* `TenantRequest`: what a tenant is to be.
* `tenantPath`: the path of a database's tenant.
* `ProvisionError`, `ProvisionError.message`: why a tenant was not created.
-/

namespace Converge

/-- The path of the tenant of a database. -/
def tenantPath (domain name : String) : String := "/" ++ domain ++ "/" ++ name

/-- A request for a tenant inside a storage cluster. -/
structure TenantRequest where
  storageEndpoint : String
  path : String
  storageUnits : List StorageUnit
  /-- Whether other databases can share the units. -/
  shared : Bool
  /-- The tenant of the database inside which the new one lives. -/
  sharedDatabasePath : Option String := none
  useSecureChannel : Bool
  deriving DecidableEq

/-- Only the path of a shared database may be left out of a request. -/
def TenantRequest.codec : Codec TenantRequest := .record "TenantRequest" <|
  pure mk
    <*> .field "storageEndpoint" storageEndpoint .string
    <*> .field "path" path .string
    <*> .field "storageUnits" storageUnits StorageUnit.codec.list
    <*> .field "shared" shared .boolean
    <*> .field "sharedDatabasePath" sharedDatabasePath Codec.string.nullable
      (.omitted none Option.isNone)
    <*> .field "useSecureChannel" useSecureChannel .boolean

/-- Why a tenant was not created. -/
inductive ProvisionError where
  | rejected (path reason : String)
  | unavailable (text : String)
  /-- The registry of tenants failed. -/
  | store (error : StoreError)
  deriving DecidableEq

/-- The text of a provisioning error. -/
def ProvisionError.message : ProvisionError → String
  | rejected path reason => s!"tenant {path} rejected: {reason}"
  | unavailable text => s!"provisioning service unavailable: {text}"
  | store error => error.message

end Converge

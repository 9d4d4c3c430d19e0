import Converge.Store.Basic

/-!
# Tenants in a store

The store is a registry of tenants: a path is registered once, with the request that came first.

## Main definitions

* `Store.tenant?`, `Store.putTenant`.
-/

namespace Converge.Store

/-- The tenant registered at a path. -/
def tenant? (s : Store) (path : String) : Option TenantRequest := s.tenants.find? path

/-- Register a tenant, and tell whether its path was free. -/
def putTenant (request : TenantRequest) (s : Store) : Bool × Store :=
  if s.tenants.contains request.path then (false, s)
  else (true, { s with tenants := s.tenants.insert request.path request })

end Converge.Store

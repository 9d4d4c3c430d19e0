import Converge.Program
import Converge.Store.Events
import Converge.Store.Objects
import Converge.Store.Tenants

/-!
# The store as a world

A store answers all calls of a pass: it holds the objects and their statuses, records the notices
with the time of its clock, and registers tenants. A tenant whose path is registered already
counts as created.

## Main definitions

* `Store.collaborators`: the answers of a store at a given time.
-/

namespace Converge.Store

/-- The answers of a store whose clock shows `now`. -/
def collaborators (now : UInt64) : Collaborators Store where
  get kind key s := (.ok (s.find? kind key), s)
  upsert placeholder change s := upsert placeholder change s
  writeStatus o s :=
    let (result, s) := writeStatus o s
    (result.map fun _ => (), s)
  record notice s := s.record notice now
  provision request s := (.ok (), (s.putTenant request).2)

end Converge.Store

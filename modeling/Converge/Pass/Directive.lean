import Converge.Pass.Error
import Converge.Duration

/-!
# The outcome of a pass

A pass ends with a directive: nothing is left to do, or another pass is wanted after a delay,
because something was not ready yet or because something failed.

## Main definitions

* `Requeue`, `Directive`.
* `Delays`: the delays that a pass can ask for.
-/

namespace Converge

/-- A wish for another pass. -/
structure Requeue where
  after : Seconds
  /-- What failed, if the wait is not an expected one. -/
  error : Option PassError := none
  deriving DecidableEq

/-- The outcome of a pass. -/
inductive Directive where
  /-- Nothing is left to do. -/
  | converged
  | requeue (wish : Requeue)
  deriving DecidableEq

namespace Directive

/-- Whether nothing is left to do. -/
def isConverged : Directive → Bool
  | converged => true
  | requeue _ => false

/-- The delay after which another pass is wanted. -/
def after? : Directive → Option Seconds
  | converged => none
  | requeue wish => some wish.after

/-- What failed in the pass. -/
def error? : Directive → Option PassError
  | converged => none
  | requeue wish => wish.error

end Directive

/-- The delays that a pass can ask for. -/
structure Delays where
  /-- After a failure, and for a workload that is not there yet. -/
  default : Seconds := 10
  /-- After a status was written, to see soon what follows. -/
  statusUpdate : Seconds := 1
  /-- After a tenant was not created. -/
  tenantCreation : Seconds := 30
  /-- For a storage cluster that is not ready. -/
  storageAwait : Seconds := 60
  /-- For a shared database that is not ready. -/
  sharedDatabaseAwait : Seconds := 60
  deriving DecidableEq

end Converge

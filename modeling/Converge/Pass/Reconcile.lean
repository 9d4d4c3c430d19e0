import Converge.Pass.Gates
import Converge.Pass.Sync
import Converge.Pass.Tenancy

/-!
# A pass over a database

A pass loads a database and takes it one step towards what its specification wants. It keeps
nothing from one pass to the next: all it knows comes from the store, and all it decides leaves in
writes and in the directive.

## Main definitions

* `Reconciler.steps`: the steps in their order.
* `Reconciler.runAggregate`: the steps over a loaded database.
* `Reconciler.reconcile`: a whole pass.
-/

namespace Converge.Reconciler

/-- The steps of a pass: the storage cluster, the owned objects, the compute nodes, and then the
tenant if it was not created before. -/
def steps (r : Reconciler) (now : UInt64) (a : Aggregate) : Program Flow :=
  (r.awaitStorage a).andThen fun a =>
  (r.sync a).andThen fun a =>
  (r.awaitScale a).andThen fun a =>
  if a.tenantInitialized then return .proceed a
  else (r.announceTenant now a).andThen (r.createTenant now)

/-- Run the steps over a loaded database, at time `now`. -/
def runAggregate (r : Reconciler) (now : UInt64) (a : Aggregate) :
    Program (Directive × Aggregate) := do
  match ← r.steps now a with
  | .proceed a => return (.converged, a)
  | .halt wish a => return (.requeue wish, a)

/-- A pass over the database at `key`, at time `now`. A database that is not there needs
nothing. -/
def reconcile (r : Reconciler) (now : UInt64) (key : ObjectKey) : Program Directive := do
  let fail (e : PassError) : Directive := .requeue { after := r.delays.default, error := some e }
  match ← .fetch Database.kind key with
  | .error e => return fail (.fetch Database.kind.name key e)
  | .ok none => return .converged
  | .ok (some database) =>
    match Aggregate.ofDatabase database with
    | .error e =>
      .notify key .warning "ControllerError" e.message
      return fail (.configuration e)
    | .ok a =>
      let (directive, _) ← r.runAggregate now a
      return directive

end Converge.Reconciler

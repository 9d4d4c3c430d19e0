import Converge.Pass.Basic

/-!
# Writing the status

The status is written in one place. The database is read again, and only its status is replaced,
so that whatever else was written in the meantime stays; when the stored status is already the
wanted one nothing is written.

## Main definitions

* `Reconciler.persistStatus`.
-/

namespace Converge.Reconciler

/-- Replace the status of a database that was just read, unless it is the wanted one. -/
def replaceStatus (fresh : Database) (status : DatabaseStatus) (key : ObjectKey) :
    Program (Except PassError Unit) :=
  if fresh.status = status then return .ok ()
  else
    .writeStatus (Database.kind.toObject { fresh with status }) fun
      | .ok () => return .ok ()
      | .error e => return .error (.statusUpdate key e)

/-- Make the status that the pass has arrived at the stored one, and wish for another pass. -/
def persistStatus (r : Reconciler) (a : Aggregate) : Program Requeue := do
  let key := a.key
  let result ← match ← .fetch Database.kind key with
    | .ok (some fresh) => replaceStatus fresh a.status key
    | .ok none => pure (.error (.statusTargetMissing key))
    | .error e => pure (.error (.fetch Database.kind.name key e))
  match result with
  | .ok () => return { after := r.delays.statusUpdate }
  | .error e =>
    a.warn "ControllerError" s!"Failed setting status: {e.message}"
    return { after := r.delays.default, error := some e }

/-- Halt after writing the status. -/
def persistAndHalt (r : Reconciler) (a : Aggregate) : Program Flow := do
  return .halt (← r.persistStatus a) a

end Converge.Reconciler

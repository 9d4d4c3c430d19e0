import Converge.Proofs.Changes
import Converge.Proofs.Idle
import Converge.Proofs.Session
import Mathlib.Data.List.Basic

/-!
# Writing the status

A pass that has arrived at a status reads its database again before it writes. What is stored may
have changed since the pass has loaded it, may be another database of that name, or may be gone. So
only the status is written into what is there now, and not even that when it is there already.

## Main definitions

* `Object.restated`: an object after a status was written into it.

## Main results

* `Database.ofObject_restated`: what is read after a status was written.
* `Reconciler.persistStatus_run_of_stored`: the run of the writing of a status over a database.
-/

namespace Converge

/-- The object of a database after its status was written. -/
def Object.restated (o : Object) (status : DatabaseStatus) : Object :=
  { o with status := DatabaseStatus.codec.encode status }.withVersion (o.metadata.version + 1)

theorem Object.Restated.restated (o : Object) (status : DatabaseStatus) :
    o.Restated (o.restated status) :=
  ⟨_, _, rfl⟩

/-- A database is read back with the status that was written, and is otherwise what is stored. -/
theorem Database.ofObject_restated {o : Object} {database : Database}
    (h : Database.kind.ofObject o = .ok database) (status : DatabaseStatus) :
    Database.kind.ofObject (o.restated status) =
      .ok { database with metadata := (o.restated status).metadata, status } := by
  obtain ⟨hkind, -, hspec, -⟩ := ResourceKind.ofObject_eq_ok_iff.mp h
  exact ResourceKind.ofObject_eq_ok_iff.mpr
    ⟨hkind, rfl, hspec, Object.databaseStatus?_of_encode rfl⟩

/-- The status of a database that was just read is written. -/
theorem Store.writeStatus_of_ofObject {s : Store} {o : Object} {database : Database}
    (hfind : s.objects.find? o.tableKey = some o) (h : Database.kind.ofObject o = .ok database)
    (status : DatabaseStatus) :
    s.writeStatus (Database.kind.toObject { database with status }) =
      (.ok (o.metadata.version + 1), s.withObject o.tableKey (o.restated status)) := by
  have hmetadata : database.metadata = o.metadata := (ResourceKind.ofObject_eq_ok_iff.mp h).2.1
  have hkey : (Database.kind.toObject { database with status }).tableKey = o.tableKey :=
    Session.tableKey_of_ofObject h
  have hversion : o.metadata.version =
      (Database.kind.toObject { database with status }).metadata.version :=
    congrArg (·.version) hmetadata.symm
  rw [writeStatus_eq, hkey, hfind]
  simp only
  rw [if_pos hversion]
  rfl

namespace Reconciler

variable {r : Reconciler} {a : Aggregate} {s : Store} {o : Object} {fresh : Database}

/-- Writing the status is an attempt over what is read, and a report. -/
theorem persistStatus_run {found : Except StoreError (Option Database)}
    (hread : Database.kind.read (.ok (s.find? Database.kind.name a.key)) = found)
    (now : UInt64) : (r.persistStatus a).run (Store.collaborators now) s =
      (r.reportWrite a ((attemptWrite a found).run (Store.collaborators now) s).1).run
        (Store.collaborators now) ((attemptWrite a found).run (Store.collaborators now) s).2 := by
  rw [persistStatus_eq, Program.run_bind, (Program.fetch_idle hread).run, Store.tell_nil,
    Program.run_bind]

/-- Over a database the status is written into what is stored, unless it is stored already. -/
theorem persistStatus_run_of_stored (hfind : s.find? Database.kind.name a.key = some o)
    (hplaced : o.tableKey = tableKey Database.kind.name a.key)
    (hload : Database.kind.ofObject o = .ok fresh) (now : UInt64) :
    (r.persistStatus a).run (Store.collaborators now) s = ({ after := r.delays.statusUpdate },
      if fresh.status = a.status then s
      else s.withObject (tableKey Database.kind.name a.key) (o.restated a.status)) := by
  have hread : Database.kind.read (.ok (s.find? Database.kind.name a.key)) = .ok (some fresh) :=
    ResourceKind.read_eq_ok_some_iff.mpr ⟨o, congrArg _ hfind, hload⟩
  rw [persistStatus_run hread, attemptWrite, replaceStatus]
  by_cases hstatus : fresh.status = a.status
  · rw [if_pos hstatus, if_pos hstatus]
    rfl
  · have hfind' : s.objects.find? o.tableKey = some o := by rwa [hplaced]
    rw [if_neg hstatus, if_neg hstatus,
      Program.run_writeStatus now (Store.writeStatus_of_ofObject hfind' hload a.status), hplaced]
    rfl

end Reconciler

end Converge

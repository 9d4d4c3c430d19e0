import Converge.Proofs.Passes
import Converge.Proofs.Persistence
import Converge.Proofs.Syncing

/-!
# What a pass has found before it looks at the compute nodes

A pass over a store without failures first loads its database, finds the storage cluster ready and
brings the owned objects to their shape. When it gets so far it leaves a store over which the next
pass does the same without changing anything (`Reconciler.Prepared`), and this stays so when the
status of the database is written.

## Main definitions

* `Store.KeepsUnowned`: nothing but owned objects and events differs between two stores.
* `Reconciler.conclude`: the steps of a pass after that.
* `Reconciler.Prepared`: a store over which a pass gets there without changing anything.
* `Reconciler.Settled`, `Reconciler.Stuck`: a store over which passes change nothing and record one
  notice at most, and one over which they also wish for another pass.
* `Reconciler.Restates`: a pass that does nothing but write a status, or also creates a tenant.

## Main results

* `Reconciler.Loads.prepares`: a pass that has found its storage cluster ready is one over a
  prepared store, or a builder cannot make its object.
* `Reconciler.pass_begins`, `Reconciler.pass_prepares`: after a pass the store is settled, or the
  pass was one over a prepared store.
* `Reconciler.Prepared.restates`: a pass over a prepared store that writes a status leaves a
  prepared store.
-/

namespace Converge

/-- Between the stores nothing has changed but objects that databases own, and events. -/
structure Store.KeepsUnowned (s s' : Store) : Prop where
  find? : ∀ kind, Free '/' kind → kind ≠ "Service" ∧ kind ≠ "Workload" → ∀ key,
    s'.find? kind key = s.find? kind key
  tenants : s'.tenants = s.tenants

theorem Store.KeepsUnowned.databases {s s' : Store} (h : s.KeepsUnowned s') (key : ObjectKey) :
    s'.find? Database.kind.name key = s.find? Database.kind.name key :=
  h.find? _ (by decide) (by decide) key

/-- The directive of a pass that ends in this way. -/
def Flow.directive : Flow → Directive
  | proceed _ => .converged
  | halt wish _ => .requeue wish

/-- The aggregate as it is loaded after its status was written. -/
def Aggregate.restated (a : Aggregate) (version : UInt64) (status : DatabaseStatus) : Aggregate :=
  { a with database :=
    { a.database with metadata := { a.database.metadata with version }, status } }

namespace Reconciler

variable {r : Reconciler} {key : ObjectKey} {s s' : Store} {o : Object} {a : Aggregate}
  {database : Database} {resources : Resources} {notices : List Notice} {flow : Flow}
  {now : UInt64}

/-- The steps of a pass once the storage cluster is ready and the owned objects are built. -/
def conclude (r : Reconciler) (now : UInt64) (a : Aggregate) : Program Flow :=
  (r.awaitScale a).andThen fun a =>
  if a.tenantInitialized then return .proceed a
  else (r.announceTenant now a).andThen (r.createTenant now)

private theorem steps_eq (r : Reconciler) (now : UInt64) (a : Aggregate) : r.steps now a =
    (r.awaitStorage a).andThen fun a => (r.sync a).andThen (r.conclude now) :=
  rfl

/-! ### Loading the database -/

/-- Over the store the database at a key is read as `database`, which asks for `resources`. -/
structure Loads (s : Store) (key : ObjectKey) (o : Object) (database : Database)
    (resources : Resources) : Prop where
  stored : s.find? Database.kind.name key = some o
  placed : o.tableKey = tableKey Database.kind.name key
  loaded : Database.kind.ofObject o = .ok database
  resolved : database.spec.resolve = .ok resources

theorem Loads.of_find? (h : Loads s key o database resources)
    (hs : s'.find? Database.kind.name key = s.find? Database.kind.name key) :
    Loads s' key o database resources :=
  { h with stored := hs.trans h.stored }

private theorem Loads.find?_key (h : Loads s key o database resources) :
    s.find? Database.kind.name database.key = some o := by
  rw [Store.find?, Session.tableKey_of_ofObject h.loaded, h.placed]
  exact h.stored

/-- The loaded database has the key that was asked for, as far as its display form tells. -/
theorem Loads.display_eq (h : Loads s key o database resources) :
    database.key.display = key.display :=
  (kind_eq_of_tableKey_eq (by decide) (by decide)
    ((Session.tableKey_of_ofObject h.loaded).trans h.placed)).2

/-- It is the key that was asked for if that is without slashes. -/
theorem Loads.key_eq (h : Loads s key o database resources) (hkey : key.Free '/') :
    database.key = key :=
  (tableKey_inj (by decide) hkey ((Session.tableKey_of_ofObject h.loaded).trans h.placed)).2

theorem Loads.brief (h : Loads s key o database resources) (hbrief : Brief database.key notices) :
    Brief key notices :=
  ⟨hbrief.length_le, fun notice hn => (hbrief.display_eq notice hn).trans h.display_eq⟩

theorem Loads.read_eq (h : Loads s key o database resources) :
    Database.kind.read (.ok (s.find? Database.kind.name key)) = .ok (some database) :=
  ResourceKind.read_eq_ok_some_iff.mpr ⟨o, congrArg _ h.stored, h.loaded⟩

theorem Loads.ofDatabase_eq (h : Loads s key o database resources) :
    Aggregate.ofDatabase database = .ok { database, resources } :=
  Aggregate.ofDatabase_eq_ok_iff.mpr ⟨resources, h.resolved, rfl⟩

theorem Loads.run (h : Loads s key o database resources) (now now' : UInt64) :
    (r.reconcile now key).run (Store.collaborators now') s =
      (((r.steps now { database, resources }).run (Store.collaborators now') s).1.directive,
        ((r.steps now { database, resources }).run (Store.collaborators now') s).2) := by
  rw [reconcile, Program.run_bind, (Program.fetch_idle h.read_eq).run]
  simp only [h.ofDatabase_eq, Store.tell_nil, runAggregate, Program.run_bind]
  cases ((r.steps now { database, resources }).run (Store.collaborators now') s).1 <;> rfl

theorem Loads.idle (h : Loads s key o database resources)
    (hsteps : (r.steps now { database, resources }).Idle s notices flow) :
    (r.reconcile now key).Idle s notices flow.directive := by
  intro now' s' hs'
  have h' : Loads s' key o database resources := h.of_find? (Store.find?_congr hs' _ _)
  rw [h'.run, hsteps now' s' hs']

/-- Over the store passes over the database at a key change nothing, record at most one notice about
it, and end alike. -/
def Settled (r : Reconciler) (key : ObjectKey) (s : Store) : Prop :=
  ∃ notices d, Brief key notices ∧ ∀ now, (r.reconcile now key).Idle s notices d

theorem Settled.of_objects (h : r.Settled key s) (hs : s'.objects = s.objects) :
    r.Settled key s' := by
  obtain ⟨notices, d, hbrief, hidle⟩ := h
  exact ⟨notices, d, hbrief, fun now => (hidle now).of_objects hs⟩

/-- A pass over a settled store changes nothing but events. -/
theorem Settled.pass_frame (h : r.Settled key s) (now : UInt64) :
    (r.pass key now s).2.objects = s.objects ∧ (r.pass key now s).2.tenants = s.tenants := by
  obtain ⟨notices, d, -, hidle⟩ := h
  rw [Reconciler.pass, (hidle now).run]
  exact s.tell_frame notices now

/-- A settled store stays settled in a pass. -/
theorem Settled.pass (h : r.Settled key s) (now : UInt64) : r.Settled key (r.pass key now s).2 :=
  h.of_objects (h.pass_frame now).1

private theorem Settled.keepsUnowned (h : r.Settled key s) (now : UInt64) :
    s.KeepsUnowned (r.pass key now s).2 :=
  ⟨fun _ _ _ => Store.find?_congr (h.pass_frame now).1 _, (h.pass_frame now).2⟩

/-- Over the store passes over the database at a key are stuck: they change nothing, record at most
one notice about it, and wish for another pass. -/
def Stuck (r : Reconciler) (key : ObjectKey) (s : Store) : Prop :=
  ∃ notices wish, Brief key notices ∧ ∀ now, (r.reconcile now key).Idle s notices (.requeue wish)

theorem Stuck.settled (h : r.Stuck key s) : r.Settled key s :=
  have ⟨notices, wish, hbrief, hidle⟩ := h
  ⟨notices, .requeue wish, hbrief, hidle⟩

/-- A pass that is stuck does not end well. -/
theorem Stuck.pass_ne (h : r.Stuck key s) (now : UInt64) : (r.pass key now s).1 ≠ .converged := by
  obtain ⟨notices, wish, -, hidle⟩ := h
  rw [pass, (hidle now).run]
  exact nofun

/-- A pass over a database that is not there needs nothing. -/
theorem idle_of_missing (r : Reconciler) (h : s.find? Database.kind.name key = none)
    (now : UInt64) : (r.reconcile now key).Idle s [] .converged := by
  have hread : Database.kind.read (.ok (s.find? Database.kind.name key)) = .ok none := by
    rw [h]
    rfl
  exact (Program.fetch_idle hread).after Program.idle_pure

/-- A pass that does not load its database is stuck, unless the database is not there. -/
private theorem loads_cases (r : Reconciler) (key : ObjectKey) (hs : s.Placed) :
    s.find? Database.kind.name key = none ∨ r.Stuck key s ∨
      ∃ o database resources, Loads s key o database resources := by
  cases hstored : s.find? Database.kind.name key with
  | none => exact .inl rfl
  | some o =>
    refine .inr ?_
    cases hloaded : Database.kind.ofObject o with
    | error e =>
      have hread : Database.kind.read (.ok (s.find? Database.kind.name key)) = .error e := by
        rw [hstored, ResourceKind.read, hloaded]
        rfl
      exact .inl ⟨[], _, brief_nil, fun _ => (Program.fetch_idle hread).after Program.idle_pure⟩
    | ok database =>
      have hread : Database.kind.read (.ok (s.find? Database.kind.name key)) =
          .ok (some database) :=
        ResourceKind.read_eq_ok_some_iff.mpr ⟨o, congrArg _ hstored, hloaded⟩
      cases hresolve : database.spec.resolve with
      | error e =>
        have hload : Aggregate.ofDatabase database = .error e := by
          rw [Aggregate.ofDatabase, hresolve]
          rfl
        refine .inl ⟨[⟨key, .warning, "ControllerError", e.message⟩],
          ⟨r.delays.default, some (.configuration e)⟩, brief_singleton, fun now => ?_⟩
        refine (Program.fetch_idle hread).after ?_
        simp only [hload]
        exact Program.notify_pure_idle
      | ok resources =>
        exact .inr ⟨o, database, resources, hstored, hs _ o hstored, hloaded, hresolve⟩

/-! ### Storage and owned objects -/

/-- Over the store a pass loads its database, finds the storage cluster ready and all owned objects
built. What it knows then is `a`. -/
structure Prepared (r : Reconciler) (key : ObjectKey) (s : Store) (o : Object) (a : Aggregate) :
    Prop where
  loads : Loads s key o a.database a.resources
  storage : ∃ cluster, StorageCluster.kind.read
      (.ok (s.find? StorageCluster.kind.name a.storageKey)) = .ok (some cluster) ∧
    StorageCluster.isReady cluster = true ∧ a.storage = some cluster
  built : ∀ b ∈ r.catalog a, s.Built a.database.metadata b

namespace Prepared

theorem awaitStorage (h : r.Prepared key s o a) :
    (r.awaitStorage ⟨a.database, a.resources, none⟩).Idle s [] (.proceed a) := by
  obtain ⟨cluster, hread, hready, hcluster⟩ := h.storage
  have hidle := @awaitStorage_idle_of_ready r ⟨a.database, a.resources, none⟩ s cluster hread hready
  rwa [← hcluster] at hidle

theorem sync (h : r.Prepared key s o a) : (r.sync a).Idle s [] (.proceed a) :=
  syncEach_idle_of_built h.built

theorem run (h : r.Prepared key s o a) (now : UInt64) : r.pass key now s =
    (((r.conclude now a).run (Store.collaborators now) s).1.directive,
      ((r.conclude now a).run (Store.collaborators now) s).2) := by
  rw [pass, h.loads.run, steps_eq, Program.run_andThen_proceed (h.awaitStorage.run now),
    Store.tell_nil, Program.run_andThen_proceed (h.sync.run now), Store.tell_nil]

theorem idle (h : r.Prepared key s o a) (hidle : (r.conclude now a).Idle s notices flow) :
    (r.reconcile now key).Idle s notices flow.directive :=
  h.loads.idle (h.awaitStorage.andThen (h.sync.andThen hidle))

/-- A prepared store is settled when the conclusion of the pass is idle. -/
theorem settled (h : r.Prepared key s o a) (hidle : ∀ now, (r.conclude now a).Idle s notices flow)
    (hbrief : Brief a.key notices) : r.Settled key s :=
  ⟨notices, flow.directive, h.loads.brief hbrief, fun now => h.idle (hidle now)⟩

theorem of_objects (h : r.Prepared key s o a) (hs : s'.objects = s.objects) :
    r.Prepared key s' o a := by
  have hfind := Store.find?_congr hs
  refine ⟨h.loads.of_find? (hfind _ _), ?_, fun b hb => (h.built b hb).of_find? (by rw [hs])⟩
  rw [hfind]
  exact h.storage

end Prepared

/-- **The owned objects.** A pass that has found the storage cluster ready goes on as over a
prepared store, in which only owned objects are not as before, and have the status they had. Or
some builder cannot make its object; then the pass is stuck, and so are later ones. -/
theorem Loads.prepares (hr : r.catalog = Catalog.standard)
    (hloads : Loads s key o database resources) {cluster : StorageCluster}
    (hread : StorageCluster.kind.read (.ok (s.find? StorageCluster.kind.name
      (database.spec.storageCluster.key database.metadata.ns))) = .ok (some cluster))
    (hready : StorageCluster.isReady cluster = true) (now : UInt64) :
    (∃ s', r.Prepared key s' o ⟨database, resources, some cluster⟩ ∧
      r.pass key now s = r.pass key now s' ∧ s.KeepsStatuses s' ∧ s.KeepsUnowned s') ∨
    (∃ b ∈ Catalog.standard ⟨database, resources, some cluster⟩,
      ¬ s.Accepts database.metadata b) ∧
    r.Settled key (r.pass key now s).2 ∧ (r.pass key now s).1 ≠ .converged ∧
    s.KeepsUnowned (r.pass key now s).2 := by
  let a : Aggregate := ⟨database, resources, some cluster⟩
  have hstable : ∀ b ∈ r.catalog a, b.Stable database.metadata := fun b hb =>
    Catalog.standard_stable (hr ▸ hb) _
  have hkeys : ((r.catalog a).map (·.placeholder.tableKey)).Nodup := by
    rw [hr]
    exact Catalog.standard_nodup a
  obtain ⟨flow, s', hrun, hframe, htenants, hkeeps, hend⟩ := syncEach_run r a now hstable hkeys s
  change (r.sync a).run (Store.collaborators now) s = (flow, s') at hrun
  have hpass : r.pass key now s =
      ((((r.sync a).andThen (r.conclude now)).run (Store.collaborators now) s).1.directive,
        (((r.sync a).andThen (r.conclude now)).run (Store.collaborators now) s).2) := by
    have hidle := @awaitStorage_idle_of_ready r ⟨database, resources, none⟩ s cluster hread hready
    rw [pass, hloads.run, steps_eq, Program.run_andThen_proceed (hidle.run now), Store.tell_nil]
  -- The builders touch neither the database nor the storage cluster.
  have hunowned : s.KeepsUnowned s' := by
    refine ⟨fun kind hkind hne key => hframe _ fun hmem => ?_, htenants⟩
    obtain ⟨b, hb, heq⟩ := List.mem_map.mp hmem
    exact Catalog.standard_tableKey_ne (hr ▸ hb) kind hkind hne key heq
  have hloads' := hloads.of_find? (hunowned.databases key)
  have hread' := hread
  rw [← hunowned.find? StorageCluster.kind.name (by decide) (by decide)] at hread'
  rcases hend with ⟨rfl, hbuilt⟩ | ⟨hrefuses, wish, notices, rfl, hbrief, hhalt⟩
  · have hprepared : r.Prepared key s' o a := ⟨hloads', ⟨cluster, hread', hready, rfl⟩, hbuilt⟩
    refine .inl ⟨s', hprepared, ?_, hkeeps, hunowned⟩
    rw [hprepared.run, hpass, Program.run_andThen_proceed hrun]
  · have hidle := @awaitStorage_idle_of_ready r ⟨database, resources, none⟩ s' cluster hread' hready
    have hsettled : r.Settled key s' := ⟨notices, _, hloads.brief hbrief, fun _ =>
      hloads'.idle (hidle.andThen hhalt.andThen_halt)⟩
    have hhalts : r.pass key now s = (.requeue wish, s') := by
      rw [hpass, Program.run_andThen_halt hrun]
      rfl
    rw [hhalts]
    exact .inr ⟨hr ▸ hrefuses, hsettled, Directive.noConfusion, hunowned⟩

/-- **The beginning of a pass.** After a pass the store is settled and only owned objects are not as
before, or the pass went on as over a prepared store, of which the same is true. Without that it
ends well only over no database. -/
theorem pass_begins (hr : r.catalog = Catalog.standard) (hs : s.Placed) (now : UInt64) :
    (r.Settled key (r.pass key now s).2 ∧ s.KeepsUnowned (r.pass key now s).2 ∧
      ((r.pass key now s).1 = .converged → s.find? Database.kind.name key = none)) ∨
    ∃ s' o a, r.Prepared key s' o a ∧ r.pass key now s = r.pass key now s' ∧
      s.find? Database.kind.name key = some o ∧ s.KeepsUnowned s' := by
  rcases loads_cases r key hs with hnone | hstuck | ⟨o, database, resources, hloads⟩
  · have hsettled : r.Settled key s := ⟨[], _, brief_nil, r.idle_of_missing hnone⟩
    exact .inl ⟨hsettled.pass now, hsettled.keepsUnowned now, fun _ => hnone⟩
  · exact .inl ⟨hstuck.settled.pass now, hstuck.settled.keepsUnowned now,
      fun h => absurd h (hstuck.pass_ne now)⟩
  rcases awaitStorage_idle r ⟨database, resources, none⟩ s with ⟨wish, notices, hbrief, hidle⟩ |
    ⟨cluster, hread, hready⟩
  · have hstuck : r.Stuck key s := ⟨notices, wish, hloads.brief hbrief, fun _ =>
      hloads.idle hidle.andThen_halt⟩
    exact .inl ⟨hstuck.settled.pass now, hstuck.settled.keepsUnowned now,
      fun h => absurd h (hstuck.pass_ne now)⟩
  · rcases hloads.prepares hr hread hready now with ⟨s', hprepared, heq, -, hunowned⟩ |
      ⟨-, hsettled, hne, hunowned⟩
    · exact .inr ⟨s', o, _, hprepared, heq, hloads.stored, hunowned⟩
    · exact .inl ⟨hsettled, hunowned, fun h => absurd h hne⟩

/-- After a pass the store is settled, or the pass went on as over a prepared store, with the same
database. -/
theorem pass_prepares (hr : r.catalog = Catalog.standard) (hs : s.Placed) (now : UInt64) :
    (r.Settled key (r.pass key now s).2 ∧
      ((r.pass key now s).1 = .converged → s.find? Database.kind.name key = none)) ∨
    ∃ s' o a, r.Prepared key s' o a ∧ r.pass key now s = r.pass key now s' ∧
      s.find? Database.kind.name key = some o := by
  rcases pass_begins hr hs now with ⟨hsettled, -, hnone⟩ | ⟨s', o, a, h, heq, hstored, -⟩
  · exact .inl ⟨hsettled, hnone⟩
  · exact .inr ⟨s', o, a, h, heq, hstored⟩

/-! ### Writing the status -/

theorem Loads.restated (h : Loads s key o database resources) (status : DatabaseStatus)
    (hs : s'.find? Database.kind.name key = some (o.restated status)) :
    Loads s' key (o.restated status)
      { database with
        metadata := { database.metadata with version := o.metadata.version + 1 }, status }
      resources := by
  have hmetadata : database.metadata = o.metadata :=
    (ResourceKind.ofObject_eq_ok_iff.mp h.loaded).2.1
  refine ⟨hs, h.placed, ?_, h.resolved⟩
  rw [Database.ofObject_restated h.loaded, hmetadata]
  rfl

/-- The status of a loaded database is written, unless it is stored already. -/
private theorem Loads.persistAndHalt_run (h : Loads s key o database resources) (r : Reconciler)
    (a : Aggregate) (ha : a.key = database.key) (now : UInt64) :
    (r.persistAndHalt a).run (Store.collaborators now) s =
      (.halt { after := r.delays.statusUpdate } a,
        if database.status = a.status then s
        else s.withObject (tableKey Database.kind.name key) (o.restated a.status)) := by
  have hkey : o.tableKey = tableKey Database.kind.name a.key := by
    rw [ha, Session.tableKey_of_ofObject h.loaded]
  have hfind : s.find? Database.kind.name a.key = some o := by rw [ha, h.find?_key]
  rw [persistAndHalt, Program.run_bind, persistStatus_run_of_stored hfind hkey h.loaded,
    ← hkey, h.placed]
  rfl

namespace Prepared

theorem persist_idle (h : r.Prepared key s o a) :
    (r.persistAndHalt a).Idle s [] (.halt { after := r.delays.statusUpdate } a) := by
  intro now s' hs'
  have hstatus : a.database.status = a.status := rfl
  rw [(h.of_objects hs').loads.persistAndHalt_run r a rfl, if_pos hstatus, Store.tell_nil]

theorem restated (hr : r.catalog = Catalog.standard) (h : r.Prepared key s o a)
    (status : DatabaseStatus) : r.Prepared key
      (s.withObject (tableKey Database.kind.name key) (o.restated status)) (o.restated status)
      (a.restated (o.metadata.version + 1) status) := by
  have hother : ∀ tkey, tkey ≠ tableKey Database.kind.name key →
      (s.withObject (tableKey Database.kind.name key) (o.restated status)).objects.find? tkey =
        s.objects.find? tkey :=
    fun tkey hne => Table.find?_insert_ne _ (Ne.symm hne) _
  refine ⟨h.loads.restated status (Table.find?_insert_self _ _ _), ?_, fun b hb => ?_⟩
  · obtain ⟨cluster, hread, hready, hcluster⟩ := h.storage
    refine ⟨cluster, ?_, hready, hcluster⟩
    rw [Store.find?, hother]
    · exact hread
    · intro heq
      exact absurd (kind_eq_of_tableKey_eq (by decide) (by decide) heq).1 (by decide)
  · rw [hr] at hb
    have hb' : b ∈ Catalog.standard a := hb
    have hbuilt : s.Built a.database.metadata b := h.built b (hr ▸ hb')
    have hne := Catalog.standard_tableKey_ne hb' Database.kind.name (by decide) (by decide) key
    exact hbuilt.of_find? (hother _ hne)

private theorem persist_run (h : r.Prepared key s o a) {status : DatabaseStatus}
    (hne : a.status ≠ status)
    (now : UInt64) :
    (r.persistAndHalt (a.withStatus status)).run (Store.collaborators now) s =
      (.halt { after := r.delays.statusUpdate } (a.withStatus status),
        s.withObject (tableKey Database.kind.name key) (o.restated status)) := by
  have hne' : a.database.status ≠ (a.withStatus status).status := hne
  rw [h.loads.persistAndHalt_run r (a.withStatus status) rfl, if_neg hne']
  rfl

end Prepared

/-- A step that comes down to the writing of a status is the last of a pass. -/
theorem run_andThen_persist {σ : Type} {c : Collaborators σ} {w w' : σ} {step : Program Flow}
    {next : Aggregate → Program Flow} (h : step.run c w = (r.persistAndHalt a).run c w') :
    (step.andThen next).run c w = (r.persistAndHalt a).run c w' := by
  obtain ⟨wish, w'', hpersist⟩ : ∃ wish w'', (r.persistAndHalt a).run c w' =
      (.halt wish a, w'') := by
    rw [persistAndHalt, Program.run_bind]
    exact ⟨_, _, rfl⟩
  rw [Program.run_andThen_halt (h.trans hpersist), hpersist]

/-- A pass over a prepared store that does nothing to it but write a status and leave certain
tenants: it wishes for another pass soon, and leaves a prepared store in which all other objects are
as before. -/
structure Restates (r : Reconciler) (key : ObjectKey) (now : UInt64) (s : Store) (a : Aggregate)
    (status : DatabaseStatus) (tenants : Table TenantRequest) : Prop where
  directive : (r.pass key now s).1 = .requeue { after := r.delays.statusUpdate }
  prepared : ∃ o version, r.Prepared key (r.pass key now s).2 o (a.restated version status)
  others : ∀ tkey, tkey ≠ tableKey Database.kind.name key →
    (r.pass key now s).2.objects.find? tkey = s.objects.find? tkey
  tenants : (r.pass key now s).2.tenants = tenants

/-- Objects of other kinds than databases are as before. -/
theorem Restates.find?_of_ne {status : DatabaseStatus} {tenants : Table TenantRequest}
    (h : r.Restates key now s a status tenants)
    {kind : String} (hkind : Free '/' kind) (hne : kind ≠ Database.kind.name) (key' : ObjectKey) :
    (r.pass key now s).2.find? kind key' = s.find? kind key' :=
  h.others _ fun heq => hne (kind_eq_of_tableKey_eq hkind (by decide) heq).1

/-- **Writing the status.** A pass whose conclusion comes down to the writing of a status does
nothing else to the objects, whether that status is stored already or not. -/
theorem Prepared.restates (hr : r.catalog = Catalog.standard) (h : r.Prepared key s o a)
    {status : DatabaseStatus} {s₁ : Store} (hs : s₁.objects = s.objects)
    (hconclude : (r.conclude now a).run (Store.collaborators now) s =
      (r.persistAndHalt (a.withStatus status)).run (Store.collaborators now) s₁) :
    r.Restates key now s a status s₁.tenants := by
  have h₁ := h.of_objects hs
  by_cases hstatus : a.status = status
  · subst hstatus
    have hpass : r.pass key now s = (.requeue { after := r.delays.statusUpdate }, s₁) := by
      have hpersist := h₁.persist_idle.run now
      change (r.persistAndHalt (a.withStatus a.status)).run (Store.collaborators now) s₁ = _
        at hpersist
      rw [h.run, hconclude, hpersist]
      rfl
    refine ⟨by rw [hpass], ?_, fun tkey _ => by rw [hpass, hs], by rw [hpass]⟩
    rw [hpass]
    exact ⟨o, a.database.metadata.version, h₁⟩
  · have hpass : r.pass key now s = (.requeue { after := r.delays.statusUpdate },
        s₁.withObject (tableKey Database.kind.name key) (o.restated status)) := by
      rw [h.run, hconclude, h₁.persist_run hstatus]
      rfl
    refine ⟨by rw [hpass], ?_, fun tkey hne => ?_, by rw [hpass]; rfl⟩
    · rw [hpass]
      exact ⟨_, _, h₁.restated hr status⟩
    · rw [hpass, ← hs]
      exact Table.find?_insert_ne _ (Ne.symm hne) _

end Reconciler

end Converge

import Converge.Proofs.OwnedObjects
import Converge.Proofs.Progress

/-!
# Convergence

A pass that has nothing left to do has found everything that its database wants: the storage, the
owned objects in the shape that the catalog gives them, the nodes, and the tenant. And where nothing
that others have to do is missing, nothing holds a database up: each pass takes it one step further,
from the announcement of its tenant over the created tenant to readiness, so that the fourth pass
has nothing left to do at the latest.

## Main definitions

* `Store.Fulfils`: a store has all that a database wants.
* `Store.Provides`: a store has all that a database waits for.
* `DatabaseStatus.remaining`: the number of steps that a database has before it.

## Main results

* `Reconciler.converged_sound`: after a pass that ends well the store has all that the database
  wants.
* `Reconciler.Unhindered.step`, `Reconciler.Unhindered.passes`: passes take one step each.
* `Reconciler.converges`: where all is there that a database waits for, four passes are enough.
-/

namespace Converge

/-! ### What a converged database has -/

/-- The database at `key`, which asks for `resources`, is ready and has its tenant, and the store
has everything else that it wants. -/
structure Store.Fulfils (s : Store) (key : ObjectKey) (database : Database)
    (resources : Resources) : Prop where
  ready : database.status.state = .ready
  initialized : database.status.isTrue tenantInitialized = true
  storage : ∃ o cluster,
    s.find? StorageCluster.kind.name (database.spec.storageCluster.key key.ns) = some o ∧
      StorageCluster.kind.ofObject o = .ok cluster ∧ StorageCluster.isReady cluster = true
  service : ∃ o, s.find? "Service" ⟨key.ns, key.name ++ "-grpc"⟩ = some o ∧
    o.spec = Catalog.serviceSpec 2135 (Catalog.selector key.name) ∧ o.BelongsTo key.name
  workload : resources.isServerless = false → database.spec.nodes ≠ 0 ∧ ∃ o workload,
    s.find? Workload.kind.name key = some o ∧ Workload.kind.ofObject o = .ok workload ∧
      workload.spec = ⟨database.spec.nodes, Catalog.selector key.name⟩ ∧ o.BelongsTo key.name ∧
      workload.status.replicas = database.spec.nodes

namespace Reconciler

variable {r : Reconciler} {key : ObjectKey} {s s' : Store} {o : Object} {a : Aggregate}
  {database : Database} {resources : Resources} {now : UInt64} {clock : Nat → UInt64}

/-- A prepared store with all nodes has everything that a database wants which is ready and has its
tenant. -/
private theorem Prepared.fulfils (hr : r.catalog = Catalog.standard) (h : r.Prepared key s o a)
    (hkey : key.Free '/') (hruns : s.Runs a) (hinit : a.tenantInitialized = true)
    (hready : a.status.state = .ready) : s.Fulfils key a.database a.resources := by
  obtain rfl := h.loads.key_eq hkey
  have hbuilt := h.built
  rw [hr] at hbuilt
  refine ⟨hready, hinit, ?_, ?_, fun hserverless => ?_⟩
  · obtain ⟨cluster, hread, hready, -⟩ := h.storage
    obtain ⟨o, hfind, ho⟩ := ResourceKind.read_eq_ok_some_iff.mp hread
    exact ⟨o, cluster, Except.ok.inj hfind, ho, hready⟩
  · exact (hbuilt _ (Catalog.mem_standard_iff.mpr (.inl rfl))).service
  · have hworkload := hbuilt _ (Catalog.mem_standard_iff.mpr (.inr ⟨hserverless, rfl⟩))
    obtain ⟨hnodes, o, hfind, -, hspec, hbelongs⟩ := hworkload.workload
    obtain ⟨workload, hread, hreplicas⟩ :=
      hruns.resolve_left (Bool.eq_false_iff.mp hserverless)
    obtain ⟨o', hfind', ho'⟩ := ResourceKind.read_eq_ok_some_iff.mp hread
    obtain rfl := Option.some.inj (hfind.symm.trans (Except.ok.inj hfind'))
    have hdecoded := (ResourceKind.ofObject_eq_ok_iff.mp ho').2.2.1
    have hwanted := Option.some.inj (hdecoded.symm.trans (Store.spec_read?_workload hspec))
    exact ⟨hnodes, o, workload, hfind, ho', hwanted, hbelongs, hreplicas⟩

/-- **Converged is sound.** When a pass over a stored database ends well, the database is stored as
before, and the store has all that it wants. -/
theorem converged_sound (hr : r.catalog = Catalog.standard) (hs : s.Reachable)
    (hkey : key.Free '/') (hstored : s.find? Database.kind.name key = some o)
    (hconverged : (r.pass key now s).1 = .converged) :
    (r.pass key now s).2.find? Database.kind.name key = some o ∧
      ∃ database resources, Database.kind.ofObject o = .ok database ∧
        database.spec.resolve = .ok resources ∧
        (r.pass key now s).2.Fulfils key database resources := by
  rcases pass_prepares hr hs.placed now with ⟨-, hnone⟩ | ⟨s', o', a, h, heq, hstored'⟩
  · exact nomatch hstored.symm.trans (hnone hconverged)
  obtain rfl := Option.some.inj (hstored.symm.trans hstored')
  rw [heq] at hconverged ⊢
  cases h.outcome hr now with
  | stuck _ hstuck => exact absurd hconverged (hstuck.pass_ne now)
  | regressed _ hrestates | announced _ _ _ _ hrestates | created _ _ _ hrestates
  | promoted _ _ _ hrestates => exact nomatch hconverged.symm.trans hrestates.directive
  | done hruns hinit hready hidle =>
    have hpass : r.pass key now s' = (.converged, s') := by
      rw [pass, (hidle now).run, Store.tell_nil]
    rw [hpass]
    exact ⟨h.loads.stored, a.database, a.resources, h.loads.loaded, h.loads.resolved,
      h.fulfils hr hkey hruns hinit hready⟩

/-- The third pass over a database whose tenant was announced. -/
theorem converged_sound_awaitingTenant :
    let D : ObjectKey := ⟨"prod", "orders"⟩
    let s := ({} : Reconciler).passes D UInt64.ofNat Store.awaitingTenant 2
    s.Reachable ∧ (({} : Reconciler).pass D 2 s).1 = .converged ∧
      ∃ o database, s.find? Database.kind.name D = some o ∧
        Database.kind.ofObject o = .ok database ∧
        (({} : Reconciler).pass D 2 s).2.Fulfils D database (.dedicated []) := by
  intro D s
  have hs : s.Reachable :=
    (passes_reachable_plain rfl Store.awaitingTenant_reachable (by decide +kernel) _ 2).1
  have hconverged : (({} : Reconciler).pass D 2 s).1 = .converged := by decide +kernel
  have hresources : (s.find? Database.kind.name D).any (fun o =>
      (Database.kind.ofObject o).toOption.any fun database =>
        database.spec.resolve.toOption = some (.dedicated [])) = true := by decide +kernel
  obtain ⟨o, hstored, hresources⟩ := (Option.any_eq_true _ _).mp hresources
  obtain ⟨-, database, resources, hloaded, hresolved, hfulfils⟩ :=
    converged_sound rfl hs (by decide) hstored hconverged
  rw [hloaded] at hresources
  simp only [Except.toOption, hresolved, Option.any_some, decide_eq_true_eq] at hresources
  obtain rfl := Option.some.inj hresources
  exact ⟨hs, hconverged, o, database, hstored, hloaded, hfulfils⟩

end Reconciler

/-! ### What a database waits for -/

/-- The store has what the database at `key`, which asks for `resources`, waits for: storage that is
ready, places for the owned objects, a workload that runs as many nodes as wanted, or another
database that is ready and can be shared. -/
structure Store.Provides (s : Store) (key : ObjectKey) (database : Database)
    (resources : Resources) : Prop where
  storage : ∃ o cluster,
    s.find? StorageCluster.kind.name (database.spec.storageCluster.key key.ns) = some o ∧
      StorageCluster.kind.ofObject o = .ok cluster ∧ StorageCluster.isReady cluster = true
  service : s.Claimable "Service" ⟨key.ns, key.name ++ "-grpc"⟩ key.name
  workload : resources.isServerless = false → database.spec.nodes ≠ 0 ∧
    s.Claimable Workload.kind.name key key.name ∧
    ∃ o, s.find? Workload.kind.name key = some o ∧
      Workload.kind.statusPresence.read? Workload.kind.status o.status =
        some ⟨database.spec.nodes⟩
  shared : ∀ reference, resources = .serverless reference → reference.key key.ns ≠ key ∧
    ∃ o shared, s.find? Database.kind.name (reference.key key.ns) = some o ∧
      Database.kind.ofObject o = .ok shared ∧ shared.status.state = .ready

/-- The number of steps that a database has before it: the announcement of its tenant, the creation
of the tenant, and readiness. -/
def DatabaseStatus.remaining (status : DatabaseStatus) : Nat :=
  if status.isTrue tenantInitialized then if status.state = .ready then 0 else 1
  else if (status.condition? tenantInitialized).isSome ∧ status.state = .initializing then 2
  else 3

namespace DatabaseStatus

variable {status : DatabaseStatus}

private theorem remaining_unannounced (h : status.isTrue tenantInitialized = false)
    (hunknown : ¬ ((status.condition? tenantInitialized).isSome = true ∧
      status.state = .initializing)) : status.remaining = 3 := by
  rw [remaining, if_neg (Bool.eq_false_iff.mp h), if_neg hunknown]

private theorem remaining_announced (h : status.isTrue tenantInitialized = false)
    (hknown : (status.condition? tenantInitialized).isSome = true ∧
      status.state = .initializing) : status.remaining = 2 := by
  rw [remaining, if_neg (Bool.eq_false_iff.mp h), if_pos hknown]

private theorem remaining_created (h : status.isTrue tenantInitialized = true)
    (hstate : status.state ≠ .ready) : status.remaining = 1 := by
  rw [remaining, if_pos h, if_neg hstate]

private theorem remaining_ready (h : status.isTrue tenantInitialized = true)
    (hready : status.state = .ready) : status.remaining = 0 := by
  rw [remaining, if_pos h, if_pos hready]

private theorem remaining_lt (status : DatabaseStatus) : status.remaining < 4 := by
  rw [remaining]
  split
  · split <;> decide
  · split <;> decide

private theorem ready_of_remaining (h : status.remaining = 0) :
    status.state = .ready ∧ status.isTrue tenantInitialized = true := by
  rw [remaining] at h
  split at h
  · rename_i hinit
    split at h
    · rename_i hready
      exact ⟨hready, hinit⟩
    · exact absurd h (by decide)
  · split at h <;> exact absurd h (by decide)

end DatabaseStatus

namespace Reconciler

/-- Over the store nothing holds the database up: a pass finds everything that it waits for. A
shared database is another one. -/
structure Unhindered (r : Reconciler) (key : ObjectKey) (s : Store) (o : Object) (a : Aggregate) :
    Prop where
  prepared : r.Prepared key s o a
  runs : s.Runs a
  supplies : s.Supplies a
  shares : ∀ reference, a.resources = .serverless reference →
    tableKey Database.kind.name (reference.key a.ns) ≠ tableKey Database.kind.name key

variable {r : Reconciler} {key : ObjectKey} {s s' : Store} {o : Object} {a : Aggregate}
  {database : Database} {resources : Resources} {now : UInt64} {clock : Nat → UInt64}

theorem Unhindered.restated {status : DatabaseStatus} {tenants : Table TenantRequest}
    (h : r.Unhindered key s o a) (hrestates : r.Restates key now s a status tenants) :
    ∃ o' version, r.Unhindered key (r.pass key now s).2 o' (a.restated version status) := by
  obtain ⟨o', version, hprepared⟩ := hrestates.prepared
  refine ⟨o', version, hprepared, hrestates.runs h.runs version, fun reference hserverless => ?_,
    h.shares⟩
  obtain ⟨shared, hread, hready⟩ := h.supplies reference hserverless
  have hfind := hrestates.others _ (h.shares reference hserverless)
  exact ⟨shared, (congrArg (Database.kind.read <| .ok ·) hfind).trans hread, hready⟩

/-- **One step.** Where nothing holds the database up a pass takes it one step further and wishes
for another pass soon, or ends well when no step is left. -/
theorem Unhindered.step (hr : r.catalog = Catalog.standard) (h : r.Unhindered key s o a)
    (now : UInt64) :
    (a.status.remaining = 0 ∧ r.pass key now s = (.converged, s)) ∨
    ∃ o' a', r.Unhindered key (r.pass key now s).2 o' a' ∧
      a.status.remaining = a'.status.remaining + 1 ∧
      (r.pass key now s).1 = .requeue { after := r.delays.statusUpdate } := by
  cases h.prepared.outcome hr now with
  | stuck hcause => exact hcause.elim (absurd h.runs) (absurd h.supplies)
  | regressed hlacks => exact absurd h.runs hlacks.not_runs
  | announced _ hinit hunknown status hrestates hnot hknown =>
    obtain ⟨o', version, h'⟩ := h.restated hrestates
    refine .inr ⟨o', _, h', ?_, hrestates.directive⟩
    rw [DatabaseStatus.remaining_unannounced hinit hunknown]
    exact congrArg (· + 1) (DatabaseStatus.remaining_announced hnot hknown).symm
  | created _ hinit hknown hrestates =>
    obtain ⟨o', version, h'⟩ := h.restated hrestates
    refine .inr ⟨o', _, h', ?_, hrestates.directive⟩
    have hcompleted := a.status.isTrue_setCondition tenantCompleted now
    have hstate : (a.status.setCondition tenantCompleted now).1.state ≠ .ready := by
      intro hready
      exact nomatch hknown.2.symm.trans hready
    rw [DatabaseStatus.remaining_announced hinit hknown]
    exact congrArg (· + 1) (DatabaseStatus.remaining_created hcompleted hstate).symm
  | promoted _ hinit hstate hrestates =>
    obtain ⟨o', version, h'⟩ := h.restated hrestates
    have hready := @DatabaseStatus.remaining_ready { a.status with state := .ready } hinit rfl
    refine .inr ⟨o', _, h', ?_, hrestates.directive⟩
    rw [DatabaseStatus.remaining_created hinit hstate]
    exact congrArg (· + 1) hready.symm
  | done _ hinit hready hidle =>
    refine .inl ⟨DatabaseStatus.remaining_ready hinit hready, ?_⟩
    rw [pass, (hidle now).run, Store.tell_nil]

/-- **Steps in a row.** Where nothing holds the database up every pass takes it one step further, as
long as any step is left. -/
theorem Unhindered.passes (hr : r.catalog = Catalog.standard) (h : r.Unhindered key s o a)
    (clock : Nat → UInt64) {n : Nat} (hn : n ≤ a.status.remaining) :
    ∃ o' a', r.Unhindered key (r.passes key clock s n) o' a' ∧
      a.status.remaining = a'.status.remaining + n := by
  induction n with
  | zero => exact ⟨o, a, h, rfl⟩
  | succ n ih =>
    obtain ⟨o₁, a₁, h₁, hremaining⟩ := ih (Nat.le_of_succ_le hn)
    rcases h₁.step hr (clock n) with ⟨hzero, -⟩ | ⟨o', a', h', hstep, -⟩
    · omega
    · exact ⟨o', a', h', by omega⟩

private theorem passes_congr (h : r.pass key (clock 0) s = r.pass key (clock 0) s') (n : Nat) :
    r.passes key clock s (n + 1) = r.passes key clock s' (n + 1) ∧
      r.pass key (clock n) (r.passes key clock s n) =
        r.pass key (clock n) (r.passes key clock s' n) := by
  induction n with
  | zero => exact ⟨congrArg Prod.snd h, h⟩
  | succ n ih => exact ⟨congrArg (fun s => (r.pass key (clock (n + 1)) s).2) ih.1,
      congrArg (r.pass key (clock (n + 1))) ih.1⟩

/-- A pass over a store that has what the database waits for goes on as over a store in which
nothing holds the database up. -/
theorem Loads.unhindered (hr : r.catalog = Catalog.standard) (hs : s.Placed)
    (hkey : key.Free '/') (hloads : Loads s key o database resources)
    (h : s.Provides key database resources) (now : UInt64) :
    ∃ s' a, r.Unhindered key s' o a ∧ r.pass key now s = r.pass key now s' := by
  obtain rfl := hloads.key_eq hkey
  obtain ⟨ocluster, cluster, hcluster, hdecoded, hready⟩ := h.storage
  have hread := ResourceKind.read_eq_ok_some_iff.mpr ⟨ocluster, congrArg _ hcluster, hdecoded⟩
  have haccepts := @Store.accepts_standard s ⟨database, resources, some cluster⟩ hs hkey h.service
    fun hserverless => ⟨(h.workload hserverless).2.1, (h.workload hserverless).1⟩
  rcases hloads.prepares hr hread hready now with ⟨s', hprepared, heq, hkeeps, hunowned⟩ |
    ⟨⟨b, hb, hrefuses⟩, -⟩
  swap
  · exact absurd (haccepts b hb) hrefuses
  refine ⟨s', _, ⟨hprepared, ?_, fun reference hserverless => ?_, fun reference hserverless => ?_⟩,
    heq⟩
  · cases hserverless : resources.isServerless with
    | true => exact .inl hserverless
    | false =>
      -- The builder has left the workload its status.
      obtain ⟨-, -, oworkload, hstored, hstatus⟩ := h.workload hserverless
      have hbuilt := hprepared.built
      rw [hr] at hbuilt
      have hworkload := hbuilt _ (Catalog.mem_standard_iff.mpr (.inr ⟨hserverless, rfl⟩))
      obtain ⟨-, o', hfind, hplace, hspec, -⟩ := hworkload.workload
      obtain ⟨o'', hfind', hkept⟩ := hkeeps _ _ hstored
      obtain rfl := Option.some.inj (hfind.symm.trans hfind')
      have hkind := (tableKey_inj (by decide) hkey hplace).1
      let workload : Workload := ⟨o'.metadata,
        ⟨database.spec.nodes, Catalog.selector database.metadata.name⟩, ⟨database.spec.nodes⟩⟩
      have hdecoded : Workload.kind.ofObject o' = .ok workload :=
        ResourceKind.ofObject_eq_ok_iff.mpr
          ⟨hkind, rfl, Store.spec_read?_workload hspec, hkept ▸ hstatus⟩
      exact .inr ⟨workload, ResourceKind.read_eq_ok_some_iff.mpr
        ⟨o', congrArg _ hfind, hdecoded⟩, rfl⟩
  · obtain ⟨-, oshared, shared, hstored, hdecoded, hready⟩ := h.shared reference hserverless
    have hstored' := (hunowned.databases (reference.key database.key.ns)).trans hstored
    exact ⟨shared, ResourceKind.read_eq_ok_some_iff.mpr ⟨oshared, congrArg _ hstored', hdecoded⟩,
      hready⟩
  · have hne := (h.shared reference hserverless).1
    exact fun htable => hne (tableKey_inj (by decide) hkey htable).2

/-- **Convergence in a settled environment.** Where a store has what a database waits for, and
nobody else writes to it, at most four passes over the database are needed until one ends well. The
earlier ones wish for another pass soon and tell of no error, and the database is then stored as
ready and with its tenant. Without slashes in its key whatever is in the place of its service or its
workload is in its namespace. -/
theorem converges (hr : r.catalog = Catalog.standard) (hs : s.Reachable) (hkey : key.Free '/')
    (hstored : s.find? Database.kind.name key = some o)
    (hloaded : Database.kind.ofObject o = .ok database)
    (hresolved : database.spec.resolve = .ok resources) (h : s.Provides key database resources)
    (clock : Nat → UInt64) :
    ∃ n < 4, (∀ m < n, (r.pass key (clock m) (r.passes key clock s m)).1 =
        .requeue { after := r.delays.statusUpdate, error := none }) ∧
      (r.pass key (clock n) (r.passes key clock s n)).1 = .converged ∧
      ∃ o' database', (r.passes key clock s (n + 1)).find? Database.kind.name key = some o' ∧
        Database.kind.ofObject o' = .ok database' ∧ database'.status.state = .ready ∧
        database'.status.isTrue tenantInitialized = true := by
  have hloads : Loads s key o database resources :=
    ⟨hstored, hs.placed _ o hstored, hloaded, hresolved⟩
  obtain ⟨s', a, hunhindered, heq⟩ := hloads.unhindered hr hs.placed hkey h (clock 0)
  have hcongr := passes_congr heq
  refine ⟨a.status.remaining, a.status.remaining_lt, fun m hm => ?_, ?_⟩
  · obtain ⟨o₁, a₁, h₁, hremaining⟩ := hunhindered.passes hr clock (Nat.le_of_lt hm)
    rw [(hcongr m).2]
    rcases h₁.step hr (clock m) with ⟨hzero, -⟩ | ⟨_, _, -, -, hdirective⟩
    · omega
    · exact hdirective
  · obtain ⟨o₁, a₁, h₁, hremaining⟩ := hunhindered.passes hr clock (Nat.le_refl _)
    have hzero : a₁.status.remaining = 0 := by omega
    rcases h₁.step hr (clock a.status.remaining) with ⟨-, hpass⟩ | ⟨_, _, -, hstep, -⟩
    · refine ⟨by rw [(hcongr _).2, hpass], o₁, a₁.database, ?_, h₁.prepared.loads.loaded,
        DatabaseStatus.ready_of_remaining hzero⟩
      rw [(hcongr _).1, Reconciler.passes, hpass]
      exact h₁.prepared.loads.stored
    · omega

/-- A database whose tenant was announced. -/
theorem converges_awaitingTenant :
    let D : ObjectKey := ⟨"prod", "orders"⟩
    let passes := ({} : Reconciler).passes D UInt64.ofNat Store.awaitingTenant
    D.Free '/' ∧ ∃ o database,
      Store.awaitingTenant.find? Database.kind.name D = some o ∧
      Database.kind.ofObject o = .ok database ∧
      database.spec.resolve = .ok (.dedicated []) ∧
      Store.awaitingTenant.Provides D database (.dedicated []) ∧ ∃ n < 4,
        (∀ m < n, (({} : Reconciler).pass D (.ofNat m) (passes m)).1 = .requeue { after := 1 }) ∧
        (({} : Reconciler).pass D (.ofNat n) (passes n)).1 = .converged := by
  intro D passes
  let database : Database := ⟨{ Metadata.ofKey D with version := 1 },
    { storageCluster := { name := "main" }, nodes := 2, resources := some {} },
    { state := .initializing, conditions := [tenantInProgress.stamped 5] }⟩
  let cluster : StorageCluster := ⟨{ Metadata.ofKey ⟨"prod", "main"⟩ with version := 1 },
    { grpc := { tlsEnabled := true } }, { state := "Ready" }⟩
  have hread : Database.kind.read (.ok (Store.awaitingTenant.find? Database.kind.name D)) =
      .ok (some database) := by decide +kernel
  have hcluster : StorageCluster.kind.read (.ok (Store.awaitingTenant.find?
      StorageCluster.kind.name ⟨"prod", "main"⟩)) = .ok (some cluster) := by decide +kernel
  have hworkload : (Store.awaitingTenant.find? Workload.kind.name D).any (fun o =>
      Workload.kind.statusPresence.read? Workload.kind.status o.status = some ⟨2⟩) = true := by
    decide +kernel
  have hprovides : Store.awaitingTenant.Provides D database (.dedicated []) := by
    refine ⟨?_, by decide +kernel, fun _ => ⟨by decide, by decide +kernel, ?_⟩, nofun⟩
    · obtain ⟨o, hfind, hdecoded⟩ := ResourceKind.read_eq_ok_some_iff.mp hcluster
      exact ⟨o, cluster, Except.ok.inj hfind, hdecoded, by decide⟩
    · obtain ⟨o, hfind, hstatus⟩ := (Option.any_eq_true _ _).mp hworkload
      exact ⟨o, hfind, of_decide_eq_true hstatus⟩
  obtain ⟨o, hfind, hloaded⟩ := ResourceKind.read_eq_ok_some_iff.mp hread
  have hstored := Except.ok.inj hfind
  obtain ⟨n, hn, hbefore, hconverged, -⟩ := converges (r := {}) rfl Store.awaitingTenant_reachable
    (by decide) hstored hloaded rfl hprovides UInt64.ofNat
  exact ⟨by decide, o, database, hstored, hloaded, rfl, hprovides, n, hn, hbefore, hconverged⟩

end Reconciler

end Converge

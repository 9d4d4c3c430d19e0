import Converge.Proofs.Conditions
import Converge.Proofs.Prepared

/-!
# What a pass comes to

Over a prepared store a pass takes its database one step further, or back, or is stuck. The steps
forward are the announcement of the tenant, its creation, and readiness; each of them is one status
that is written. Only over a database that has made all of them a pass has nothing left to do.

## Main definitions

* `Store.Runs`, `Store.Lacks`: the workload of a database has as many nodes as wanted, or has not.
* `Reconciler.Resolves`: the request for the tenant of a database, as the store determines it.
* `Reconciler.Outcome`: what a pass over a prepared store comes to.

## Main results

* `Reconciler.Prepared.outcome`: a pass over a prepared store comes to one of these.
-/

namespace Converge

/-! ### The compute nodes -/

namespace Store

variable {s s' : Store} {a : Aggregate}

/-- The workload of a database that is not serverless runs as many nodes as wanted. -/
def Runs (s : Store) (a : Aggregate) : Prop :=
  a.resources.isServerless = true ∨ ∃ workload,
    Workload.kind.read (.ok (s.find? Workload.kind.name a.key)) = .ok (some workload) ∧
      workload.status.replicas = a.spec.nodes

/-- The workload of a database that is not serverless runs too few or too many nodes. -/
def Lacks (s : Store) (a : Aggregate) : Prop :=
  a.resources.isServerless = false ∧ ∃ workload,
    Workload.kind.read (.ok (s.find? Workload.kind.name a.key)) = .ok (some workload) ∧
      workload.status.replicas ≠ a.spec.nodes

theorem Runs.restated (h : s.Runs a)
    (hs : s'.find? Workload.kind.name a.key = s.find? Workload.kind.name a.key) (version : UInt64)
    (status : DatabaseStatus) : s'.Runs (a.restated version status) := by
  rw [Runs, ← hs] at h
  exact h

theorem Lacks.restated (h : s.Lacks a)
    (hs : s'.find? Workload.kind.name a.key = s.find? Workload.kind.name a.key) (version : UInt64)
    (status : DatabaseStatus) : s'.Lacks (a.restated version status) := by
  rw [Lacks, ← hs] at h
  exact h

theorem Lacks.not_runs (h : s.Lacks a) : ¬ s.Runs a := by
  obtain ⟨hserverless, workload, hread, hreplicas⟩ := h
  rintro (hserverless' | ⟨workload', hread', hreplicas'⟩)
  · exact absurd hserverless' (Bool.eq_false_iff.mp hserverless)
  · obtain rfl := Option.some.inj (Except.ok.inj (hread.symm.trans hread'))
    exact hreplicas hreplicas'

end Store

namespace Reconciler

variable {r : Reconciler} {key : ObjectKey} {s s' : Store} {o : Object} {a : Aggregate}
  {notices : List Notice} {flow : Flow} {now : UInt64}

/-- With the nodes as wanted the gate is the step to readiness. -/
private theorem awaitScale_run_of_runs (h : s.Runs a) (now : UInt64) (hs : s'.objects = s.objects) :
    (r.awaitScale a).run (Store.collaborators now) s' =
      (r.promote a).run (Store.collaborators now) s' := by
  rw [awaitScale]
  split
  · rfl
  rename_i hserverless
  obtain ⟨workload, hread, hreplicas⟩ := h.resolve_left hserverless
  rw [Program.run_bind, Program.fetch_idle hread now s' hs]
  simp only [hreplicas, if_true, Store.tell_nil]

/-- With other nodes than wanted the gate says so, and makes the status say so. -/
theorem awaitScale_run_of_lacks (h : s.Lacks a) : ∃ notice, Brief a.key [notice] ∧
    ∀ now s', s'.objects = s.objects →
    (r.awaitScale a).run (Store.collaborators now) s' =
      (r.persistAndHalt (a.withState .provisioning)).run (Store.collaborators now)
        (s'.record notice now) := by
  obtain ⟨hserverless, workload, hread, hreplicas⟩ := h
  have hneg : ¬ a.resources.isServerless = true := Bool.eq_false_iff.mp hserverless
  refine ⟨⟨a.key, .normal, "Provisioning", "Waiting for number of running nodes to match expected: "
    ++ toString workload.status.replicas ++ " != " ++ toString a.spec.nodes⟩, brief_singleton,
    fun now s' hs => ?_⟩
  rw [awaitScale, if_neg hneg, Program.run_bind, Program.fetch_idle hread now s' hs]
  simp only [hreplicas, if_false, Store.tell_nil, Program.run_bind]
  rfl

private theorem awaitScale_cases (r : Reconciler) (a : Aggregate) (s : Store) :
    s.Runs a ∨ s.Lacks a ∨
    (¬ s.Runs a ∧ ∃ wish notices, Brief a.key notices ∧
      (r.awaitScale a).Idle s notices (.halt wish a)) := by
  by_cases hserverless : a.resources.isServerless = true
  · exact .inl (.inl hserverless)
  generalize hread : Workload.kind.read (.ok (s.find? Workload.kind.name a.key)) = found
  have hfetch := Program.fetch_idle hread
  rcases found with e | _ | workload
  · refine .inr (.inr ⟨?_, _, _, brief_singleton,
      .of_neg hserverless (hfetch.after Program.notify_pure_idle)⟩)
    rintro (h | ⟨_, hread', -⟩)
    · exact hserverless h
    · exact nomatch hread.symm.trans hread'
  · have hhalt : (r.awaitScale a).Idle s [] (.wait r.delays.default a) := by
      unfold awaitScale
      refine .of_neg hserverless (hfetch.after ?_)
      exact Program.idle_pure
    refine .inr (.inr ⟨?_, _, [], brief_nil, hhalt⟩)
    rintro (h | ⟨_, hread', -⟩)
    · exact hserverless h
    · exact nomatch hread.symm.trans hread'
  · by_cases hreplicas : workload.status.replicas = a.spec.nodes
    · exact .inl (.inr ⟨workload, hread, hreplicas⟩)
    · exact .inr (.inl ⟨by simpa using hserverless, workload, hread, hreplicas⟩)

private theorem awaitScale_idle_of_runs (h : s.Runs a)
    (hpromote : (r.promote a).Idle s notices flow) :
    (r.awaitScale a).Idle s notices flow :=
  fun now s' hs => (awaitScale_run_of_runs h now hs).trans (hpromote now s' hs)

private theorem awaitScale_idle_of_not_initialized (hruns : s.Runs a)
    (hinit : a.tenantInitialized = false) : (r.awaitScale a).Idle s [] (.proceed a) :=
  awaitScale_idle_of_runs hruns (.of_neg (by simp [hinit]) Program.idle_pure)

/-- The compute nodes are as wanted when a status was written if they were before. -/
theorem Restates.runs {status : DatabaseStatus} {tenants : Table TenantRequest}
    (h : r.Restates key now s a status tenants) (hruns : s.Runs a) (version : UInt64) :
    (r.pass key now s).2.Runs (a.restated version status) :=
  hruns.restated (h.find?_of_ne (by decide) (by decide) _) version status

/-! ### The request for a tenant -/

/-- Over the store `request` is the request for the tenant of the database at `key`: it says where
the storage cluster of the database is, which has to be ready, and what the tenant is given. -/
inductive Resolves (r : Reconciler) (s : Store) (key : ObjectKey) (database : Database)
    (request : TenantRequest) : Prop
  | intro {o : Object} {resources : Resources} {cluster : StorageCluster}
      (stored : s.find? Database.kind.name key = some o)
      (loaded : Database.kind.ofObject o = .ok database)
      (resolved : database.spec.resolve = .ok resources)
      (cluster_eq : StorageCluster.kind.read (.ok (s.find? StorageCluster.kind.name
        (database.spec.storageCluster.key database.metadata.ns))) = .ok (some cluster))
      (ready : StorageCluster.isReady cluster = true)
      (allots : s.Allots database.metadata.ns resources
        ⟨request.storageUnits, request.shared, request.sharedDatabasePath⟩)
      (endpoint : request.storageEndpoint = cluster.endpoint r.clusterDomain)
      (secure : request.useSecureChannel = cluster.spec.grpc.tlsEnabled)
      (path : request.path = tenantPath database.spec.domain database.metadata.name)

/-- Over a prepared store the request is determined by what the pass has found. -/
theorem Prepared.resolves (h : r.Prepared key s o a) {cluster : StorageCluster}
    (hcluster : a.storage = some cluster) {storage : TenantStorage}
    (hallots : s.Allots a.ns a.resources storage) :
    r.Resolves s key a.database (r.tenantRequest a cluster storage) := by
  obtain ⟨cluster', hread, hready, hcluster'⟩ := h.storage
  obtain rfl := Option.some.inj (hcluster'.symm.trans hcluster)
  exact .intro h.loads.stored h.loads.loaded h.loads.resolved hread hready hallots rfl rfl rfl

/-! ### Single passes -/

private theorem announceTenant_eq (r : Reconciler) (now : UInt64)
    (hinit : a.tenantInitialized = false)
    (hunknown : ¬ ((a.status.condition? tenantInitialized).isSome = true ∧
      a.status.state = .initializing)) :
    ∃ status, r.announceTenant now a = r.persistAndHalt (a.withStatus status) ∧
      status.isTrue tenantInitialized = false ∧
      (status.condition? tenantInitialized).isSome = true ∧ status.state = .initializing := by
  have hnot : ¬ ((a.status.condition? tenantInitialized).isSome &&
      decide (a.status.state = .initializing)) = true := by
    simpa using hunknown
  cases hknown : (a.status.condition? tenantInitialized).isSome with
  | true =>
    refine ⟨{ a.status with state := .initializing }, ?_, hinit, hknown, rfl⟩
    rw [announceTenant, if_neg hnot, if_pos hknown]
    rfl
  | false =>
    obtain ⟨c, hfind, -⟩ := a.status.condition?_setCondition_self tenantInProgress now
    refine ⟨{ (a.status.setCondition tenantInProgress now).1 with state := .initializing }, ?_,
      a.status.isTrue_setCondition tenantInProgress now, ?_, rfl⟩
    · rw [announceTenant, if_neg hnot, if_neg (Bool.eq_false_iff.mp hknown)]
      rfl
    · exact Option.isSome_iff_exists.mpr ⟨c, hfind⟩

theorem Prepared.idle_of_ready (h : r.Prepared key s o a) (hruns : s.Runs a)
    (hinit : a.tenantInitialized = true) (hready : a.status.state = .ready) (now : UInt64) :
    (r.reconcile now key).Idle s [] .converged := by
  have hpromote : (r.promote a).Idle s [] (.proceed a) :=
    .of_neg (by simp [hready]) Program.idle_pure
  have hconclude : (r.conclude now a).Idle s [] (.proceed a) :=
    (awaitScale_idle_of_runs hruns hpromote).andThen (.of_pos hinit Program.idle_pure)
  exact h.idle hconclude

theorem Prepared.promotes (hr : r.catalog = Catalog.standard) (h : r.Prepared key s o a)
    (hruns : s.Runs a) (hinit : a.tenantInitialized = true) (hstate : a.status.state ≠ .ready)
    (now : UInt64) : r.Restates key now s a { a.status with state := .ready } s.tenants := by
  let notice : Notice :=
    ⟨a.key, .normal, "ResourcesReady", "Resources are ready and database is initialized"⟩
  have hpromote : (r.promote a).run (Store.collaborators now) s =
      (r.persistAndHalt (a.withState .ready)).run (Store.collaborators now)
        (s.record notice now) := by
    rw [promote, if_pos (by simp [hstate, hinit])]
    rfl
  have hscale := (awaitScale_run_of_runs (r := r) hruns now rfl).trans hpromote
  obtain ⟨hobjects, htenants⟩ := s.record_frame notice now
  exact htenants ▸ h.restates hr hobjects (run_andThen_persist hscale)

/-- A pass that lacks nodes, or has too many, takes the database back to its beginning. -/
theorem Prepared.regresses (hr : r.catalog = Catalog.standard) (h : r.Prepared key s o a)
    (hlacks : s.Lacks a) (now : UInt64) :
    r.Restates key now s a { a.status with state := .provisioning } s.tenants := by
  obtain ⟨notice, -, hgate⟩ := awaitScale_run_of_lacks (r := r) hlacks
  obtain ⟨hobjects, htenants⟩ := s.record_frame notice now
  exact htenants ▸ h.restates hr hobjects (run_andThen_persist (hgate now s rfl))

/-- A pass announces the creation of the tenant when that was not done before. -/
private theorem Prepared.announces (hr : r.catalog = Catalog.standard) (h : r.Prepared key s o a)
    (hruns : s.Runs a) (hinit : a.tenantInitialized = false)
    (hunknown : ¬ ((a.status.condition? tenantInitialized).isSome = true ∧
      a.status.state = .initializing)) (now : UInt64) :
    ∃ status, r.Restates key now s a status s.tenants ∧
      status.isTrue tenantInitialized = false ∧
      (status.condition? tenantInitialized).isSome = true ∧ status.state = .initializing := by
  have hscale := awaitScale_idle_of_not_initialized (r := r) hruns hinit
  obtain ⟨status, hannounce, hstatus⟩ := announceTenant_eq r now hinit hunknown
  refine ⟨status, h.restates hr rfl ?_, hstatus⟩
  rw [conclude, Program.run_andThen_proceed (hscale.run now), Store.tell_nil,
    if_neg (Bool.eq_false_iff.mp hinit)]
  exact run_andThen_persist (congrArg (·.run (Store.collaborators now) s) hannounce)

/-- Once the creation of the tenant was announced a pass registers it under its request, or is stuck
for want of a shared database. -/
theorem Prepared.creates (hr : r.catalog = Catalog.standard) (h : r.Prepared key s o a)
    (hruns : s.Runs a) (hinit : a.tenantInitialized = false)
    (hknown : (a.status.condition? tenantInitialized).isSome = true ∧
      a.status.state = .initializing) (now : UInt64) :
    (¬ s.Supplies a ∧ r.Stuck key s) ∨ ∃ request, r.Resolves s key a.database request ∧
      r.Restates key now s a (a.status.setCondition tenantCompleted now).1
        (s.putTenant request).2.tenants := by
  have hscale := awaitScale_idle_of_not_initialized (r := r) hruns hinit
  have hnot : ¬ a.tenantInitialized = true := Bool.eq_false_iff.mp hinit
  have hannounce : ∀ now, (r.announceTenant now a).Idle s [] (.proceed a) := fun now =>
    .of_pos (by simp [hknown]) Program.idle_pure
  rcases storageOf_idle r a s with ⟨hwants, wish, notices, hbrief, hidle⟩ |
    ⟨storage, hallots, hidle⟩
  · have hcreate : ∀ now, (r.createTenant now a).Idle s notices (.halt wish a) := fun now =>
      hidle.before Program.idle_pure
    have hconclude : ∀ now, (r.conclude now a).Idle s notices (.halt wish a) := fun now =>
      hscale.andThen (.of_neg hnot ((hannounce now).andThen (hcreate now)))
    exact .inl ⟨hwants, notices, wish, h.loads.brief hbrief, fun now => h.idle (hconclude now)⟩
  · obtain ⟨cluster, -, -, hcluster⟩ := h.storage
    let request := r.tenantRequest a cluster storage
    let s₁ := (s.putTenant request).2.record
      ⟨a.key, .normal, "Initialized", "Tenant " ++ toString request.path ++ " created"⟩ now
    have hs₁ : s₁.objects = s.objects := by
      rw [(Store.record_frame _ _ _).1, Store.putTenant_eq]
    have htenants : s₁.tenants = (s.putTenant request).2.tenants := (Store.record_frame _ _ _).2
    have hcreate : (r.createTenant now a).run (Store.collaborators now) s =
        (r.persistAndHalt (a.observe tenantCompleted now)).run (Store.collaborators now) s₁ := by
      rw [createTenant, Program.run_bind, hidle.run, Store.tell_nil]
      simp only [hcluster]
      rfl
    refine .inr ⟨request, h.resolves hcluster hallots, htenants ▸ h.restates hr hs₁ ?_⟩
    rw [conclude, Program.run_andThen_proceed (hscale.run now), Store.tell_nil, if_neg hnot,
      Program.run_andThen_proceed ((hannounce now).run now), Store.tell_nil, hcreate]
    rfl

/-- What a pass over a prepared store comes to. -/
inductive Outcome (r : Reconciler) (key : ObjectKey) (now : UInt64) (s : Store) (a : Aggregate) :
    Prop
  /-- It waits for a workload or a shared database. -/
  | stuck (hcause : ¬ s.Runs a ∨ ¬ s.Supplies a) (h : r.Stuck key s)
  /-- It goes back to the beginning for want of nodes. -/
  | regressed (hlacks : s.Lacks a)
      (h : r.Restates key now s a { a.status with state := .provisioning } s.tenants)
  /-- It announces the creation of the tenant. -/
  | announced (hruns : s.Runs a) (hinit : a.tenantInitialized = false)
      (hunknown : ¬ ((a.status.condition? tenantInitialized).isSome = true ∧
        a.status.state = .initializing))
      (status : DatabaseStatus) (h : r.Restates key now s a status s.tenants)
      (hnot : status.isTrue tenantInitialized = false)
      (hknown : (status.condition? tenantInitialized).isSome = true ∧
        status.state = .initializing)
  /-- It creates the tenant, or finds its path registered. -/
  | created {request : TenantRequest} (hruns : s.Runs a) (hinit : a.tenantInitialized = false)
      (hknown : (a.status.condition? tenantInitialized).isSome = true ∧
        a.status.state = .initializing)
      (h : r.Restates key now s a (a.status.setCondition tenantCompleted now).1
        (s.putTenant request).2.tenants)
      (hrequest : r.Resolves s key a.database request)
  /-- It makes the database ready. -/
  | promoted (hruns : s.Runs a) (hinit : a.tenantInitialized = true)
      (hstate : a.status.state ≠ .ready)
      (h : r.Restates key now s a { a.status with state := .ready } s.tenants)
  /-- It has nothing left to do. -/
  | done (hruns : s.Runs a) (hinit : a.tenantInitialized = true) (hready : a.status.state = .ready)
      (h : ∀ now, (r.reconcile now key).Idle s [] .converged)

/-- **A pass over a prepared store** comes to one of these. -/
theorem Prepared.outcome (hr : r.catalog = Catalog.standard) (h : r.Prepared key s o a)
    (now : UInt64) : r.Outcome key now s a := by
  rcases awaitScale_cases r a s with hruns | hlacks | ⟨hnot, wish, notices, hbrief, hidle⟩
  · cases hinit : a.tenantInitialized with
    | true =>
      by_cases hready : a.status.state = .ready
      · exact .done hruns hinit hready (h.idle_of_ready hruns hinit hready)
      · exact .promoted hruns hinit hready (h.promotes hr hruns hinit hready now)
    | false =>
      by_cases hknown : (a.status.condition? tenantInitialized).isSome = true ∧
        a.status.state = .initializing
      · rcases h.creates hr hruns hinit hknown now with ⟨hwants, hstuck⟩ |
          ⟨request, hrequest, hrestates⟩
        · exact .stuck (.inr hwants) hstuck
        · exact .created hruns hinit hknown hrestates hrequest
      · obtain ⟨status, hrestates, hstatus, hknown'⟩ :=
          h.announces hr hruns hinit hknown now
        exact .announced hruns hinit hknown status hrestates hstatus hknown'
  · exact .regressed hlacks (h.regresses hr hlacks now)
  · exact .stuck (.inl hnot) ⟨notices, wish, h.loads.brief hbrief, fun now =>
      h.idle hidle.andThen_halt⟩

end Reconciler

end Converge

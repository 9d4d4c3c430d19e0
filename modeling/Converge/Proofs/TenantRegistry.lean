import Converge.Proofs.Progress
import Converge.Proofs.TenantMonotone

/-!
# Databases and the registry of tenants

The path of a tenant has the domain and the name of its database in it, but not the namespace, and a
path is registered only once. A pass that finds its path registered has reached its aim all the
same. So a database whose tenant was created, as its status says, need not have the tenant that it
has asked for: databases of one name in several namespaces share the one that was asked for first.

## Main definitions

* `Reconciler.Initializes`: a pass that sets the condition of a database, and its request.
* `Turn`, `Turn.run`: clients that store objects, and whole passes over any databases.
* `Turn.Initialized`: the databases of a run whose condition was set, with the requests for that.

## Main results

* `Reconciler.pass_tenants`: a pass registers its request and sets the condition, or does neither.
* `Turn.initialized_of_tenant?`, `Turn.tenant?_of_initialized`: what is registered after a run.
* `Turn.tenant_of_initialized`: the tenant that a database has whose condition is set.
-/

namespace Converge

/-! ### The registry -/

namespace Store

variable {s s' : Store} {request first : TenantRequest} {path : String}

/-- At the path of a request that was registered is what was there before, or else the request. -/
theorem tenant?_putTenant_self (s : Store) (request : TenantRequest) :
    (s.putTenant request).2.tenant? request.path =
      some ((s.tenant? request.path).getD request) := by
  rw [putTenant, tenant?, tenant?, Table.contains]
  cases hfind : s.tenants.find? request.path with
  | none => simp
  | some first => simpa using hfind

theorem tenant?_putTenant_of_ne (h : request.path ≠ path) :
    (s.putTenant request).2.tenant? path = s.tenant? path := by
  rw [putTenant, tenant?, tenant?]
  split
  · rfl
  · exact Table.find?_insert_ne _ h _

theorem tenant?_putTenant_of_some (h : s.tenant? path = some first) :
    (s.putTenant request).2.tenant? path = some first := by
  by_cases hpath : request.path = path
  · subst hpath
    rw [tenant?_putTenant_self, h, Option.getD_some]
  · rw [tenant?_putTenant_of_ne hpath, h]

theorem tenant?_congr (h : s'.tenants = s.tenants) (path : String) :
    s'.tenant? path = s.tenant? path := by
  rw [tenant?, tenant?, h]

private theorem putTenant_congr (h : s'.tenants = s.tenants) (request : TenantRequest) :
    (s'.putTenant request).2.tenants = (s.putTenant request).2.tenants := by
  rw [putTenant, putTenant, h]
  split
  · exact h
  · rfl

theorem KeepsUnowned.allots (h : s.KeepsUnowned s') {ns : String} {resources : Resources}
    {storage : TenantStorage} (hallots : s'.Allots ns resources storage) :
    s.Allots ns resources storage := by
  cases resources with
  | dedicated | shared => exact hallots
  | serverless reference =>
    obtain ⟨shared, hread, hready, hstorage⟩ := hallots
    rw [h.databases] at hread
    exact ⟨shared, hread, hready, hstorage⟩

private theorem Allots.unique {ns : String} {resources : Resources}
    {storage storage' : TenantStorage}
    (h : s.Allots ns resources storage) (h' : s.Allots ns resources storage') :
    storage = storage' := by
  cases resources with
  | dedicated | shared => exact Eq.trans h (Eq.symm h')
  | serverless reference =>
    obtain ⟨shared, hread, -, rfl⟩ := h
    obtain ⟨shared', hread', -, rfl⟩ := h'
    obtain rfl := Option.some.inj (Except.ok.inj (hread.symm.trans hread'))
    rfl

end Store

/-! ### Single passes -/

namespace Reconciler

variable {r : Reconciler} {key : ObjectKey} {now : UInt64} {s s' : Store} {o : Object}
  {a : Aggregate} {database database' : Database} {resources : Resources}
  {request request' : TenantRequest}

private theorem Resolves.unique (h : r.Resolves s key database request)
    (h' : r.Resolves s key database' request') : database = database' ∧ request = request' := by
  cases h with
  | intro stored loaded resolved cluster_eq _ allots endpoint secure path =>
  cases h' with
  | intro stored' loaded' resolved' cluster_eq' _ allots' endpoint' secure' path' =>
  obtain rfl := Option.some.inj (stored.symm.trans stored')
  obtain rfl := Except.ok.inj (loaded.symm.trans loaded')
  obtain rfl := Except.ok.inj (resolved.symm.trans resolved')
  obtain rfl := Option.some.inj (Except.ok.inj (cluster_eq.symm.trans cluster_eq'))
  refine ⟨rfl, ?_⟩
  obtain ⟨hunits, hshared, hplace⟩ := TenantStorage.mk.inj (allots.unique allots')
  cases request
  cases request'
  simp_all

/-- The request depends on databases and storage clusters only. -/
private theorem Resolves.of_keepsUnowned (hs : s.KeepsUnowned s')
    (h : r.Resolves s' key database request) : r.Resolves s key database request := by
  cases h with
  | intro stored loaded resolved cluster_eq ready allots endpoint secure path =>
    rw [hs.databases] at stored
    rw [hs.find? StorageCluster.kind.name (by decide) (by decide)] at cluster_eq
    exact .intro stored loaded resolved cluster_eq ready (hs.allots allots) endpoint secure path

theorem Loads.tenantInitialized (h : Loads s key o database resources) :
    s.tenantInitialized key = database.status.isTrue Converge.tenantInitialized := by
  rw [Store.tenantInitialized_of_find? h.stored, Object.tenantInitialized,
    Database.databaseStatus?_of_ofObject h.loaded]
  rfl

/-- After a status was written it is the stored one that counts. -/
theorem Restates.tenantInitialized {status : DatabaseStatus} {tenants : Table TenantRequest}
    (h : r.Restates key now s a status tenants) :
    (r.pass key now s).2.tenantInitialized key = status.isTrue Converge.tenantInitialized := by
  obtain ⟨o, version, hprepared⟩ := h.prepared
  exact hprepared.loads.tenantInitialized

/-- The pass sets the condition of the database at `key`, for which `request` is the request. -/
structure Initializes (r : Reconciler) (key : ObjectKey) (now : UInt64) (s : Store)
    (request : TenantRequest) : Prop where
  before : s.tenantInitialized key = false
  after : (r.pass key now s).2.tenantInitialized key = true
  resolves : ∃ database, r.Resolves s key database request

/-- **A pass and the registry.** A pass registers its request and sets the condition of its
database, or it does neither. -/
theorem pass_tenants (hr : r.catalog = Catalog.standard) (hs : s.Placed) (key : ObjectKey)
    (now : UInt64) :
    ((r.pass key now s).2.tenants = s.tenants ∧
      ((r.pass key now s).2.tenantInitialized key = true → s.tenantInitialized key = true)) ∨
    ∃ request, r.Initializes key now s request ∧
      (r.pass key now s).2.tenants = (s.putTenant request).2.tenants := by
  rcases pass_begins hr hs now with ⟨-, hunowned, -⟩ | ⟨s', o, a, h, heq, -, hunowned⟩
  · exact .inl ⟨hunowned.tenants, (Store.tenantInitialized_congr (hunowned.databases key) ▸ ·)⟩
  have hinit : s.tenantInitialized key = a.tenantInitialized :=
    (Store.tenantInitialized_congr (hunowned.databases key)).symm.trans h.loads.tenantInitialized
  have hidle : r.Settled key s' → (r.pass key now s').2.tenants = s.tenants ∧
      ((r.pass key now s').2.tenantInitialized key = true → s.tenantInitialized key = true) := by
    intro hsettled
    obtain ⟨hobjects, htenants⟩ := hsettled.pass_frame now
    have hfind := (Store.find?_congr hobjects Database.kind.name key).trans (hunowned.databases key)
    exact ⟨htenants.trans hunowned.tenants, (Store.tenantInitialized_congr hfind ▸ ·)⟩
  rw [heq, hinit]
  rw [hinit] at hidle
  cases h.outcome hr now with
  | stuck _ hstuck => exact .inl (hidle hstuck.settled)
  | done _ _ _ hdone => exact .inl (hidle ⟨[], _, brief_nil, hdone⟩)
  | regressed _ hrestates | promoted _ _ _ hrestates =>
    exact .inl ⟨hrestates.tenants.trans hunowned.tenants, hrestates.tenantInitialized.symm.trans⟩
  | announced _ _ _ status hrestates hnot =>
    refine .inl ⟨hrestates.tenants.trans hunowned.tenants, fun hafter => ?_⟩
    rw [hrestates.tenantInitialized, hnot] at hafter
    exact nomatch hafter
  | @created request _ hnot _ hrestates hrequest =>
    refine .inr ⟨request, ⟨hinit.trans hnot, ?_, _, hrequest.of_keepsUnowned hunowned⟩, ?_⟩
    · rw [heq, hrestates.tenantInitialized]
      exact a.status.isTrue_setCondition tenantCompleted now
    · rw [hrestates.tenants]
      exact Store.putTenant_congr hunowned.tenants request

/-- A pass that sets the condition registers the request for it. -/
theorem Initializes.tenants (hr : r.catalog = Catalog.standard) (hs : s.Placed)
    (h : r.Initializes key now s request) :
    (r.pass key now s).2.tenants = (s.putTenant request).2.tenants := by
  rcases pass_tenants hr hs key now with ⟨-, hkeeps⟩ | ⟨request', h', htenants⟩
  · exact nomatch h.before.symm.trans (hkeeps h.after)
  · obtain ⟨database, hresolves⟩ := h.resolves
    obtain ⟨database', hresolves'⟩ := h'.resolves
    rwa [(hresolves.unique hresolves').2]

end Reconciler

/-! ### Runs -/

/-- What happens in a run: a client stores an object, or a whole pass takes place. -/
inductive Turn where
  | put (o : Object)
  | pass (r : Reconciler) (key : ObjectKey) (now : UInt64)

namespace Turn

/-- The store after a turn. -/
def apply (s : Store) : Turn → Store
  | put o => (Store.Operation.put o).apply s
  | pass r key now => (r.pass key now s).2

/-- The store after some turns, which begin with an empty one. -/
def run (turns : List Turn) : Store := turns.foldl apply ∅

/-- Clients store databases without a status, and passes have the standard catalog. -/
def Admitted : Turn → Prop
  | put o => o.kind = Database.kind.name → o.status.isNull = true
  | pass r _ _ => r.catalog = Catalog.standard

/-- In the run a pass has set the condition of the database at `key`, and `request` was the request
for that. -/
def Initialized (turns : List Turn) (key : ObjectKey) (request : TenantRequest) : Prop :=
  ∃ before r now after, turns = before ++ pass r key now :: after ∧
    r.Initializes key now (run before) request

variable {turn : Turn} {turns later : List Turn} {s : Store} {D E : ObjectKey} {path : String}
  {request first : TenantRequest}

/-! #### What turns keep -/

/-- What every turn keeps is kept by a run. -/
theorem foldl_keeps {P : Store → Prop}
    (hstep : ∀ {s turn}, Admitted turn → P s → P (turn.apply s))
    (hturns : ∀ turn ∈ turns, turn.Admitted) (h : P s) : P (turns.foldl apply s) := by
  induction turns generalizing s with
  | nil => exact h
  | cons turn turns ih =>
    obtain ⟨hturn, hturns⟩ := List.forall_mem_cons.mp hturns
    exact ih hturns (hstep hturn h)

theorem Admitted.placed (hturn : turn.Admitted) (hs : s.Placed) : (turn.apply s).Placed := by
  cases turn with
  | put o => exact hs.apply (.put o)
  | pass r key now =>
    have hinvariant := Session.informed_invariant key
    exact (hinvariant.reaches (Session.holds_of_store hs)
      (Session.reaches_run r hturn now key s none)).1

theorem Admitted.tenant? (hturn : turn.Admitted) (hs : s.Placed ∧ s.tenant? path = some first) :
    (turn.apply s).Placed ∧ (turn.apply s).tenant? path = some first := by
  refine ⟨hturn.placed hs.1, ?_⟩
  cases turn with
  | put o =>
    have htenants := ((Store.Operation.put o).tenants_apply s).resolve_left nofun
    exact (Store.tenant?_congr htenants path).trans hs.2
  | pass r key now =>
    rcases Reconciler.pass_tenants hturn hs.1 key now with ⟨htenants, -⟩ | ⟨request, -, htenants⟩
    · exact (Store.tenant?_congr htenants path).trans hs.2
    · exact (Store.tenant?_congr htenants path).trans (Store.tenant?_putTenant_of_some hs.2)

/-- Without slashes nothing but a database is stored in the place of a database; so its condition
stays set. -/
theorem Admitted.tenantInitialized (hD : D.Free '/') (hturn : turn.Admitted)
    (hs : s.Placed ∧ s.tenantInitialized D = true) :
    (turn.apply s).Placed ∧ (turn.apply s).tenantInitialized D = true := by
  cases turn with
  | put o =>
    have hspares : (Store.Operation.put o).Spares D s := fun hkey =>
      hturn (tableKey_inj (by decide) hD hkey).1
    exact ⟨hs.1.apply (.put o), hspares.tenantInitialized_apply.trans hs.2⟩
  | pass r key now =>
    have hinvariant := Session.initialized_invariant D
    exact (hinvariant.reaches (Session.holds_of_store hs)
      (Session.reaches_run r hturn now key s none)).1

private theorem tenant?_foldl (hturns : ∀ turn ∈ turns, turn.Admitted) (hs : s.Placed)
    (h : s.tenant? path = some first) : (turns.foldl apply s).tenant? path = some first :=
  (foldl_keeps (P := fun s => s.Placed ∧ s.tenant? path = some first) Admitted.tenant? hturns
    ⟨hs, h⟩).2

private theorem run_placed (hturns : ∀ turn ∈ turns, turn.Admitted) : (run turns).Placed :=
  foldl_keeps Admitted.placed hturns Store.Reachable.empty.placed

private theorem run_append (before after : List Turn) :
    run (before ++ after) = after.foldl apply (run before) :=
  List.foldl_append

/-! #### What is registered after a run -/

theorem Initialized.append (h : Initialized turns E request) (turn : Turn) :
    Initialized (turns ++ [turn]) E request := by
  obtain ⟨before, r, now, after, rfl, hinitializes⟩ := h
  exact ⟨before, r, now, after ++ [turn], by simp, hinitializes⟩

/-- Where the condition of a database was set it is still set after the run. -/
theorem Initialized.tenantInitialized (hturns : ∀ turn ∈ turns, turn.Admitted) (hE : E.Free '/')
    (h : Initialized turns E request) : (run turns).tenantInitialized E = true := by
  obtain ⟨before, r, now, after, rfl, hinitializes⟩ := h
  obtain ⟨hbefore, hpass⟩ := List.forall_mem_append.mp hturns
  obtain ⟨hr, hafter⟩ := List.forall_mem_cons.mp hpass
  have hplaced : (apply (run before) (pass r E now)).Placed := hr.placed (run_placed hbefore)
  rw [run_append]
  exact (foldl_keeps (P := fun s => s.Placed ∧ s.tenantInitialized E = true)
    (Admitted.tenantInitialized hE) hafter ⟨hplaced, hinitializes.after⟩).2

/-- **Whose tenants are registered.** Every tenant that is registered after a run is at the path
that its request names, and the condition of a database was set on that request. -/
theorem initialized_of_tenant? (hturns : ∀ turn ∈ turns, turn.Admitted)
    (h : (run turns).tenant? path = some first) :
    first.path = path ∧ ∃ E, Initialized turns E first := by
  induction turns using List.reverseRecOn with
  | nil => exact nomatch h
  | append_singleton turns turn ih =>
    obtain ⟨hearlier, hlast⟩ := List.forall_mem_append.mp hturns
    have hturn : turn.Admitted := hlast turn (List.mem_singleton_self turn)
    have hbefore : (run turns).tenant? path = some first →
        first.path = path ∧ ∃ E, Initialized (turns ++ [turn]) E first := by
      intro h
      obtain ⟨hpath, E, hE⟩ := ih hearlier h
      exact ⟨hpath, E, hE.append turn⟩
    rw [run_append] at h
    change (turn.apply (run turns)).tenant? path = some first at h
    cases turn with
    | put o =>
      have htenants := ((Store.Operation.put o).tenants_apply (run turns)).resolve_left nofun
      exact hbefore ((Store.tenant?_congr htenants path).symm.trans h)
    | pass r key now =>
      rcases Reconciler.pass_tenants hturn (run_placed hearlier) key now with
        ⟨htenants, -⟩ | ⟨request, hinitializes, htenants⟩
      · exact hbefore ((Store.tenant?_congr htenants path).symm.trans h)
      replace h := (Store.tenant?_congr htenants path).symm.trans h
      by_cases hpath : request.path = path
      · subst hpath
        rw [Store.tenant?_putTenant_self] at h
        cases hregistered : (run turns).tenant? request.path with
        | some earlier =>
          rw [hregistered] at h
          exact hbefore (hregistered.trans h)
        | none =>
          rw [hregistered] at h
          obtain rfl : request = first := Option.some.inj h
          exact ⟨rfl, key, turns, r, now, [], rfl, hinitializes⟩
      · exact hbefore ((Store.tenant?_putTenant_of_ne hpath).symm.trans h)

/-- Where the condition of a database was set a tenant is registered at its path. -/
theorem tenant?_of_initialized (hturns : ∀ turn ∈ turns, turn.Admitted)
    (h : Initialized turns E request) : ∃ first, (run turns).tenant? request.path = some first := by
  obtain ⟨before, r, now, after, rfl, hinitializes⟩ := h
  obtain ⟨hbefore, hpass⟩ := List.forall_mem_append.mp hturns
  obtain ⟨hr, hafter⟩ := List.forall_mem_cons.mp hpass
  have hplaced := run_placed hbefore
  have htenants := hinitializes.tenants hr hplaced
  have hregistered : (r.pass E now (run before)).2.tenant? request.path =
      some (((run before).tenant? request.path).getD request) :=
    (Store.tenant?_congr htenants _).trans (Store.tenant?_putTenant_self _ _)
  rw [run_append, List.foldl_cons]
  exact ⟨_, tenant?_foldl hafter (hr.placed hplaced) hregistered⟩

/-! #### Databases of one name -/

/-- The specification of one of the namesakes. -/
def namesakeSpec (unit : StorageUnit) : DatabaseSpec :=
  { storageCluster := ⟨"storage", some "infra"⟩, nodes := 1, resources := some ⟨[unit]⟩ }

/-- Two databases of one name in different namespaces, which ask for different units of one storage
cluster, and all that they wait for. -/
def namesakes : List Turn :=
  let orders (ns : String) (unit : StorageUnit) : List Turn :=
    [.put (Workload.kind.toObject ⟨.ofKey ⟨ns, "orders"⟩, {}, { replicas := 1 }⟩),
      .put { Object.empty "Database" ⟨ns, "orders"⟩ with
        spec := DatabaseSpec.codec.encode (namesakeSpec unit) }]
  .put (StorageCluster.kind.toObject ⟨.ofKey ⟨"infra", "storage"⟩, {}, { state := "Ready" }⟩) ::
    (orders "prod" ⟨"ssd", 4⟩ ++ orders "staging" ⟨"hdd", 1⟩)

private theorem namesakes_admitted : ∀ turn ∈ namesakes, turn.Admitted := by
  simp [namesakes, Admitted, Object.empty, Workload.kind, StorageCluster.kind, Database.kind,
    ResourceKind.toObject, Json.isNull]

/-- The request for the tenant of one of the namesakes. -/
def namesakeRequest (unit : StorageUnit) : TenantRequest :=
  ⟨"grpc://storage-grpc.infra.svc.cluster.local:2135", "/root/orders", [unit], false, none, false⟩

private theorem resolves_namesake {ns : String} {unit : StorageUnit} {version : UInt64}
    {status : DatabaseStatus}
    (hread : Database.kind.read (.ok (s.find? Database.kind.name ⟨ns, "orders"⟩)) =
      .ok (some ⟨{ Metadata.ofKey ⟨ns, "orders"⟩ with version }, namesakeSpec unit, status⟩))
    (hcluster : StorageCluster.kind.read (.ok (s.find? StorageCluster.kind.name
      ⟨"infra", "storage"⟩)) = .ok (some
        ⟨{ Metadata.ofKey ⟨"infra", "storage"⟩ with version := 1 }, {}, { state := "Ready" }⟩)) :
    ∃ database, Reconciler.Resolves {} s ⟨ns, "orders"⟩ database (namesakeRequest unit) := by
  obtain ⟨o, hstored, hloaded⟩ := ResourceKind.read_eq_ok_some_iff.mp hread
  exact ⟨_, .intro (Except.ok.inj hstored) hloaded rfl hcluster (by decide) rfl rfl rfl rfl⟩

/-! #### Databases and their tenants -/

/-- **The tenant of a database.** Begin with an empty store, let clients store objects, databases
without a status, and let passes with the standard catalog take place, over any databases. When a
pass sets the condition of a database there is one request for its tenant, and a tenant is
registered at the path of that, and stays there. If the path was free before the pass that is the
tenant of the request, and on no request with the path the condition of any database was set before.
Otherwise it is the earlier tenant, on whose request the condition of another database was set. -/
theorem tenant_of_initialized (hturns : ∀ turn ∈ turns, turn.Admitted) {r : Reconciler}
    (hr : r.catalog = Catalog.standard) {now : UInt64}
    (hbefore : (run turns).tenantInitialized D = false)
    (hafter : (r.pass D now (run turns)).2.tenantInitialized D = true) :
    let s := run turns
    let s' := (r.pass D now s).2
    ∃ database request, r.Resolves s D database request ∧
      (∀ database' request', r.Resolves s D database' request' → request' = request) ∧
      (s.tenant? request.path = none → s'.tenant? request.path = some request ∧
        ∀ E earlier, Initialized turns E earlier → earlier.path ≠ request.path) ∧
      (∀ first, s.tenant? request.path = some first → s'.tenant? request.path = some first ∧
        first.path = request.path ∧ ∃ E, Initialized turns E first ∧ (D.Free '/' → E ≠ D)) ∧
      ∀ later : List Turn, (∀ turn ∈ later, turn.Admitted) →
        (later.foldl apply s').tenant? request.path = s'.tenant? request.path := by
  intro s s'
  have hs : s.Placed := run_placed hturns
  have hadmitted : (pass r D now).Admitted := hr
  have hs' : s'.Placed := hadmitted.placed hs
  rcases Reconciler.pass_tenants hr hs D now with ⟨-, hkeeps⟩ | ⟨request, hinitializes, htenants⟩
  · exact nomatch hbefore.symm.trans (hkeeps hafter)
  obtain ⟨database, hresolves⟩ := hinitializes.resolves
  have hregistered : s'.tenant? request.path = some ((s.tenant? request.path).getD request) :=
    (Store.tenant?_congr htenants _).trans (Store.tenant?_putTenant_self _ _)
  refine ⟨database, request, hresolves, fun _ _ h => (h.unique hresolves).2, fun hfree => ⟨?_, ?_⟩,
    fun first hfirst => ⟨?_, ?_⟩, fun later hlater => ?_⟩
  · rw [hregistered, hfree, Option.getD_none]
  · intro E earlier hE hpath
    obtain ⟨first, hfirst⟩ := tenant?_of_initialized hturns hE
    rw [hpath] at hfirst
    exact nomatch hfree.symm.trans hfirst
  · rw [hregistered, hfirst, Option.getD_some]
  · obtain ⟨hpath, E, hE⟩ := initialized_of_tenant? hturns hfirst
    refine ⟨hpath, E, hE, fun hD => ?_⟩
    rintro rfl
    exact nomatch hbefore.symm.trans (hE.tenantInitialized hturns hD)
  · exact (tenant?_foldl hlater hs' hregistered).trans hregistered.symm

/-- The first of the namesakes gets the tenant that it has asked for. -/
theorem tenant_of_initialized_first :
    let D : ObjectKey := ⟨"prod", "orders"⟩
    let s := run (namesakes ++ [.pass {} D 1])
    let s' := (({} : Reconciler).pass D 2 s).2
    let request := namesakeRequest ⟨"ssd", 4⟩
    (∃ database, Reconciler.Resolves {} s D database request) ∧
      s.tenantInitialized D = false ∧ s'.tenantInitialized D = true ∧
      s'.tenant? "/root/orders" = some request := by
  intro D s s' request
  have hturns : ∀ turn ∈ namesakes ++ [.pass {} D 1], turn.Admitted :=
    List.forall_mem_append.mpr ⟨namesakes_admitted, by simp [Admitted]⟩
  obtain ⟨hread, hcluster, hnone, hbefore, hafter⟩ :
      Database.kind.read (.ok (s.find? Database.kind.name D)) =
        .ok (some ⟨{ Metadata.ofKey D with version := 2 }, namesakeSpec ⟨"ssd", 4⟩,
          { state := .initializing, conditions := [tenantInProgress.stamped 1] }⟩) ∧
      StorageCluster.kind.read (.ok (s.find? StorageCluster.kind.name ⟨"infra", "storage"⟩)) =
        .ok (some ⟨{ Metadata.ofKey ⟨"infra", "storage"⟩ with version := 1 }, {},
          { state := "Ready" }⟩) ∧
      s.tenant? "/root/orders" = none ∧ s.tenantInitialized D = false ∧
      s'.tenantInitialized D = true := by decide +kernel
  obtain ⟨database, hresolves⟩ := resolves_namesake hread hcluster
  obtain ⟨_, request', -, hunique, hfree, -⟩ := tenant_of_initialized hturns (r := {}) rfl hbefore
    hafter
  obtain rfl := hunique _ _ hresolves
  exact ⟨⟨database, hresolves⟩, hbefore, hafter, (hfree hnone).1⟩

/-- The second one does not: when its condition is set the tenant at its path is that of the first
one, whose condition is set as well. -/
theorem tenant_shared_by_namesakes :
    let D : ObjectKey := ⟨"prod", "orders"⟩
    let E : ObjectKey := ⟨"staging", "orders"⟩
    let s := run (namesakes ++ [.pass {} D 1, .pass {} D 2, .pass {} E 3])
    let s' := (({} : Reconciler).pass E 4 s).2
    (∃ database, Reconciler.Resolves {} s E database (namesakeRequest ⟨"hdd", 1⟩)) ∧
      s.tenantInitialized E = false ∧ s'.tenantInitialized E = true ∧
      s'.tenant? "/root/orders" = some (namesakeRequest ⟨"ssd", 4⟩) ∧
      s'.tenantInitialized D = true := by
  intro D E s s'
  obtain ⟨hread, hcluster, hshared⟩ :
      Database.kind.read (.ok (s.find? Database.kind.name E)) =
        .ok (some ⟨{ Metadata.ofKey E with version := 2 }, namesakeSpec ⟨"hdd", 1⟩,
          { state := .initializing, conditions := [tenantInProgress.stamped 3] }⟩) ∧
      StorageCluster.kind.read (.ok (s.find? StorageCluster.kind.name ⟨"infra", "storage"⟩)) =
        .ok (some ⟨{ Metadata.ofKey ⟨"infra", "storage"⟩ with version := 1 }, {},
          { state := "Ready" }⟩) ∧
      s.tenantInitialized E = false ∧ s'.tenantInitialized E = true ∧
      s'.tenant? "/root/orders" = some (namesakeRequest ⟨"ssd", 4⟩) ∧
      s'.tenantInitialized D = true := by decide +kernel
  exact ⟨resolves_namesake hread hcluster, hshared⟩

end Turn

end Converge

import Converge.Proofs.ProvisioningGate

/-!
# How a pass ends

A pass that wants another one was brought to that by one of its calls. Up to that call everything
has succeeded, and after it the pass only tells what has happened. The wish for another pass
depends on the call, on what it was made for, and on its answer. This file lists the possibilities,
for any answers to the calls.

The database is read again when its status is to be written, and a serverless database may name any
database as the shared one. So it is not the call that tells why a database is read, but what the
pass has found before (`Reconciler.Arrives`).

## Main definitions

* `Program.Exchange.failed`: a call that has failed.
* `Program.Smooth`, `Program.Closes`: exchanges in which all went well, and the last one before a
  pass only tells.
* `Reconciler.Waits`: the wish of a pass that has looked for something it needs.
* `Reconciler.Built`, `Reconciler.Arrives`: how far a pass has come.
* `Reconciler.Persists`: the wish of a pass that writes its status.
* `Reconciler.Halts`, `Reconciler.Exit`: the wish of a pass.

## Main results

* `Reconciler.awaitStorage_halts`, `Reconciler.syncEach_halts`, `Reconciler.awaitScale_stops`,
  `Reconciler.announceTenant_stops`, `Reconciler.createTenant_stops`: how a step halts a pass.
* `Reconciler.steps_ends`, `Reconciler.reconcile_ends`: every end of a pass is one of these.
-/

namespace Converge

open Program (Exchange)

/-! ### Calls that fail -/

/-- Whether an object is one of the kind called `kind`, for the kinds that a pass reads. -/
def Object.decodes (kind : String) (o : Object) : Bool :=
  if kind = Database.kind.name then (Database.kind.ofObject o).isOk
  else if kind = StorageCluster.kind.name then (StorageCluster.kind.ofObject o).isOk
  else if kind = Workload.kind.name then (Workload.kind.ofObject o).isOk
  else true

/-- Objects of the kind are told from others. -/
def ResourceKind.Told {σ τ : Type} (kind : ResourceKind σ τ) : Prop :=
  ∀ o : Object, o.decodes kind.name = (kind.ofObject o).isOk

theorem Database.told : Database.kind.Told := fun _ => rfl

theorem StorageCluster.told : StorageCluster.kind.Told := fun _ => rfl

theorem Workload.told : Workload.kind.Told := fun _ => rfl

namespace Program

/-- Whether the call of an exchange has failed. Reading an object fails also when the object is not
one of its kind, but not when there is none. -/
def Exchange.failed : Exchange → Bool
  | get _ _ (.error _) => true
  | get kind _ (.ok found) => found.any fun o => !o.decodes kind
  | upsert _ _ answer => !answer.isOk
  | writeStatus _ answer => !answer.isOk
  | record _ => false
  | provision _ answer => !answer.isOk

/-- Whether an exchange has looked for an object in vain. -/
def Exchange.misses : Exchange → Bool
  | get _ _ (.ok none) => true
  | _ => false

/-- Whether the call of an exchange has got what it was made for. -/
def Exchange.succeeds (x : Exchange) : Bool := !x.failed && !x.misses

theorem Exchange.failed_of_succeeds {x : Exchange} (h : x.succeeds = true) : x.failed = false := by
  simpa using (Bool.and_eq_true_iff.mp h).1

theorem Exchange.not_succeeds_of_failed {x : Exchange} (h : x.failed = true) :
    ¬ x.succeeds = true := fun hs => nomatch (failed_of_succeeds hs).symm.trans h

theorem Exchange.failed_get {σ τ : Type} {kind : ResourceKind σ τ} (hkind : kind.Told)
    (key : ObjectKey) (answer : Except StoreError (Option Object)) :
    (get kind.name key answer).failed = !(kind.read answer).isOk := by
  match answer with
  | .error _ | .ok none => rfl
  | .ok (some o) =>
    simp only [failed, Option.any_some, hkind o, ResourceKind.read]
    cases kind.ofObject o <;> rfl

/-- All calls of some exchanges have got what they were made for. -/
def Smooth (t : List Exchange) : Prop := ∀ x ∈ t, x.succeeds = true

variable {t t' past past' rest : List Exchange} {x y : Exchange}

theorem smooth_nil : Smooth [] := fun _ hx => absurd hx List.not_mem_nil

theorem Smooth.append (h : Smooth t) (h' : Smooth t') : Smooth (t ++ t') :=
  List.forall_mem_append.mpr ⟨h, h'⟩

theorem smooth_singleton (h : x.succeeds = true) : Smooth [x] := List.forall_mem_singleton.mpr h

theorem smooth_records (notices : List Notice) : Smooth (notices.map .record) := by
  intro x hx
  obtain ⟨notice, -, rfl⟩ := List.mem_map.mp hx
  rfl

theorem smooth_get {σ τ : Type} {kind : ResourceKind σ τ} (hkind : kind.Told) {key : ObjectKey}
    {o : Object} {resource : Resource σ τ} (ho : kind.ofObject o = .ok resource) :
    Smooth [.get kind.name key (.ok (some o))] := by
  refine smooth_singleton (Bool.and_eq_true_iff.mpr ⟨?_, rfl⟩)
  rw [Exchange.failed_get hkind, ResourceKind.read, ho]
  rfl

/-- In exchanges there is one place only where something goes wrong first. -/
theorem Smooth.split_unique (hpast : Smooth past) (hpast' : Smooth past') (hx : ¬ x.succeeds = true)
    (hy : ¬ y.succeeds = true) (h : past ++ x :: t = past' ++ y :: t') : past = past' ∧ x = y := by
  rcases List.append_eq_append_iff.mp h with ⟨between, rfl, hrest⟩ | ⟨between, rfl, hrest⟩
  · rcases List.cons_eq_append_iff.mp hrest with ⟨rfl, hcons⟩ | ⟨between, rfl, -⟩
    · exact ⟨(List.append_nil past).symm, (List.cons.inj hcons).1.symm⟩
    · exact absurd (hpast' x (List.mem_append_right past List.mem_cons_self)) hx
  · rcases List.cons_eq_append_iff.mp hrest with ⟨rfl, hcons⟩ | ⟨between, rfl, -⟩
    · exact ⟨List.append_nil past', (List.cons.inj hcons).1⟩
    · exact absurd (hpast y (List.mem_append_right past' List.mem_cons_self)) hy

/-- The exchange `x` comes after `past`, and the rest of `t` only tells about it. -/
def Closes (t past : List Exchange) (x : Exchange) : Prop :=
  ∃ notices : List Notice, t = past ++ x :: notices.map .record

theorem closes_singleton : Closes [x] [] x := ⟨[], rfl⟩

theorem closes_told {notice : Notice} : Closes [x, .record notice] [] x := ⟨[notice], rfl⟩

theorem Closes.after (h : Closes t past x) (t' : List Exchange) :
    Closes (t' ++ t) (t' ++ past) x := by
  obtain ⟨notices, rfl⟩ := h
  exact ⟨notices, by rw [List.append_assoc]⟩

theorem Closes.mem_of_mem (h : Closes t past x) (hy : y ∈ past) : y ∈ t := by
  obtain ⟨notices, rfl⟩ := h
  exact List.mem_append_left _ hy

/-- What holds of the exchanges up to `x` and of all notices holds of all exchanges. -/
theorem Closes.forall_mem {P : Exchange → Prop} (h : Closes t past x) (hpast : ∀ y ∈ past, P y)
    (hx : P x) (hrecord : ∀ notice, P (.record notice)) : ∀ y ∈ t, P y := by
  obtain ⟨notices, rfl⟩ := h
  refine List.forall_mem_append.mpr ⟨hpast, List.forall_mem_cons.mpr ⟨hx, fun y hy => ?_⟩⟩
  obtain ⟨notice, -, rfl⟩ := List.mem_map.mp hy
  exact hrecord notice

/-- In exchanges that are smooth up to `x` only `x` may have gone wrong. -/
theorem Closes.eq_of_mem (h : Closes t past x) (hpast : Smooth past) (hy : y ∈ t)
    (hwrong : ¬ y.succeeds = true) : y = x := by
  obtain ⟨notices, rfl⟩ := h
  rcases List.mem_append.mp hy with hy | hy
  · exact absurd (hpast y hy) hwrong
  rcases List.mem_cons.mp hy with rfl | hy
  · rfl
  · exact absurd (smooth_records notices y hy) hwrong

theorem Closes.eq_of_split (h : Closes t past x) (hpast : Smooth past) (ht : t = past' ++ y :: rest)
    (hpast' : Smooth past') (hwrong : ¬ y.succeeds = true) : past' = past ∧ y = x := by
  obtain rfl := h.eq_of_mem hpast (ht ▸ List.mem_append_right past' List.mem_cons_self) hwrong
  obtain ⟨notices, rfl⟩ := h
  exact ⟨(hpast.split_unique hpast' hwrong hwrong ht).1.symm, rfl⟩

/-- In exchanges that are smooth up to `x` something has failed when `x` has. -/
theorem Closes.exists_failed_iff (h : Closes t past x) (hpast : Smooth past) :
    (∃ y ∈ t, y.failed = true) ↔ x.failed = true := by
  constructor
  · rintro ⟨y, hy, hfailed⟩
    exact h.eq_of_mem hpast hy (Exchange.not_succeeds_of_failed hfailed) ▸ hfailed
  · obtain ⟨notices, rfl⟩ := h
    exact fun hfailed => ⟨x, List.mem_append_right past List.mem_cons_self, hfailed⟩

/-- After what has gone wrong the rest only tells about it. -/
theorem Closes.told_after (h : Closes t past x) (hpast : Smooth past) (ht : t = past' ++ y :: rest)
    (hwrong : ¬ y.succeeds = true) : ∀ z ∈ rest, ∃ notice, z = .record notice := by
  obtain ⟨notices, rfl⟩ := h
  have htold : ∀ z ∈ notices.map Exchange.record, ∃ notice, z = .record notice := by
    intro z hz
    obtain ⟨notice, -, rfl⟩ := List.mem_map.mp hz
    exact ⟨notice, rfl⟩
  rcases List.append_eq_append_iff.mp ht with ⟨between, -, hrest⟩ | ⟨between, rfl, hrest⟩
  · -- The exchange that went wrong is `x`, for nothing goes wrong when notices are recorded.
    rcases List.append_eq_cons_iff.mp hrest.symm with ⟨-, hrest⟩ | ⟨after, -, hrest⟩
    · exact (List.cons.inj hrest).2 ▸ htold
    · have hy : y ∈ notices.map Exchange.record :=
        hrest ▸ List.mem_append_right _ List.mem_cons_self
      exact absurd (smooth_records notices y hy) hwrong
  · rcases List.append_eq_cons_iff.mp hrest.symm with ⟨-, hrest⟩ | ⟨after, rfl, -⟩
    · exact (List.cons.inj hrest).2.symm ▸ htold
    · exact absurd (hpast y (List.mem_append_right _ List.mem_cons_self)) hwrong

/-- A step after a step ends where the first halts the pass, or where the second ends after the
first has let the pass proceed. -/
theorem andThen_ends {step : Program Flow} {next : Aggregate → Program Flow} {flow : Flow}
    (h : (step.andThen next).Ends t flow) :
    (∃ wish a, flow = .halt wish a ∧ step.Ends t (.halt wish a)) ∨
      ∃ t₁ t₂ a, t = t₁ ++ t₂ ∧ step.Ends t₁ (.proceed a) ∧ (next a).Ends t₂ flow := by
  rw [andThen, ends_bind] at h
  obtain ⟨t₁, t₂, first, rfl, h₁, h₂⟩ := h
  cases first with
  | proceed a => exact .inr ⟨t₁, t₂, a, rfl, h₁, h₂⟩
  | halt wish a =>
    obtain ⟨rfl, rfl⟩ := h₂
    exact .inl ⟨wish, a, rfl, by rwa [List.append_nil]⟩

end Program

namespace Reconciler

open Program

variable {r : Reconciler} {now : UInt64} {key : ObjectKey} {a a' : Aggregate} {t : List Exchange}
  {x : Exchange} {wish : Requeue} {database : Database} {resources : Resources}

/-! ### Looking for something that is needed -/

/-- The wish of a pass that has looked for a resource and does not go on: the resource could not be
read, or is not there, or is not ready. -/
inductive Waits {σ τ : Type} (kind : ResourceKind σ τ) (key : ObjectKey) (delay : Seconds)
    (ready : Resource σ τ → Prop) : Exchange → Requeue → Prop
  | unread {answer : Except StoreError (Option Object)} {e : StoreError}
      (h : kind.read answer = .error e) :
      Waits kind key delay ready (.get kind.name key answer)
        { after := delay, error := some (.fetch kind.name key e) }
  | missing : Waits kind key delay ready (.get kind.name key (.ok none)) { after := delay }
  | unready {o : Object} {resource : Resource σ τ} (ho : kind.ofObject o = .ok resource)
      (h : ¬ ready resource) :
      Waits kind key delay ready (.get kind.name key (.ok (some o))) { after := delay }

theorem Waits.call_eq {σ τ : Type} {kind : ResourceKind σ τ} {delay : Seconds}
    {ready : Resource σ τ → Prop} (h : Waits kind key delay ready x wish) :
    x.call = .get kind.name key := by
  cases h <;> rfl

/-- The gate of the storage cluster halts for want of a storage cluster. -/
theorem awaitStorage_halts (h : (r.awaitStorage a).Ends t (.halt wish a')) : ∃ x, Closes t [] x ∧
    Waits StorageCluster.kind a.storageKey r.delays.storageAwait
      (StorageCluster.isReady · = true) x wish := by
  unfold awaitStorage at h
  rw [ends_bind] at h
  obtain ⟨_, t₂, found, rfl, hfound, h⟩ := h
  obtain ⟨answer, rfl, hread⟩ := fetch_ends.mp hfound
  match found with
  | .error e =>
    obtain ⟨rfl, hwish⟩ := notify_pure_ends.mp h
    obtain ⟨rfl, -⟩ := Flow.halt.inj hwish
    exact ⟨_, closes_told, .unread hread⟩
  | .ok none =>
    obtain rfl := ResourceKind.read_eq_ok_none_iff.mp hread
    obtain ⟨rfl, hwish⟩ := notify_pure_ends.mp h
    obtain ⟨rfl, -⟩ := Flow.halt.inj hwish
    exact ⟨_, closes_told, .missing⟩
  | .ok (some cluster) =>
    obtain ⟨o, rfl, ho⟩ := ResourceKind.read_eq_ok_some_iff.mp hread
    simp only at h
    split at h
    · exact nomatch h.2
    · rename_i hready
      obtain ⟨rfl, hwish⟩ := notify_pure_ends.mp h
      obtain ⟨rfl, -⟩ := Flow.halt.inj hwish
      exact ⟨_, closes_told, .unready ho hready⟩

/-- The storage for a tenant is not found for want of the shared database. -/
theorem storageOf_halts (h : (r.storageOf a).Ends t (.error wish)) :
    ∃ reference x, a.resources = .serverless reference ∧ Closes t [] x ∧
      Waits Database.kind (reference.key a.ns) r.delays.sharedDatabaseAwait
        (·.status.state = .ready) x wish := by
  unfold storageOf at h
  generalize a.resources = resources at h ⊢
  cases resources with
  | dedicated _ | shared _ => exact nomatch h.2
  | serverless reference =>
    rw [ends_bind] at h
    obtain ⟨_, t₂, found, rfl, hfound, h⟩ := h
    obtain ⟨answer, rfl, hread⟩ := fetch_ends.mp hfound
    match found with
    | .error e =>
      obtain ⟨rfl, hwish⟩ := notify_pure_ends.mp h
      obtain rfl := Except.error.inj hwish
      exact ⟨reference, _, rfl, closes_told, .unread hread⟩
    | .ok none =>
      obtain rfl := ResourceKind.read_eq_ok_none_iff.mp hread
      obtain ⟨rfl, hwish⟩ := notify_pure_ends.mp h
      obtain rfl := Except.error.inj hwish
      exact ⟨reference, _, rfl, closes_told, .missing⟩
    | .ok (some database) =>
      obtain ⟨o, rfl, ho⟩ := ResourceKind.read_eq_ok_some_iff.mp hread
      simp only at h
      split at h
      · exact nomatch h.2
      · rename_i hready
        obtain ⟨rfl, hwish⟩ := notify_pure_ends.mp h
        obtain rfl := Except.error.inj hwish
        exact ⟨reference, _, rfl, closes_told, .unready ho hready⟩

/-! ### Writing the status -/

/-- The wish of a pass that makes `st` the stored status of the database at `key`, after some
exchanges for that. -/
inductive Persists (r : Reconciler) (key : ObjectKey) (st : DatabaseStatus) :
    List Exchange → Exchange → Requeue → Prop
  /-- The database cannot be read. -/
  | unread {answer : Except StoreError (Option Object)} {e : StoreError}
      (h : Database.kind.read answer = .error e) :
      Persists r key st [] (.get Database.kind.name key answer)
        { after := r.delays.default, error := some (.fetch Database.kind.name key e) }
  /-- The database is gone. -/
  | gone : Persists r key st [] (.get Database.kind.name key (.ok none))
      { after := r.delays.default, error := some (.statusTargetMissing key) }
  /-- The database has the status already. -/
  | unchanged {o : Object} {fresh : Database} (ho : Database.kind.ofObject o = .ok fresh)
      (h : fresh.status = st) :
      Persists r key st [] (.get Database.kind.name key (.ok (some o)))
        { after := r.delays.statusUpdate }
  /-- The status is refused. -/
  | refused {o : Object} {fresh : Database} {e : StoreError}
      (ho : Database.kind.ofObject o = .ok fresh) (h : fresh.status ≠ st) :
      Persists r key st [.get Database.kind.name key (.ok (some o))]
        (.writeStatus (Database.kind.toObject { fresh with status := st }) (.error e))
        { after := r.delays.default, error := some (.statusUpdate key e) }
  /-- The status is written. -/
  | written {o : Object} {fresh : Database} (ho : Database.kind.ofObject o = .ok fresh)
      (h : fresh.status ≠ st) :
      Persists r key st [.get Database.kind.name key (.ok (some o))]
        (.writeStatus (Database.kind.toObject { fresh with status := st }) (.ok ()))
        { after := r.delays.statusUpdate }

/-- The wish of a pass that has tried to write its status. -/
def wishAfter (r : Reconciler) : Except PassError Unit → Requeue
  | .ok () => { after := r.delays.statusUpdate }
  | .error e => { after := r.delays.default, error := some e }

/-- A report on an attempt to write the status only tells of it. -/
theorem reportWrite_ends {result : Except PassError Unit}
    (h : (r.reportWrite a result).Ends t wish) :
    (∃ notices : List Notice, t = notices.map .record) ∧ wish = r.wishAfter result := by
  cases result with
  | ok _ => exact ⟨⟨[], h.1⟩, h.2.symm⟩
  | error e =>
    obtain ⟨rfl, hwish⟩ := notify_pure_ends.mp h
    exact ⟨⟨[_], rfl⟩, hwish.symm⟩

/-- **The end of writing the status.** -/
theorem persistStatus_ends (h : (r.persistStatus a).Ends t wish) :
    ∃ past x, Closes t past x ∧ r.Persists a.key a.status past x wish := by
  simp only [persistStatus_eq, ends_bind] at h
  obtain ⟨_, _, found, rfl, hfound, _, _, result, rfl, hattempt, hreport⟩ := h
  obtain ⟨answer, rfl, hread⟩ := fetch_ends.mp hfound
  obtain ⟨⟨notices, rfl⟩, rfl⟩ := reportWrite_ends hreport
  match found with
  | .error e =>
    obtain ⟨rfl, rfl⟩ := hattempt
    exact ⟨[], _, ⟨notices, rfl⟩, .unread hread⟩
  | .ok none =>
    obtain rfl := ResourceKind.read_eq_ok_none_iff.mp hread
    obtain ⟨rfl, rfl⟩ := hattempt
    exact ⟨[], _, ⟨notices, rfl⟩, .gone⟩
  | .ok (some fresh) =>
    obtain ⟨o, rfl, ho⟩ := ResourceKind.read_eq_ok_some_iff.mp hread
    dsimp only [attemptWrite, replaceStatus] at hattempt
    split at hattempt
    · rename_i hst
      obtain ⟨rfl, rfl⟩ := hattempt
      exact ⟨[], _, ⟨notices, rfl⟩, .unchanged ho hst⟩
    · rename_i hst
      obtain ⟨answer, t', rfl, hattempt⟩ := hattempt
      match answer with
      | .ok () =>
        obtain ⟨rfl, rfl⟩ := hattempt
        exact ⟨[_], _, ⟨notices, rfl⟩, .written ho hst⟩
      | .error e =>
        obtain ⟨rfl, rfl⟩ := hattempt
        exact ⟨[_], _, ⟨notices, rfl⟩, .refused ho hst⟩

/-- Halting after writing the status leaves the aggregate as it is. -/
theorem persistAndHalt_ends {flow : Flow} : (r.persistAndHalt a).Ends t flow ↔
    ∃ wish, flow = .halt wish a ∧ (r.persistStatus a).Ends t wish := by
  rw [persistAndHalt, ends_bind]
  constructor
  · rintro ⟨t₁, _, wish, rfl, h, rfl, rfl⟩
    exact ⟨wish, rfl, by rwa [List.append_nil]⟩
  · rintro ⟨wish, rfl, h⟩
    exact ⟨t, [], wish, (List.append_nil t).symm, h, rfl, rfl⟩

/-! ### How far a pass has come -/

/-- The storage cluster was found ready, and all builders before those that are left have done their
work. -/
inductive Built (r : Reconciler) (database : Database) (resources : Resources)
    (cluster : StorageCluster) (left : List Builder) : List Exchange → Prop
  | intro {o : Object} {done : List Builder} {synced : List Exchange}
      (ho : StorageCluster.kind.ofObject o = .ok cluster)
      (ready : StorageCluster.isReady cluster = true)
      (catalog : r.catalog ⟨database, resources, some cluster⟩ = done ++ left)
      (sync : Synced database.metadata done synced) :
      Built r database resources cluster left (.get StorageCluster.kind.name
        (database.spec.storageCluster.key database.metadata.ns) (.ok (some o)) :: synced)

/-- All builders have done their work at the beginning of some exchanges. -/
def AllBuilt (r : Reconciler) (database : Database) (resources : Resources)
    (t : List Exchange) : Prop :=
  ∃ cluster built rest, t = built ++ rest ∧ r.Built database resources cluster [] built

/-- The status in which the creation of a tenant is announced. -/
def announced (status : DatabaseStatus) (now : UInt64) : DatabaseStatus :=
  let known := (status.condition? tenantInitialized).isSome
  { if known then status else (status.setCondition tenantInProgress now).1 with
    state := .initializing }

/-- A pass has arrived at a status that is to be written, for what it has found. -/
inductive Arrives (r : Reconciler) (now : UInt64) (database : Database) (resources : Resources) :
    List Exchange → DatabaseStatus → Prop
  /-- The number of running nodes is not the wanted one. -/
  | regress {cluster : StorageCluster} {past : List Exchange} {o : Object} {workload : Workload}
      {notice : Notice} (built : r.Built database resources cluster [] past)
      (hserverless : resources.isServerless = false) (ho : Workload.kind.ofObject o = .ok workload)
      (h : workload.status.replicas ≠ database.spec.nodes) :
      Arrives r now database resources
        (past ++ [.get Workload.kind.name database.key (.ok (some o)), .record notice])
        { database.status with state := .provisioning }
  /-- All nodes are running, and the tenant was created. -/
  | promote {cluster : StorageCluster} {past scaled : List Exchange} {notice : Notice}
      (built : r.Built database resources cluster [] past)
      (scale : Scaled ⟨database, resources, some cluster⟩ scaled)
      (initialized : database.status.isTrue tenantInitialized = true)
      (h : database.status.state ≠ .ready) :
      Arrives r now database resources (past ++ (scaled ++ [.record notice]))
        { database.status with state := .ready }
  /-- The creation of the tenant was not announced. -/
  | announce {cluster : StorageCluster} {past scaled : List Exchange}
      (built : r.Built database resources cluster [] past)
      (scale : Scaled ⟨database, resources, some cluster⟩ scaled)
      (initialized : database.status.isTrue tenantInitialized = false)
      (h : ¬ ((database.status.condition? tenantInitialized).isSome = true ∧
        database.status.state = .initializing)) :
      Arrives r now database resources (past ++ scaled) (announced database.status now)
  /-- The tenant was created. -/
  | complete {past : List Exchange} {request : TenantRequest} {notice : Notice}
      (gated : r.Gated database resources past request) :
      Arrives r now database resources (past ++ [.provision request (.ok ()), .record notice])
        (database.status.setCondition tenantCompleted now).1

/-! ### The wishes of a pass -/

/-- The wish of a pass over a loaded database that halts with an exchange, after some others. -/
inductive Halts (r : Reconciler) (now : UInt64) (database : Database) (resources : Resources) :
    List Exchange → Exchange → Requeue → Prop
  /-- The storage cluster is wanting. -/
  | storage {x : Exchange} {wish : Requeue} (h : Waits StorageCluster.kind
        (database.spec.storageCluster.key database.metadata.ns) r.delays.storageAwait
        (StorageCluster.isReady · = true) x wish) :
      Halts r now database resources [] x wish
  /-- A builder has failed. -/
  | build {cluster : StorageCluster} {b : Builder} {later : List Builder} {past : List Exchange}
      {e : StoreError} (built : r.Built database resources cluster (b :: later) past) :
      Halts r now database resources past
        (.upsert b.placeholder (b.owned database.metadata) (.error e))
        { after := r.delays.default,
          error := some (.sync b.placeholder.kind b.placeholder.key e) }
  /-- The workload of a database that is not serverless is wanting. -/
  | workload {cluster : StorageCluster} {past : List Exchange} {x : Exchange} {wish : Requeue}
      (built : r.Built database resources cluster [] past)
      (hserverless : resources.isServerless = false)
      (h : Waits Workload.kind database.key r.delays.default (fun _ => True) x wish) :
      Halts r now database resources past x wish
  /-- The shared database of a serverless one is wanting when the tenant is to be created. -/
  | shared {cluster : StorageCluster} {past : List Exchange} {reference : Reference}
      {x : Exchange} {wish : Requeue} (built : r.Built database resources cluster [] past)
      (hserverless : resources = .serverless reference)
      (initialized : database.status.isTrue tenantInitialized = false)
      (known : (database.status.condition? tenantInitialized).isSome = true)
      (initializing : database.status.state = .initializing)
      (h : Waits Database.kind (reference.key database.metadata.ns) r.delays.sharedDatabaseAwait
        (·.status.state = .ready) x wish) :
      Halts r now database resources past x wish
  /-- The tenant was not created. -/
  | tenant {past : List Exchange} {request : TenantRequest} {e : ProvisionError}
      (gated : r.Gated database resources past request) :
      Halts r now database resources past (.provision request (.error e))
        { after := r.delays.tenantCreation, error := some (.provisioning request.path e) }
  /-- A status was to be written. -/
  | persist {past past' : List Exchange} {st : DatabaseStatus} {x : Exchange} {wish : Requeue}
      (arrives : r.Arrives now database resources past st)
      (h : r.Persists database.key st past' x wish) :
      Halts r now database resources (past ++ past') x wish

/-- The wish of a pass that ends with an exchange, after some others. -/
inductive Exit (r : Reconciler) (now : UInt64) (key : ObjectKey) :
    List Exchange → Exchange → Requeue → Prop
  /-- The database could not be loaded. -/
  | load {answer : Except StoreError (Option Object)} {e : StoreError}
      (h : Database.kind.read answer = .error e) :
      Exit r now key [] (.get Database.kind.name key answer)
        { after := r.delays.default, error := some (.fetch Database.kind.name key e) }
  /-- The database does not say what storage it asks for. -/
  | configuration {o : Object} {database : Database} {e : ResourcesError}
      (ho : Database.kind.ofObject o = .ok database) (h : database.spec.resolve = .error e) :
      Exit r now key [] (.get Database.kind.name key (.ok (some o)))
        { after := r.delays.default, error := some (.configuration e) }
  /-- A step over the database has halted the pass. -/
  | step {o : Object} {database : Database} {resources : Resources} {past : List Exchange}
      {x : Exchange} {wish : Requeue} (ho : Database.kind.ofObject o = .ok database)
      (hr : database.spec.resolve = .ok resources)
      (h : r.Halts now database resources past x wish) :
      Exit r now key (.get Database.kind.name key (.ok (some o)) :: past) x wish

/-! ### What comes before the end has succeeded -/

theorem Synced.smooth {owner : Metadata} {builders : List Builder}
    (h : Synced owner builders t) : Smooth t := by
  induction h with
  | nil => exact smooth_nil
  | cons outcome notices h ih =>
    exact (smooth_singleton rfl).append ((smooth_records notices).append ih)

theorem Scaled.smooth (h : Scaled a t) : Smooth t := by
  rw [Scaled] at h
  split at h
  · exact h ▸ smooth_nil
  · obtain ⟨o, workload, rfl, ho, -⟩ := h
    exact smooth_get Workload.told ho

theorem Allocated.smooth {storage : TenantStorage} (h : Allocated a storage t) : Smooth t := by
  rw [Allocated] at h
  split at h
  · exact h.1 ▸ smooth_nil
  · exact h.1 ▸ smooth_nil
  · obtain ⟨o, shared, rfl, ho, -⟩ := h
    exact smooth_get Database.told ho

theorem Built.smooth {cluster : StorageCluster} {left : List Builder}
    (h : r.Built database resources cluster left t) : Smooth t := by
  cases h with
  | intro ho _ _ sync => exact (smooth_get StorageCluster.told ho).append sync.smooth

theorem Built.prepares {cluster : StorageCluster} {left : List Builder}
    (h : r.Built database resources cluster left t) : ∀ x ∈ t, x.prepares = true := by
  cases h with
  | intro _ _ _ sync => exact List.forall_mem_cons.mpr ⟨rfl, sync.prepares⟩

theorem Gated.smooth {request : TenantRequest} (h : r.Gated database resources t request) :
    Smooth t := by
  cases h with
  | intro past_eq _ _ _ cluster_eq _ sync scale allocate =>
    subst past_eq
    exact (smooth_get StorageCluster.told cluster_eq).append
      (sync.smooth.append (scale.smooth.append allocate.smooth))

theorem Arrives.smooth {st : DatabaseStatus} (h : r.Arrives now database resources t st) :
    Smooth t := by
  cases h with
  | regress built _ ho _ =>
    exact built.smooth.append ((smooth_get Workload.told ho).append (smooth_singleton rfl))
  | promote built scale _ _ =>
    exact built.smooth.append (scale.smooth.append (smooth_singleton rfl))
  | announce built scale _ _ => exact built.smooth.append scale.smooth
  | complete gated =>
    exact gated.smooth.append ((smooth_singleton rfl).append (smooth_singleton rfl))

theorem Persists.smooth {st : DatabaseStatus} (h : r.Persists key st t x wish) : Smooth t := by
  cases h with
  | unread _ | gone | unchanged _ _ => exact smooth_nil
  | refused ho _ | written ho _ => exact smooth_get Database.told ho

theorem Halts.smooth (h : r.Halts now database resources t x wish) : Smooth t := by
  cases h with
  | storage _ => exact smooth_nil
  | build built | workload built _ _ | shared built _ _ _ _ _ => exact built.smooth
  | tenant gated => exact gated.smooth
  | persist arrives h => exact arrives.smooth.append h.smooth

theorem Exit.smooth (h : r.Exit now key t x wish) : Smooth t := by
  cases h with
  | load _ | configuration _ _ => exact smooth_nil
  | step ho _ h => exact (smooth_get Database.told ho).append h.smooth

/-! ### The end of each step -/

/-- A step over a loaded database halts the pass after the exchanges `past` with exchanges `t`. -/
def Stops (r : Reconciler) (now : UInt64) (database : Database) (resources : Resources)
    (past t : List Exchange) (wish : Requeue) : Prop :=
  ∃ past' x, Closes t past' x ∧ r.Halts now database resources (past ++ past') x wish

variable {cluster : StorageCluster} {past : List Exchange} {st : DatabaseStatus}

theorem Stops.append {t' : List Exchange} (h : r.Stops now database resources (past ++ t) t' wish) :
    r.Stops now database resources past (t ++ t') wish := by
  obtain ⟨past', x, hcloses, hhalts⟩ := h
  exact ⟨t ++ past', x, hcloses.after t, List.append_assoc past t past' ▸ hhalts⟩

/-- The pass stops when it writes the status that it has arrived at. -/
theorem Arrives.stops (harrives : r.Arrives now database resources past st)
    (h : (r.persistStatus (Aggregate.withStatus ⟨database, resources, some cluster⟩ st)).Ends t
      wish) : r.Stops now database resources past t wish := by
  obtain ⟨past', x, hcloses, hpersists⟩ := persistStatus_ends h
  exact ⟨past', x, hcloses, .persist harrives hpersists⟩

/-- The builders halt the pass at the first that fails. -/
theorem syncEach_halts {builders : List Builder}
    (h : (r.syncEach a builders).Ends t (.halt wish a')) :
    ∃ done b later past e, builders = done ++ b :: later ∧ Synced a.database.metadata done past ∧
      Closes t past (.upsert b.placeholder (b.owned a.database.metadata) (.error e)) ∧
      wish = { after := r.delays.default,
               error := some (.sync b.placeholder.kind b.placeholder.key e) } := by
  induction builders generalizing t with
  | nil => exact nomatch h.2
  | cons b rest ih =>
    obtain ⟨answer, t', rfl, h⟩ := h
    match answer with
    | .error e =>
      obtain ⟨rfl, hwish⟩ := notify_pure_ends.mp h
      exact ⟨[], b, rest, [], e, rfl, .nil, closes_told, (Flow.halt.inj hwish).1.symm⟩
    | .ok outcome =>
      have hrest : ∃ (notices : List Notice) (t₂ : List Exchange), t' = notices.map .record ++ t₂ ∧
          (r.syncEach a rest).Ends t₂ (.halt wish a') := by
        change (if outcome.changed then _ else _ : Program Flow).Ends t' (.halt wish a') at h
        split at h
        · obtain ⟨_, t₂, _, rfl, hnotice, h⟩ := ends_bind.mp h
          exact ⟨[_], t₂, by rw [notify_ends.mp hnotice]; rfl, h⟩
        · exact ⟨[], t', rfl, h⟩
      obtain ⟨notices, t₂, rfl, hrest⟩ := hrest
      obtain ⟨done, b', later, past, e, rfl, hsynced, hcloses, hwish⟩ := ih hrest
      refine ⟨b :: done, b', later, _, e, rfl, .cons outcome notices hsynced, ?_, hwish⟩
      exact (hcloses.after (notices.map .record)).after [_]

theorem promote_halts (h : (r.promote a).Ends t (.halt wish a')) :
    a.status.state ≠ .ready ∧ a.tenantInitialized = true ∧ ∃ notice t', t = .record notice :: t' ∧
      (r.persistStatus (a.withState .ready)).Ends t' wish := by
  unfold promote at h
  split at h
  · rename_i hcond
    obtain ⟨_, t', _, rfl, hnotice, h⟩ := ends_bind.mp h
    obtain ⟨_, hflow, h⟩ := persistAndHalt_ends.mp h
    obtain ⟨rfl, -⟩ := Flow.halt.inj hflow
    rw [notify_ends.mp hnotice]
    obtain ⟨hstate, hinit⟩ := Bool.and_eq_true_iff.mp hcond
    exact ⟨of_decide_eq_true hstate, hinit, _, t', rfl, h⟩
  · exact nomatch h.2

theorem promote_stops {scaled : List Exchange} (built : r.Built database resources cluster [] past)
    (scale : Scaled ⟨database, resources, some cluster⟩ scaled)
    (h : (r.promote ⟨database, resources, some cluster⟩).Ends t (.halt wish a')) :
    r.Stops now database resources past (scaled ++ t) wish := by
  obtain ⟨hstate, hinit, notice, t', rfl, hpersist⟩ := promote_halts h
  have harrives : r.Arrives now database resources (past ++ (scaled ++ [.record notice])) _ :=
    .promote built scale hinit hstate
  rw [← List.append_assoc] at harrives
  have hstops := (harrives.stops hpersist).append.append
  exact hstops

/-- The gate of the compute nodes halts the pass for want of a workload, or with a status. -/
theorem awaitScale_stops (built : r.Built database resources cluster [] past)
    (h : (r.awaitScale ⟨database, resources, some cluster⟩).Ends t (.halt wish a')) :
    r.Stops now database resources past t wish := by
  unfold awaitScale at h
  split at h
  · rename_i hserverless
    have hscaled : Scaled ⟨database, resources, some cluster⟩ [] := by
      unfold Scaled
      rw [if_pos hserverless]
    exact promote_stops built hscaled h
  rename_i hserverless
  have hdedicated : resources.isServerless = false := Bool.eq_false_iff.mpr hserverless
  rw [ends_bind] at h
  obtain ⟨_, t₂, found, rfl, hfound, h⟩ := h
  obtain ⟨answer, rfl, hread⟩ := fetch_ends.mp hfound
  match found with
  | .error e =>
    obtain ⟨rfl, hflow⟩ := notify_pure_ends.mp h
    obtain ⟨rfl, -⟩ := Flow.halt.inj hflow
    exact ⟨[], _, closes_told,
      (List.append_nil past).symm ▸ .workload built hdedicated (.unread hread)⟩
  | .ok none =>
    obtain rfl := ResourceKind.read_eq_ok_none_iff.mp hread
    obtain ⟨rfl, hflow⟩ := h
    obtain ⟨rfl, -⟩ := Flow.halt.inj hflow
    exact ⟨[], _, closes_singleton,
      (List.append_nil past).symm ▸ .workload built hdedicated .missing⟩
  | .ok (some workload) =>
    obtain ⟨o, rfl, ho⟩ := ResourceKind.read_eq_ok_some_iff.mp hread
    simp only at h
    split at h
    · rename_i hreplicas
      refine promote_stops built ?_ h
      unfold Scaled
      rw [if_neg hserverless]
      exact ⟨o, workload, rfl, ho, hreplicas⟩
    · rename_i hreplicas
      obtain ⟨_, t', _, rfl, hnotice, hhalt⟩ := ends_bind.mp h
      obtain ⟨_, hflow, hpersist⟩ := persistAndHalt_ends.mp hhalt
      obtain ⟨rfl, -⟩ := Flow.halt.inj hflow
      obtain rfl := notify_ends.mp hnotice
      exact ((Arrives.regress built hdedicated ho hreplicas).stops hpersist).append

theorem announceTenant_eq_ite (r : Reconciler) (now : UInt64) (a : Aggregate) :
    r.announceTenant now a =
      if (a.status.condition? tenantInitialized).isSome && a.status.state = .initializing then
        return .proceed a
      else r.persistAndHalt (a.withStatus (announced a.status now)) := by
  rw [announceTenant, announced]
  cases (a.status.condition? tenantInitialized).isSome <;> rfl

/-- The announcement of a tenant halts the pass with a status. -/
theorem announceTenant_stops {scaled : List Exchange}
    (built : r.Built database resources cluster [] past)
    (scale : Scaled ⟨database, resources, some cluster⟩ scaled)
    (initialized : database.status.isTrue tenantInitialized = false)
    (h : (r.announceTenant now ⟨database, resources, some cluster⟩).Ends t (.halt wish a')) :
    r.Stops now database resources past (scaled ++ t) wish := by
  rw [announceTenant_eq_ite] at h
  split at h
  · exact nomatch h.2
  rename_i hcond
  obtain ⟨_, hflow, h⟩ := persistAndHalt_ends.mp h
  obtain ⟨rfl, -⟩ := Flow.halt.inj hflow
  rw [Bool.and_eq_true, decide_eq_true_eq] at hcond
  exact ((Arrives.announce built scale initialized hcond).stops h).append

/-- A pass whose builders have all done their work passes the gates before the tenant. -/
theorem Built.gated {scaled allocated : List Exchange} {storage : TenantStorage}
    (built : r.Built database resources cluster [] past)
    (initialized : database.status.isTrue tenantInitialized = false)
    (known : (database.status.condition? tenantInitialized).isSome = true)
    (initializing : database.status.state = .initializing)
    (scale : Scaled ⟨database, resources, some cluster⟩ scaled)
    (allocate : Allocated ⟨database, resources, some cluster⟩ storage allocated) :
    r.Gated database resources (past ++ scaled ++ allocated)
      (r.tenantRequest ⟨database, resources, some cluster⟩ cluster storage) := by
  cases built with
  | intro ho ready catalog sync =>
    rw [List.append_nil] at catalog
    rw [List.append_assoc]
    exact .intro rfl known initialized initializing ho ready (catalog ▸ sync) scale allocate rfl rfl
      rfl

/-- The creation of a tenant always halts the pass: for want of the shared database, without a
tenant, or with the status that tells of it. -/
theorem createTenant_stops {scaled : List Exchange} {flow : Flow}
    (built : r.Built database resources cluster [] past)
    (scale : Scaled ⟨database, resources, some cluster⟩ scaled)
    (initialized : database.status.isTrue tenantInitialized = false)
    (known : (database.status.condition? tenantInitialized).isSome = true)
    (initializing : database.status.state = .initializing)
    (h : (r.createTenant now ⟨database, resources, some cluster⟩).Ends t flow) :
    ∃ wish a', flow = .halt wish a' ∧ r.Stops now database resources past (scaled ++ t) wish := by
  unfold createTenant at h
  rw [ends_bind] at h
  obtain ⟨allocated, t₂, found, rfl, hfound, h⟩ := h
  match found with
  | .error wish =>
    obtain ⟨rfl, rfl⟩ := h
    obtain ⟨reference, x, hserverless, hcloses, hwaits⟩ := storageOf_halts hfound
    change resources = .serverless reference at hserverless
    subst hserverless
    obtain rfl : scaled = [] := scale
    rw [List.append_nil]
    exact ⟨wish, _, rfl, [], x, hcloses, (List.append_nil past).symm ▸
      .shared built rfl initialized known initializing hwaits⟩
  | .ok storage =>
    obtain ⟨answer, t', rfl, hnext⟩ := provision_ends.mp h
    have halloc := storageOf_ends hfound
    have gated := built.gated initialized known initializing scale halloc
    match answer with
    | .error e =>
      obtain ⟨rfl, rfl⟩ := notify_pure_ends.mp hnext
      refine ⟨_, _, rfl, .append (.append ⟨[], _, closes_told, ?_⟩)⟩
      exact (List.append_nil _).symm ▸ .tenant gated
    | .ok () =>
      obtain ⟨_, t'', _, rfl, hnotice, hhalt⟩ := ends_bind.mp hnext
      obtain ⟨wish, rfl, hpersist⟩ := persistAndHalt_ends.mp hhalt
      obtain rfl := notify_ends.mp hnotice
      exact ⟨wish, _, rfl, .append (.append ((Arrives.complete gated).stops hpersist).append)⟩

/-! ### The end of a pass -/

/-- **The end of the steps of a pass.** Either every call has got what it was made for, all builders
have done their work, and nothing is left to do; or a step has halted the pass. -/
theorem steps_ends {flow : Flow} (h : (r.steps now ⟨database, resources, none⟩).Ends t flow) :
    (∃ a, flow = .proceed a ∧ Smooth t ∧ r.AllBuilt database resources t) ∨
      ∃ wish a, flow = .halt wish a ∧ r.Stops now database resources [] t wish := by
  unfold steps at h
  rcases andThen_ends h with ⟨wish, a', rfl, hhalt⟩ | ⟨t₁, t₂, _, rfl, hstorage, h⟩
  · obtain ⟨x, hcloses, hwaits⟩ := awaitStorage_halts hhalt
    exact .inr ⟨wish, a', rfl, [], x, hcloses, .storage hwaits⟩
  obtain ⟨o, cluster, rfl, ho, hready, rfl⟩ := awaitStorage_proceeds hstorage
  rcases andThen_ends h with ⟨wish, a', rfl, hhalt⟩ | ⟨t₂, t₃, _, rfl, hsync, h⟩
  · obtain ⟨done, b, later, past, e, hcatalog, hsynced, hcloses, rfl⟩ := syncEach_halts hhalt
    exact .inr ⟨_, a', rfl, _, _, hcloses.after [_], .build (.intro ho hready hcatalog hsynced)⟩
  obtain ⟨rfl, hsynced⟩ := syncEach_proceeds hsync
  have hbuilt : r.Built database resources cluster [] _ :=
    .intro ho hready (List.append_nil _).symm hsynced
  -- What halts the pass from here on does so after the storage cluster and the builders.
  suffices hlast : (∃ a, flow = .proceed a ∧ Smooth t₃) ∨ ∃ wish a, flow = .halt wish a ∧
      r.Stops now database resources (_ :: t₂) t₃ wish by
    refine hlast.imp (fun ⟨a, hflow, hsmooth⟩ =>
      ⟨a, hflow, hbuilt.smooth.append hsmooth, cluster, _, t₃, rfl, hbuilt⟩) ?_
    rintro ⟨wish, a, hflow, hstops⟩
    exact ⟨wish, a, hflow, .append (.append hstops)⟩
  rcases andThen_ends h with ⟨wish, a', rfl, hhalt⟩ | ⟨t₃, t₄, _, rfl, hscale, h⟩
  · exact .inr ⟨wish, a', rfl, awaitScale_stops hbuilt hhalt⟩
  obtain ⟨rfl, hscaled⟩ := awaitScale_proceeds hscale
  split at h
  · obtain ⟨rfl, rfl⟩ := h
    exact .inl ⟨_, rfl, hscaled.smooth.append smooth_nil⟩
  rename_i hinit
  have hinitialized : database.status.isTrue tenantInitialized = false :=
    Bool.eq_false_iff.mpr hinit
  rcases andThen_ends h with ⟨wish, a', rfl, hhalt⟩ | ⟨_, t₅, _, rfl, hannounce, hcreate⟩
  · exact .inr ⟨wish, a', rfl, announceTenant_stops hbuilt hscaled hinitialized hhalt⟩
  obtain ⟨rfl, rfl, hknown, hstate⟩ := announceTenant_proceeds hannounce
  exact .inr (createTenant_stops hbuilt hscaled hinitialized hknown hstate hcreate)

/-- A run over a loaded database ends as its steps do. -/
theorem runAggregate_ends {result : Directive × Aggregate}
    (h : (r.runAggregate now a).Ends t result) :
    (∃ a', result = (.converged, a') ∧ (r.steps now a).Ends t (.proceed a')) ∨
      ∃ wish a', result = (.requeue wish, a') ∧ (r.steps now a).Ends t (.halt wish a') := by
  rw [runAggregate, ends_bind] at h
  obtain ⟨t₁, _, flow, rfl, hsteps, hflow⟩ := h
  cases flow with
  | proceed a' =>
    obtain ⟨rfl, rfl⟩ := hflow
    exact .inl ⟨a', rfl, (List.append_nil t₁).symm ▸ hsteps⟩
  | halt wish a' =>
    obtain ⟨rfl, rfl⟩ := hflow
    exact .inr ⟨wish, a', rfl, (List.append_nil t₁).symm ▸ hsteps⟩

/-- A database that cannot be passed over does not say what storage it asks for. -/
theorem resolve_of_ofDatabase_eq_error {e : ResourcesError}
    (h : Aggregate.ofDatabase database = .error e) : database.spec.resolve = .error e := by
  unfold Aggregate.ofDatabase at h
  cases hr : database.spec.resolve with
  | error e' => rw [hr] at h; exact congrArg _ (Except.error.inj h)
  | ok resources => rw [hr] at h; exact nomatch h

/-- **The end of a pass.** Nothing is left to do when the database is not there, or when every call
has got what it was made for. Otherwise the wish for another pass is one of those listed. -/
theorem reconcile_ends {directive : Directive} (h : (r.reconcile now key).Ends t directive) :
    (directive = .converged ∧ (t = [.get Database.kind.name key (.ok none)] ∨ Smooth t ∧
        ∃ o database resources t', t = .get Database.kind.name key (.ok (some o)) :: t' ∧
          Database.kind.ofObject o = .ok database ∧ database.spec.resolve = .ok resources ∧
          r.AllBuilt database resources t')) ∨
      ∃ wish past x, directive = .requeue wish ∧ Closes t past x ∧ r.Exit now key past x wish := by
  unfold reconcile at h
  rw [ends_bind] at h
  obtain ⟨_, t', found, rfl, hfound, h⟩ := h
  obtain ⟨answer, rfl, hread⟩ := fetch_ends.mp hfound
  match found with
  | .error e =>
    obtain ⟨rfl, rfl⟩ := h
    exact .inr ⟨_, [], _, rfl, closes_singleton, .load hread⟩
  | .ok none =>
    obtain rfl := ResourceKind.read_eq_ok_none_iff.mp hread
    obtain ⟨rfl, rfl⟩ := h
    exact .inl ⟨rfl, .inl rfl⟩
  | .ok (some database) =>
    obtain ⟨o, rfl, ho⟩ := ResourceKind.read_eq_ok_some_iff.mp hread
    simp only at h
    split at h
    · rename_i e he
      obtain ⟨rfl, rfl⟩ := notify_pure_ends.mp h
      exact .inr ⟨_, [], _, rfl, closes_told, .configuration ho
        (resolve_of_ofDatabase_eq_error he)⟩
    rename_i a ha
    obtain ⟨resources, hr, rfl⟩ := Aggregate.ofDatabase_eq_ok_iff.mp ha
    obtain ⟨_, _, ⟨_, _⟩, rfl, hrun, rfl, rfl⟩ := ends_bind.mp h
    rw [List.append_nil]
    rcases runAggregate_ends hrun with ⟨a, hresult, hsteps⟩ | ⟨wish, a, hresult, hsteps⟩
    · obtain ⟨rfl, rfl⟩ := Prod.mk.inj hresult
      rcases steps_ends hsteps with ⟨_, -, hsmooth, hbuilt⟩ | ⟨_, _, hflow, -⟩
      · exact .inl ⟨rfl, .inr ⟨(smooth_get Database.told ho).append hsmooth,
          o, database, resources, _, rfl, ho, hr, hbuilt⟩⟩
      · exact nomatch hflow
    · obtain ⟨rfl, rfl⟩ := Prod.mk.inj hresult
      rcases steps_ends hsteps with ⟨_, hflow, -⟩ | ⟨_, _, hflow, past, x, hcloses, hhalts⟩
      · exact nomatch hflow
      · obtain ⟨rfl, -⟩ := Flow.halt.inj hflow
        exact .inr ⟨wish, _, x, rfl, hcloses.after [_], .step ho hr hhalts⟩

end Reconciler

end Converge

import Converge.Proofs.Operations
import Converge.Proofs.Steps

/-!
# Programs that change no object

A program is idle over a store when it changes no object and no tenant there, and only records
notices. Which notices these are, and with which value the program ends, is then decided by the
objects of the store alone: not by its events, and not by the clock.

## Main definitions

* `Store.tell`: a store after some notices were recorded.
* `Program.Idle`: a program that only records some notices.
* `Store.Supplies`: the shared database of a serverless database is there and ready.
* `Store.Allots`: the storage that the tenant of a database is given.

## Main results

* `Program.run_bind`, `Program.trace_bind`: a run of a program after a program.
* `Program.Idle.bind`, `Program.Idle.andThen`: idle programs and steps in a row.
* `Reconciler.awaitStorage_idle`, `Reconciler.storageOf_idle`: steps that are always idle.
-/

namespace Converge

namespace Store

variable {s s' : Store} {now : UInt64}

theorem find?_congr (hs : s'.objects = s.objects) (kind : String) (key : ObjectKey) :
    s'.find? kind key = s.find? kind key := by
  rw [find?, find?, hs]

/-- The store after some notices were recorded at time `now`. -/
def tell (notices : List Notice) (now : UInt64) (s : Store) : Store :=
  notices.foldl (fun s notice => s.record notice now) s

@[simp] theorem tell_nil : s.tell [] now = s := rfl

theorem tell_append {notices notices' : List Notice} :
    s.tell (notices ++ notices') now = (s.tell notices now).tell notices' now :=
  List.foldl_append

/-- A notice changes no object and no tenant. -/
theorem record_frame (s : Store) (notice : Notice) (now : UInt64) :
    (s.record notice now).objects = s.objects ∧ (s.record notice now).tenants = s.tenants := by
  rw [record, putEvent_eq]
  exact ⟨rfl, rfl⟩

theorem tell_frame (s : Store) (notices : List Notice) (now : UInt64) :
    (s.tell notices now).objects = s.objects ∧ (s.tell notices now).tenants = s.tenants := by
  induction notices generalizing s with
  | nil => exact ⟨rfl, rfl⟩
  | cons notice notices ih =>
    obtain ⟨hobjects, htenants⟩ := ih (s.record notice now)
    obtain ⟨hobjects', htenants'⟩ := s.record_frame notice now
    exact ⟨hobjects.trans hobjects', htenants.trans htenants'⟩

end Store

namespace Program

variable {α β σ : Type} {s s' : Store} {p : Program α} {f : α → Program β} {a : α} {b : β}
  {notices notices' : List Notice}

/-- A run of a program after a program is a run of each. -/
theorem run_bind (c : Collaborators σ) (p : Program α) (f : α → Program β) (w : σ) :
    (p >>= f).run c w = (f (p.run c w).1).run c (p.run c w).2 := by
  change (p.bind f).run c w = _
  induction p generalizing w with
  | done a => rfl
  | record notice next ih => exact ih _
  | get _ _ next ih | upsert _ _ next ih | writeStatus _ next ih | provision _ next ih =>
    exact ih _ _

/-- The trace of a program after a program is a trace of each. -/
theorem trace_bind (c : Collaborators σ) (p : Program α) (f : α → Program β) (w : σ) :
    (p >>= f).trace c w = p.trace c w ++ (f (p.run c w).1).trace c (p.run c w).2 := by
  change (p.bind f).trace c w = _
  induction p generalizing w with
  | done a => rfl
  | record notice next ih => exact congrArg _ (ih _)
  | get _ _ next ih | upsert _ _ next ih | writeStatus _ next ih | provision _ next ih =>
    exact congrArg _ (ih _ _)

theorem run_writeStatus {w : Object} {version : UInt64} {next : Except StoreError Unit → Program α}
    (now : UInt64) (h : s.writeStatus w = (.ok version, s')) :
    (writeStatus w next).run (Store.collaborators now) s =
      (next (.ok ())).run (Store.collaborators now) s' := by
  simp only [run, Store.collaborators, h]
  rfl

/-- Over every store with the objects of `s` the program ends with `a`, and does nothing but record
`notices`. -/
def Idle (p : Program α) (s : Store) (notices : List Notice) (a : α) : Prop :=
  ∀ now s', s'.objects = s.objects →
    p.run (Store.collaborators now) s' = (a, s'.tell notices now)

/-- What an idle program does depends on the objects only. -/
theorem Idle.of_objects (h : p.Idle s notices a) (hs : s'.objects = s.objects) :
    p.Idle s' notices a :=
  fun now s'' hs'' => h now s'' (hs''.trans hs)

theorem Idle.run (h : p.Idle s notices a) (now : UInt64) :
    p.run (Store.collaborators now) s = (a, s.tell notices now) :=
  h now s rfl

theorem idle_pure : (pure a : Program α).Idle s [] a := fun _ _ _ => rfl

/-- Idle programs in a row record their notices in a row. -/
theorem Idle.bind (hp : p.Idle s notices a) (hf : (f a).Idle s notices' b) :
    (p >>= f).Idle s (notices ++ notices') b := by
  intro now s' hs'
  rw [run_bind, hp now s' hs', Store.tell_append]
  exact hf now _ ((Store.tell_frame s' notices now).1.trans hs')

/-- A program that only reads after an idle one. -/
theorem Idle.before (hp : p.Idle s notices a) (hf : (f a).Idle s [] b) :
    (p >>= f).Idle s notices b := by
  have h := hp.bind hf
  rwa [List.append_nil] at h

/-- A program after one that only reads. -/
theorem Idle.after (hp : p.Idle s [] a) (hf : (f a).Idle s notices b) :
    (p >>= f).Idle s notices b :=
  hp.bind hf

theorem fetch_idle {σ τ : Type} {kind : ResourceKind σ τ} {key : ObjectKey}
    {found : Except StoreError (Option (Resource σ τ))}
    (h : kind.read (.ok (s.find? kind.name key)) = found) : (fetch kind key).Idle s [] found := by
  intro now s' hs'
  subst h
  simp only [fetch, run, Store.collaborators, Store.find?_congr hs']
  cases s.find? kind.name key <;> rfl

theorem notify_pure_idle {subject : ObjectKey} {severity : Severity} {reason message : String} :
    (notify subject severity reason message >>= fun _ => pure a).Idle s
      [{ subject, severity, reason, message }] a :=
  fun _ _ _ => rfl

theorem Idle.of_pos {c : Prop} [Decidable c] (hc : c) (h : p.Idle s notices a) {q : Program α} :
    (if c then p else q).Idle s notices a := by
  rwa [if_pos hc]

theorem Idle.of_neg {c : Prop} [Decidable c] (hc : ¬ c) (h : p.Idle s notices a) {q : Program α} :
    (if c then q else p).Idle s notices a := by
  rwa [if_neg hc]

/-! ### Steps in a row -/

variable {step : Program Flow} {next : Aggregate → Program Flow} {x : Aggregate} {flow : Flow}
  {wish : Requeue}

theorem run_andThen_proceed {c : Collaborators σ} {w w' : σ}
    (h : step.run c w = (.proceed x, w')) : (step.andThen next).run c w = (next x).run c w' := by
  rw [Program.andThen, run_bind, h]

/-- A run of two steps ends when the first halts the pass. -/
theorem run_andThen_halt {c : Collaborators σ} {w w' : σ}
    (h : step.run c w = (.halt wish x, w')) : (step.andThen next).run c w = (.halt wish x, w') := by
  rw [Program.andThen, run_bind, h]
  rfl

/-- The second of two idle steps follows when the first lets the pass proceed. -/
theorem Idle.andThen (h : step.Idle s notices (.proceed x))
    (hnext : (next x).Idle s notices' flow) :
    (step.andThen next).Idle s (notices ++ notices') flow :=
  Idle.bind h hnext

/-- The first of two steps is the last when it halts the pass. -/
theorem Idle.andThen_halt (h : step.Idle s notices (.halt wish x)) :
    (step.andThen next).Idle s notices (.halt wish x) :=
  fun now s' hs' => run_andThen_halt (h now s' hs')

end Program

/-! ### Steps that are idle -/

/-- At most one notice, and that is about the object at `key`. -/
structure Brief (key : ObjectKey) (notices : List Notice) : Prop where
  length_le : notices.length ≤ 1
  display_eq : ∀ notice ∈ notices, notice.subject.display = key.display

theorem brief_nil {key : ObjectKey} : Brief key [] :=
  ⟨Nat.zero_le 1, fun _ h => absurd h List.not_mem_nil⟩

theorem brief_singleton {key : ObjectKey} {severity : Severity} {reason message : String} :
    Brief key [⟨key, severity, reason, message⟩] :=
  ⟨Nat.le_refl 1, fun _ h => by rw [List.mem_singleton.mp h]⟩

/-- The shared database in which a serverless database wants its place is there and ready. -/
def Store.Supplies (s : Store) (a : Aggregate) : Prop :=
  ∀ reference, a.resources = .serverless reference → ∃ shared,
    Database.kind.read (.ok (s.find? Database.kind.name (reference.key a.ns))) =
      .ok (some shared) ∧ shared.status.state = .ready

/-- The storage that the tenant of a database in the namespace `ns` is given: units of its own,
units that can be shared, or a place inside the tenant of a shared database, which has to be ready.
-/
def Store.Allots (s : Store) (ns : String) (resources : Resources) (storage : TenantStorage) :
    Prop :=
  match resources with
  | .dedicated units => storage = { units }
  | .shared units => storage = { units, shared := true }
  | .serverless reference => ∃ shared,
    Database.kind.read (.ok (s.find? Database.kind.name (reference.key ns))) = .ok (some shared) ∧
      shared.status.state = .ready ∧
      let path := tenantPath shared.spec.domain shared.metadata.name
      storage = { sharedDatabasePath := some path }

namespace Reconciler

variable {r : Reconciler} {a : Aggregate} {s : Store}

theorem awaitStorage_idle_of_ready {cluster : StorageCluster} (hread : StorageCluster.kind.read
      (.ok (s.find? StorageCluster.kind.name a.storageKey)) = .ok (some cluster))
    (hready : StorageCluster.isReady cluster = true) :
    (r.awaitStorage a).Idle s [] (.proceed { a with storage := some cluster }) :=
  (Program.fetch_idle hread).after (.of_pos hready Program.idle_pure)

/-- The gate of the storage cluster is idle: it tells why it halts, or has found the cluster
ready. -/
theorem awaitStorage_idle (r : Reconciler) (a : Aggregate) (s : Store) :
    (∃ wish notices, Brief a.key notices ∧ (r.awaitStorage a).Idle s notices (.halt wish a)) ∨
    ∃ cluster, StorageCluster.kind.read (.ok (s.find? StorageCluster.kind.name a.storageKey)) =
        .ok (some cluster) ∧ StorageCluster.isReady cluster = true := by
  generalize hread : StorageCluster.kind.read _ = found
  have hfetch := Program.fetch_idle hread
  rcases found with e | _ | cluster
  · exact .inl ⟨_, _, brief_singleton, hfetch.after Program.notify_pure_idle⟩
  · exact .inl ⟨_, _, brief_singleton, hfetch.after Program.notify_pure_idle⟩
  by_cases hready : StorageCluster.isReady cluster = true
  · exact .inr ⟨cluster, rfl, hready⟩
  · exact .inl ⟨_, _, brief_singleton, hfetch.after (.of_neg hready Program.notify_pure_idle)⟩

/-- The search for the storage of a tenant is idle: it tells why the pass has to wait, or has found
it. -/
theorem storageOf_idle (r : Reconciler) (a : Aggregate) (s : Store) :
    (¬ s.Supplies a ∧ ∃ wish notices, Brief a.key notices ∧
      (r.storageOf a).Idle s notices (.error wish)) ∨
    ∃ storage, s.Allots a.ns a.resources storage ∧ (r.storageOf a).Idle s [] (.ok storage) := by
  unfold storageOf Store.Supplies
  generalize a.resources = resources
  cases resources with
  | dedicated units => exact .inr ⟨_, rfl, Program.idle_pure⟩
  | shared units => exact .inr ⟨_, rfl, Program.idle_pure⟩
  | serverless reference =>
    have hfetch : (Program.fetch Database.kind (reference.key a.ns)).Idle s [] _ :=
      Program.fetch_idle rfl
    generalize hread : Database.kind.read _ = found at hfetch
    rcases found with e | _ | database
    · refine .inl ⟨fun h => ?_, _, _, brief_singleton, hfetch.after Program.notify_pure_idle⟩
      obtain ⟨_, hshared, -⟩ := h reference rfl
      exact nomatch hread.symm.trans hshared
    · refine .inl ⟨fun h => ?_, _, _, brief_singleton, hfetch.after Program.notify_pure_idle⟩
      obtain ⟨_, hshared, -⟩ := h reference rfl
      exact nomatch hread.symm.trans hshared
    by_cases hready : database.status.state = .ready
    · exact .inr ⟨_, ⟨database, hread, hready, rfl⟩,
        hfetch.after (.of_pos hready Program.idle_pure)⟩
    · refine .inl ⟨fun h => ?_, _, _, brief_singleton,
        hfetch.after (.of_neg hready Program.notify_pure_idle)⟩
      obtain ⟨shared, hshared, hstate⟩ := h reference rfl
      obtain rfl := Option.some.inj (Except.ok.inj (hread.symm.trans hshared))
      exact hready hstate

end Reconciler

end Converge

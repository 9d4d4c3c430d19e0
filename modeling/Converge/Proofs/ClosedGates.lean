import Converge.Proofs.Frame
import Converge.Proofs.ProvisioningGate

/-!
# Closed gates

Before a pass writes anything its database has to be loaded, has to ask for storage in exactly one
way, and has to find its storage cluster ready. As long as one of these gates is closed a pass only
reads, and then tells which gate that is, unless there is no database to tell it of. It does not
matter why a gate is closed: because of what is stored, or because it could not be read.

## Main definitions

* `Program.Plays`: what a program does in a world, and what becomes of both.
* `Store.answer`, `Store.noted`: what an unreliable store answers, and what it records.

## Main results

* `Program.Plays.bind`: a program after a program.
* `Reconciler.plays_of_unloaded`, `Reconciler.plays_of_misconfigured`,
  `Reconciler.plays_of_unready`: a pass in front of each of the three gates, in any world.
* `Reconciler.closed_gates`: a pass over a store in front of a closed gate.
-/

namespace Converge

open Program (Exchange)

/-! ### What programs do in a world -/

namespace Program

variable {α β σ σ' τ : Type} {c : Collaborators σ} {p : Program α} {f : α → Program β} {a : α}
  {b : β} {t t' : List Exchange} {w w' w'' : σ}

/-- In the world `w` the program makes the exchanges `t`, ends with `a`, and leaves the world
`w'`. -/
structure Plays (c : Collaborators σ) (p : Program α) (w : σ) (t : List Exchange) (a : α) (w' : σ) :
    Prop where
  run : p.run c w = (a, w')
  trace : p.trace c w = t

private theorem plays_pure : (pure a : Program α).Plays c w [] a w := ⟨rfl, rfl⟩

/-- A program after a program makes the exchanges of both. -/
theorem Plays.bind (hp : p.Plays c w t a w') (hf : (f a).Plays c w' t' b w'') :
    (p >>= f).Plays c w (t ++ t') b w'' where
  run := by rw [run_bind, hp.run, hf.run]
  trace := by rw [trace_bind, hp.run, hp.trace, hf.trace]

theorem Plays.bind_pure (hp : p.Plays c w t a w') (hf : f a = pure b) :
    (p >>= f).Plays c w t b w' := by
  have hpure : (f a).Plays c w' [] b w' := hf ▸ plays_pure
  have hbind := hp.bind hpure
  rwa [List.append_nil] at hbind

theorem Plays.of_neg {q : Prop} [Decidable q] (hq : ¬ q) (h : p.Plays c w t a w')
    {p' : Program α} : (if q then p' else p).Plays c w t a w' := by
  rwa [if_neg hq]

theorem Plays.andThen_halt {step : Program Flow} {next : Aggregate → Program Flow} {wish : Requeue}
    {x : Aggregate} (h : step.Plays c w t (.halt wish x) w') :
    (step.andThen next).Plays c w t (.halt wish x) w' :=
  Plays.bind_pure h rfl

theorem fetch_plays {kind : ResourceKind σ' τ} {key : ObjectKey} (c : Collaborators σ) (w : σ) :
    (fetch kind key).Plays c w [.get kind.name key (c.get kind.name key w).1]
      (kind.read (c.get kind.name key w).1) (c.get kind.name key w).2 := by
  generalize hget : c.get kind.name key w = got
  obtain ⟨answer, w'⟩ := got
  constructor
  · simp only [fetch, run, hget]
    rcases answer with e | _ | o <;> rfl
  · simp only [fetch, trace, hget]
    rcases answer with e | _ | o <;> rfl

theorem notify_pure_plays {subject : ObjectKey} {severity : Severity} {reason message : String} :
    (notify subject severity reason message >>= fun _ => pure a).Plays c w
      [.record ⟨subject, severity, reason, message⟩] a
      (c.record ⟨subject, severity, reason, message⟩ w) :=
  ⟨rfl, rfl⟩

end Program

/-! ### Passes in front of a closed gate -/

private theorem DatabaseSpec.resolve_of_length_ne {spec : DatabaseSpec}
    (h : spec.requested.length ≠ 1) :
    ∃ e, spec.resolve = .error e := by
  cases hresolve : spec.resolve with
  | error e => exact ⟨e, rfl⟩
  | ok resources =>
    obtain ⟨field, hrequested⟩ := resolve_eq_ok_iff.mp hresolve
    exact absurd (congrArg List.length hrequested) h

namespace Reconciler

variable {σ : Type} {c : Collaborators σ} {w : σ} {r : Reconciler} {now : UInt64} {key : ObjectKey}
  {a : Aggregate} {database : Database} {resources : Resources}

/-- The gate of the storage cluster is closed unless a cluster is read that is ready. -/
theorem awaitStorage_plays (r : Reconciler) (hclosed : ∀ cluster, StorageCluster.kind.read
      (c.get StorageCluster.kind.name a.storageKey w).1 = .ok (some cluster) →
      StorageCluster.isReady cluster = false) :
    ∃ wish notice, notice.subject = a.key ∧ notice.severity = .warning ∧
      (r.awaitStorage a).Plays c w
        [.get StorageCluster.kind.name a.storageKey
          (c.get StorageCluster.kind.name a.storageKey w).1, .record notice]
        (.halt wish a) (c.record notice (c.get StorageCluster.kind.name a.storageKey w).2) := by
  have hfetch : (Program.fetch StorageCluster.kind a.storageKey).Plays c w _ _ _ :=
    Program.fetch_plays c w
  generalize StorageCluster.kind.read _ = found at hfetch hclosed
  rcases found with e | _ | cluster
  · refine ⟨_, _, ?_, ?_, hfetch.bind Program.notify_pure_plays⟩ <;> rfl
  · refine ⟨_, _, ?_, ?_, hfetch.bind Program.notify_pure_plays⟩ <;> rfl
  · have hready : ¬ StorageCluster.isReady cluster = true :=
      Bool.eq_false_iff.mp (hclosed cluster rfl)
    refine ⟨_, _, ?_, ?_, hfetch.bind (.of_neg hready Program.notify_pure_plays)⟩ <;> rfl

/-- A pass that loads no database only tries to. -/
theorem plays_of_unloaded (r : Reconciler) (now : UInt64) (h : ∀ database,
      Database.kind.read (c.get Database.kind.name key w).1 ≠ .ok (some database)) :
    ∃ directive, (r.reconcile now key).Plays c w
      [.get Database.kind.name key (c.get Database.kind.name key w).1] directive
      (c.get Database.kind.name key w).2 := by
  have hfetch : (Program.fetch Database.kind key).Plays c w _ _ _ := Program.fetch_plays c w
  generalize Database.kind.read _ = found at hfetch h
  rcases found with e | _ | database
  · exact ⟨_, hfetch.bind_pure rfl⟩
  · exact ⟨_, hfetch.bind_pure rfl⟩
  · exact absurd rfl (h database)

/-- A pass over a database that does not ask for storage in exactly one way says so. -/
theorem plays_of_misconfigured (r : Reconciler) (now : UInt64)
    (hread : Database.kind.read (c.get Database.kind.name key w).1 = .ok (some database))
    (h : database.spec.requested.length ≠ 1) :
    ∃ directive notice, notice.subject = key ∧ notice.severity = .warning ∧
      (r.reconcile now key).Plays c w
        [.get Database.kind.name key (c.get Database.kind.name key w).1, .record notice] directive
        (c.record notice (c.get Database.kind.name key w).2) := by
  have hfetch : (Program.fetch Database.kind key).Plays c w _ _ _ := Program.fetch_plays c w
  rw [hread] at hfetch
  obtain ⟨e, hresolve⟩ := DatabaseSpec.resolve_of_length_ne h
  have hload : Aggregate.ofDatabase database = .error e := by
    rw [Aggregate.ofDatabase, hresolve]
    rfl
  refine ⟨.requeue ⟨r.delays.default, some (.configuration e)⟩,
    ⟨key, .warning, "ControllerError", e.message⟩, rfl, rfl, hfetch.bind ?_⟩
  simp only [hload]
  exact Program.notify_pure_plays

/-- A pass over a database whose storage cluster is not ready says so. -/
theorem plays_of_unready (r : Reconciler) (now : UInt64)
    (hread : Database.kind.read (c.get Database.kind.name key w).1 = .ok (some database))
    (hresolve : database.spec.resolve = .ok resources) {w' : σ}
    (hw : (c.get Database.kind.name key w).2 = w') {storageKey : ObjectKey}
    (hstorage : storageKey = database.spec.storageCluster.key database.metadata.ns)
    (hclosed : ∀ cluster, StorageCluster.kind.read
      (c.get StorageCluster.kind.name storageKey w').1 = .ok (some cluster) →
      StorageCluster.isReady cluster = false) :
    ∃ directive notice, notice.subject = database.key ∧ notice.severity = .warning ∧
      (r.reconcile now key).Plays c w
        [.get Database.kind.name key (c.get Database.kind.name key w).1,
          .get StorageCluster.kind.name storageKey
            (c.get StorageCluster.kind.name storageKey w').1,
          .record notice] directive
        (c.record notice (c.get StorageCluster.kind.name storageKey w').2) := by
  subst hstorage hw
  have hfetch : (Program.fetch Database.kind key).Plays c w _ _ _ := Program.fetch_plays c w
  rw [hread] at hfetch
  have hload : Aggregate.ofDatabase database = .ok ⟨database, resources, none⟩ :=
    Aggregate.ofDatabase_eq_ok_iff.mpr ⟨resources, hresolve, rfl⟩
  obtain ⟨wish, notice, hsubject, hseverity, hgate⟩ :=
    awaitStorage_plays (a := ⟨database, resources, none⟩) r hclosed
  have hsteps : (r.steps now ⟨database, resources, none⟩).Plays c _ _ (.halt wish _) _ :=
    hgate.andThen_halt
  have hrun : (r.runAggregate now ⟨database, resources, none⟩).Plays c _ _ (.requeue wish, _) _ :=
    hsteps.bind_pure rfl
  refine ⟨.requeue wish, notice, hsubject, hseverity, hfetch.bind ?_⟩
  simp only [hload]
  exact hrun.bind_pure rfl

end Reconciler

/-! ### Over an unreliable store -/

namespace Store

variable {clock : Nat → UInt64} {outages : Nat → Option Outage} {n : Nat} {s : Store}

/-- What is answered when an object is asked for: what is stored, or how the call fails. -/
def answer (s : Store) (outage? : Option Outage) (kind : String) (key : ObjectKey) :
    Except StoreError (Option Object) :=
  match outage? with
  | none => .ok (s.find? kind key)
  | some outage => .error outage.store

/-- The store after a notice, which is lost when the call fails. -/
def noted (s : Store) (outage? : Option Outage) (notice : Notice) (now : UInt64) : Store :=
  match outage? with
  | none => s.record notice now
  | some _ => s

private theorem unreliable_get (kind : String) (key : ObjectKey) :
    (unreliable clock outages).get kind key (n, s) = (s.answer (outages n) kind key, n + 1, s) := by
  simp only [unreliable, Collaborators.inTurn, answer]
  cases outages n <;> rfl

private theorem unreliable_record (notice : Notice) :
    (unreliable clock outages).record notice (n, s) =
      (n + 1, s.noted (outages n) notice (clock n)) := by
  simp only [unreliable, Collaborators.inTurn, noted]
  cases outages n <;> rfl

private theorem noted_frame (s : Store) (outage? : Option Outage) (notice : Notice) (now : UInt64) :
    (s.noted outage? notice now).objects = s.objects ∧
      (s.noted outage? notice now).tenants = s.tenants := by
  cases outage? with
  | none => exact s.record_frame notice now
  | some _ => exact ⟨rfl, rfl⟩

private theorem Placed.display_eq_of_answer {outage? : Option Outage} {key : ObjectKey}
    {database : Database} (hs : s.Placed)
    (hread : Database.kind.read (s.answer outage? Database.kind.name key) = .ok (some database)) :
    database.key.display = key.display := by
  obtain ⟨o, hanswer, hload⟩ := ResourceKind.read_eq_ok_some_iff.mp hread
  cases outage? with
  | some outage => exact absurd hanswer nofun
  | none =>
    have hplaced := hs _ o (Except.ok.inj hanswer)
    exact (kind_eq_of_tableKey_eq (by decide) (by decide)
      ((Session.tableKey_of_ofObject hload).trans hplaced)).2

end Store

namespace Reconciler

/-- **Closed gates.** A pass that loads no database, because there is none, or it is none, or it
cannot be read, only tries to and leaves the store as it is. A pass over a database that does not
ask for storage in exactly one way, or whose storage cluster is not there, cannot be read or is not
ready, only reads and then records one warning about the database; it leaves all objects and all
tenants as they are. This holds over every store, also with failures, and with every catalog. -/
theorem closed_gates (r : Reconciler) (now : UInt64) (key : ObjectKey) (s : Store)
    (clock : Nat → UInt64) (outages : Nat → Option Outage) :
    let run := (r.reconcile now key).run (Store.unreliable clock outages) (0, s)
    let trace := (r.reconcile now key).trace (Store.unreliable clock outages) (0, s)
    let loaded := s.answer (outages 0) Database.kind.name key
    ((∀ database, Database.kind.read loaded ≠ .ok (some database)) →
      run.2.2 = s ∧ trace = [.get Database.kind.name key loaded]) ∧
    ∀ database, Database.kind.read loaded = .ok (some database) →
      let storageKey := database.spec.storageCluster.key database.metadata.ns
      let storage := s.answer (outages 1) StorageCluster.kind.name storageKey
      (database.spec.requested.length ≠ 1 ∨
        ∀ cluster, StorageCluster.kind.read storage = .ok (some cluster) →
          StorageCluster.isReady cluster = false) →
      ∃ reads notice, trace = reads ++ [.record notice] ∧
        (∀ x ∈ reads, ∃ kind key answer, x = .get kind key answer) ∧
        notice.severity = .warning ∧ (notice.subject = key ∨ notice.subject = database.key) ∧
        (s.Placed → notice.subject.display = key.display) ∧
        run.2.2 = s.noted (outages reads.length) notice (clock reads.length) ∧
        run.2.2.objects = s.objects ∧ run.2.2.tenants = s.tenants := by
  intro run trace loaded
  have hload : (Store.unreliable clock outages).get Database.kind.name key (0, s) =
      (loaded, 1, s) := Store.unreliable_get _ _
  refine ⟨fun h => ?_, ?_⟩
  · obtain ⟨directive, hplays⟩ := plays_of_unloaded (c := Store.unreliable clock outages)
      (w := (0, s)) r now (by rwa [hload])
    rw [hload] at hplays
    exact ⟨congrArg (·.2.2) hplays.run, hplays.trace⟩
  intro database hread storageKey storage h
  obtain ⟨reads, directive, notice, hreads, hseverity, hsubject, hplays⟩ :
      ∃ reads directive notice, (∀ x ∈ reads, ∃ kind key answer, x = Exchange.get kind key answer) ∧
        notice.severity = .warning ∧ (notice.subject = key ∨ notice.subject = database.key) ∧
        (r.reconcile now key).Plays (Store.unreliable clock outages) (0, s)
          (reads ++ [.record notice]) directive
          (reads.length + 1, s.noted (outages reads.length) notice (clock reads.length)) := by
    have hread' : Database.kind.read ((Store.unreliable clock outages).get Database.kind.name key
        (0, s)).1 = .ok (some database) := by rwa [hload]
    by_cases hlength : database.spec.requested.length = 1
    · obtain ⟨⟨field, resources⟩, hrequested⟩ := List.length_eq_one_iff.mp hlength
      have hresolve := DatabaseSpec.resolve_eq_ok_iff.mpr ⟨field, hrequested⟩
      have hstorage : (Store.unreliable clock outages).get StorageCluster.kind.name storageKey
          (1, s) = (storage, 2, s) := Store.unreliable_get _ _
      obtain ⟨directive, notice, hsubject, hseverity, hplays⟩ := plays_of_unready r now hread'
        hresolve (congrArg Prod.snd hload) rfl
        (by rw [hstorage]; exact h.resolve_left (not_not_intro hlength))
      rw [hload, hstorage, Store.unreliable_record] at hplays
      exact ⟨[_, _], directive, notice, by simp, hseverity, .inr hsubject, hplays⟩
    · obtain ⟨directive, notice, hsubject, hseverity, hplays⟩ :=
        plays_of_misconfigured r now hread' hlength
      rw [hload, Store.unreliable_record] at hplays
      exact ⟨[_], directive, notice, by simp, hseverity, .inl hsubject, hplays⟩
  have hstore : run.2.2 = s.noted (outages reads.length) notice (clock reads.length) :=
    congrArg (·.2.2) hplays.run
  obtain ⟨hobjects, htenants⟩ :=
    s.noted_frame (outages reads.length) notice (clock reads.length)
  have hdisplay : s.Placed → notice.subject.display = key.display := by
    intro hs
    rcases hsubject with h | h
    · rw [h]
    · rw [h, hs.display_eq_of_answer hread]
  exact ⟨reads, notice, hplays.trace, hreads, hseverity, hsubject, hdisplay, hstore,
    hstore ▸ hobjects, hstore ▸ htenants⟩

/-- A pass that cannot read the storage cluster of its database, which is there and ready. -/
theorem closed_gates_awaitingTenant :
    let outages : Nat → Option Outage := fun n =>
      if n = 1 then some ⟨.reported .backend "timeout", .unavailable "timeout"⟩ else none
    let c := Store.unreliable (fun _ => 7) outages
    let pass := ({} : Reconciler).reconcile 7 ⟨"prod", "orders"⟩
    let s' := (pass.run c (0, Store.awaitingTenant)).2.2
    s'.objects = Store.awaitingTenant.objects ∧ s'.tenants = Store.awaitingTenant.tenants ∧
      ∃ reads notice, pass.trace c (0, Store.awaitingTenant) = reads ++ [.record notice] ∧
        (∀ x ∈ reads, ∃ kind key answer, x = .get kind key answer) ∧
        notice.severity = .warning ∧ notice.subject.display = "prod/orders" := by
  intro outages c pass s'
  let database : Database := ⟨{ Metadata.ofKey ⟨"prod", "orders"⟩ with version := 1 },
    { storageCluster := { name := "main" }, nodes := 2, resources := some {} },
    { state := .initializing, conditions := [tenantInProgress.stamped 5] }⟩
  have hread : Database.kind.read (Store.awaitingTenant.answer (outages 0) Database.kind.name
      ⟨"prod", "orders"⟩) = .ok (some database) := by decide +kernel
  obtain ⟨reads, notice, htrace, hreads, hseverity, -, hdisplay, -, hobjects, htenants⟩ :=
    (closed_gates {} 7 ⟨"prod", "orders"⟩ Store.awaitingTenant (fun _ => 7) outages).2 database
      hread (.inr nofun)
  exact ⟨hobjects, htenants, reads, notice, htrace, hreads, hseverity,
    hdisplay Store.awaitingTenant_reachable.placed⟩

end Reconciler

end Converge

import Converge.Pass.Reconcile
import Converge.Proofs.Resources
import Converge.Proofs.Trace

/-!
# The calls of a pass

What the steps of a pass can call, and what is known when a step lets the pass proceed, for any
answers to the calls. A pass that has loaded a database reads objects, records notices, brings
the objects of its catalog to their shape, asks for a tenant, and writes a status. The status
that it writes is one of five that follow the loaded one (`DatabaseStatus.Advance`), and it goes
into the database as that was read again just before.

## Main definitions

* `DatabaseStatus.Advance`: the statuses that a pass can give to a database.
* `Reconciler.MayCall`: the calls of a pass over a database, beside the call for a tenant.
* `Reconciler.Gated`: what a pass has found when it asks for a tenant.

## Main results

* `Reconciler.awaitStorage_proceeds`, `Reconciler.syncEach_proceeds`,
  `Reconciler.awaitScale_proceeds`, `Reconciler.announceTenant_proceeds`: what a step has found
  when it lets the pass proceed.
* `Reconciler.steps_makes`, `Reconciler.reconcile_makes`: every call of a pass is one of these.
* `Reconciler.reconcile_makes_provision`, `Reconciler.reconcile_makes_upsert`,
  `Reconciler.reconcile_makes_record`, `Reconciler.reconcile_makes_writeStatus`: what a pass has
  found when it makes such a call.
-/

namespace Converge

/-! ### Single calls and steps in a row -/

namespace Program

variable {σ τ : Type} {kind : ResourceKind σ τ} {key : ObjectKey} {t : List Exchange}
  {c : Invocation}

theorem fetch_makes : (fetch kind key).Makes t c ↔ t = [] ∧ c = .get kind.name key := by
  constructor
  · rintro (h | ⟨answer, t', -, h⟩)
    · exact h
    · match answer with
      | .error _ | .ok none | .ok (some _) => exact h.elim
  · exact .inl

theorem fetch_ends {v : Except StoreError (Option (Resource σ τ))} :
    (fetch kind key).Ends t v ↔
      ∃ answer, t = [.get kind.name key answer] ∧ kind.read answer = v := by
  constructor
  · rintro ⟨answer, t', rfl, h⟩
    refine ⟨answer, ?_⟩
    match answer with
    | .error _ | .ok none | .ok (some _) => exact ⟨by rw [h.1], h.2⟩
  · rintro ⟨answer, rfl, h⟩
    match answer with
    | .error _ | .ok none | .ok (some _) => exact ⟨_, [], rfl, rfl, h⟩

theorem notify_makes {subject : ObjectKey} {severity : Severity} {reason message : String} :
    (notify subject severity reason message).Makes t c ↔
      t = [] ∧ c = .record { subject, severity, reason, message } := by
  simp [notify, Makes]

theorem notify_ends {subject : ObjectKey} {severity : Severity} {reason message : String}
    {v : Unit} : (notify subject severity reason message).Ends t v ↔
      t = [.record { subject, severity, reason, message }] := by
  simp [notify, Ends]

/-- A program that starts by asking for a tenant. -/
theorem provision_makes {α : Type} {request : TenantRequest}
    {f : Except ProvisionError Unit → Program α} :
    (provision request done >>= f).Makes t c ↔ (t = [] ∧ c = .provision request) ∨
      ∃ answer t', t = .provision request answer :: t' ∧ (f answer).Makes t' c :=
  Iff.rfl

theorem provision_ends {α : Type} {request : TenantRequest}
    {f : Except ProvisionError Unit → Program α} {a : α} :
    (provision request done >>= f).Ends t a ↔
      ∃ answer t', t = .provision request answer :: t' ∧ (f answer).Ends t' a :=
  Iff.rfl

/-- A program that records a notice and ends calls for nothing else. -/
theorem notify_pure_makes {α : Type} {v : α} {subject : ObjectKey} {severity : Severity}
    {reason message : String} :
    (notify subject severity reason message >>= fun _ => pure v).Makes t c ↔
      t = [] ∧ c = .record { subject, severity, reason, message } := by
  rw [makes_bind, notify_makes]
  simp only [makes_pure, and_false, exists_false, or_false]

theorem notify_pure_ends {α : Type} {v w : α} {subject : ObjectKey} {severity : Severity}
    {reason message : String} :
    (notify subject severity reason message >>= fun _ => pure v).Ends t w ↔
      t = [.record { subject, severity, reason, message }] ∧ v = w := by
  simp only [ends_bind, notify_ends, ends_pure]
  constructor
  · rintro ⟨_, _, _, rfl, rfl, rfl, rfl⟩
    exact ⟨rfl, rfl⟩
  · rintro ⟨rfl, rfl⟩
    exact ⟨_, [], (), rfl, rfl, rfl, rfl⟩

/-- A call of two steps in a row is one of the first, or one of the second after the first has
let the pass proceed. -/
theorem andThen_makes {step : Program Flow} {next : Aggregate → Program Flow} :
    (step.andThen next).Makes t c ↔ step.Makes t c ∨
      ∃ t₁ t₂ a, t = t₁ ++ t₂ ∧ step.Ends t₁ (.proceed a) ∧ (next a).Makes t₂ c := by
  rw [andThen, makes_bind]
  refine or_congr_right ⟨?_, ?_⟩
  · rintro ⟨t₁, t₂, flow, rfl, h₁, h₂⟩
    cases flow with
    | proceed a => exact ⟨t₁, t₂, a, rfl, h₁, h₂⟩
    | halt wish a => exact h₂.elim
  · rintro ⟨t₁, t₂, a, rfl, h₁, h₂⟩
    exact ⟨t₁, t₂, .proceed a, rfl, h₁, h₂⟩

end Program

/-- A database can be passed over when it says what storage it asks for. -/
theorem Aggregate.ofDatabase_eq_ok_iff {database : Database} {a : Aggregate} :
    ofDatabase database = .ok a ↔
      ∃ resources, database.spec.resolve = .ok resources ∧ { database, resources } = a := by
  rw [ofDatabase]
  cases database.spec.resolve with
  | error e => exact ⟨nofun, nofun⟩
  | ok resources =>
    constructor
    · exact fun h => ⟨resources, rfl, Except.ok.inj h⟩
    · rintro ⟨_, hr, rfl⟩
      rw [← Except.ok.inj hr]
      rfl

/-! ### The statuses that a pass writes -/

/-- The statuses that a pass at time `now` can give to a database with status `st`. -/
inductive DatabaseStatus.Advance (now : UInt64) (st : DatabaseStatus) : DatabaseStatus → Prop
  /-- Too few or too many nodes are running. -/
  | regress : Advance now st { st with state := .provisioning }
  /-- All nodes are running, and the tenant was created. -/
  | promote (h : st.isTrue tenantInitialized = true) : Advance now st { st with state := .ready }
  /-- The creation of the tenant is announced for the first time. -/
  | announce (h : st.condition? tenantInitialized = none) :
      Advance now st { (st.setCondition tenantInProgress now).1 with state := .initializing }
  /-- The creation of the tenant is announced again. -/
  | reannounce (h : (st.condition? tenantInitialized).isSome = true)
      (hf : st.isTrue tenantInitialized = false) : Advance now st { st with state := .initializing }
  /-- The tenant was created. -/
  | complete (h : (st.condition? tenantInitialized).isSome = true)
      (hf : st.isTrue tenantInitialized = false) (hs : st.state = .initializing) :
      Advance now st (st.setCondition tenantCompleted now).1

namespace Reconciler

open Program (Invocation Exchange)

variable {r : Reconciler} {now : UInt64} {a : Aggregate} {t : List Exchange} {c : Invocation}

/-- No status is written in some exchanges. -/
def Unwritten (t : List Exchange) : Prop := ∀ x ∈ t, x.isWrite = false

theorem unwritten_nil : Unwritten [] := fun _ hx => absurd hx List.not_mem_nil

theorem Unwritten.append {t₁ t₂ : List Exchange} (h₁ : Unwritten t₁) (h₂ : Unwritten t₂) :
    Unwritten (t₁ ++ t₂) :=
  fun x hx => (List.mem_append.mp hx).elim (h₁ x) (h₂ x)

theorem unwritten_of_prepares (h : ∀ x ∈ t, x.prepares = true) : Unwritten t :=
  fun x hx => Exchange.isWrite_of_prepares (h x hx)

theorem unwritten_get {kind : String} {key : ObjectKey}
    {answer : Except StoreError (Option Object)} : Unwritten [.get kind key answer] := by
  simp [Unwritten, Exchange.isWrite]

theorem unwritten_record {notice : Notice} : Unwritten [.record notice] := by
  simp [Unwritten, Exchange.isWrite]

/-- The calls of a pass at time `now` over a loaded database, after the exchanges `past`, beside the
call for a tenant. Once a status was written only notices follow. -/
inductive MayCall (r : Reconciler) (now : UInt64) (database : Database) (past : List Exchange) :
    Invocation → Prop
  /-- Any notice about the database may be recorded. -/
  | tell {notice : Notice} (hsubject : notice.subject = database.key) :
      MayCall r now database past (.record notice)
  /-- Any object may be read. -/
  | read (kind : String) (key : ObjectKey) (hfirst : Unwritten past) :
      MayCall r now database past (.get kind key)
  /-- The objects of the catalog are brought to their shape. -/
  | build {a : Aggregate} {b : Builder} (ha : a.database = database)
      (hr : database.spec.resolve = .ok a.resources) (hb : b ∈ r.catalog a)
      (hfirst : Unwritten past) :
      MayCall r now database past (.upsert b.placeholder (b.owned database.metadata))
  /-- The next status is written into the database as it was read again. -/
  | persist {o : Object} {fresh : Database} {st : DatabaseStatus}
      (hget : .get Database.kind.name database.key (.ok (some o)) ∈ past)
      (hfresh : Database.kind.ofObject o = .ok fresh) (hst : database.status.Advance now st)
      (hfirst : Unwritten past) :
      MayCall r now database past
        (.writeStatus (Database.kind.toObject { fresh with status := st }))

/-- What may be called after some exchanges may be called after more, if no status is written in
these. -/
theorem MayCall.after {database : Database} (h : r.MayCall now database t c) {t' : List Exchange}
    (ht : Unwritten t') : r.MayCall now database (t' ++ t) c := by
  cases h with
  | tell hsubject => exact .tell hsubject
  | read kind key hfirst => exact .read kind key (ht.append hfirst)
  | build ha hr hb hfirst => exact .build ha hr hb (ht.append hfirst)
  | persist hget hfresh hst hfirst =>
    exact .persist (List.mem_append_right t' hget) hfresh hst (ht.append hfirst)

/-! ### Writing the status -/

/-- The attempt to write the status into what was read of the database. -/
def attemptWrite (a : Aggregate) :
    Except StoreError (Option Database) → Program (Except PassError Unit)
  | .ok (some fresh) => replaceStatus fresh a.status a.key
  | .ok none => pure (.error (.statusTargetMissing a.key))
  | .error e => pure (.error (.fetch Database.kind.name a.key e))

/-- The wish after an attempt to write the status. A failure is told. -/
def reportWrite (r : Reconciler) (a : Aggregate) : Except PassError Unit → Program Requeue
  | .ok () => return { after := r.delays.statusUpdate }
  | .error e => do
    a.warn "ControllerError" s!"Failed setting status: {e.message}"
    return { after := r.delays.default, error := some e }

/-- Writing the status is a reading, an attempt and a report. -/
theorem persistStatus_eq (r : Reconciler) (a : Aggregate) : r.persistStatus a =
    Program.fetch Database.kind a.key >>= fun found =>
      attemptWrite a found >>= r.reportWrite a := by
  refine congrArg (Program.fetch Database.kind a.key >>= ·) (funext fun found => ?_)
  match found with
  | .error _ | .ok none | .ok (some _) => rfl

theorem reportWrite_makes {result : Except PassError Unit}
    (h : (r.reportWrite a result).Makes t c) :
    ∃ notice, notice.subject = a.key ∧ c = .record notice := by
  cases result with
  | ok _ => exact h.elim
  | error e =>
    exact ⟨_, rfl, (Program.notify_pure_makes.mp h).2⟩

/-- Something is written only into a database that was read with another status. -/
theorem attemptWrite_makes {found : Except StoreError (Option Database)}
    (h : (attemptWrite a found).Makes t c) : ∃ fresh, found = .ok (some fresh) ∧
      fresh.status ≠ a.status ∧ t = [] ∧
      c = .writeStatus (Database.kind.toObject { fresh with status := a.status }) := by
  match found with
  | .error _ | .ok none => exact h.elim
  | .ok (some fresh) =>
    simp only [attemptWrite, replaceStatus] at h
    split at h
    · exact h.elim
    · rename_i hne
      rcases h with ⟨ht, rfl⟩ | ⟨answer, t', -, h⟩
      · exact ⟨fresh, rfl, hne, ht, rfl⟩
      · cases answer <;> exact h.elim

/-- The writing of a status reads the database again, and writes into what it has read. -/
theorem persistStatus_makes (h : (r.persistStatus a).Makes t c) :
    (t = [] ∧ c = .get Database.kind.name a.key) ∨
      (∃ notice, notice.subject = a.key ∧ c = .record notice) ∨
      ∃ o fresh, t = [.get Database.kind.name a.key (.ok (some o))] ∧
        Database.kind.ofObject o = .ok fresh ∧ fresh.status ≠ a.status ∧
        c = .writeStatus (Database.kind.toObject { fresh with status := a.status }) := by
  simp only [persistStatus_eq, Program.makes_bind] at h
  rcases h with h | ⟨_, _, found, rfl, hfound, h | ⟨_, _, result, rfl, -, h⟩⟩
  · exact .inl (Program.fetch_makes.mp h)
  · obtain ⟨fresh, rfl, hne, rfl, rfl⟩ := attemptWrite_makes h
    obtain ⟨answer, rfl, hread⟩ := Program.fetch_ends.mp hfound
    obtain ⟨o, rfl, ho⟩ := ResourceKind.read_eq_ok_some_iff.mp hread
    exact .inr (.inr ⟨o, fresh, rfl, ho, hne, rfl⟩)
  · exact .inr (.inl (reportWrite_makes h))

theorem persistAndHalt_makes : (r.persistAndHalt a).Makes t c ↔ (r.persistStatus a).Makes t c := by
  rw [persistAndHalt, Program.makes_bind]
  simp only [Program.makes_pure, and_false, exists_false, or_false]

/-- The pass never proceeds after writing the status. -/
theorem persistAndHalt_not_proceeds {a' : Aggregate} :
    ¬ (r.persistAndHalt a).Ends t (.proceed a') := by
  rw [persistAndHalt, Program.ends_bind]
  simp

/-- Writing a status that may follow the one of the database. -/
theorem mayCall_of_persist {st : DatabaseStatus} (hst : a.status.Advance now st)
    (h : (r.persistStatus (a.withStatus st)).Makes t c) : r.MayCall now a.database t c := by
  rcases persistStatus_makes h with ⟨rfl, rfl⟩ | ⟨_, hsubject, rfl⟩ |
    ⟨o, fresh, rfl, hfresh, -, rfl⟩
  · exact .read _ _ unwritten_nil
  · exact .tell hsubject
  · exact .persist List.mem_cons_self hfresh hst unwritten_get

/-! ### The gate of the storage cluster -/

/-- The gate of the storage cluster reads the cluster, and tells why it halts. -/
theorem awaitStorage_makes (h : (r.awaitStorage a).Makes t c) :
    r.MayCall now a.database t c := by
  rw [awaitStorage, Program.makes_bind] at h
  rcases h with h | ⟨_, t₂, found, rfl, -, h⟩
  · obtain ⟨rfl, rfl⟩ := Program.fetch_makes.mp h
    exact .read _ _ unwritten_nil
  match found with
  | .error _ | .ok none =>
    rw [(Program.notify_pure_makes.mp h).2]
    exact .tell rfl
  | .ok (some storage) =>
    simp only at h
    split at h
    · exact h.elim
    · rw [(Program.notify_pure_makes.mp h).2]
      exact .tell rfl

/-- The pass proceeds when the storage cluster was read and is ready. -/
theorem awaitStorage_proceeds {a' : Aggregate} (h : (r.awaitStorage a).Ends t (.proceed a')) :
    ∃ o cluster, t = [.get StorageCluster.kind.name a.storageKey (.ok (some o))] ∧
      StorageCluster.kind.ofObject o = .ok cluster ∧ StorageCluster.isReady cluster = true ∧
      a' = { a with storage := some cluster } := by
  rw [awaitStorage, Program.ends_bind] at h
  obtain ⟨_, t₂, found, rfl, hfound, h⟩ := h
  obtain ⟨answer, rfl, hread⟩ := Program.fetch_ends.mp hfound
  match found with
  | .error _ | .ok none => exact nomatch (Program.notify_pure_ends.mp h).2
  | .ok (some cluster) =>
    obtain ⟨o, rfl, ho⟩ := ResourceKind.read_eq_ok_some_iff.mp hread
    simp only at h
    split at h
    · rename_i hready
      obtain ⟨rfl, ha⟩ := h
      exact ⟨o, cluster, rfl, ho, hready, (Flow.proceed.inj ha).symm⟩
    · exact nomatch (Program.notify_pure_ends.mp h).2

/-! ### The owned objects -/

/-- The exchanges in which builders bring their objects to their shape: each builder in turn,
with what is told of it. -/
inductive Synced (owner : Metadata) : List Builder → List Exchange → Prop
  | nil : Synced owner [] []
  | cons {b : Builder} {rest : List Builder} {t : List Exchange} (outcome : Store.Upserted)
      (notices : List Notice) (h : Synced owner rest t) :
      Synced owner (b :: rest) (.upsert b.placeholder (b.owned owner) (.ok outcome) ::
        (notices.map .record ++ t))

theorem Synced.prepares {owner : Metadata} {builders : List Builder} (h : Synced owner builders t) :
    ∀ x ∈ t, x.prepares = true := by
  induction h with
  | nil => exact fun _ hx => absurd hx List.not_mem_nil
  | cons outcome notices h ih =>
    intro x hx
    rcases List.mem_cons.mp hx with rfl | hx
    · rfl
    rcases List.mem_append.mp hx with hx | hx
    · obtain ⟨notice, -, rfl⟩ := List.mem_map.mp hx
      rfl
    · exact ih x hx

/-- The builders run on their own objects, and what becomes of them is told. -/
theorem syncEach_makes (hr : a.database.spec.resolve = .ok a.resources) {builders : List Builder}
    (hb : ∀ b ∈ builders, b ∈ r.catalog a) (h : (r.syncEach a builders).Makes t c) :
    r.MayCall now a.database t c := by
  induction builders generalizing t with
  | nil => exact h.elim
  | cons b rest ih =>
    have hrest : ∀ b ∈ rest, b ∈ r.catalog a := fun b' h' => hb b' (List.mem_cons_of_mem b h')
    rcases h with ⟨rfl, rfl⟩ | ⟨answer, t', rfl, h⟩
    · exact .build rfl hr (hb b List.mem_cons_self) unwritten_nil
    have hupsert : Unwritten [.upsert b.placeholder (b.owned a.database.metadata) answer] := by
      simp [Unwritten, Exchange.isWrite]
    refine MayCall.after ?_ hupsert
    match answer with
    | .error e =>
      rw [(Program.notify_pure_makes.mp h).2]
      exact .tell rfl
    | .ok outcome =>
      change (if outcome.changed then _ else _ : Program Flow).Makes t' c at h
      split at h
      · rcases Program.makes_bind.mp h with h | ⟨t₁, t₂, _, rfl, hnotice, h⟩
        · rw [(Program.notify_makes.mp h).2]
          exact .tell rfl
        · rw [Program.notify_ends.mp hnotice]
          exact (ih hrest h).after unwritten_record
      · exact ih hrest h

/-- The pass proceeds when all builders have succeeded, in their order. -/
theorem syncEach_proceeds {builders : List Builder} {a' : Aggregate}
    (h : (r.syncEach a builders).Ends t (.proceed a')) :
    a' = a ∧ Synced a.database.metadata builders t := by
  induction builders generalizing t with
  | nil =>
    obtain ⟨rfl, ha⟩ := h
    exact ⟨(Flow.proceed.inj ha).symm, .nil⟩
  | cons b rest ih =>
    obtain ⟨answer, t', rfl, h⟩ := h
    match answer with
    | .error e => exact nomatch (Program.notify_pure_ends.mp h).2
    | .ok outcome =>
      change (if outcome.changed then _ else _ : Program Flow).Ends t' (.proceed a') at h
      split at h
      · obtain ⟨t₁, t₂, _, rfl, hnotice, h⟩ := Program.ends_bind.mp h
        rw [Program.notify_ends.mp hnotice]
        exact ⟨(ih h).1, .cons outcome [_] (ih h).2⟩
      · exact ⟨(ih h).1, .cons outcome [] (ih h).2⟩

/-! ### The gate of the compute nodes -/

theorem promote_makes (h : (r.promote a).Makes t c) : r.MayCall now a.database t c := by
  rw [promote] at h
  split at h
  · rename_i hcond
    rcases Program.makes_bind.mp h with h | ⟨t₁, t₂, _, rfl, hnotice, h⟩
    · rw [(Program.notify_makes.mp h).2]
      exact .tell rfl
    · have hinit : a.tenantInitialized = true := by simp_all
      rw [Program.notify_ends.mp hnotice]
      exact (mayCall_of_persist (.promote hinit) (persistAndHalt_makes.mp h)).after unwritten_record
  · exact h.elim

theorem promote_proceeds {a' : Aggregate} (h : (r.promote a).Ends t (.proceed a')) :
    a' = a ∧ t = [] := by
  rw [promote] at h
  split at h
  · obtain ⟨_, _, _, _, _, h⟩ := Program.ends_bind.mp h
    exact absurd h persistAndHalt_not_proceeds
  · exact ⟨(Flow.proceed.inj h.2).symm, h.1⟩

/-- The gate of the compute nodes reads the workload, and writes that the database is ready or
that nodes are missing. -/
theorem awaitScale_makes (h : (r.awaitScale a).Makes t c) : r.MayCall now a.database t c := by
  rw [awaitScale] at h
  split at h
  · exact promote_makes h
  rcases Program.makes_bind.mp h with h | ⟨t₁, t₂, found, rfl, hfound, h⟩
  · obtain ⟨rfl, rfl⟩ := Program.fetch_makes.mp h
    exact .read _ _ unwritten_nil
  obtain ⟨answer, rfl, -⟩ := Program.fetch_ends.mp hfound
  refine MayCall.after ?_ unwritten_get
  match found with
  | .error _ =>
    rw [(Program.notify_pure_makes.mp h).2]
    exact .tell rfl
  | .ok none => exact h.elim
  | .ok (some workload) =>
    simp only at h
    split at h
    · exact promote_makes h
    · rcases Program.makes_bind.mp h with h | ⟨t₁, t₂, _, rfl, hnotice, h⟩
      · rw [(Program.notify_makes.mp h).2]
        exact .tell rfl
      · rw [Program.notify_ends.mp hnotice]
        exact (mayCall_of_persist .regress (persistAndHalt_makes.mp h)).after unwritten_record

/-- The exchanges in which the compute nodes are found to be as wanted: the workload of a database
that is not serverless runs the wanted number of them. -/
def Scaled (a : Aggregate) (t : List Exchange) : Prop :=
  if a.resources.isServerless then t = []
  else ∃ o workload, t = [.get Workload.kind.name a.key (.ok (some o))] ∧
    Workload.kind.ofObject o = .ok workload ∧ workload.status.replicas = a.spec.nodes

theorem Scaled.prepares (h : Scaled a t) : ∀ x ∈ t, x.prepares = true := by
  rw [Scaled] at h
  split at h
  · subst h
    exact fun _ hx => absurd hx List.not_mem_nil
  · obtain ⟨o, workload, rfl, -⟩ := h
    simp [Exchange.prepares, Exchange.isProvision, Exchange.isWrite]

/-- The pass proceeds when the compute nodes are as wanted. -/
theorem awaitScale_proceeds {a' : Aggregate} (h : (r.awaitScale a).Ends t (.proceed a')) :
    a' = a ∧ Scaled a t := by
  rw [awaitScale] at h
  split at h
  · rename_i hserverless
    obtain ⟨ha, rfl⟩ := promote_proceeds h
    exact ⟨ha, by rw [Scaled, if_pos hserverless]⟩
  rename_i hserverless
  rw [Program.ends_bind] at h
  obtain ⟨_, t₂, found, rfl, hfound, h⟩ := h
  obtain ⟨answer, rfl, hread⟩ := Program.fetch_ends.mp hfound
  match found with
  | .error _ => exact nomatch (Program.notify_pure_ends.mp h).2
  | .ok none => exact nomatch h.2
  | .ok (some workload) =>
    obtain ⟨o, rfl, ho⟩ := ResourceKind.read_eq_ok_some_iff.mp hread
    simp only at h
    split at h
    · rename_i hreplicas
      obtain ⟨ha, rfl⟩ := promote_proceeds h
      exact ⟨ha, by rw [Scaled, if_neg hserverless]; exact ⟨o, workload, rfl, ho, hreplicas⟩⟩
    · obtain ⟨_, _, _, _, _, h⟩ := Program.ends_bind.mp h
      exact absurd h persistAndHalt_not_proceeds

/-! ### The tenant -/

/-- The creation of a tenant is announced by writing the status. -/
theorem announceTenant_makes (hf : a.tenantInitialized = false)
    (h : (r.announceTenant now a).Makes t c) : r.MayCall now a.database t c := by
  rw [announceTenant] at h
  split at h
  · exact h.elim
  have h := persistAndHalt_makes.mp h
  cases hknown : a.status.condition? tenantInitialized with
  | none =>
    rw [hknown] at h
    exact mayCall_of_persist (.announce hknown) h
  | some condition =>
    rw [hknown] at h
    exact mayCall_of_persist (.reannounce (by rw [hknown]; rfl) hf) h

/-- The pass proceeds when the creation was announced before. -/
theorem announceTenant_proceeds {a' : Aggregate}
    (h : (r.announceTenant now a).Ends t (.proceed a')) :
    a' = a ∧ t = [] ∧ (a.status.condition? tenantInitialized).isSome = true ∧
      a.status.state = .initializing := by
  rw [announceTenant] at h
  split at h
  · rename_i hcond
    obtain ⟨hknown, hstate⟩ := Bool.and_eq_true_iff.mp hcond
    exact ⟨(Flow.proceed.inj h.2).symm, h.1, hknown, of_decide_eq_true hstate⟩
  · exact absurd h persistAndHalt_not_proceeds

/-- What a tenant is to be given, and the exchanges in which that is found: units of its own or
shared ones need no exchange, and a place inside a shared database needs that database to be
ready. -/
def Allocated (a : Aggregate) (storage : TenantStorage) (t : List Exchange) : Prop :=
  match a.resources with
  | .dedicated units => t = [] ∧ storage = { units }
  | .shared units => t = [] ∧ storage = { units, shared := true }
  | .serverless reference => ∃ o database,
    t = [.get Database.kind.name (reference.key a.ns) (.ok (some o))] ∧
      Database.kind.ofObject o = .ok database ∧ database.status.state = .ready ∧
      let path := tenantPath database.spec.domain database.metadata.name
      storage = { sharedDatabasePath := some path }

theorem Allocated.prepares {storage : TenantStorage} (h : Allocated a storage t) :
    ∀ x ∈ t, x.prepares = true := by
  rw [Allocated] at h
  split at h
  · obtain ⟨rfl, -⟩ := h
    exact fun _ hx => absurd hx List.not_mem_nil
  · obtain ⟨rfl, -⟩ := h
    exact fun _ hx => absurd hx List.not_mem_nil
  · obtain ⟨o, database, rfl, -⟩ := h
    simp [Exchange.prepares, Exchange.isProvision, Exchange.isWrite]

/-- Finding the storage for a tenant at most reads a database and tells what is wrong with it. -/
theorem storageOf_makes (h : (r.storageOf a).Makes t c) : r.MayCall now a.database t c := by
  rw [storageOf] at h
  split at h
  · exact h.elim
  · exact h.elim
  rename_i reference _
  rcases Program.makes_bind.mp h with h | ⟨t₁, t₂, found, rfl, -, h⟩
  · obtain ⟨rfl, rfl⟩ := Program.fetch_makes.mp h
    exact .read _ _ unwritten_nil
  match found with
  | .error _ | .ok none =>
    rw [(Program.notify_pure_makes.mp h).2]
    exact .tell rfl
  | .ok (some database) =>
    simp only at h
    split at h
    · exact h.elim
    · rw [(Program.notify_pure_makes.mp h).2]
      exact .tell rfl

theorem storageOf_ends {storage : TenantStorage} (h : (r.storageOf a).Ends t (.ok storage)) :
    Allocated a storage t := by
  rw [storageOf] at h
  rw [Allocated]
  generalize a.resources = resources at h ⊢
  cases resources with
  | dedicated units => exact ⟨h.1, (Except.ok.inj h.2).symm⟩
  | shared units => exact ⟨h.1, (Except.ok.inj h.2).symm⟩
  | serverless reference =>
    rw [Program.ends_bind] at h
    obtain ⟨_, t₂, found, rfl, hfound, h⟩ := h
    obtain ⟨answer, rfl, hread⟩ := Program.fetch_ends.mp hfound
    match found with
    | .error _ | .ok none => exact nomatch (Program.notify_pure_ends.mp h).2
    | .ok (some database) =>
      obtain ⟨o, rfl, ho⟩ := ResourceKind.read_eq_ok_some_iff.mp hread
      simp only at h
      split at h
      · rename_i hready
        obtain ⟨rfl, hstorage⟩ := h
        exact ⟨o, database, rfl, ho, hready, (Except.ok.inj hstorage).symm⟩
      · exact nomatch (Program.notify_pure_ends.mp h).2

/-- **The calls in which a tenant is created.** Either the storage is still being found, or the
tenant is asked for, or its creation is told and written into the status. -/
theorem createTenant_makes (h : (r.createTenant now a).Makes t c) :
    (r.storageOf a).Makes t c ∨ ∃ t₁ t₂ storage cluster, t = t₁ ++ t₂ ∧
      Allocated a storage t₁ ∧ a.storage = some cluster ∧
      ((t₂ = [] ∧ c = .provision (r.tenantRequest a cluster storage)) ∨
        (∃ notice, notice.subject = a.key ∧ c = .record notice) ∨
        ∃ t₃ t₄, t₂ = t₃ ++ t₄ ∧ Unwritten t₃ ∧
          (r.persistStatus (a.observe tenantCompleted now)).Makes t₄ c) := by
  rw [createTenant, Program.makes_bind] at h
  rcases h with h | ⟨t₁, t₂, found, rfl, hfound, h⟩
  · exact .inl h
  refine .inr ?_
  match found with
  | .error wish => exact h.elim
  | .ok storage =>
    simp only at h
    split at h
    · exact h.elim
    rename_i cluster hcluster
    refine ⟨t₁, t₂, storage, cluster, rfl, storageOf_ends hfound, hcluster, ?_⟩
    rw [Program.provision_makes] at h
    rcases h with ⟨ht, rfl⟩ | ⟨answer, t', rfl, h⟩
    · exact .inl ⟨ht, rfl⟩
    match answer with
    | .error e => exact .inr (.inl ⟨_, rfl, (Program.notify_pure_makes.mp h).2⟩)
    | .ok () =>
      dsimp only at h
      rcases Program.makes_bind.mp h with h | ⟨t₃, t₄, _, rfl, hnotice, h⟩
      · exact .inr (.inl ⟨_, rfl, (Program.notify_makes.mp h).2⟩)
      · rw [Program.notify_ends.mp hnotice]
        refine .inr (.inr ⟨[_, _], t₄, rfl, ?_, persistAndHalt_makes.mp h⟩)
        simp [Unwritten, Exchange.isWrite]

/-! ### The whole pass -/

/-- What a pass over a loaded database has found in the exchanges `past` when it asks for a tenant
with `request`: the creation of the tenant was announced, the storage cluster is ready, all owned
objects have their shape, the compute nodes are as wanted, and what the tenant is given is there.
The request says where the storage cluster is and what the tenant is given. -/
inductive Gated (r : Reconciler) (database : Database) (resources : Resources)
    (past : List Exchange) (request : TenantRequest) : Prop
  | intro {o : Object} {cluster : StorageCluster} {synced scaled allocated : List Exchange}
      (past_eq : past = .get StorageCluster.kind.name
        (database.spec.storageCluster.key database.metadata.ns) (.ok (some o)) ::
          (synced ++ (scaled ++ allocated)))
      (announced : (database.status.condition? tenantInitialized).isSome = true)
      (not_initialized : database.status.isTrue tenantInitialized = false)
      (initializing : database.status.state = .initializing)
      (cluster_eq : StorageCluster.kind.ofObject o = .ok cluster)
      (ready : StorageCluster.isReady cluster = true)
      (sync : Synced database.metadata (r.catalog ⟨database, resources, some cluster⟩) synced)
      (scale : Scaled ⟨database, resources, some cluster⟩ scaled)
      (allocate : Allocated ⟨database, resources, some cluster⟩
        ⟨request.storageUnits, request.shared, request.sharedDatabasePath⟩ allocated)
      (endpoint : request.storageEndpoint = cluster.endpoint r.clusterDomain)
      (secure : request.useSecureChannel = cluster.spec.grpc.tlsEnabled)
      (path : request.path = tenantPath database.spec.domain database.metadata.name)

/-- Before a pass asks for a tenant it has neither asked for one nor written a status. -/
theorem Gated.prepares {database : Database} {resources : Resources} {request : TenantRequest}
    (h : r.Gated database resources t request) : ∀ x ∈ t, x.prepares = true := by
  cases h with
  | intro past_eq _ _ _ _ _ sync scale allocate =>
    subst past_eq
    intro x hx
    rcases List.mem_cons.mp hx with rfl | hx
    · rfl
    rcases List.mem_append.mp hx with hx | hx
    · exact sync.prepares x hx
    rcases List.mem_append.mp hx with hx | hx
    · exact scale.prepares x hx
    · exact allocate.prepares x hx

/-- **The calls of the steps of a pass**: those that do not concern tenants, and the call for a
tenant at the end of all gates. -/
theorem steps_makes {database : Database} {resources : Resources}
    (hr : database.spec.resolve = .ok resources)
    (h : (r.steps now { database, resources }).Makes t c) : r.MayCall now database t c ∨
      ∃ request, c = .provision request ∧ r.Gated database resources t request := by
  rw [steps, Program.andThen_makes] at h
  rcases h with h | ⟨t₁, t₂, _, rfl, hstorage, h⟩
  · exact .inl (awaitStorage_makes (a := ⟨database, resources, none⟩) h)
  obtain ⟨o, cluster, rfl, ho, hready, rfl⟩ := awaitStorage_proceeds hstorage
  rw [Program.andThen_makes] at h
  rcases h with h | ⟨t₂, t₃, _, rfl, hsync, h⟩
  · exact .inl ((syncEach_makes (a := ⟨database, resources, some cluster⟩) hr
      (fun _ hb => hb) h).after unwritten_get)
  obtain ⟨rfl, hsynced⟩ := syncEach_proceeds hsync
  have hw₁ : Unwritten [.get StorageCluster.kind.name
    (Aggregate.storageKey ⟨database, resources, none⟩) (.ok (some o))] := unwritten_get
  have hw₂ := unwritten_of_prepares hsynced.prepares
  rw [Program.andThen_makes] at h
  rcases h with h | ⟨t₃, t₄, _, rfl, hscale, h⟩
  · exact .inl (((awaitScale_makes (a := ⟨database, resources, some cluster⟩) h).after hw₂).after
      hw₁)
  obtain ⟨rfl, hscaled⟩ := awaitScale_proceeds hscale
  have hw₃ := unwritten_of_prepares hscaled.prepares
  split at h
  · exact h.elim
  rename_i hinit
  have hf : database.status.isTrue tenantInitialized = false := Bool.eq_false_iff.mpr hinit
  rw [Program.andThen_makes] at h
  rcases h with h | ⟨_, t₅, _, rfl, hannounce, h⟩
  · exact .inl ((((announceTenant_makes (a := ⟨database, resources, some cluster⟩) hf h).after
      hw₃).after hw₂).after hw₁)
  obtain ⟨rfl, rfl, hknown, hstate⟩ := announceTenant_proceeds hannounce
  rcases createTenant_makes h with hfind | ⟨t₅, t₆, storage, _, rfl, halloc, hcluster, hcreate⟩
  · exact .inl ((((storageOf_makes (a := ⟨database, resources, some cluster⟩) hfind).after
      hw₃).after hw₂).after hw₁)
  obtain rfl := Option.some.inj hcluster
  rcases hcreate with ⟨rfl, rfl⟩ | ⟨_, hsubject, rfl⟩ | ⟨t₆, t₇, rfl, hw₆, hpersist⟩
  · refine .inr ⟨_, rfl, .intro ?_ hknown hf hstate ho hready hsynced hscaled halloc rfl rfl rfl⟩
    simp [Aggregate.storageKey, Aggregate.spec, Aggregate.ns]
  · exact .inl (.tell hsubject)
  · refine .inl ?_
    have hcall := mayCall_of_persist (a := ⟨database, resources, some cluster⟩)
      (.complete hknown hf hstate) hpersist
    have hw₅ := unwritten_of_prepares halloc.prepares
    exact ((((hcall.after hw₆).after hw₅).after hw₃).after hw₂).after hw₁

/-- **The calls of a pass.** A pass first reads its database. If that does not say what storage it
asks for the pass only tells so. Otherwise every further call is one of the steps over the database
as it was read. -/
theorem reconcile_makes {key : ObjectKey} (h : (r.reconcile now key).Makes t c) :
    (t = [] ∧ c = .get Database.kind.name key) ∨
      (∃ o database notice, t = [.get Database.kind.name key (.ok (some o))] ∧
        Database.kind.ofObject o = .ok database ∧ notice.subject = key ∧ c = .record notice) ∨
      ∃ o database resources t', t = .get Database.kind.name key (.ok (some o)) :: t' ∧
        Database.kind.ofObject o = .ok database ∧ database.spec.resolve = .ok resources ∧
        (r.MayCall now database t' c ∨
          ∃ request, c = .provision request ∧ r.Gated database resources t' request) := by
  rw [reconcile, Program.makes_bind] at h
  rcases h with h | ⟨_, t', found, rfl, hfound, h⟩
  · exact .inl (Program.fetch_makes.mp h)
  obtain ⟨answer, rfl, hread⟩ := Program.fetch_ends.mp hfound
  match found with
  | .error _ | .ok none => exact h.elim
  | .ok (some database) =>
    obtain ⟨o, rfl, ho⟩ := ResourceKind.read_eq_ok_some_iff.mp hread
    simp only at h
    split at h
    · obtain ⟨rfl, rfl⟩ := Program.notify_pure_makes.mp h
      exact .inr (.inl ⟨o, database, _, rfl, ho, rfl, rfl⟩)
    rename_i a ha
    obtain ⟨resources, hr, rfl⟩ := Aggregate.ofDatabase_eq_ok_iff.mp ha
    refine .inr (.inr ⟨o, database, resources, t', rfl, ho, hr, ?_⟩)
    rw [runAggregate] at h
    rcases Program.makes_bind.mp h with h | ⟨_, _, _, _, _, h⟩
    · rcases Program.makes_bind.mp h with h | ⟨_, _, flow, _, _, h⟩
      · exact steps_makes hr h
      · cases flow <;> exact h.elim
    · exact h.elim

/-! ### The calls one by one -/

variable {key : ObjectKey}

/-- A pass that asks for a tenant has read its database, and gone through all gates. -/
theorem reconcile_makes_provision {request : TenantRequest}
    (h : (r.reconcile now key).Makes t (.provision request)) :
    ∃ o database resources t', t = .get Database.kind.name key (.ok (some o)) :: t' ∧
      Database.kind.ofObject o = .ok database ∧ database.spec.resolve = .ok resources ∧
      r.Gated database resources t' request := by
  rcases reconcile_makes h with ⟨-, h⟩ | ⟨_, _, _, -, -, -, h⟩ |
    ⟨o, database, resources, t', rfl, ho, hr, h⟩
  · exact nomatch h
  · exact nomatch h
  rcases h with h | ⟨request', heq, h⟩
  · exact nomatch h
  · obtain rfl := Invocation.provision.inj heq
    exact ⟨o, database, resources, t', rfl, ho, hr, h⟩

/-- A pass that records a notice has read its database, and the notice is about that. -/
theorem reconcile_makes_record {notice : Notice}
    (h : (r.reconcile now key).Makes t (.record notice)) :
    ∃ o database, .get Database.kind.name key (.ok (some o)) ∈ t ∧
      Database.kind.ofObject o = .ok database ∧
      (notice.subject = key ∨ notice.subject = database.key) := by
  rcases reconcile_makes h with ⟨-, h⟩ | ⟨o, database, notice', rfl, ho, hsubject, h⟩ |
    ⟨o, database, resources, t', rfl, ho, hr, h⟩
  · exact nomatch h
  · obtain rfl := Invocation.record.inj h
    exact ⟨o, database, List.mem_cons_self, ho, .inl hsubject⟩
  rcases h with h | ⟨request, heq, -⟩
  · cases h with
    | tell hsubject => exact ⟨o, database, List.mem_cons_self, ho, .inr hsubject⟩
  · exact nomatch heq

/-- A pass that brings an object to its shape has read its database, and the object is in the
catalog of that. -/
theorem reconcile_makes_upsert {placeholder : Object} {change : Change}
    (h : (r.reconcile now key).Makes t (.upsert placeholder change)) :
    ∃ o a b, .get Database.kind.name key (.ok (some o)) ∈ t ∧
      Database.kind.ofObject o = .ok a.database ∧ b ∈ r.catalog a ∧
      placeholder = b.placeholder ∧ change = b.owned a.database.metadata := by
  rcases reconcile_makes h with ⟨-, h⟩ | ⟨_, _, _, -, -, -, h⟩ |
    ⟨o, database, resources, t', rfl, ho, hr, h⟩
  · exact nomatch h
  · exact nomatch h
  rcases h with h | ⟨request', heq, h⟩
  · cases h with
    | @build a b ha _ hb _ =>
      subst ha
      exact ⟨o, a, b, List.mem_cons_self, ho, hb, rfl, rfl⟩
  · exact nomatch heq

/-- A pass that writes a status has read its database twice, and writes a status that follows what
it has read first into what it has read last. -/
theorem reconcile_makes_writeStatus {w : Object}
    (h : (r.reconcile now key).Makes t (.writeStatus w)) :
    ∃ o database o' fresh st, .get Database.kind.name key (.ok (some o)) ∈ t ∧
      Database.kind.ofObject o = .ok database ∧
      .get Database.kind.name database.key (.ok (some o')) ∈ t ∧
      Database.kind.ofObject o' = .ok fresh ∧ database.status.Advance now st ∧ Unwritten t ∧
      w = Database.kind.toObject { fresh with status := st } := by
  rcases reconcile_makes h with ⟨-, h⟩ | ⟨_, _, _, -, -, -, h⟩ |
    ⟨o, database, resources, t', rfl, ho, hr, h⟩
  · exact nomatch h
  · exact nomatch h
  rcases h with h | ⟨request', heq, h⟩
  · cases h with
    | @persist o' fresh st hget hfresh hst hfirst =>
      exact ⟨o, database, o', fresh, st, List.mem_cons_self, ho, List.mem_cons_of_mem _ hget,
        hfresh, hst, unwritten_get.append hfirst, rfl⟩
  · exact nomatch heq

end Reconciler

end Converge

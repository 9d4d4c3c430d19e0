import Converge.Proofs.Frame
import Converge.Proofs.Locality

/-!
# The footprint of a pass

A pass looks at few cells of the store: at the objects of its database, at the storage cluster and
the shared database that it refers to, and at the tenant of its path. Which cells these are is
decided by the database alone. It writes only those that belong to its database.

## Main definitions

* `Store.aggregate?`: the database at a key as a pass loads it.
* `Aggregate.sources`, `Aggregate.footprint`: where a pass over a database looks.
* `Program.ReadsIn`: a program that reads nowhere else.
* `Store.Touched`, `Store.Writable`: the cells at which a pass may look, and those that it may
  write.
* `Reconciler.tells`: the events that a pass records.

## Main results

* `Reconciler.steps_readsIn`, `Reconciler.reconcile_makes_get`: the objects that a pass reads.
* `Reconciler.pass_touched`, `Reconciler.pass_unwritten`: a pass keeps to these cells.
* `Reconciler.pass_local`: a pass over another store that holds the same in them.
* `Reconciler.subject_of_mem_tells`: the subject of all that a pass tells.
-/

namespace Converge

open Program (Invocation Exchange)

/-! ### Where a pass looks -/

/-- The database at a key, as a pass loads it. -/
def Store.aggregate? (s : Store) (key : ObjectKey) : Option Aggregate :=
  match Database.kind.read (.ok (s.find? Database.kind.name key)) with
  | .ok (some database) => (Aggregate.ofDatabase database).toOption
  | _ => none

namespace Aggregate

/-- The key of the shared database in which a serverless database wants its place. -/
def sharedKey? (a : Aggregate) : Option ObjectKey :=
  match a.resources with
  | .serverless reference => some (reference.key a.ns)
  | .dedicated _ | .shared _ => none

/-- Where a pass over a database looks without writing: at the storage cluster, and at the shared
database of a serverless one. -/
def sources (a : Aggregate) : List String :=
  tableKey StorageCluster.kind.name a.storageKey ::
    (a.sharedKey?.map (tableKey Database.kind.name)).toList

/-- Where a pass over a database looks. -/
def footprint (a : Aggregate) : List String := a.sources ++ a.places

variable {a : Aggregate}

theorem storage_mem_footprint :
    tableKey StorageCluster.kind.name a.storageKey ∈ a.footprint :=
  List.mem_append_left _ List.mem_cons_self

theorem database_mem_footprint : tableKey Database.kind.name a.key ∈ a.footprint :=
  List.mem_append_right _ a.database_mem_places

theorem workload_mem_footprint (h : ¬ a.resources.isServerless = true) :
    tableKey Workload.kind.name a.key ∈ a.footprint := by
  refine List.mem_append_right _ (List.mem_cons_of_mem _ (List.mem_cons_of_mem _ ?_))
  rw [if_neg h]
  exact List.mem_cons_self

theorem shared_mem_footprint {reference : Reference} (h : a.resources = .serverless reference) :
    tableKey Database.kind.name (reference.key a.ns) ∈ a.footprint := by
  refine List.mem_append_left _ (List.mem_cons_of_mem _ ?_)
  rw [sharedKey?, h]
  exact List.mem_cons_self

end Aggregate

/-! ### Programs that read in few places -/

namespace Program

variable {α β σ τ : Type} {p : Program α} {f : α → Program β} {keys : List String}

/-- Whatever its calls are answered, the program reads objects under these table keys only. -/
def ReadsIn (p : Program α) (keys : List String) : Prop :=
  ∀ t kind key, p.Makes t (.get kind key) → tableKey kind key ∈ keys

theorem readsIn_pure {a : α} : (pure a : Program α).ReadsIn keys := fun _ _ _ h => h.elim

theorem readsIn_fetch {kind : ResourceKind σ τ} {key : ObjectKey}
    (h : tableKey kind.name key ∈ keys) : (fetch kind key).ReadsIn keys := by
  intro t kind' key' hmakes
  obtain ⟨-, heq⟩ := fetch_makes.mp hmakes
  obtain ⟨rfl, rfl⟩ := Invocation.get.inj heq
  exact h

theorem readsIn_notify {subject : ObjectKey} {severity : Severity} {reason message : String} :
    (notify subject severity reason message).ReadsIn keys :=
  fun _ _ _ h => nomatch (notify_makes.mp h).2

theorem readsIn_upsert {placeholder : Object} {change : Change} :
    (upsert placeholder change .done).ReadsIn keys := by
  rintro t kind key (⟨-, h⟩ | ⟨_, _, -, h⟩)
  · exact nomatch h
  · exact h.elim

theorem readsIn_provision {request : TenantRequest} : (provision request .done).ReadsIn keys := by
  rintro t kind key (⟨-, h⟩ | ⟨_, _, -, h⟩)
  · exact nomatch h
  · exact h.elim

/-- The second of two programs has to read there after whatever the first can end with. -/
theorem ReadsIn.bind_of_ends (hp : p.ReadsIn keys) (hf : ∀ t a, p.Ends t a → (f a).ReadsIn keys) :
    (p >>= f).ReadsIn keys := by
  intro t kind key h
  rcases makes_bind.mp h with h | ⟨t₁, t₂, a, -, hends, h⟩
  · exact hp t kind key h
  · exact hf t₁ a hends t₂ kind key h

theorem ReadsIn.bind (hp : p.ReadsIn keys) (hf : ∀ a, (f a).ReadsIn keys) :
    (p >>= f).ReadsIn keys :=
  hp.bind_of_ends fun _ a _ => hf a

theorem ReadsIn.ite {c : Prop} [Decidable c] {q : Program α} (hp : c → p.ReadsIn keys)
    (hq : ¬ c → q.ReadsIn keys) : (if c then p else q).ReadsIn keys := by
  split
  · exact hp ‹_›
  · exact hq ‹_›

theorem ReadsIn.andThen {step : Program Flow} {next : Aggregate → Program Flow}
    (hstep : step.ReadsIn keys)
    (hnext : ∀ t a, step.Ends t (.proceed a) → (next a).ReadsIn keys) :
    (step.andThen next).ReadsIn keys := by
  refine hstep.bind_of_ends fun t flow hends => ?_
  cases flow with
  | proceed a => exact hnext t a hends
  | halt wish a => exact readsIn_pure

end Program

/-! ### The objects that a pass reads -/

namespace Reconciler

open Program (readsIn_pure readsIn_fetch readsIn_notify readsIn_upsert readsIn_provision)

variable {r : Reconciler} {now : UInt64} {key : ObjectKey} {a : Aggregate} {t : List Exchange}
  {keys : List String}

theorem persistAndHalt_readsIn (h : tableKey Database.kind.name a.key ∈ keys) :
    (r.persistAndHalt a).ReadsIn keys := by
  intro t kind key hmakes
  rcases persistStatus_makes (persistAndHalt_makes.mp hmakes) with
    ⟨-, heq⟩ | ⟨_, -, heq⟩ | ⟨_, _, -, -, -, heq⟩
  · obtain ⟨rfl, rfl⟩ := Invocation.get.inj heq
    exact h
  · exact nomatch heq
  · exact nomatch heq

theorem awaitStorage_readsIn : (r.awaitStorage a).ReadsIn a.footprint := by
  refine (readsIn_fetch Aggregate.storage_mem_footprint).bind fun found => ?_
  match found with
  | .error _ | .ok none => exact readsIn_notify.bind fun _ => readsIn_pure
  | .ok (some storage) =>
    exact .ite (fun _ => readsIn_pure) fun _ => readsIn_notify.bind fun _ => readsIn_pure

theorem syncEach_readsIn (builders : List Builder) :
    (r.syncEach a builders).ReadsIn keys := by
  induction builders with
  | nil => exact readsIn_pure
  | cons b rest ih =>
    refine readsIn_upsert.bind fun result => ?_
    cases result with
    | ok outcome => exact .ite (fun _ => readsIn_notify.bind fun _ => ih) fun _ => ih
    | error e => exact readsIn_notify.bind fun _ => readsIn_pure

theorem promote_readsIn (h : tableKey Database.kind.name a.key ∈ keys) :
    (r.promote a).ReadsIn keys :=
  .ite (fun _ => readsIn_notify.bind fun _ => persistAndHalt_readsIn h) fun _ => readsIn_pure

theorem awaitScale_readsIn : (r.awaitScale a).ReadsIn a.footprint := by
  refine .ite (fun _ => promote_readsIn Aggregate.database_mem_footprint) fun hserverless => ?_
  refine (readsIn_fetch (Aggregate.workload_mem_footprint hserverless)).bind fun found => ?_
  match found with
  | .error _ => exact readsIn_notify.bind fun _ => readsIn_pure
  | .ok none => exact readsIn_pure
  | .ok (some workload) =>
    exact .ite (fun _ => promote_readsIn Aggregate.database_mem_footprint) fun _ =>
      readsIn_notify.bind fun _ => persistAndHalt_readsIn Aggregate.database_mem_footprint

theorem announceTenant_readsIn : (r.announceTenant now a).ReadsIn a.footprint := by
  refine .ite (fun _ => readsIn_pure) fun _ => persistAndHalt_readsIn ?_
  split <;> exact Aggregate.database_mem_footprint

theorem storageOf_readsIn : (r.storageOf a).ReadsIn a.footprint := by
  unfold storageOf
  split
  · exact readsIn_pure
  · exact readsIn_pure
  rename_i reference hresources
  refine (readsIn_fetch (Aggregate.shared_mem_footprint hresources)).bind fun found => ?_
  match found with
  | .error _ | .ok none => exact readsIn_notify.bind fun _ => readsIn_pure
  | .ok (some database) =>
    exact .ite (fun _ => readsIn_pure) fun _ => readsIn_notify.bind fun _ => readsIn_pure

theorem createTenant_readsIn : (r.createTenant now a).ReadsIn a.footprint := by
  refine storageOf_readsIn.bind fun found => ?_
  match found with
  | .error wish => exact readsIn_pure
  | .ok storage =>
    dsimp only
    split
    · exact readsIn_pure
    · refine readsIn_provision.bind fun result => ?_
      cases result with
      | error e => exact readsIn_notify.bind fun _ => readsIn_pure
      | ok _ =>
        exact readsIn_notify.bind fun _ => persistAndHalt_readsIn Aggregate.database_mem_footprint

/-- **The objects that the steps of a pass read** are in the footprint of the database. -/
theorem steps_readsIn : (r.steps now a).ReadsIn a.footprint := by
  refine awaitStorage_readsIn.andThen fun t a' hstorage => ?_
  obtain ⟨o, cluster, rfl, -, -, rfl⟩ := awaitStorage_proceeds hstorage
  refine (syncEach_readsIn _).andThen fun t a' hsync => ?_
  obtain ⟨rfl, -⟩ := syncEach_proceeds hsync
  refine awaitScale_readsIn.andThen fun t a' hscale => ?_
  obtain ⟨rfl, -⟩ := awaitScale_proceeds hscale
  refine .ite (fun _ => readsIn_pure) fun _ =>
    announceTenant_readsIn.andThen fun t a' hannounce => ?_
  obtain ⟨rfl, -⟩ := announceTenant_proceeds hannounce
  exact createTenant_readsIn

/-- Once the database was read all that a pass reads is in its footprint. -/
theorem reconcile_makes_get {o : Object} {database : Database} {resources : Resources}
    {kind : String} {key' : ObjectKey} (hloaded : Database.kind.ofObject o = .ok database)
    (hresolve : database.spec.resolve = .ok resources)
    (h : (r.reconcile now key).Makes (.get Database.kind.name key (.ok (some o)) :: t)
      (.get kind key')) :
    tableKey kind key' ∈ (⟨database, resources, none⟩ : Aggregate).footprint := by
  unfold reconcile at h
  rw [Program.makes_bind] at h
  rcases h with h | ⟨_, t', found, heq, hfound, h⟩
  · exact nomatch (Program.fetch_makes.mp h).1
  obtain ⟨answer, rfl, rfl⟩ := Program.fetch_ends.mp hfound
  obtain ⟨rfl, rfl⟩ : .ok (some o) = answer ∧ t = t' := by simpa using heq
  have hread : Database.kind.read (.ok (some o)) = .ok (some database) :=
    ResourceKind.read_eq_ok_some_iff.mpr ⟨o, rfl, hloaded⟩
  have hload : Aggregate.ofDatabase database = .ok { database, resources } :=
    Aggregate.ofDatabase_eq_ok_iff.mpr ⟨resources, hresolve, rfl⟩
  simp only [hread, hload] at h
  have hrun : (r.runAggregate now ⟨database, resources, none⟩).ReadsIn
      (⟨database, resources, none⟩ : Aggregate).footprint := by
    refine steps_readsIn.bind fun flow => ?_
    cases flow <;> exact readsIn_pure
  exact (hrun.bind fun _ => readsIn_pure) t kind key' h

end Reconciler

/-! ### The cells of a pass -/

namespace Store

variable {s s' : Store} {key : ObjectKey} {cell : Cell} {a : Aggregate}

/-- A pass over the database at a key may look at the cell. -/
inductive Touched (s : Store) (key : ObjectKey) : Cell → Prop
  | database : Touched s key (.object (tableKey Database.kind.name key))
  | object {a : Aggregate} {tkey : String} (ha : s.aggregate? key = some a)
      (htkey : tkey ∈ a.footprint) : Touched s key (.object tkey)
  | tenant {a : Aggregate} {path : String} (ha : s.aggregate? key = some a)
      (hpath : path = a.path) : Touched s key (.tenant path)

/-- A pass over the database at a key may write into the cell. -/
inductive Writable (s : Store) (key : ObjectKey) : Cell → Prop
  | object {a : Aggregate} {tkey : String} (ha : s.aggregate? key = some a)
      (htkey : tkey ∈ a.places) : Writable s key (.object tkey)
  | tenant {a : Aggregate} {path : String} (ha : s.aggregate? key = some a)
      (hpath : path = a.path) : Writable s key (.tenant path)

theorem Writable.touched (h : s.Writable key cell) : s.Touched key cell := by
  cases h with
  | object ha htkey => exact .object ha (List.mem_append_right _ htkey)
  | tenant ha hpath => exact .tenant ha hpath

/-- The database that a pass loads depends on one cell. -/
theorem aggregate?_congr (h : s.SameAt s' (.object (tableKey Database.kind.name key))) :
    s'.aggregate? key = s.aggregate? key := by
  have hfind : s'.find? Database.kind.name key = s.find? Database.kind.name key := h
  rw [aggregate?, aggregate?, hfind]

/-- So do the cells that it may write. -/
theorem Writable.congr (h : s.SameAt s' (.object (tableKey Database.kind.name key)))
    (hw : s'.Writable key cell) : s.Writable key cell := by
  cases hw with
  | object ha htkey => exact .object (aggregate?_congr h ▸ ha) htkey
  | tenant ha hpath => exact .tenant (aggregate?_congr h ▸ ha) hpath

end Store

namespace Reconciler

variable {r : Reconciler} {now : UInt64} {key : ObjectKey} {s s' : Store} {o : Object}
  {database : Database} {resources : Resources} {a : Aggregate} {cell : Store.Cell}

theorem Loads.aggregate?_eq (h : Loads s key o database resources) :
    s.aggregate? key = some { database, resources } := by
  rw [Store.aggregate?, h.read_eq]
  exact congrArg Except.toOption h.ofDatabase_eq

theorem exists_loads_of_aggregate? (hs : s.Placed) (h : s.aggregate? key = some a) :
    ∃ o, Loads s key o a.database a.resources := by
  rw [Store.aggregate?] at h
  split at h
  · rename_i database hread
    obtain ⟨o, hstored, hloaded⟩ := ResourceKind.read_eq_ok_some_iff.mp hread
    have hstored := Except.ok.inj hstored
    cases hload : Aggregate.ofDatabase database with
    | error e =>
      rw [hload] at h
      exact nomatch h
    | ok a' =>
      rw [hload] at h
      obtain rfl := Option.some.inj h
      obtain ⟨resources, hresolve, rfl⟩ := Aggregate.ofDatabase_eq_ok_iff.mp hload
      exact ⟨o, hstored, hs _ o hstored, hloaded, hresolve⟩
  · exact nomatch h

/-- A pass without failures keeps to its frame, and its trace tells what it has read. -/
theorem pass_confined (hr : r.catalog = Catalog.standard) (hs : s.Placed) (now : UInt64)
    (key : ObjectKey) : Session.Confined key s (r.pass key now s).2
      ((r.reconcile now key).trace (Store.collaborators now) s) :=
  Session.run_induct id (fun h => .inl ⟨now, h⟩)
    (fun hcall hserved h => h.serve hr hs hcall hserved) s (Session.confined_nil key hs)

/-- **The cells that a pass touches.** All calls of a pass look at these cells only. -/
theorem pass_touched (hr : r.catalog = Catalog.standard) (hs : s.Placed) {e : Exchange}
    (he : e ∈ (r.reconcile now key).trace (Store.collaborators now) s)
    (hcell : cell ∈ e.call.cell?) : s.Touched key cell := by
  have hconfined := pass_confined hr hs now key
  obtain ⟨t₁, t₂, ht⟩ := List.append_of_mem he
  have hends := Program.ends_trace (Store.collaborators now) (r.reconcile now key) s
  rw [ht] at hends hconfined
  have hmakes := hends.makes
  rcases reconcile_makes hmakes with ⟨-, hget⟩ | ⟨_, _, _, -, -, -, hrecord⟩ |
    ⟨o, database, resources, t', rfl, hloaded, hresolve, hcall⟩
  · rw [hget] at hcell
    obtain rfl := Option.some.inj hcell
    exact .database
  · rw [hrecord] at hcell
    exact nomatch hcell
  have hstored := hconfined.first o _ rfl
  have ha := Loads.aggregate?_eq ⟨hstored, hs _ o hstored, hloaded, hresolve⟩
  have hplace : ∀ w, e.call = .writeStatus w →
      w.tableKey = tableKey Database.kind.name key := fun w hw =>
    Session.tableKey_of_makes_writeStatus
      (fun kind key o hmem => hconfined.inPlace kind key o (List.mem_append_left _ hmem))
      (hw ▸ hmakes)
  cases e with
  | record notice => exact nomatch hcell
  | get kind key' answer =>
    obtain rfl := Option.some.inj hcell
    exact .object ha (reconcile_makes_get hloaded hresolve hmakes)
  | writeStatus w answer =>
    obtain rfl := Option.some.inj hcell
    rw [hplace w rfl]
    exact .database
  | upsert placeholder change answer =>
    obtain rfl := Option.some.inj hcell
    rcases hcall with hcall | ⟨_, heq, -⟩
    · cases hcall with
      | @build a b hdatabase hresolve' hb _ =>
        subst hdatabase
        obtain rfl := Except.ok.inj (hresolve.symm.trans hresolve')
        rw [hr] at hb
        have hmem : b.placeholder.tableKey ∈ a.places := Catalog.standard_mem_places hb
        exact .object ha (List.mem_append_right _ hmem)
    · exact nomatch heq
  | provision request answer =>
    obtain rfl := Option.some.inj hcell
    rcases hcall with hcall | ⟨_, heq, hgated⟩
    · exact nomatch hcall
    obtain rfl := Invocation.provision.inj heq
    cases hgated with
    | intro _ _ _ _ _ _ _ _ _ _ _ path => exact .tenant ha path

/-- A pass leaves all other cells as they are but those that it may write. -/
theorem pass_unwritten (hr : r.catalog = Catalog.standard) (hs : s.Placed)
    (hcell : ¬ s.Writable key cell) (now : UInt64) : s.SameAt (r.pass key now s).2 cell := by
  have hconfined := pass_confined hr hs now key
  by_cases hloads : ∃ o database resources, Loads s key o database resources
  swap
  · obtain ⟨hobjects, htenants⟩ := hconfined.unchanged hloads
    exact .of_eq hobjects htenants cell
  obtain ⟨o, database, resources, hloads⟩ := hloads
  have hframed := hconfined.framed o database resources hloads
  cases cell with
  | object tkey => exact hframed.others tkey fun hmem => hcell (.object hloads.aggregate?_eq hmem)
  | tenant path =>
    rcases hframed.tenants with htenants | ⟨request, -, -, htenants⟩
    · exact Store.tenant?_congr htenants path
    · change (r.pass key now s).2.tenants.find? path = s.tenants.find? path
      rw [htenants]
      exact Table.find?_insert_ne _
        (fun hpath => hcell (.tenant hloads.aggregate?_eq hpath.symm)) request

/-- The events that a pass over the database at a key records. -/
def tells (r : Reconciler) (key : ObjectKey) (now : UInt64) (s : Store) : List Event :=
  Program.told now ((r.reconcile now key).trace (Store.collaborators now) s)

/-- The events after a pass are those before it, and after them what the pass tells. -/
theorem pass_events (r : Reconciler) (key : ObjectKey) (now : UInt64) (s : Store) :
    (s.putEvents (r.tells key now s)).SameEvents (r.pass key now s).2 :=
  Program.run_events (r.reconcile now key) now s

/-- **The locality of a pass.** Over two stores that hold the same in all cells that it touches a
pass does the same. Where the stores agree they still do so afterwards. -/
theorem pass_local (hr : r.catalog = Catalog.standard) (hs : s.Placed) (now : UInt64)
    (h : ∀ cell, s.Touched key cell → s.SameAt s' cell) :
    r.tells key now s' = r.tells key now s ∧ (r.pass key now s').1 = (r.pass key now s).1 ∧
      ∀ cell, s.SameAt s' cell → (r.pass key now s).2.SameAt (r.pass key now s').2 cell := by
  obtain ⟨htrace, hrun⟩ := Program.run_local fun _ he cell hcell =>
    h cell (pass_touched hr hs he hcell)
  exact ⟨congrArg (Program.told now) htrace, hrun⟩

/-- **What a pass tells** is about its database, which is in the store. -/
theorem subject_of_mem_tells (hr : r.catalog = Catalog.standard) (hs : s.Placed) {e : Event}
    (he : e ∈ r.tells key now s) :
    ∃ o, s.find? Database.kind.name key = some o ∧ (key.Free '/' → e.subject = key) := by
  obtain ⟨notice, hnotice, hsubject⟩ := Program.exists_of_mem_told he
  rw [hsubject]
  have hconfined := pass_confined hr hs now key
  obtain ⟨t₁, t₂, ht⟩ := List.append_of_mem hnotice
  have hends := Program.ends_trace (Store.collaborators now) (r.reconcile now key) s
  rw [ht] at hends hconfined
  rcases reconcile_makes hends.makes with ⟨-, heq⟩ | ⟨o, _, notice', rfl, -, hsubject', heq⟩ |
    ⟨o, database, resources, t', rfl, hloaded, -, hcall⟩
  · exact nomatch heq
  · obtain rfl := Invocation.record.inj heq
    exact ⟨o, hconfined.first o _ rfl, fun _ => hsubject'⟩
  · have hstored := hconfined.first o _ rfl
    refine ⟨o, hstored, fun hkey => ?_⟩
    rcases hcall with hcall | ⟨_, heq, -⟩
    · cases hcall with
      | tell hsubject' =>
        rw [hsubject']
        exact (tableKey_inj (by decide) hkey
          ((Session.tableKey_of_ofObject hloaded).trans (hs _ o hstored))).2
    · exact nomatch heq

end Reconciler

end Converge

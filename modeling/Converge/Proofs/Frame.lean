import Converge.Proofs.Changes
import Converge.Proofs.OwnedObjects
import Converge.Proofs.Prepared
import Converge.Proofs.TenantRegistry

/-!
# The frame of a pass

A pass over a database writes in three places at most: the service and the workload of the database,
and the database itself. It removes nothing. A service or workload that was there before keeps what
it is called, its status, and the labels that the catalog does not set; the database gets another
status. Of the tenants a pass can add the one of its own database. All this holds whichever calls of
the pass fail, and wherever it ends.

## Main definitions

* `Collaborators.inTurn`, `Store.unreliable`: a store that fails any calls of a pass.
* `Aggregate.places`: the places where a pass over a database may write.
* `Aggregate.Registers`: what may become of the tenants in a pass over a database.
* `Object.Reshaped`: what may become of a service or workload there.
* `Store.Framed`: what may become of a store in a pass over a database.
* `Session.Confined`: a pass in progress that keeps to its frame.

## Main results

* `Session.run_induct`, `Session.unreliable_induct`: what single calls of a pass preserve holds at
  the end of the pass, also of one with failures.
* `Store.Framed.serve`: the frame of a single call.
* `Session.Confined.serve`: every call keeps the pass to its frame.
-/

namespace Converge

open Program (Invocation Exchange)

/-! ### Passes with failures -/

/-- The call with number `n` is answered as by the `n`-th of the given collaborators. -/
def Collaborators.inTurn {σ : Type} (c : Nat → Collaborators σ) : Collaborators (Nat × σ) where
  get kind key x := (((c x.1).get kind key x.2).1, x.1 + 1, ((c x.1).get kind key x.2).2)
  upsert placeholder change x :=
    (((c x.1).upsert placeholder change x.2).1, x.1 + 1,
      ((c x.1).upsert placeholder change x.2).2)
  writeStatus o x := (((c x.1).writeStatus o x.2).1, x.1 + 1, ((c x.1).writeStatus o x.2).2)
  record notice x := (x.1 + 1, (c x.1).record notice x.2)
  provision request x :=
    (((c x.1).provision request x.2).1, x.1 + 1, ((c x.1).provision request x.2).2)

/-- The calls are counted, and each is answered by the collaborators whose turn it is. -/
theorem Collaborators.served_inTurn {σ : Type} {c : Nat → Collaborators σ} {x x' : Nat × σ}
    {e : Exchange} (h : e.Served (.inTurn c) x x') :
    x'.1 = x.1 + 1 ∧ e.Served (c x.1) x.2 x'.2 := by
  cases e with
  | record => exact ⟨(congrArg Prod.fst h).symm, congrArg Prod.snd h⟩
  | get | upsert | writeStatus | provision =>
    have hanswer := congrArg Prod.fst h
    have hcount := congrArg (·.2.1) h
    have hstore := congrArg (·.2.2) h
    exact ⟨hcount.symm, Prod.ext hanswer hstore⟩

/-- A store that answers the call with number `n` at the time `clock n`, unless `outages n` says how
the call fails. -/
def Store.unreliable (clock : Nat → UInt64) (outages : Nat → Option Outage) :
    Collaborators (Nat × Store) :=
  .inTurn fun n => ((outages n).map Store.failing).getD (Store.collaborators (clock n))

namespace Session

variable {r : Reconciler} {now : UInt64} {key : ObjectKey} {t : List Exchange} {s s' : Store}

/-- **The induction over a pass.** What single calls of a pass preserve, answered or failed, holds
at the end of the pass and of its whole trace, whoever answers the calls. -/
theorem run_induct {σ : Type} {c : Collaborators σ} (store : σ → Store)
    (hc : ∀ {w w'} {e : Exchange}, e.Served c w w' → Served (store w) (store w') e)
    {I : Store → List Exchange → Prop}
    (hserve : ∀ {s s' : Store} {t : List Exchange} {e : Exchange},
      (r.reconcile now key).Makes t e.call → Served s s' e → I s t → I s' (t ++ [e]))
    (w : σ) (h : I (store w) []) :
    I (store ((r.reconcile now key).run c w).2) ((r.reconcile now key).trace c w) :=
  Program.run_induct (I := fun w t => I (store w) t)
    (fun hmakes hserved h => hserve hmakes (hc hserved) h) w h

theorem served_unreliable {clock : Nat → UInt64} {outages : Nat → Option Outage}
    {x x' : Nat × Store} {e : Exchange} (h : e.Served (Store.unreliable clock outages) x x') :
    Served x.2 x'.2 e := by
  have hturn := (Collaborators.served_inTurn h).2
  cases houtage : outages x.1 with
  | none =>
    rw [houtage] at hturn
    exact .inl ⟨clock x.1, hturn⟩
  | some outage =>
    rw [houtage] at hturn
    exact .inr ⟨outage, hturn⟩

/-- **Passes with failures.** What single calls of a pass preserve, answered or failed, is preserved
by the pass. -/
theorem unreliable_induct {I : Store → List Exchange → Prop}
    (hserve : ∀ {s s' : Store} {t : List Exchange} {e : Exchange},
      (r.reconcile now key).Makes t e.call → Served s s' e → I s t → I s' (t ++ [e]))
    (clock : Nat → UInt64) (outages : Nat → Option Outage) (n : Nat) (h : I s []) :
    ∃ t, I ((r.reconcile now key).run (Store.unreliable clock outages) (n, s)).2.2 t :=
  ⟨_, run_induct Prod.snd served_unreliable hserve (n, s) h⟩

theorem reachable_unreliable (hs : s.Reachable) (r : Reconciler) (now : UInt64) (key : ObjectKey)
    (clock : Nat → UInt64) (outages : Nat → Option Outage) (n : Nat) :
    ((r.reconcile now key).run (Store.unreliable clock outages) (n, s)).2.2.Reachable := by
  refine (unreliable_induct (I := fun s _ => s.Reachable) (fun _ hserved h => ?_) clock outages n
    hs).choose_spec
  rcases hserved.cases with rfl | ⟨op, -, rfl⟩
  · exact h
  · exact h.apply op

end Session

/-! ### Objects that a pass writes -/

private theorem Catalog.find?_selector_of_ne {name label : String} (h₁ : label ≠ databaseLabel)
    (h₂ : label ≠ componentLabel) : (selector name).find? label = none := by
  rw [selector, Table.ofList, Table.find?_foldl_insert, Table.find?_empty, Option.or_none]
  simp [List.lookup_eq_none_iff, h₁, h₂]

namespace Object

/-- The object `o'` is called as `o` is, and has the status of `o` and its labels, except for those
that the catalog sets. -/
structure Reshaped (o o' : Object) : Prop where
  kind : o'.kind = o.kind
  key : o'.key = o.key
  status : o'.status = o.status
  labels : ∀ label, label ≠ Catalog.databaseLabel → label ≠ Catalog.componentLabel →
    o'.metadata.labels.find? label = o.metadata.labels.find? label

variable {o o₁ o₂ : Object}

theorem Reshaped.refl (o : Object) : o.Reshaped o := ⟨rfl, rfl, rfl, fun _ _ _ => rfl⟩

theorem Reshaped.trans (h₁ : o.Reshaped o₁) (h₂ : o₁.Reshaped o₂) : o.Reshaped o₂ where
  kind := h₂.kind.trans h₁.kind
  key := h₂.key.trans h₁.key
  status := h₂.status.trans h₁.status
  labels label hd hc := (h₂.labels label hd hc).trans (h₁.labels label hd hc)

end Object

variable {a : Aggregate} {b : Builder}

/-- What a builder of the standard catalog makes of a stored object. -/
theorem Catalog.standard_reshaped {owner : Metadata} {stored o : Object} (hb : b ∈ standard a)
    (h : b.owned owner stored = .ok o) (version : UInt64) :
    stored.Reshaped ((Store.updated stored o).withVersion version) := by
  obtain ⟨hkind, hkey, -⟩ := standard_owned hb h
  obtain ⟨built, metadata, hbuild, hcontroller, rfl⟩ := Builder.owned_eq_ok_iff.mp h
  obtain ⟨-, rfl⟩ := Metadata.setController_eq_ok hcontroller
  have hlabels : built.metadata.labels = stored.metadata.labels.union (selector a.name) := by
    rcases mem_standard hb with rfl | rfl
    · rw [← Except.ok.inj hbuild]
      rfl
    · dsimp only [workload] at hbuild
      split at hbuild
      · exact nomatch hbuild
      · rw [← Except.ok.inj hbuild]
        rfl
  refine ⟨hkind, hkey, rfl, fun label hd hc => ?_⟩
  change built.metadata.labels.find? label = _
  rw [hlabels, Table.find?_union, find?_selector_of_ne hd hc, Option.none_or]

/-- The place of the object that a call may write. -/
def Program.Exchange.place? : Exchange → Option String
  | .upsert placeholder _ _ => some placeholder.tableKey
  | .writeStatus o _ => some o.tableKey
  | _ => none

/-- Where a pass over a database may write: at the service of the database, at the database, and at
its workload unless the database is serverless. -/
def Aggregate.places (a : Aggregate) : List String :=
  tableKey "Service" ⟨a.ns, a.name ++ "-grpc"⟩ :: tableKey Database.kind.name a.key ::
    if a.resources.isServerless then [] else [tableKey Workload.kind.name a.key]

theorem Aggregate.database_mem_places (a : Aggregate) :
    tableKey Database.kind.name a.key ∈ a.places :=
  List.mem_cons_of_mem _ List.mem_cons_self

theorem Catalog.standard_mem_places (hb : b ∈ standard a) : b.placeholder.tableKey ∈ a.places := by
  rcases mem_standard_iff.mp hb with rfl | ⟨hserverless, rfl⟩
  · exact List.mem_cons_self
  · rw [Aggregate.places, hserverless]
    exact List.mem_cons_of_mem _ (List.mem_cons_of_mem _ List.mem_cons_self)

/-- What may become of the tenants in a pass over a database: one may be registered at the path of
the database, if that was free. -/
def Aggregate.Registers (a : Aggregate) (tenants tenants' : Table TenantRequest) : Prop :=
  tenants' = tenants ∨ ∃ request : TenantRequest, request.path = a.path ∧
    tenants.find? a.path = none ∧ tenants' = tenants.insert a.path request

theorem Aggregate.Registers.trans {tenants tenants₁ tenants₂ : Table TenantRequest}
    (h₁ : a.Registers tenants tenants₁) (h₂ : a.Registers tenants₁ tenants₂) :
    a.Registers tenants tenants₂ := by
  rcases h₁ with rfl | ⟨request, hpath, hfree, rfl⟩
  · exact h₂
  rcases h₂ with rfl | ⟨_, -, hfree₂, -⟩
  · exact .inr ⟨request, hpath, hfree, rfl⟩
  · rw [Table.find?_insert_self] at hfree₂
    exact nomatch hfree₂

/-! ### The frame of a call -/

namespace Store

variable {s s' s₁ s₂ : Store} {request : TenantRequest} {path : String}

/-- What may become of the store `s` in a pass over a database. -/
structure Framed (a : Aggregate) (s s' : Store) : Prop where
  /-- Elsewhere nothing changes. -/
  others : ∀ tkey, tkey ∉ a.places → s'.objects.find? tkey = s.objects.find? tkey
  /-- What was there is still there, and is called the same. -/
  owned : ∀ tkey, tkey ≠ tableKey Database.kind.name a.key →
    ∀ o, s.objects.find? tkey = some o → ∃ o', s'.objects.find? tkey = some o' ∧ o.Reshaped o'
  /-- The database gets another status. -/
  database : ∀ o, s.objects.find? (tableKey Database.kind.name a.key) = some o →
    ∃ o', s'.objects.find? (tableKey Database.kind.name a.key) = some o' ∧ o.Restated o'
  /-- A tenant may be registered. -/
  tenants : a.Registers s.tenants s'.tenants

theorem Framed.of_objects (hobjects : s'.objects = s.objects)
    (htenants : a.Registers s.tenants s'.tenants) : Framed a s s' where
  others _ _ := by rw [hobjects]
  owned _ _ o h := ⟨o, by rwa [hobjects], .refl o⟩
  database o h := ⟨o, by rwa [hobjects], .refl o⟩
  tenants := htenants

theorem Framed.of_eq (hobjects : s'.objects = s.objects) (htenants : s'.tenants = s.tenants) :
    Framed a s s' :=
  .of_objects hobjects (.inl htenants)

theorem Framed.trans (h₁ : Framed a s s₁) (h₂ : Framed a s₁ s₂) : Framed a s s₂ where
  others tkey htkey := (h₂.others tkey htkey).trans (h₁.others tkey htkey)
  owned tkey htkey o ho := by
    obtain ⟨o₁, hfind₁, hreshaped₁⟩ := h₁.owned tkey htkey o ho
    obtain ⟨o₂, hfind₂, hreshaped₂⟩ := h₂.owned tkey htkey o₁ hfind₁
    exact ⟨o₂, hfind₂, hreshaped₁.trans hreshaped₂⟩
  database o ho := by
    obtain ⟨o₁, hfind₁, hrestated₁⟩ := h₁.database o ho
    obtain ⟨o₂, hfind₂, hrestated₂⟩ := h₂.database o₁ hfind₁
    exact ⟨o₂, hfind₂, hrestated₁.trans hrestated₂⟩
  tenants := h₁.tenants.trans h₂.tenants

/-- The registration of a tenant adds an entry at its path, or the path was not free. -/
theorem putTenant_registers (s : Store) {request : TenantRequest} (hpath : request.path = a.path) :
    a.Registers s.tenants (s.putTenant request).2.tenants := by
  rw [putTenant]
  split
  · exact .inl rfl
  · rename_i h
    refine .inr ⟨request, hpath, Option.isNone_iff_eq_none.mp ?_, by rw [hpath]⟩
    simpa [Table.contains, hpath] using h

/-- The frame of an operation that only writes, and only in one place. -/
private theorem Framed.of_writes {op : Operation} (tkey : String) (hplace : tkey ∈ a.places)
    (htenants : (op.apply s).tenants = s.tenants) (hdelete : ∀ kind key, op ≠ .delete kind key)
    (hwrites : ∀ tkey' o', op.Writes s tkey' o' → tkey' = tkey ∧
      ∀ o, s.objects.find? tkey = some o →
      (tkey ≠ tableKey Database.kind.name a.key → o.Reshaped o') ∧
      (tkey = tableKey Database.kind.name a.key → o.Restated o')) :
    Framed a s (op.apply s) := by
  have hcases : ∀ k, (op.apply s).objects.find? k = s.objects.find? k ∨
      ∃ o, op.Writes s k o ∧ (op.apply s).objects.find? k = some o := by
    intro k
    rcases op.find?_apply s k with h | h | ⟨kind, key, h, -⟩
    · exact .inl h
    · exact .inr h
    · exact absurd h (hdelete kind key)
  refine ⟨fun k hk => ?_, fun k hk o ho => ?_, fun o ho => ?_, .inl htenants⟩
  · rcases hcases k with h | ⟨o', hw, -⟩
    · exact h
    · obtain ⟨rfl, -⟩ := hwrites k o' hw
      exact absurd hplace hk
  · rcases hcases k with h | ⟨o', hw, h⟩
    · exact ⟨o, h.trans ho, .refl o⟩
    · obtain ⟨rfl, hobject⟩ := hwrites k o' hw
      exact ⟨o', h, (hobject o ho).1 hk⟩
  · rcases hcases (tableKey Database.kind.name a.key) with h | ⟨o', hw, h⟩
    · exact ⟨o, h.trans ho, .refl o⟩
    · obtain ⟨hkey, hobject⟩ := hwrites _ o' hw
      rw [← hkey] at hobject
      exact ⟨o', h, (hobject o ho).2 rfl⟩

/-- **The frame of a call** of a pass over a loaded database. -/
theorem Framed.serve {r : Reconciler} {now : UInt64} {database : Database} {resources : Resources}
    {t : List Exchange} {e : Exchange} (hr : r.catalog = Catalog.standard)
    (hresolve : database.spec.resolve = .ok resources)
    (hcall : r.MayCall now database t e.call ∨
      ∃ request, e.call = .provision request ∧ r.Gated database resources t request)
    (hwrite : ∀ w, e.call = .writeStatus w →
      w.tableKey = tableKey Database.kind.name database.key)
    (hserved : Session.Served s s' e) : Framed ⟨database, resources, none⟩ s s' := by
  rcases hserved.cases with rfl | ⟨op, hperforms, rfl⟩
  · exact .of_eq rfl rfl
  cases e with
  | get => exact hperforms.elim
  | record notice =>
    obtain ⟨event, -, rfl⟩ := hperforms
    dsimp only [Operation.apply]
    rw [putEvent_eq]
    exact .of_eq rfl rfl
  | provision request answer =>
    obtain rfl : op = .putTenant request := hperforms
    rcases hcall with hcall | ⟨request', heq, hgated⟩
    · exact nomatch hcall
    obtain rfl := Invocation.provision.inj heq
    have hpath : request.path = (⟨database, resources, none⟩ : Aggregate).path := by
      cases hgated with
      | intro _ _ _ _ _ _ _ _ _ _ _ path => exact path
    dsimp only [Operation.apply]
    rw [putTenant_eq]
    exact .of_objects rfl (s.putTenant_registers hpath)
  | writeStatus w answer =>
    obtain rfl : op = .writeStatus w := hperforms
    have hkey := hwrite w rfl
    refine .of_writes w.tableKey ?_ ?_ nofun fun tkey o' hw => ?_
    · rw [hkey]
      exact Aggregate.database_mem_places _
    · exact ((Operation.writeStatus w).tenants_apply s).resolve_left nofun
    · cases hw with
      | status hfind _ =>
        refine ⟨rfl, fun o ho => ⟨fun hne => absurd hkey hne, fun _ => ?_⟩⟩
        obtain rfl := Option.some.inj (hfind.symm.trans ho)
        exact ⟨_, _, rfl⟩
  | upsert placeholder change answer =>
    obtain rfl : op = .upsert placeholder change := hperforms
    rcases hcall with hcall | ⟨_, heq, -⟩
    · cases hcall with
      | @build a' b ha hr' hb _ =>
        rw [hr] at hb
        subst ha
        obtain rfl := Except.ok.inj (hresolve.symm.trans hr')
        have hne := Catalog.standard_tableKey_ne hb Database.kind.name (by decide) (by decide)
          a'.database.key
        refine .of_writes b.placeholder.tableKey (Catalog.standard_mem_places hb) ?_ nofun
          fun tkey o' hw => ?_
        · exact ((Operation.upsert _ _).tenants_apply s).resolve_left nofun
        · cases hw with
          | create hnone _ _ => exact ⟨rfl, fun o ho => nomatch hnone.symm.trans ho⟩
          | update hfind hchange _ =>
            refine ⟨rfl, fun o ho => ⟨fun _ => ?_, fun h => absurd h hne⟩⟩
            obtain rfl := Option.some.inj (hfind.symm.trans ho)
            exact Catalog.standard_reshaped hb hchange _
    · exact nomatch heq

end Store

/-! ### The frame of a pass -/

namespace Session

variable {r : Reconciler} {now : UInt64} {key : ObjectKey} {t : List Exchange} {s₀ s s' : Store}

/-- What is so while a pass over the database at `key` is in progress that has begun with the store
`s₀`: the pass has read its database from that store, and keeps to its frame. -/
structure Confined (key : ObjectKey) (s₀ s : Store) (t : List Exchange) : Prop where
  placed : s.Placed
  inPlace : InPlace t
  fresh : t = [] → s = s₀
  first : ∀ o t', t = .get Database.kind.name key (.ok (some o)) :: t' →
    s₀.find? Database.kind.name key = some o
  framed : ∀ o database resources, Reconciler.Loads s₀ key o database resources →
    Store.Framed ⟨database, resources, none⟩ s₀ s
  unchanged : (¬ ∃ o database resources, Reconciler.Loads s₀ key o database resources) →
    s.objects = s₀.objects ∧ s.tenants = s₀.tenants

theorem confined_nil (key : ObjectKey) (hs : s.Placed) : Confined key s s [] where
  placed := hs
  inPlace := inPlace_nil
  fresh _ := rfl
  first _ _ h := nomatch h
  framed _ _ _ _ := .of_eq rfl rfl
  unchanged _ := ⟨rfl, rfl⟩

/-- A call keeps the pass confined if it keeps to the frame. -/
theorem Confined.append {e : Exchange} (h : Confined key s₀ s t) (hserved : Served s s' e)
    (hfirst : t = [] → ∀ o, e = .get Database.kind.name key (.ok (some o)) →
      s₀.find? Database.kind.name key = some o)
    (hframed : ∀ o database resources, Reconciler.Loads s₀ key o database resources →
      Store.Framed ⟨database, resources, none⟩ s s')
    (hunchanged : (¬ ∃ o database resources, Reconciler.Loads s₀ key o database resources) →
      s'.objects = s.objects ∧ s'.tenants = s.tenants) :
    Confined key s₀ s' (t ++ [e]) where
  placed := hserved.placed h.placed
  inPlace := h.inPlace.append h.placed hserved
  fresh ht := absurd ht (by simp)
  first o t' ht := by
    rcases List.append_eq_cons_iff.mp ht with ⟨rfl, heq⟩ | ⟨u, rfl, -⟩
    · exact hfirst rfl o (List.cons.inj heq).1
    · exact h.first o u rfl
  framed o database resources hloads :=
    (h.framed o database resources hloads).trans (hframed o database resources hloads)
  unchanged hnone :=
    ⟨(hunchanged hnone).1.trans (h.unchanged hnone).1,
      (hunchanged hnone).2.trans (h.unchanged hnone).2⟩

theorem Served.of_quiet {e : Exchange} (h : Served s s' e)
    (he : (∃ kind key, e.call = .get kind key) ∨ ∃ notice, e.call = .record notice) :
    s'.objects = s.objects ∧ s'.tenants = s.tenants := by
  rcases h.cases with rfl | ⟨op, hperforms, rfl⟩
  · exact ⟨rfl, rfl⟩
  rcases he with ⟨kind, key, he⟩ | ⟨notice, he⟩
  · rw [he] at hperforms
    exact hperforms.elim
  · rw [he] at hperforms
    obtain ⟨event, -, rfl⟩ := hperforms
    rw [Store.Operation.apply, Store.putEvent_eq]
    exact ⟨rfl, rfl⟩

/-- **The frame of a pass.** Every call of a pass keeps it confined. -/
theorem Confined.serve {e : Exchange} (hr : r.catalog = Catalog.standard) (hs₀ : s₀.Placed)
    (hcall : (r.reconcile now key).Makes t e.call) (hserved : Served s s' e)
    (h : Confined key s₀ s t) : Confined key s₀ s' (t ++ [e]) := by
  rcases Reconciler.reconcile_makes hcall with ⟨rfl, hget⟩ | ⟨o, _, notice, rfl, -, -, hrecord⟩ |
    ⟨o, database, resources, t', rfl, ho, hresolve, hsteps⟩
  · have hquiet := hserved.of_quiet (.inl ⟨_, _, hget⟩)
    refine h.append hserved (fun _ o he => ?_) (fun _ _ _ _ => .of_eq hquiet.1 hquiet.2)
      fun _ => hquiet
    rw [← h.fresh rfl]
    subst he
    exact hserved.find?
  · have hquiet := hserved.of_quiet (.inr ⟨_, hrecord⟩)
    exact h.append hserved nofun (fun _ _ _ _ => .of_eq hquiet.1 hquiet.2) fun _ => hquiet
  · have hstored := h.first o t' rfl
    have hloads : Reconciler.Loads s₀ key o database resources :=
      ⟨hstored, hs₀ _ o hstored, ho, hresolve⟩
    refine h.append hserved nofun (fun o' database' resources' hloads' => ?_)
      fun hnone => absurd ⟨o, database, resources, hloads⟩ hnone
    obtain rfl := Option.some.inj (hstored.symm.trans hloads'.stored)
    obtain rfl := Except.ok.inj (ho.symm.trans hloads'.loaded)
    obtain rfl := Except.ok.inj (hresolve.symm.trans hloads'.resolved)
    refine .serve hr hresolve hsteps (fun w hw => ?_) hserved
    rw [tableKey_of_makes_writeStatus h.inPlace (hw ▸ hcall), tableKey_of_ofObject ho,
      hloads.placed]

end Session

end Converge

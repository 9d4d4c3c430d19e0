import Converge.Proofs.Session
import Converge.Proofs.StandardCatalog

/-!
# A tenant that was created stays created

Once the stored status of a database says that its tenant was created it never says anything else
again, and no pass over the database asks for a tenant again. This holds in every session in which
clients neither delete the database nor write its status, whichever calls of the passes fail.

What a pass may write depends on the status that it has loaded, and not on the one that is stored
when it writes. So the invariant is about what the pass has been answered: as long as it has not
written, every status of the database that it has seen says that the tenant was created, if the
stored one does.

## Main definitions

* `Store.tenantInitialized`: the stored status of a database says that its tenant was created.
* `Store.Operation.Spares`: an operation neither deletes a database nor writes its status.
* `Session.Informed`: what a pass in progress has been answered.

## Main results

* `Store.Operation.Spares.tenantInitialized_apply`: such an operation changes nothing about that.
* `Session.Informed.serve`: nor does a call of a pass, except that it may create the tenant.
* `Session.tenant_monotone`: once created, a tenant stays created and is never asked for again.
-/

namespace Converge

open Program (Exchange)

/-! ### The condition of the tenant -/

/-- The status that the object carries says that the tenant was created. -/
def Object.tenantInitialized (o : Object) : Bool :=
  o.databaseStatus?.any (·.isTrue Converge.tenantInitialized)

private theorem Object.tenantInitialized_of_status_eq {o o' : Object} (h : o.status = o'.status) :
    o.tenantInitialized = o'.tenantInitialized := by
  rw [tenantInitialized, databaseStatus?, h]
  rfl

private theorem Object.tenantInitialized_of_isNull {o : Object} (h : o.status.isNull = true) :
    o.tenantInitialized = false := by
  rw [tenantInitialized, databaseStatus?_of_isNull h]
  rfl

/-- A tenant that was created stays created in every status that a pass may write. -/
theorem DatabaseStatus.Advance.isTrue {now : UInt64} {st st' : DatabaseStatus}
    (h : st.Advance now st') (hst : st.isTrue tenantInitialized = true) :
    st'.isTrue tenantInitialized = true := by
  cases h with
  | regress => exact hst
  | promote => exact hst
  | announce hnone => simp [DatabaseStatus.isTrue, hnone] at hst
  | reannounce _ hfalse => exact absurd hst (by simp [hfalse])
  | complete _ hfalse => exact absurd hst (by simp [hfalse])

namespace Store

variable {s s' : Store} {D : ObjectKey}

/-- The stored status of the database at a key says that its tenant was created. -/
def tenantInitialized (s : Store) (D : ObjectKey) : Bool :=
  (s.find? Database.kind.name D).any Object.tenantInitialized

theorem tenantInitialized_congr (h : s'.objects.find? (tableKey Database.kind.name D) =
    s.objects.find? (tableKey Database.kind.name D)) :
    s'.tenantInitialized D = s.tenantInitialized D := by
  rw [tenantInitialized, find?, h]
  rfl

theorem tenantInitialized_of_find? {o : Object} (h : s.find? Database.kind.name D = some o) :
    s.tenantInitialized D = o.tenantInitialized := by
  rw [tenantInitialized, h]
  rfl

/-! ### Operations that spare a database -/

/-- The operation neither deletes the database at `D` nor writes its status: what is stored in its
place comes without a status, and no status that is written for it is accepted. -/
def Operation.Spares (D : ObjectKey) (s : Store) : Operation → Prop
  | .put o => o.tableKey = tableKey Database.kind.name D → o.status.isNull = true
  | .delete kind key => tableKey kind key ≠ tableKey Database.kind.name D
  | .upsert placeholder change => placeholder.tableKey = tableKey Database.kind.name D →
    s.objects.find? placeholder.tableKey = none →
    ∀ o, change placeholder = .ok o → o.status.isNull = true
  | .writeStatus o => o.tableKey = tableKey Database.kind.name D →
    ∀ version, (s.writeStatus o).1 ≠ .ok version
  | .putTenant _ | .putEvent _ => True

/-- An operation that spares a database neither creates nor destroys the condition of its
tenant. -/
theorem Operation.Spares.tenantInitialized_apply {op : Operation} (h : op.Spares D s) :
    (op.apply s).tenantInitialized D = s.tenantInitialized D := by
  rcases op.find?_apply s (tableKey Database.kind.name D) with
    hsame | ⟨o, hwrites, hfind⟩ | ⟨kind, key, rfl, hkey, -⟩
  · exact tenantInitialized_congr hsame
  · rw [tenantInitialized_of_find? hfind]
    generalize hK : tableKey Database.kind.name D = K at hwrites
    cases hwrites with
    | put o =>
      have hnull : o.status.isNull = true := h hK.symm
      cases hstored : s.objects.find? o.tableKey with
      | none =>
        rw [tenantInitialized, find?, hK, hstored]
        exact Object.tenantInitialized_of_isNull hnull
      | some stored =>
        rw [tenantInitialized, find?, hK, hstored]
        exact Object.tenantInitialized_of_status_eq (by simp [revision, hnull, Object.withVersion])
    | create hnone hchange _ =>
      have hnull := h hK.symm hnone _ hchange
      rw [tenantInitialized, find?, hK, hnone]
      exact Object.tenantInitialized_of_isNull hnull
    | update hstored _ _ =>
      rw [tenantInitialized, find?, hK, hstored]
      exact Object.tenantInitialized_of_status_eq rfl
    | @status o stored hstored hversion =>
      have hok : (s.writeStatus o).1 = .ok (stored.metadata.version + 1) := by
        rw [writeStatus_eq, hstored]
        simp [hversion]
      exact absurd hok (h hK.symm _)
  · exact absurd hkey h

end Store

namespace Session

variable {D key : ObjectKey} {s s' : Store} {t : List Exchange} {e : Exchange}

/-! ### What a pass has been answered -/

/-- What a pass over the database at `key` has been answered: every object under its own key, and,
as long as the pass has not written a status, none but databases whose tenant was created where
that is the database at `D` and its stored status says so. -/
structure Informed (D : ObjectKey) (s : Store) (key : ObjectKey) (t : List Exchange) : Prop where
  inPlace : InPlace t
  initialized : s.tenantInitialized D = true → Reconciler.Unwritten t →
    ∀ kind key' o, .get kind key' (.ok (some o)) ∈ t →
      tableKey kind key' = tableKey Database.kind.name D → o.tenantInitialized = true

private theorem informed_nil : Informed D s key [] :=
  ⟨inPlace_nil, fun _ _ _ _ _ h => absurd h List.not_mem_nil⟩

theorem Informed.of_eq (h : Informed D s key t)
    (heq : s'.tenantInitialized D = s.tenantInitialized D) : Informed D s' key t :=
  ⟨h.inPlace, fun hs' => h.initialized (heq ▸ hs')⟩

/-- A call that does not touch the condition of the tenant adds to what a pass knows: an object
that was read is the stored one. -/
theorem Informed.append (h : Informed D s key t) (hs : s.Placed) (hserved : Served s s' e)
    (heq : s'.tenantInitialized D = s.tenantInitialized D) : Informed D s' key (t ++ [e]) := by
  refine ⟨h.inPlace.append hs hserved, fun hinit hunwritten kind key' o hmem hkey => ?_⟩
  have hinit : s.tenantInitialized D = true := heq ▸ hinit
  rcases List.mem_append.mp hmem with hmem | hmem
  · have ht : Reconciler.Unwritten t := fun x hx => hunwritten x (List.mem_append_left _ hx)
    exact h.initialized hinit ht kind key' o hmem hkey
  · obtain rfl := List.mem_singleton.mp hmem
    have hfind : s.find? Database.kind.name D = some o := by
      rw [Store.find?, ← hkey]
      exact hserved.find?
    rwa [Store.tenantInitialized_of_find? hfind] at hinit

/-- After a status was written it no longer matters what was read before. -/
private theorem Informed.append_write {w : Object} {answer : Except StoreError Unit}
    (h : Informed D s key t) (hs : s.Placed) (hserved : Served s s' (.writeStatus w answer)) :
    Informed D s' key (t ++ [.writeStatus w answer]) := by
  refine ⟨h.inPlace.append hs hserved, fun _ hunwritten => ?_⟩
  exact absurd (hunwritten (.writeStatus w answer) (by simp)) (by simp [Exchange.isWrite])

theorem Informed.writeStatus {r : Reconciler} {now : UInt64} {w : Object}
    (h : Informed D s key t) (hmakes : (r.reconcile now key).Makes t (.writeStatus w))
    (hinit : s.tenantInitialized D = true) :
    ((Store.Operation.writeStatus w).apply s).tenantInitialized D = true := by
  obtain ⟨o, database, o', fresh, st, hget, ho, -, -, hst, hunwritten, hw⟩ :=
    Reconciler.reconcile_makes_writeStatus hmakes
  have hkey := tableKey_of_makes_writeStatus h.inPlace hmakes
  rcases (Store.Operation.writeStatus w).find?_apply s (tableKey Database.kind.name D) with
    hsame | ⟨o₁, hwrites, hfind⟩ | ⟨_, _, hdelete, -, -⟩
  · rwa [Store.tenantInitialized_congr hsame]
  · rw [Store.tenantInitialized_of_find? hfind]
    generalize hK : tableKey Database.kind.name D = K at hwrites
    cases hwrites with
    | status hstored hversion =>
      have hloaded := h.initialized hinit hunwritten _ _ _ hget (hkey.symm.trans hK.symm)
      rw [Object.tenantInitialized, Database.databaseStatus?_of_ofObject ho] at hloaded
      have hencode : w.status = DatabaseStatus.codec.encode st := by rw [hw]; rfl
      have hwritten : w.tenantInitialized = true := by
        rw [Object.tenantInitialized, Object.databaseStatus?_of_encode hencode]
        exact hst.isTrue hloaded
      exact (Object.tenantInitialized_of_status_eq rfl).trans hwritten
  · exact nomatch hdelete

/-- A call of a pass keeps the tenant created, and the pass stays informed. -/
theorem Informed.serve {r : Reconciler} {now : UInt64} (hr : r.catalog = Catalog.standard)
    (hs : s.Placed) (h : Informed D s key t) (hmakes : (r.reconcile now key).Makes t e.call)
    (hserved : Served s s' e) :
    Informed D s' key (t ++ [e]) ∧
      (s.tenantInitialized D = true → s'.tenantInitialized D = true) := by
  rcases hserved.cases with rfl | ⟨op, hperforms, rfl⟩
  · cases e with
    | writeStatus w answer => exact ⟨h.append_write hs hserved, id⟩
    | get | upsert | record | provision => exact ⟨h.append hs hserved rfl, id⟩
  cases e with
  | get kind key' answer => exact hperforms.elim
  | writeStatus w answer =>
    obtain rfl : op = .writeStatus w := hperforms
    exact ⟨h.append_write hs hserved, h.writeStatus hmakes⟩
  | upsert placeholder change answer =>
    obtain rfl : op = .upsert placeholder change := hperforms
    obtain ⟨o, a, b, -, -, hb, rfl, rfl⟩ := Reconciler.reconcile_makes_upsert hmakes
    have hne := Catalog.standard_tableKey_ne (hr ▸ hb) Database.kind.name (by decide) (by decide) D
    have heq : ((Store.Operation.upsert b.placeholder (b.owned a.database.metadata)).apply
        s).tenantInitialized D = s.tenantInitialized D :=
      Store.Operation.Spares.tenantInitialized_apply fun hkey => absurd hkey hne
    exact ⟨h.append hs hserved heq, fun hinit => heq ▸ hinit⟩
  | record notice =>
    obtain ⟨event, -, rfl⟩ := hperforms
    have heq : ((Store.Operation.putEvent event).apply s).tenantInitialized D
        = s.tenantInitialized D := Store.Operation.Spares.tenantInitialized_apply trivial
    exact ⟨h.append hs hserved heq, fun hinit => heq ▸ hinit⟩
  | provision request answer =>
    obtain rfl : op = .putTenant request := hperforms
    have heq : ((Store.Operation.putTenant request).apply s).tenantInitialized D
        = s.tenantInitialized D := Store.Operation.Spares.tenantInitialized_apply trivial
    exact ⟨h.append hs hserved heq, fun hinit => heq ▸ hinit⟩

theorem informed_invariant (D : ObjectKey) :
    Invariant (Store.Operation.Spares D) Store.Placed (Informed D) where
  operate hs hop := ⟨hs.apply _, fun h => h.of_eq hop.tenantInitialized_apply⟩
  begin _ := informed_nil
  serve hr hs h hmakes hserved := ⟨hserved.placed hs, (h.serve hr hs hmakes hserved).1⟩

/-- In such sessions a tenant that was created stays created. -/
theorem initialized_invariant (D : ObjectKey) :
    Invariant (Store.Operation.Spares D)
      (fun s => s.Placed ∧ s.tenantInitialized D = true) (Informed D) where
  operate hs hop := ⟨⟨hs.1.apply _, hop.tenantInitialized_apply.trans hs.2⟩,
    fun h => h.of_eq hop.tenantInitialized_apply⟩
  begin _ := informed_nil
  serve hr hs h hmakes hserved := by
    obtain ⟨hinformed, hinit⟩ := h.serve hr hs.1 hmakes hserved
    exact ⟨⟨hserved.placed hs.1, hinit hs.2⟩, hinformed⟩

/-! ### The call for a tenant -/

/-- An informed pass over a database whose tenant was created does not ask for a tenant. -/
private theorem Informed.not_makes_provision {r : Reconciler} {now : UInt64}
    {request : TenantRequest}
    (h : Informed D s D t) (hinit : s.tenantInitialized D = true) :
    ¬ (r.reconcile now D).Makes t (.provision request) := by
  intro hmakes
  obtain ⟨o, database, resources, t', rfl, ho, -, hgated⟩ :=
    Reconciler.reconcile_makes_provision hmakes
  have hunwritten : Reconciler.Unwritten (.get Database.kind.name D (.ok (some o)) :: t') :=
    Reconciler.unwritten_get.append (Reconciler.unwritten_of_prepares hgated.prepares)
  have hloaded := h.initialized hinit hunwritten _ _ _ List.mem_cons_self rfl
  rw [Object.tenantInitialized, Database.databaseStatus?_of_ofObject ho] at hloaded
  cases hgated with
  | intro _ _ not_initialized => exact absurd hloaded (by simp [not_initialized])

theorem Served.tenants (h : Served s s' e) (he : ∀ request, e.call ≠ .provision request) :
    s'.tenants = s.tenants := by
  rcases h.cases with rfl | ⟨op, hperforms, rfl⟩
  · rfl
  rcases op.tenants_apply s with ⟨request, rfl⟩ | htenants
  · cases e with
    | provision request' answer => exact absurd rfl (he request')
    | record notice => exact nomatch hperforms.choose_spec.2
    | get | upsert | writeStatus => exact nomatch hperforms
  · exact htenants

/-- **A tenant that was created stays created.** Begin with any reachable store, and let passes
with the standard catalog run, over any databases, with any calls failing, while clients spare the
database at `D`. Once the stored status of that database says that its tenant was created, it
says so ever after; no pass over it is about to ask for a tenant, and no call of such a pass changes
the tenants. -/
theorem tenant_monotone (D : ObjectKey) {s : Store} {x y : Session} (hs : s.Reachable)
    (hx : Reaches (Store.Operation.Spares D) ⟨s, none⟩ x)
    (hinit : x.store.tenantInitialized D = true)
    (hy : Reaches (Store.Operation.Spares D) x y) :
    y.store.tenantInitialized D = true ∧ ∀ p, y.pass = some (D, p) →
      (∀ request next, p ≠ .provision request next) ∧
      (∀ now, (y.step (.call now)).store.tenants = y.store.tenants) ∧
      ∀ outage, (y.step (.fail outage)).store.tenants = y.store.tenants := by
  have hholds := (informed_invariant D).reaches (holds_of_store hs.placed) hx
  have hholds := (initialized_invariant D).reaches ⟨⟨hholds.1, hinit⟩, hholds.2⟩ hy
  refine ⟨hholds.1.2, fun p hp => ?_⟩
  obtain ⟨r, now, t, -, hleft, hinformed⟩ := hholds.2 D p hp
  have hnone : ∀ request, ¬ p.Makes [] (.provision request) := by
    intro request hmakes
    have hmakes := hleft [] _ hmakes
    rw [List.append_nil] at hmakes
    exact hinformed.not_makes_provision hholds.1.2 hmakes
  have htenants : ∀ c : Collaborators Store,
      (∀ {s s'} {e : Exchange}, e.Served c s s' → Served s s' e) →
      (y.advance c).store.tenants = y.store.tenants := by
    intro c hc
    rcases advance_cases c hp with h | ⟨e, p', hserved, hmakes, -⟩
    · rw [h]
    · exact (hc hserved).tenants fun request he => hnone request (he ▸ hmakes)
  refine ⟨?_, fun now => htenants _ fun h => .inl ⟨now, h⟩,
    fun outage => htenants _ fun h => .inr ⟨outage, h⟩⟩
  rintro request next rfl
  exact hnone request (.inl ⟨rfl, rfl⟩)

/-- A pass that creates a tenant; then the database is stored anew without a status, and another
pass over it begins. -/
theorem tenant_monotone_awaitingTenant :
    let D : ObjectKey := ⟨"prod", "orders"⟩
    let run := (({} : Reconciler).reconcile 7 D).run (Store.collaborators 7) Store.awaitingTenant
    let x : Session := ⟨run.2, some (D, .done run.1)⟩
    let y := ((x.step (.operate (.put (.empty "Database" D)))).step (.begin {} 9 D)).step (.call 9)
    Store.awaitingTenant.tenantInitialized D = false ∧ x.store.tenantInitialized D = true ∧
      y.store.tenantInitialized D = true := by
  intro D run x y
  have hx : Reaches (Store.Operation.Spares D) ⟨Store.awaitingTenant, none⟩ x :=
    reaches_run {} rfl 7 D Store.awaitingTenant none
  have hy : Reaches (Store.Operation.Spares D) x y :=
    .step _ (.step _ (.step (.operate (.put (.empty "Database" D))) .refl fun _ => rfl) rfl) trivial
  have hinit : x.store.tenantInitialized D = true := by decide +kernel
  exact ⟨by decide +kernel, hinit,
    (tenant_monotone D Store.awaitingTenant_reachable hx hinit hy).1⟩

end Session

end Converge

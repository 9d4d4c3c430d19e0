import Converge.Proofs.Exits

/-!
# The errors of a pass

A pass reports an error exactly when something has failed in it, whatever the answers to its calls
are. What counts as a failure is said about the calls alone: a call was answered with an error, an
object was not one of the kind that was asked for, the database does not ask for storage in exactly
one way, or it was gone when its status was to be written.

## Main definitions

* `Reconciler.Misconfigured`, `Reconciler.TargetGone`: failures that are not those of a call.

## Main results

* `Reconciler.Halts.error_iff`, `Reconciler.Exit.error_iff`: when a wish for another pass reports an
  error.
* `Reconciler.failures_reported`: a pass reports an error exactly when something has failed, and
  makes no further call then.
-/

namespace Converge

open Program (Invocation Exchange)

namespace Reconciler

open Program

variable {r : Reconciler} {now : UInt64} {key : ObjectKey} {t past : List Exchange} {x : Exchange}
  {wish : Requeue} {database : Database} {resources : Resources} {cluster : StorageCluster}

/-- A pass has loaded a database that does not ask for storage in exactly one way. -/
def Misconfigured (key : ObjectKey) (t : List Exchange) : Prop :=
  ∃ o database rest, t = .get Database.kind.name key (.ok (some o)) :: rest ∧
    Database.kind.ofObject o = .ok database ∧
    ¬ ∃ field resources, database.spec.requested = [(field, resources)]

/-- A pass has loaded a database that was gone when its status was to be written. -/
def TargetGone (r : Reconciler) (now : UInt64) (key : ObjectKey) (t : List Exchange) : Prop :=
  ∃ o database resources past st rest,
    t = .get Database.kind.name key (.ok (some o)) ::
      (past ++ .get Database.kind.name database.key (.ok none) :: rest) ∧
    Database.kind.ofObject o = .ok database ∧ database.spec.resolve = .ok resources ∧
    r.Arrives now database resources past st

theorem Waits.error_iff {σ τ : Type} {kind : ResourceKind σ τ} (hkind : kind.Told)
    {delay : Seconds} {ready : Resource σ τ → Prop} (h : Waits kind key delay ready x wish) :
    wish.error.isSome = true ↔ x.failed = true := by
  cases h with
  | unread h =>
    rw [Exchange.failed_get hkind, h]
    exact iff_of_true rfl rfl
  | missing => exact iff_of_false nofun nofun
  | unready ho _ =>
    exact iff_of_false nofun fun h => nomatch (Exchange.failed_of_succeeds
      (smooth_get hkind ho _ List.mem_cons_self)).symm.trans h

/-- A pass that has gone through all gates up to the shared database has no status to write. -/
private theorem Arrives.not_allocating {reference : Reference} {st : DatabaseStatus}
    (h : r.Arrives now database resources past st)
    (built : r.Built database resources cluster [] past)
    (hserverless : resources = .serverless reference)
    (initialized : database.status.isTrue tenantInitialized = false)
    (known : (database.status.condition? tenantInitialized).isSome = true)
    (initializing : database.status.state = .initializing) : False := by
  cases h with
  | regress _ hdedicated =>
    rw [hserverless] at hdedicated
    exact nomatch hdedicated
  | promote _ _ hinitialized => exact nomatch initialized.symm.trans hinitialized
  | announce _ _ _ h => exact h ⟨known, initializing⟩
  | complete gated =>
    exact nomatch built.prepares _ (List.mem_append_right _ List.mem_cons_self)

/-- A step that halts the pass reports an error when its last call has failed, or when the database
is gone. -/
theorem Halts.error_iff (h : r.Halts now database resources past x wish) :
    wish.error.isSome = true ↔ x.failed = true ∨
      x = .get Database.kind.name database.key (.ok none) ∧
        ∃ st, r.Arrives now database resources past st := by
  cases h with
  | storage h =>
    refine (h.error_iff StorageCluster.told).trans (or_iff_left_of_imp ?_).symm
    rintro ⟨rfl, -⟩
    exact absurd (Invocation.get.inj h.call_eq).1 (by decide)
  | build _ => exact iff_of_true rfl (.inl rfl)
  | workload _ _ h =>
    refine (h.error_iff Workload.told).trans (or_iff_left_of_imp ?_).symm
    rintro ⟨rfl, -⟩
    exact absurd (Invocation.get.inj h.call_eq).1 (by decide)
  | shared built hserverless initialized known initializing h =>
    refine (h.error_iff Database.told).trans (or_iff_left_of_imp ?_).symm
    rintro ⟨-, st, harrives⟩
    exact (harrives.not_allocating built hserverless initialized known initializing).elim
  | tenant _ => exact iff_of_true rfl (.inl rfl)
  | persist arrives h =>
    cases h with
    | unread h => exact iff_of_true rfl (.inl (by rw [Exchange.failed_get Database.told, h]; rfl))
    | gone => exact iff_of_true rfl (.inr ⟨rfl, _, by rwa [List.append_nil]⟩)
    | unchanged ho _ =>
      refine iff_of_false nofun ?_
      rintro (hfailed | ⟨heq, -⟩)
      · exact nomatch (Exchange.failed_of_succeeds
          (smooth_get Database.told ho _ List.mem_cons_self)).symm.trans hfailed
      · exact nomatch heq
    | refused _ _ => exact iff_of_true rfl (.inl rfl)
    | written _ _ => exact iff_of_false nofun (by rintro (h | ⟨h, -⟩) <;> exact nomatch h)

/-- **When a pass reports an error.** -/
theorem Exit.error_iff (h : r.Exit now key past x wish) (hcloses : Closes t past x) :
    wish.error.isSome = true ↔
      (∃ y ∈ t, y.failed = true) ∨ Misconfigured key t ∨ r.TargetGone now key t := by
  rw [hcloses.exists_failed_iff h.smooth]
  cases h with
  | load h => exact iff_of_true rfl (.inl (by rw [Exchange.failed_get Database.told, h]; rfl))
  | configuration ho h =>
    obtain ⟨notices, rfl⟩ := hcloses
    refine iff_of_true rfl (.inr (.inl ⟨_, _, _, rfl, ho, ?_⟩))
    rintro ⟨field, resources, hrequested⟩
    exact nomatch h.symm.trans (DatabaseSpec.resolve_eq_ok_iff.mpr ⟨field, hrequested⟩)
  | step ho hr h =>
    rw [h.error_iff]
    refine or_congr_right ⟨?_, ?_⟩
    · rintro ⟨rfl, st, harrives⟩
      obtain ⟨notices, rfl⟩ := hcloses
      exact .inr ⟨_, _, _, _, st, _, rfl, ho, hr, harrives⟩
    -- The object that was loaded determines the database, and that the storage it asks for.
    rintro (⟨o', database', rest, ht, ho', hnone⟩ |
      ⟨o', database', resources', past', st, rest, ht, ho', hr', harrives⟩)
    · obtain ⟨notices, rfl⟩ := hcloses
      obtain ⟨rfl⟩ := (List.cons.inj ht).1
      obtain rfl := Except.ok.inj (ho.symm.trans ho')
      exact absurd (DatabaseSpec.resolve_eq_ok_iff.mp hr) fun ⟨f, h⟩ => hnone ⟨f, _, h⟩
    · rw [← List.cons_append] at ht
      obtain ⟨hpast, rfl⟩ := hcloses.eq_of_split ((smooth_get Database.told ho).append h.smooth) ht
        ((smooth_get Database.told ho').append harrives.smooth) nofun
      obtain ⟨hget, rfl⟩ := List.cons.inj hpast
      obtain ⟨rfl⟩ := hget
      obtain rfl := Except.ok.inj (ho.symm.trans ho')
      obtain rfl := Except.ok.inj (hr.symm.trans hr')
      exact ⟨rfl, st, harrives⟩

private theorem reconcile_converged (h : (r.reconcile now key).Ends t .converged) :
    (∀ x ∈ t, x.failed = false) ∧ ¬ Misconfigured key t ∧ ¬ r.TargetGone now key t := by
  rcases reconcile_ends h with ⟨-, rfl | ⟨hsmooth, o, database, resources, t', rfl, ho, hr, -⟩⟩ |
    ⟨_, _, _, hdirective, -⟩
  · refine ⟨List.forall_mem_singleton.mpr rfl, ?_, ?_⟩
    · rintro ⟨_, _, _, ht, -⟩
      exact nomatch (List.cons.inj ht).1
    · rintro ⟨_, _, _, _, _, _, ht, -⟩
      exact nomatch (List.cons.inj ht).1
  · refine ⟨fun x hx => Exchange.failed_of_succeeds (hsmooth x hx), ?_, ?_⟩
    · rintro ⟨o', database', rest, ht, ho', hnone⟩
      obtain ⟨rfl⟩ := (List.cons.inj ht).1
      obtain rfl := Except.ok.inj (ho.symm.trans ho')
      exact absurd (DatabaseSpec.resolve_eq_ok_iff.mp hr) fun ⟨f, h⟩ => hnone ⟨f, _, h⟩
    · rintro ⟨_, database', _, past, _, rest, ht, -⟩
      rw [ht] at hsmooth
      exact nomatch hsmooth _ (List.mem_cons_of_mem _
        (List.mem_append_right past List.mem_cons_self))
  · exact nomatch hdirective

/-- A builder that fails is what the pass reports. -/
theorem reconcile_upsert_error {directive : Directive} {placeholder : Object} {change : Change}
    {e : StoreError} (h : (r.reconcile now key).Ends t directive)
    (hmem : .upsert placeholder change (.error e) ∈ t) :
    directive = .requeue { after := r.delays.default,
                           error := some (.sync placeholder.kind placeholder.key e) } := by
  cases directive with
  | converged => exact nomatch (reconcile_converged h).1 _ hmem
  | requeue wish =>
    obtain ⟨wish, past, x, hwish, hcloses, hexit⟩ :=
      (reconcile_ends h).resolve_left fun hconverged => nomatch hconverged.1
    obtain rfl := Directive.requeue.inj hwish
    obtain rfl := hcloses.eq_of_mem hexit.smooth hmem nofun
    generalize hx : Exchange.upsert placeholder change (.error e) = x at hexit
    cases hexit with
    | load | configuration => exact nomatch hx
    | step ho hr hhalts =>
      cases hhalts with
      | build built =>
        obtain ⟨rfl, -, hanswer⟩ := Exchange.upsert.inj hx
        rw [Except.error.inj hanswer]
      | tenant => exact nomatch hx
      | storage h | workload _ _ h | shared _ _ _ _ _ h => exact nomatch hx ▸ h.call_eq
      | persist _ h => cases h <;> exact nomatch hx

/-- **No failure is swallowed.** Let a pass at any time, with any catalog, run to its end, with any
answers to its calls. It reports an error exactly when one of its calls has failed, or the database
does not ask for storage in exactly one way, or the database was gone when its status was to be
written. If it wishes for another pass, a call has brought it to that before which nothing has
failed, and what it wishes is told by that call and what was found before. Once a call has failed it
only records notices. -/
theorem failures_reported (r : Reconciler) (now : UInt64) (key : ObjectKey) {t : List Exchange}
    {directive : Directive} (h : (r.reconcile now key).Ends t directive) :
    (directive.error?.isSome = true ↔
      (∃ x ∈ t, x.failed = true) ∨ Misconfigured key t ∨ r.TargetGone now key t) ∧
    (∀ wish, directive = .requeue wish → ∃ past x, Closes t past x ∧
      (∀ y ∈ past, y.failed = false) ∧ r.Exit now key past x wish) ∧
    ∀ past x rest, t = past ++ x :: rest → x.failed = true →
      ∀ y ∈ rest, ∃ notice, y = .record notice := by
  cases directive with
  | converged =>
    obtain ⟨hfine, hconfigured, hthere⟩ := reconcile_converged h
    refine ⟨iff_of_false nofun ?_, nofun, ?_⟩
    · rintro (⟨x, hx, hfailed⟩ | hmisconfigured | hgone)
      · exact nomatch (hfine x hx).symm.trans hfailed
      · exact hconfigured hmisconfigured
      · exact hthere hgone
    · rintro past x rest rfl hfailed
      have hx := hfine x (List.mem_append_right past List.mem_cons_self)
      exact nomatch hx.symm.trans hfailed
  | requeue wish =>
    obtain ⟨wish, past, x, hwish, hcloses, hexit⟩ :=
      (reconcile_ends h).resolve_left fun hconverged => nomatch hconverged.1
    obtain rfl := Directive.requeue.inj hwish
    refine ⟨hexit.error_iff hcloses, ?_, ?_⟩
    · rintro _ ⟨rfl⟩
      exact ⟨past, x, hcloses, fun y hy => Exchange.failed_of_succeeds (hexit.smooth y hy), hexit⟩
    · exact fun past' y rest ht hfailed => hcloses.told_after hexit.smooth ht
        (Exchange.not_succeeds_of_failed hfailed)

/-- A pass whose call for a tenant fails. -/
theorem failures_reported_awaitingTenant :
    let c : Collaborators Store :=
      { Store.collaborators 7 with provision := fun _ s => (.error (.unavailable "down"), s) }
    let pass := ({} : Reconciler).reconcile 7 ⟨"prod", "orders"⟩
    let t := pass.trace c Store.awaitingTenant
    let wish : Requeue :=
      { after := 30, error := some (.provisioning "/root/orders" (.unavailable "down")) }
    (pass.run c Store.awaitingTenant).1 = .requeue wish ∧ ∃ past x, Closes t past x ∧
      (∀ y ∈ past, y.failed = false) ∧ ({} : Reconciler).Exit 7 ⟨"prod", "orders"⟩ past x wish := by
  intro c pass t wish
  have hrun : (pass.run c Store.awaitingTenant).1 = .requeue wish := by rfl
  have hends := ends_trace c pass Store.awaitingTenant
  exact ⟨hrun, (failures_reported {} 7 ⟨"prod", "orders"⟩ hends).2.1 wish hrun⟩

end Reconciler

end Converge

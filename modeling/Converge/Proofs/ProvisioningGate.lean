import Converge.Proofs.Operations
import Converge.Proofs.Steps

/-!
# The gate before the creator of tenants

A pass asks for a tenant at the end of all its gates, and only once. Nothing is assumed about the
answers to the calls of the pass: every one of them may be a success or a failure, whatever came
before.

## Main results

* `StorageCluster.tlsEnabled_iff_endpoint`: the scheme of the endpoint tells whether the connection
  is encrypted.
* `Reconciler.provision_gated`: what a pass has found when it asks for a tenant, what it asks for,
  and that it asks only once.
-/

namespace Converge

/-- A connection is encrypted exactly when the scheme of the endpoint is the one for that. -/
theorem StorageCluster.tlsEnabled_iff_endpoint (cluster : StorageCluster) (domain : String) :
    cluster.spec.grpc.tlsEnabled = true ↔
      ∃ rest, cluster.endpoint domain = "grpcs://" ++ rest := by
  rw [endpoint]
  cases cluster.spec.grpc.tlsEnabled with
  | true =>
    refine iff_of_true rfl ⟨cluster.metadata.name ++ ("-grpc." ++ (cluster.metadata.ns ++
      (".svc." ++ (domain ++ (":" ++ toString cluster.spec.grpc.port))))), ?_⟩
    simp only [if_true, String.append_assoc, toString]
    rw [← String.append_assoc]
    rfl
  | false =>
    refine iff_of_false (by decide) ?_
    rintro ⟨rest, h⟩
    have hchars := congrArg String.toList h
    simp [toString] at hchars

/-- A specification asks for storage when exactly one of its fields is set. -/
theorem DatabaseSpec.resolve_eq_ok_iff {spec : DatabaseSpec} {resources : Resources} :
    spec.resolve = .ok resources ↔ ∃ field, spec.requested = [(field, resources)] := by
  rw [resolve]
  split <;> simp_all

namespace Reconciler

open Program (Exchange)

variable {r : Reconciler} {t : List Exchange}

/-- **The gate before the creator of tenants.** Let a pass at any time, with any catalog, run to
its end, with any answers to its calls, and let it ask for a tenant at some point. Then it does so
at no other point. Before that point it has read the database, which asks for storage in exactly
one way and carries the announcement of the creation in its stored status, and has gone through
all gates. The path in the request is that of the database, and the channel is secure exactly when
the endpoint has the scheme for that. -/
theorem provision_gated (r : Reconciler) (now : UInt64) (key : ObjectKey) {directive : Directive}
    {past rest : List Exchange} {request : TenantRequest} {answer : Except ProvisionError Unit}
    (h : (r.reconcile now key).Ends (past ++ .provision request answer :: rest) directive) :
    (∀ x ∈ past ++ rest, x.isProvision = false) ∧
    ∃ o database field resources gates condition,
      past = .get Database.kind.name key (.ok (some o)) :: gates ∧
      Database.kind.ofObject o = .ok database ∧
      database.spec.requested = [(field, resources)] ∧
      o.databaseStatus? = some database.status ∧
      database.status.state = .initializing ∧
      database.status.condition? tenantInitialized = some condition ∧
      condition.status ≠ .holds ∧
      r.Gated database resources gates request ∧
      request.path = "/" ++ database.spec.domain ++ "/" ++ database.metadata.name ∧
      (request.useSecureChannel = true ↔
        ∃ place, request.storageEndpoint = "grpcs://" ++ place) := by
  -- Before any call for a tenant there is none; so there is none after the first one either.
  have hnone : ∀ {past rest request answer},
      (r.reconcile now key).Ends (past ++ .provision request answer :: rest) directive →
      ∀ x ∈ past, x.isProvision = false := by
    intro past rest request answer h x hx
    obtain ⟨o, database, resources, t', rfl, -, -, hgated⟩ := reconcile_makes_provision h.makes
    rcases List.mem_cons.mp hx with rfl | hx
    · rfl
    · exact Exchange.isProvision_of_prepares (hgated.prepares x hx)
  have honce : ∀ x ∈ rest, x.isProvision = false := by
    intro x hx
    cases x with
    | provision request' answer' =>
      obtain ⟨between, after, rfl⟩ := List.append_of_mem hx
      rw [← List.cons_append, ← List.append_assoc] at h
      exact nomatch hnone h (.provision request answer) (by simp)
    | get | upsert | writeStatus | record => rfl
  obtain ⟨o, database, resources, gates, rfl, ho, hr, hgated⟩ := reconcile_makes_provision h.makes
  obtain ⟨field, hfield⟩ := DatabaseSpec.resolve_eq_ok_iff.mp hr
  refine ⟨fun x hx => (List.mem_append.mp hx).elim (hnone h x) (honce x), ?_⟩
  have hgates := hgated
  cases hgates with
  | intro _ announced not_initialized initializing _ _ _ _ _ endpoint secure path =>
    obtain ⟨condition, hcondition⟩ := Option.isSome_iff_exists.mp announced
    have hfalse : condition.status ≠ .holds := by
      intro heq
      simp [DatabaseStatus.isTrue, hcondition, heq] at not_initialized
    refine ⟨o, database, field, resources, gates, condition, rfl, ho, hfield,
      Database.databaseStatus?_of_ofObject ho, initializing, hcondition, hfalse, hgated, path, ?_⟩
    rw [secure, endpoint]
    exact StorageCluster.tlsEnabled_iff_endpoint _ _

/-- A pass that does ask for a tenant, at its eighth call. -/
theorem provision_gated_awaitingTenant :
    let pass := ({} : Reconciler).reconcile 7 ⟨"prod", "orders"⟩
    let t := pass.trace (Store.collaborators 7) Store.awaitingTenant
    let request : TenantRequest :=
      ⟨"grpcs://main-grpc.prod.svc.cluster.local:2135", "/root/orders", [], false, none, true⟩
    t = t.take 7 ++ .provision request (.ok ()) :: t.drop 8 ∧
      ∀ x ∈ t.take 7 ++ t.drop 8, x.isProvision = false := by
  intro pass t request
  have ht : t = t.take 7 ++ .provision request (.ok ()) :: t.drop 8 := rfl
  have hends := Program.ends_trace (Store.collaborators 7) pass Store.awaitingTenant
  have hends := Eq.mp (congrArg (pass.Ends · _) ht) hends
  exact ⟨ht, (provision_gated {} 7 ⟨"prod", "orders"⟩ hends).1⟩

end Reconciler

end Converge

import Converge.Proofs.Session
import Converge.Proofs.StandardCatalog

/-!
# The states of a database

When only passes write the statuses of databases, a status has one of few shapes: there is at most
one condition, it is that of the tenant, and it tells apart the states that a database can be in.
Clients may store databases without a status, and anything else with a status or without, and may
remove all of it again; and any call of a pass may fail.

Slashes in names would spoil this: an object of another kind could take the place of a database
and leave its status there.

## Main definitions

* `DatabaseStatus.Regular`: the shapes of statuses.
* `Object.Orderly`: an object without slashes in its names, with a regular status if it is a
  database.
* `Store.Operation.Ordinary`: the operations of clients that leave statuses to passes.

## Main results

* `DatabaseStatus.Regular.advance`: a pass turns regular statuses into regular ones.
* `Session.OrderlyAnswers.serve`: a call of a pass keeps all objects orderly.
* `Session.status_machine`: every database that is ever stored has a regular status.
-/

namespace Converge

open Program (Exchange)

/-! ### Regular statuses -/

/-- The shapes of the statuses that passes write. -/
inductive DatabaseStatus.Regular : DatabaseStatus → Prop
  /-- Nothing is known of the tenant yet. -/
  | unknown : Regular { state := .provisioning, conditions := [] }
  /-- The creation of the tenant was announced at some time. -/
  | announced (state : DatabaseState) (h : state ≠ .ready) (time : UInt64) :
    Regular { state, conditions := [{ tenantInProgress with lastTransition := time }] }
  /-- The tenant was created at some time. -/
  | created (state : DatabaseState) (time : UInt64) :
    Regular { state, conditions := [{ tenantCompleted with lastTransition := time }] }

namespace DatabaseStatus.Regular

variable {now : UInt64} {st st' : DatabaseStatus}

/-- What a pass makes of a regular status is regular. -/
theorem advance (h : st.Regular) (hst : st.Advance now st') : st'.Regular := by
  cases h with
  | unknown =>
    cases hst with
    | regress => exact .unknown
    | promote h => exact absurd h (by decide)
    | announce _ => exact .announced .initializing (by decide) now
    | reannounce h _ => exact absurd h (by decide)
    | complete h _ _ => exact absurd h (by decide)
  | announced state hstate time =>
    cases hst with
    | regress => exact .announced .provisioning (by decide) time
    | promote h => exact nomatch h
    | announce h => exact nomatch h
    | reannounce _ _ => exact .announced .initializing (by decide) time
    | complete _ _ _ => exact .created state now
  | created state time =>
    cases hst with
    | regress => exact .created .provisioning time
    | promote _ => exact .created .ready time
    | announce h => exact nomatch h
    | reannounce _ h => exact nomatch h
    | complete _ h _ => exact nomatch h

private theorem isTrue_of_ready (h : st.Regular) (hready : st.state = .ready) :
    st.isTrue tenantInitialized = true := by
  cases h with
  | unknown => exact nomatch hready
  | announced state hstate _ => exact absurd hready hstate
  | created state time => rfl

private theorem isSome_of_initializing (h : st.Regular) (hstate : st.state = .initializing) :
    (st.condition? tenantInitialized).isSome = true := by
  cases h with
  | unknown => exact nomatch hstate
  | announced | created => rfl

private theorem length_conditions_le (h : st.Regular) : st.conditions.length ≤ 1 := by
  cases h with
  | unknown => exact Nat.zero_le 1
  | announced | created => exact Nat.le_refl 1

end DatabaseStatus.Regular

/-! ### Orderly objects -/

/-- The names of an object hold no slashes, and if it is a database its status is regular. -/
def Object.Orderly (o : Object) : Prop :=
  o.Free '/' ∧ (o.kind = Database.kind.name → ∃ st, o.databaseStatus? = some st ∧ st.Regular)

theorem Object.Orderly.of_eq {o o' : Object} (h : o.Orderly) (hkind : o'.kind = o.kind)
    (hkey : o'.key = o.key) (hstatus : o'.status = o.status) : o'.Orderly := by
  refine ⟨⟨hkind ▸ h.1.1, hkey ▸ h.1.2⟩, fun hdatabase => ?_⟩
  rw [databaseStatus?, hstatus]
  exact h.2 (hkind ▸ hdatabase)

private theorem Object.Orderly.regular {o : Object} {database : Database} (h : o.Orderly)
    (ho : Database.kind.ofObject o = .ok database) : database.status.Regular := by
  obtain ⟨st, hst, hregular⟩ := h.2 (ResourceKind.ofObject_eq_ok_iff.mp ho).1
  rw [Database.databaseStatus?_of_ofObject ho] at hst
  rwa [Option.some.inj hst]

namespace Store

variable {s : Store}

/-- All objects of the store are orderly, and stored under their own keys. -/
def Orderly (s : Store) : Prop :=
  s.Placed ∧ ∀ key o, s.objects.find? key = some o → o.Orderly

/-- The operations of clients that leave the statuses of databases to passes: they store objects
whose names hold no slashes, databases without a status, and remove objects. -/
def Operation.Ordinary (_ : Store) : Operation → Prop
  | .put o => o.Free '/' ∧ (o.kind = Database.kind.name → o.status.isNull = true)
  | .delete _ _ => True
  | _ => False

/-- An operation keeps a store orderly when what it writes is orderly. -/
theorem Orderly.apply {op : Operation} (hs : s.Orderly)
    (h : ∀ key o, op.Writes s key o → o.Orderly) : (op.apply s).Orderly := by
  refine ⟨hs.1.apply op, fun key o hfind => ?_⟩
  rcases op.find?_apply s key with hsame | ⟨o', hwrites, hfind'⟩ | ⟨_, _, -, -, hnone⟩
  · exact hs.2 key o (hsame ▸ hfind)
  · obtain rfl := Option.some.inj (hfind'.symm.trans hfind)
    exact h key o' hwrites
  · rw [hnone] at hfind
    exact nomatch hfind

/-- What a client stores keeps the status of what it replaces: that is an object of the same
kind, since there are no slashes. -/
private theorem Operation.Ordinary.orderly_apply {op : Operation} (hs : s.Orderly)
    (h : op.Ordinary s) : (op.apply s).Orderly := by
  refine hs.apply fun key o hwrites => ?_
  cases hwrites with
  | put o =>
    obtain ⟨hfree, hnull⟩ := h
    cases hstored : s.objects.find? o.tableKey with
    | none =>
      refine ⟨hfree, fun hkind => ⟨_, Object.databaseStatus?_of_isNull ?_, .unknown⟩⟩
      exact hnull hkind
    | some stored =>
      refine ⟨hfree, fun hkind => ?_⟩
      have hdatabase : o.kind = Database.kind.name := hkind
      have hstatus : (revision (some stored) o).status = stored.status := by
        simp [revision, hnull hdatabase, Object.withVersion]
      have horderly := hs.2 _ _ hstored
      have hsame : stored.kind = o.kind :=
        (Object.eq_of_tableKey_eq horderly.1 hfree.1 (hs.1 _ _ hstored)).1
      rw [Object.databaseStatus?, hstatus]
      exact horderly.2 (hsame.trans hdatabase)
  | create | update | status => exact h.elim

end Store

/-! ### Sessions -/

namespace Session

variable {key : ObjectKey} {s s' : Store} {t : List Exchange} {e : Exchange}

/-- What a pass has been answered is orderly, and under its own keys. -/
structure OrderlyAnswers (t : List Exchange) : Prop where
  inPlace : InPlace t
  orderly : ∀ kind key o, .get kind key (.ok (some o)) ∈ t → o.Orderly

theorem OrderlyAnswers.append (h : OrderlyAnswers t) (hs : s.Orderly) (hserved : Served s s' e) :
    OrderlyAnswers (t ++ [e]) := by
  refine ⟨h.inPlace.append hs.1 hserved, fun kind key' o hmem => ?_⟩
  rcases List.mem_append.mp hmem with hmem | hmem
  · exact h.orderly kind key' o hmem
  · obtain rfl := List.mem_singleton.mp hmem
    exact hs.2 _ o hserved.find?

theorem OrderlyAnswers.upsert {r : Reconciler} {now : UInt64} {placeholder : Object}
    {change : Change}
    (hr : r.catalog = Catalog.standard) (h : OrderlyAnswers t) (hs : s.Orderly)
    (hmakes : (r.reconcile now key).Makes t (.upsert placeholder change)) :
    ((Store.Operation.upsert placeholder change).apply s).Orderly := by
  obtain ⟨o, a, b, hget, ho, hb, rfl, rfl⟩ := Reconciler.reconcile_makes_upsert hmakes
  rw [hr] at hb
  refine hs.apply fun key o₁ hwrites => ?_
  cases hwrites with
  | create _ hchange _ =>
    obtain ⟨hkind, hkey, hstatus⟩ := Catalog.standard_owned hb hchange
    have hname : a.key.Free '/' := by
      have hkey : a.key = o.key := congrArg Metadata.key (ResourceKind.ofObject_eq_ok_iff.mp ho).2.1
      exact hkey ▸ (h.orderly _ _ _ hget).1.2
    have hfree := Catalog.standard_free hb hname (by decide) (by decide) (by decide)
    refine ⟨⟨hkind ▸ hfree.1, hkey ▸ hfree.2⟩, fun hdatabase => ?_⟩
    have hdatabase : b.placeholder.kind = Database.kind.name := hkind.symm.trans hdatabase
    rcases Catalog.standard_kind hb with hb' | hb'
    · exact absurd (hb'.symm.trans hdatabase) (by decide)
    · exact absurd (hb'.symm.trans hdatabase) (by decide)
  | update hfind hchange _ =>
    obtain ⟨hkind, hkey, -⟩ := Catalog.standard_owned hb hchange
    exact (hs.2 _ _ hfind).of_eq hkind hkey rfl

theorem OrderlyAnswers.writeStatus {r : Reconciler} {now : UInt64} {w : Object}
    (h : OrderlyAnswers t)
    (hs : s.Orderly) (hmakes : (r.reconcile now key).Makes t (.writeStatus w)) :
    ((Store.Operation.writeStatus w).apply s).Orderly := by
  obtain ⟨o, database, o', fresh, st, hget, ho, -, -, hst, -, rfl⟩ :=
    Reconciler.reconcile_makes_writeStatus hmakes
  have hregular := ((h.orderly _ _ _ hget).regular ho).advance hst
  refine hs.apply fun key o₁ hwrites => ?_
  cases hwrites with
  | status hstored _ =>
    refine ⟨(hs.2 _ _ hstored).1, fun _ => ⟨st, ?_, hregular⟩⟩
    exact Object.databaseStatus?_of_encode rfl

/-- A call of a pass keeps all objects orderly. -/
theorem OrderlyAnswers.serve {r : Reconciler} {now : UInt64} (hr : r.catalog = Catalog.standard)
    (hs : s.Orderly) (h : OrderlyAnswers t) (hmakes : (r.reconcile now key).Makes t e.call)
    (hserved : Served s s' e) : s'.Orderly := by
  rcases hserved.cases with rfl | ⟨op, hperforms, rfl⟩
  · exact hs
  cases e with
  | get kind key' answer => exact hperforms.elim
  | upsert placeholder change answer =>
    obtain rfl : op = .upsert placeholder change := hperforms
    exact h.upsert hr hs hmakes
  | writeStatus w answer =>
    obtain rfl : op = .writeStatus w := hperforms
    exact h.writeStatus hs hmakes
  | record notice =>
    obtain ⟨event, -, rfl⟩ := hperforms
    exact hs.apply fun _ _ hwrites => nomatch hwrites
  | provision request answer =>
    obtain rfl : op = .putTenant request := hperforms
    exact hs.apply fun _ _ hwrites => nomatch hwrites

private theorem orderly_invariant : Invariant Store.Operation.Ordinary Store.Orderly
    fun _ _ t => OrderlyAnswers t where
  operate hs hop := ⟨hop.orderly_apply hs, fun h => ⟨h.inPlace, h.orderly⟩⟩
  begin _ := ⟨inPlace_nil, fun _ _ _ h => absurd h List.not_mem_nil⟩
  serve hr hs h hmakes hserved := ⟨h.serve hr hs hmakes hserved, h.append hs hserved⟩

/-- **The states of a database.** Begin with an empty store, and let clients store and delete
objects and passes with the standard catalog run, over any databases, at any times and with any
calls failing. Then at any moment every stored database has a regular status. In particular one
that is ready has its tenant, one that is being initialized has announced it, and none has a
second condition. -/
theorem status_machine {y : Session} (hy : Reaches Store.Operation.Ordinary ⟨∅, none⟩ y)
    {key : String} {o : Object} (hfind : y.store.objects.find? key = some o)
    (hkind : o.kind = Database.kind.name) :
    ∃ st, o.databaseStatus? = some st ∧ st.Regular ∧
      (st.state = .ready → st.isTrue tenantInitialized = true) ∧
      (st.state = .initializing → (st.condition? tenantInitialized).isSome = true) ∧
      st.conditions.length ≤ 1 := by
  have hempty : (∅ : Store).Orderly :=
    ⟨Store.Reachable.empty.placed, fun key o hfind => nomatch hfind⟩
  have hholds := orderly_invariant.reaches (holds_of_store hempty) hy
  obtain ⟨st, hst, hregular⟩ := (hholds.1.2 key o hfind).2 hkind
  exact ⟨st, hst, hregular, hregular.isTrue_of_ready, hregular.isSome_of_initializing,
    hregular.length_conditions_le⟩

/-- A client stores a storage cluster and a database, and a pass announces the creation of the
tenant. -/
theorem status_machine_announced :
    let D : ObjectKey := ⟨"prod", "orders"⟩
    let cluster := StorageCluster.kind.toObject ⟨.ofKey ⟨"prod", "main"⟩, {}, { state := "Ready" }⟩
    let database : Object :=
      { Object.empty "Database" D with
        spec := DatabaseSpec.codec.encode
          { storageCluster := { name := "main" },
            serverlessResources := some ⟨{ name := "pool" }⟩ } }
    let x := ((⟨∅, none⟩ : Session).step (.operate (.put cluster))).step (.operate (.put database))
    let run := (({} : Reconciler).reconcile 7 D).run (Store.collaborators 7) x.store
    (run.2.objects.find? "Database/prod/orders").any (·.kind == Database.kind.name) = true ∧
      ∀ o, run.2.objects.find? "Database/prod/orders" = some o →
        o.databaseStatus? = some ⟨.initializing, [{ tenantInProgress with lastTransition := 7 }]⟩ ∧
        ∃ st, o.databaseStatus? = some st ∧ st.Regular := by
  intro D cluster database x run
  have hx : Reaches Store.Operation.Ordinary ⟨∅, none⟩ x :=
    .step _ (.step _ .refl ⟨by decide, fun h => absurd h (by decide)⟩) ⟨by decide, fun _ => rfl⟩
  have hy : Reaches Store.Operation.Ordinary ⟨∅, none⟩ ⟨run.2, some (D, .done run.1)⟩ :=
    hx.trans (reaches_run {} rfl 7 D x.store none)
  have hany : (run.2.objects.find? "Database/prod/orders").any
      (·.kind == Database.kind.name) = true := by decide +kernel
  have hstatus : (run.2.objects.find? "Database/prod/orders").bind Object.databaseStatus? =
      some ⟨.initializing, [{ tenantInProgress with lastTransition := 7 }]⟩ := by decide +kernel
  -- The run has been computed twice above; nothing below should unfold it again.
  clear_value run
  refine ⟨hany, fun o hfind => ⟨by simpa [hfind] using hstatus, ?_⟩⟩
  have hkind : o.kind = Database.kind.name := by simpa [hfind] using hany
  obtain ⟨st, hst, hregular, -⟩ := status_machine hy hfind hkind
  exact ⟨st, hst, hregular⟩

end Session

end Converge

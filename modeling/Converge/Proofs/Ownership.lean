import Converge.Proofs.Failures
import Converge.Proofs.Frame

/-!
# Controlling owners

An object has one controlling owner at most, and the first that has claimed it stays that: later
claims of the same owner change nothing, and those of others are refused. A claim is part of the
write in which a builder brings an object to its shape. So a pass over a database leaves an object
that another owner controls as it is, whatever its builder wants to make of it, and goes no further.

## Main definitions

* `Metadata.Claim`, `Metadata.claimed`: a claim of ownership, which may be refused.
* `Object.ControlledByOther`: an object with another controlling owner.
* `Program.Exchange.place?`: where a call may write an object.
* `Store.Blocked`: a store in which another owner controls the object of a builder.

## Main results

* `Metadata.setController_of_controlled`: what becomes of a claim on a controlled object.
* `Reconciler.controllers_never_stolen`: the first owner stays, and a pass stops at what another
  owner controls.
-/

namespace Converge

open Program (Invocation Exchange)

/-! ### Claims -/

namespace Metadata

variable {m m₁ : Metadata} {ref : OwnerReference}

/-- An owner of some kind wants to control an object. -/
structure Claim where
  kind : String
  owner : Metadata

/-- The metadata after a claim. -/
def claimed (m : Metadata) (claim : Claim) : Metadata :=
  match m.setController claim.kind claim.owner with
  | .ok m' => m'
  | .error _ => m

private theorem claimed_cases (m : Metadata) (claim : Claim) :
    (m.setController claim.kind claim.owner = .ok (m.claimed claim) ∧
      m.claimed claim = { m with owner := some ⟨claim.kind, claim.owner.name, true⟩ }) ∨
    (∃ e, m.setController claim.kind claim.owner = .error e) ∧ m.claimed claim = m := by
  cases h : m.setController claim.kind claim.owner with
  | ok m' =>
    have hclaimed : m.claimed claim = m' := by simp only [claimed, h]
    exact .inl ⟨by rw [hclaimed], hclaimed.trans (setController_eq_ok h).2⟩
  | error e => exact .inr ⟨⟨e, rfl⟩, by simp only [claimed, h]⟩

private theorem foldl_claimed (m : Metadata) (claims : List Claim) :
    ∃ owner, claims.foldl claimed m = { m with owner } := by
  induction claims generalizing m with
  | nil => exact ⟨m.owner, rfl⟩
  | cons claim claims ih =>
    obtain ⟨owner, howner⟩ := ih (m.claimed claim)
    refine ⟨owner, howner.trans ?_⟩
    rcases m.claimed_cases claim with ⟨-, h⟩ | ⟨-, h⟩ <;> rw [h]

/-- **A claim on a controlled object.** It is granted to the controlling owner, and then changes
nothing. -/
theorem setController_of_controlled (hm : m.owner = some ref) (hcontroller : ref.controller = true)
    (kind : String) (owner : Metadata) : m.setController kind owner =
      if owner.ns ≠ m.ns then .error (.crossNamespace owner.ns m.ns)
      else if kind = ref.kind ∧ owner.name = ref.name then .ok m
      else .error (.alreadyControlled ref.kind ref.name) := by
  by_cases hns : owner.ns = m.ns
  · rw [if_neg (not_not_intro hns)]
    by_cases hsame : kind = ref.kind ∧ owner.name = ref.name
    · rw [if_pos hsame]
      refine setController_again hns (hm.trans (congrArg some ?_))
      rw [hsame.1, hsame.2, ← hcontroller]
    · rw [if_neg hsame, setController, if_neg (not_not_intro hns), hm]
      have hother : ref.kind ≠ kind ∨ ref.name ≠ owner.name := by
        rw [ne_comm, ne_comm (a := ref.name)]
        exact not_and_or.mp hsame
      exact if_pos (by simpa [hcontroller] using hother)
  · rw [if_pos hns, setController, if_pos hns]

private theorem foldl_claimed_of_controlled (hm : m.owner = some ref)
    (hcontroller : ref.controller = true)
    (claims : List Claim) : claims.foldl claimed m = m := by
  induction claims with
  | nil => rfl
  | cons claim claims ih =>
    have hkept : m.claimed claim = m := by
      rw [claimed, setController_of_controlled hm hcontroller]
      split
      · rename_i m' h
        split at h
        · exact nomatch h
        · split at h
          · exact (Except.ok.inj h).symm
          · exact nomatch h
      · rfl
    rw [List.foldl_cons, hkept, ih]

/-- **The first owner stays.** After a claim has been granted, whatever claims came before, no claim
changes anything. Another one is granted exactly when it is that of an owner with the same kind and
name in the namespace of the object. -/
private theorem owner_of_granted {before : List Claim} {claim : Claim}
    (h : (before.foldl claimed m).setController claim.kind claim.owner = .ok m₁)
    (later : List Claim) :
    (before ++ claim :: later).foldl claimed m =
        { m with owner := some ⟨claim.kind, claim.owner.name, true⟩ } ∧
      ∀ next : Claim, (((before ++ claim :: later).foldl claimed m).setController next.kind
          next.owner).isOk = true ↔
        next.owner.ns = m.ns ∧ next.kind = claim.kind ∧ next.owner.name = claim.owner.name := by
  obtain ⟨owner, howner⟩ := m.foldl_claimed before
  have hfirst : (before.foldl claimed m).claimed claim =
      { m with owner := some ⟨claim.kind, claim.owner.name, true⟩ } := by
    rw [claimed, h]
    exact (setController_eq_ok h).2.trans (by rw [howner])
  have hall : (before ++ claim :: later).foldl claimed m =
      { m with owner := some ⟨claim.kind, claim.owner.name, true⟩ } := by
    rw [List.foldl_append, List.foldl_cons, hfirst, foldl_claimed_of_controlled rfl rfl]
  refine ⟨hall, fun next => ?_⟩
  rw [hall, setController_of_controlled rfl rfl]
  by_cases hns : next.owner.ns = m.ns
  · rw [if_neg (not_not_intro hns), and_iff_right hns]
    split
    · exact iff_of_true rfl ‹_›
    · exact iff_of_false nofun ‹_›
  · rw [if_pos hns]
    exact iff_of_false nofun fun h => hns h.1

end Metadata

/-! ### Objects that another owner controls -/

/-- Another owner controls the object than the one of kind `kind` with metadata `owner`. -/
def Object.ControlledByOther (o : Object) (kind : String) (owner : Metadata) : Prop :=
  ∃ ref, o.metadata.owner = some ref ∧ ref.controller = true ∧
    ¬ (ref.kind = kind ∧ ref.name = owner.name ∧ o.metadata.ns = owner.ns)

private theorem Metadata.setController_of_other {m owner : Metadata} {kind : String}
    {ref : OwnerReference}
    (hm : m.owner = some ref) (hcontroller : ref.controller = true)
    (hother : ¬ (ref.kind = kind ∧ ref.name = owner.name ∧ m.ns = owner.ns)) :
    ∃ e, m.setController kind owner = .error e := by
  rw [setController_of_controlled hm hcontroller]
  split
  · exact ⟨_, rfl⟩
  · rename_i hns
    refine ⟨_, if_neg fun hsame => hother ⟨hsame.1.symm, hsame.2.symm, ?_⟩⟩
    exact (not_not.mp hns).symm

namespace Catalog

variable {a : Aggregate} {b : Builder} {target : Object} {s : Store}

private theorem owned_of_other {owner : Metadata} (hb : b ∈ standard a)
    (hother : target.ControlledByOther Database.kind.name owner) :
    ∃ failure, b.owned owner target = .error failure := by
  obtain ⟨ref, howner, hcontroller, hne⟩ := hother
  cases h : b.owned owner target with
  | error failure => exact ⟨failure, rfl⟩
  | ok o =>
    obtain ⟨built, metadata, hbuild, hclaim, -⟩ := Builder.owned_eq_ok_iff.mp h
    obtain ⟨labels, spec, hshape⟩ := standard_build hb hbuild
    obtain rfl := Except.ok.inj ((hshape target).symm.trans hbuild)
    obtain ⟨e, he⟩ := Metadata.setController_of_other
      (m := (shape target labels spec).metadata) howner hcontroller hne
    exact nomatch he.symm.trans hclaim

/-- The write of such a builder fails, and leaves the store as it is. -/
private theorem upsert_of_other {owner : Metadata} (hb : b ∈ standard a)
    (htarget : s.objects.find? b.placeholder.tableKey = some target)
    (hother : target.ControlledByOther Database.kind.name owner) :
    ∃ failure, s.upsert b.placeholder (b.owned owner) = (.error (.mutate failure), s) := by
  obtain ⟨failure, hfails⟩ := owned_of_other hb hother
  refine ⟨failure, ?_⟩
  rw [Store.upsert_eq, htarget, Option.getD_some, Store.applyChange, hfails]
  rfl

end Catalog

/-! ### Where a pass writes -/

/-- Where a list is cut before `b`, and again at another place before which there is no `b`, the
second cut comes first. -/
private theorem exists_append_of_notMem {α : Type} {earlier later done left : List α} {b b' : α}
    (h : earlier ++ b :: later = done ++ b' :: left) (hb : b ∉ done) :
    ∃ between, earlier ++ [b] = done ++ b' :: between := by
  rcases List.append_eq_append_iff.mp h with ⟨between, rfl, hrest⟩ | ⟨between, rfl, hrest⟩
  · rcases List.cons_eq_append_iff.mp hrest with ⟨rfl, hcons⟩ | ⟨between', rfl, -⟩
    · exact ⟨[], by rw [(List.cons.inj hcons).1, List.append_nil]⟩
    · exact absurd (List.mem_append_right _ List.mem_cons_self) hb
  · rcases List.cons_eq_append_iff.mp hrest with ⟨rfl, hcons⟩ | ⟨between', rfl, -⟩
    · exact ⟨[], by rw [(List.cons.inj hcons).1, List.append_nil]⟩
    · exact ⟨between' ++ [b], by simp⟩

namespace Session

variable {s s' : Store} {e : Exchange}

/-- A call changes no object but the one in its place. -/
theorem Served.find?_of_ne {tkey : String} (h : Served s s' e) (hplace : e.place? ≠ some tkey) :
    s'.objects.find? tkey = s.objects.find? tkey := by
  rcases h.cases with rfl | ⟨op, hperforms, rfl⟩
  · rfl
  rcases op.find?_apply s tkey with hsame | ⟨o, hwrites, -⟩ | ⟨kind, key, rfl, -⟩
  · exact hsame
  · refine absurd ?_ hplace
    cases e with
    | get => exact hperforms.elim
    | record notice =>
      obtain ⟨event, -, rfl⟩ := hperforms
      exact nomatch hwrites
    | provision request answer =>
      obtain rfl : op = .putTenant request := hperforms
      exact nomatch hwrites
    | upsert placeholder change answer =>
      obtain rfl : op = .upsert placeholder change := hperforms
      cases hwrites <;> rfl
    | writeStatus o answer =>
      obtain rfl : op = .writeStatus o := hperforms
      cases hwrites
      rfl
  · cases e with
    | record => exact nomatch hperforms.choose_spec.2
    | get | upsert | writeStatus | provision => exact nomatch hperforms

/-- A pass over the database at `key` that has begun with the store `s₀` has read its database from
that store. -/
structure Begun (key : ObjectKey) (s₀ s : Store) (t : List Exchange) : Prop where
  fresh : t = [] → s = s₀
  first : ∀ o t', t = .get Database.kind.name key (.ok (some o)) :: t' →
    s₀.find? Database.kind.name key = some o

private theorem begun_nil (key : ObjectKey) (s : Store) : Begun key s s [] where
  fresh _ := rfl
  first _ _ ht := nomatch ht

theorem Begun.append {key : ObjectKey} {s₀ : Store} {t : List Exchange} (h : Begun key s₀ s t)
    (hserved : Served s s' e) : Begun key s₀ s' (t ++ [e]) where
  fresh ht := absurd ht (by simp)
  first o t' ht := by
    rcases List.append_eq_cons_iff.mp ht with ⟨rfl, heq⟩ | ⟨u, rfl, -⟩
    · obtain ⟨rfl, -⟩ := List.cons.inj heq
      rw [← h.fresh rfl]
      exact hserved.find?
    · exact h.first o u rfl

end Session

namespace Reconciler

variable {r : Reconciler} {now : UInt64} {key : ObjectKey} {t : List Exchange}
  {database : Database} {resources : Resources} {b : Builder}

theorem Synced.mem {owner : Metadata} {builders : List Builder} (h : Synced owner builders t)
    (hb : b ∈ builders) : ∃ outcome, .upsert b.placeholder (b.owned owner) (.ok outcome) ∈ t := by
  induction h with
  | nil => exact absurd hb List.not_mem_nil
  | cons outcome notices h ih =>
    rcases List.mem_cons.mp hb with rfl | hb
    · exact ⟨outcome, List.mem_cons_self⟩
    · obtain ⟨outcome', hmem⟩ := ih hb
      exact ⟨outcome', List.mem_cons_of_mem _ (List.mem_append_right _ hmem)⟩

/-- While builders do their work there are no other calls but notices. -/
theorem Synced.call {owner : Metadata} {builders : List Builder} (h : Synced owner builders t)
    {x : Exchange} (hx : x ∈ t) : (∃ notice, x = .record notice) ∨
      ∃ b ∈ builders, ∃ outcome, x = .upsert b.placeholder (b.owned owner) (.ok outcome) := by
  induction h with
  | nil => exact absurd hx List.not_mem_nil
  | @cons b rest t outcome notices h ih =>
    rcases List.mem_cons.mp hx with rfl | hx
    · exact .inr ⟨b, List.mem_cons_self, outcome, rfl⟩
    rcases List.mem_append.mp hx with hx | hx
    · obtain ⟨notice, -, rfl⟩ := List.mem_map.mp hx
      exact .inl ⟨notice, rfl⟩
    · exact (ih hx).imp_right fun ⟨b', hb', h⟩ => ⟨b', List.mem_cons_of_mem _ hb', h⟩

theorem Gated.allBuilt {request : TenantRequest} (h : r.Gated database resources t request) :
    r.AllBuilt database resources t := by
  cases h with
  | @intro o cluster synced scaled allocated past_eq _ _ _ cluster_eq ready sync =>
    exact ⟨cluster, _ :: synced, scaled ++ allocated, past_eq,
      .intro cluster_eq ready (List.append_nil _).symm sync⟩

theorem AllBuilt.append (h : r.AllBuilt database resources t) (t' : List Exchange) :
    r.AllBuilt database resources (t ++ t') := by
  obtain ⟨cluster, built, rest, rfl, hbuilt⟩ := h
  exact ⟨cluster, built, rest ++ t', List.append_assoc _ _ _, hbuilt⟩

theorem Built.allBuilt {cluster : StorageCluster} (h : r.Built database resources cluster [] t) :
    r.AllBuilt database resources t :=
  ⟨cluster, t, [], (List.append_nil t).symm, h⟩

theorem Arrives.allBuilt {st : DatabaseStatus} (h : r.Arrives now database resources t st) :
    r.AllBuilt database resources t := by
  cases h with
  | regress built _ _ _ | promote built _ _ _ | announce built _ _ _ =>
    exact built.allBuilt.append _
  | complete gated => exact gated.allBuilt.append _

/-- A step halts the pass for want of a storage cluster, or at a builder, or after all builders have
done their work. -/
private theorem Halts.cases_built {x : Exchange} {wish : Requeue}
    (h : r.Halts now database resources t x wish) :
    (t = [] ∧ ∃ key, x.call = .get StorageCluster.kind.name key) ∨
    (∃ cluster b later e, r.Built database resources cluster (b :: later) t ∧
      x = .upsert b.placeholder (b.owned database.metadata) (.error e) ∧
      wish = { after := r.delays.default,
               error := some (.sync b.placeholder.kind b.placeholder.key e) }) ∨
    r.AllBuilt database resources t := by
  cases h with
  | storage h => exact .inl ⟨rfl, _, h.call_eq⟩
  | build built => exact .inr (.inl ⟨_, _, _, _, built, rfl, rfl⟩)
  | workload built _ _ => exact .inr (.inr built.allBuilt)
  | shared built _ _ _ _ _ => exact .inr (.inr built.allBuilt)
  | tenant gated => exact .inr (.inr gated.allBuilt)
  | persist arrives _ => exact .inr (.inr (arrives.allBuilt.append _))

theorem AllBuilt.mem (h : r.AllBuilt database resources t)
    (hb : ∀ storage, b ∈ r.catalog ⟨database, resources, storage⟩) :
    ∃ change outcome, .upsert b.placeholder change (.ok outcome) ∈ t := by
  obtain ⟨cluster, built, rest, rfl, hbuilt⟩ := h
  cases hbuilt with
  | intro _ _ catalog sync =>
    rw [List.append_nil] at catalog
    obtain ⟨outcome, hmem⟩ := sync.mem (catalog ▸ hb (some cluster))
    exact ⟨_, outcome, List.mem_append_left rest (List.mem_cons_of_mem _ hmem)⟩

end Reconciler

/-- The database at `key` can be loaded from the store, and another owner controls the object of its
builder `b`, before which the builders `earlier` come. -/
structure Store.Blocked (s : Store) (key : ObjectKey) (database : Database) (resources : Resources)
    (earlier : List Builder) (b : Builder) (target : Object) : Prop where
  stored : ∃ o, s.find? Database.kind.name key = some o ∧ Database.kind.ofObject o = .ok database
  resolved : database.spec.resolve = .ok resources
  catalog : ∃ later, Catalog.standard ⟨database, resources, none⟩ = earlier ++ b :: later
  found : s.objects.find? b.placeholder.tableKey = some target
  other : target.ControlledByOther Database.kind.name database.metadata

namespace Reconciler

variable {r : Reconciler} {now : UInt64} {key : ObjectKey} {t : List Exchange} {s s' : Store}
  {database : Database} {resources : Resources} {earlier : List Builder} {b : Builder}
  {target : Object} {directive : Directive}

private theorem catalog_of_blocked (hr : r.catalog = Catalog.standard)
    (h : s.Blocked key database resources earlier b target) :
    ∃ later, ∀ storage, r.catalog ⟨database, resources, storage⟩ = earlier ++ b :: later := by
  obtain ⟨later, hcatalog⟩ := h.catalog
  exact ⟨later, fun _ => by rw [hr]; exact hcatalog⟩

/-- **The calls of a pass that is stopped.** In a pass in which the builder `b` never succeeds, only
the builders before it are called beside it, and no status is written. -/
private theorem calls_of_refused (hr : r.catalog = Catalog.standard)
    (h : s.Blocked key database resources earlier b target)
    (hends : (r.reconcile now key).Ends t directive)
    (hbegun : Session.Begun key s s' t)
    (hrefused : ∀ change outcome, .upsert b.placeholder change (.ok outcome) ∉ t) :
    ∀ x ∈ t, x.place? = none ∨ ∃ b' ∈ earlier ++ [b], ∃ answer,
      x = .upsert b'.placeholder (b'.owned database.metadata) answer := by
  obtain ⟨later, hcatalog⟩ := catalog_of_blocked hr h
  -- The pass has loaded the database of which the store is said to hold it.
  have hloaded : ∀ {o database' resources' t'},
      t = .get Database.kind.name key (.ok (some o)) :: t' →
      Database.kind.ofObject o = .ok database' → database'.spec.resolve = .ok resources' →
      database' = database ∧ resources' = resources := by
    intro o database' resources' t' ht ho hresolve
    obtain ⟨_, hstored, hdatabase⟩ := h.stored
    obtain rfl := Option.some.inj (hstored.symm.trans (hbegun.first o t' ht))
    obtain rfl := Except.ok.inj (ho.symm.trans hdatabase)
    exact ⟨rfl, Except.ok.inj (hresolve.symm.trans h.resolved)⟩
  have hbuilt : ∀ {t'}, (∀ x ∈ t', x ∈ t) → ¬ r.AllBuilt database resources t' := by
    intro t' hmem hall
    obtain ⟨change, outcome, hupsert⟩ := hall.mem (b := b) fun storage => by
      rw [hcatalog]
      exact List.mem_append_right earlier List.mem_cons_self
    exact hrefused change outcome (hmem _ hupsert)
  rcases reconcile_ends hends with
    ⟨-, rfl | ⟨-, o, database', resources', t', rfl, ho, hresolve, hall⟩⟩ |
    ⟨wish, past, x, -, hcloses, hexit⟩
  · exact List.forall_mem_singleton.mpr (.inl rfl)
  · obtain ⟨rfl, rfl⟩ := hloaded rfl ho hresolve
    exact absurd hall (hbuilt fun x hx => List.mem_cons_of_mem _ hx)
  cases hexit with
  | load _ | configuration _ _ =>
    exact hcloses.forall_mem (fun _ hy => absurd hy List.not_mem_nil) (.inl rfl) fun _ => .inl rfl
  | @step o database' resources' past x wish ho hresolve hhalts =>
    have hpast : ∀ y ∈ past, y ∈ t := fun y hy => hcloses.mem_of_mem (List.mem_cons_of_mem _ hy)
    obtain ⟨rfl, rfl⟩ : database' = database ∧ resources' = resources := by
      obtain ⟨notices, ht⟩ := hcloses
      exact hloaded ht ho hresolve
    rcases hhalts.cases_built with ⟨rfl, _, hcall⟩ | ⟨cluster, b', left, e, hb, rfl, -⟩ | hall
    · refine hcloses.forall_mem (List.forall_mem_singleton.mpr (.inl rfl)) (.inl ?_)
        fun _ => .inl rfl
      cases x with
      | get => rfl
      | upsert | writeStatus | record | provision => exact nomatch hcall
    · cases hb with
      | @intro _ done synced _ _ catalog sync =>
        have hnot : b ∉ done := by
          intro hmem
          obtain ⟨outcome, hupsert⟩ := sync.mem hmem
          exact hrefused _ outcome (hpast _ (List.mem_cons_of_mem _ hupsert))
        obtain ⟨between, hcut⟩ := exists_append_of_notMem ((hcatalog _).symm.trans catalog) hnot
        refine hcloses.forall_mem ?_ (.inr ⟨b', ?_, _, rfl⟩) fun _ => .inl rfl
        · refine List.forall_mem_cons.mpr ⟨.inl rfl, List.forall_mem_cons.mpr ⟨.inl rfl, ?_⟩⟩
          intro y hy
          rcases sync.call hy with ⟨notice, rfl⟩ | ⟨b'', hb'', outcome, rfl⟩
          · exact .inl rfl
          · exact .inr ⟨b'', hcut ▸ List.mem_append_left _ hb'', _, rfl⟩
        · exact hcut ▸ List.mem_append_right done List.mem_cons_self
    · exact absurd hall (hbuilt hpast)

/-! ### What another owner controls stays -/

variable {clock : Nat → UInt64} {outages : Nat → Option Outage}

private theorem objects_of_unresolved
    (h : ∀ o database resources, s.find? Database.kind.name key = some o →
      Database.kind.ofObject o = .ok database → database.spec.resolve ≠ .ok resources) :
    ((r.reconcile now key).run (Store.unreliable clock outages) (0, s)).2.2.objects =
      s.objects := by
  refine (Session.unreliable_induct
    (I := fun s' t => Session.Begun key s s' t ∧ s'.objects = s.objects) ?_ clock outages 0
    ⟨Session.begun_nil key s, rfl⟩).choose_spec.2
  rintro s' s₁ t e hcall hserved ⟨hbegun, hobjects⟩
  refine ⟨hbegun.append hserved, ?_⟩
  rcases reconcile_makes hcall with ⟨-, hget⟩ | ⟨_, _, _, -, -, -, hrecord⟩ |
    ⟨o, database, resources, t', rfl, ho, hresolve, -⟩
  · exact (hserved.of_quiet (.inl ⟨_, _, hget⟩)).1.trans hobjects
  · exact (hserved.of_quiet (.inr ⟨_, hrecord⟩)).1.trans hobjects
  · exact absurd hresolve (h o database resources (hbegun.first o t' rfl) ho)

/-- A builder of a pass that comes upon an object that another owner controls is refused. -/
private theorem upsert_refused (hr : r.catalog = Catalog.standard)
    (h : s.Blocked key database resources earlier b target) {placeholder : Object}
    {change : Change} (hcall : (r.reconcile now key).Makes t (.upsert placeholder change))
    (hbegun : Session.Begun key s s' t)
    (htarget : s'.objects.find? placeholder.tableKey = some target) :
    ∃ failure, s'.upsert placeholder change = (.error (.mutate failure), s') := by
  rcases reconcile_makes hcall with ⟨-, hget⟩ | ⟨_, _, _, -, -, -, hrecord⟩ |
    ⟨o, database', resources', t', rfl, ho, hresolve, hsteps⟩
  · exact nomatch hget
  · exact nomatch hrecord
  obtain ⟨_, hstored, hdatabase⟩ := h.stored
  obtain rfl := Option.some.inj (hstored.symm.trans (hbegun.first o t' rfl))
  obtain rfl := Except.ok.inj (ho.symm.trans hdatabase)
  rcases hsteps with hcall | ⟨_, hprovision, -⟩
  · cases hcall with
    | @build a b' ha _ hb _ =>
      rw [hr] at hb
      exact Catalog.upsert_of_other hb htarget h.other
  · exact nomatch hprovision

/-- What is so while a pass over the database at `key` is in progress that has begun with the store
`s`, in which the builder `b` is blocked. -/
structure Guarded (outages : Nat → Option Outage) (key : ObjectKey) (s : Store) (b : Builder)
    (target : Object) (w : Nat × Store) (t : List Exchange) : Prop where
  count : w.1 = t.length
  begun : Session.Begun key s w.2 t
  kept : w.2.objects.find? b.placeholder.tableKey = some target
  refused : ∀ (i : Nat) placeholder change answer,
    t[i]? = some (.upsert placeholder change answer) →
    placeholder.tableKey = b.placeholder.tableKey →
    ∃ e, answer = .error e ∧ (outages i = none → ∃ failure, e = .mutate failure)
  others : ∀ tkey, (∀ x ∈ t, x.place? ≠ some tkey) →
    w.2.objects.find? tkey = s.objects.find? tkey

private theorem guarded_nil (h : s.Blocked key database resources earlier b target) :
    Guarded outages key s b target (0, s) [] where
  count := rfl
  begun := Session.begun_nil key s
  kept := h.found
  refused _ _ _ _ hi := nomatch hi
  others _ _ := rfl

private theorem Guarded.refuses {w w' : Nat × Store} {e : Exchange}
    (hr : r.catalog = Catalog.standard)
    (h : s.Blocked key database resources earlier b target)
    (hcall : (r.reconcile now key).Makes t e.call)
    (hserved : e.Served (Store.unreliable clock outages) w w')
    (hguarded : Guarded outages key s b target w t)
    (hplace : e.place? = some b.placeholder.tableKey) :
    w'.2 = w.2 ∧ ∃ placeholder change error, e = .upsert placeholder change (.error error) ∧
      (outages w.1 = none → ∃ failure, error = .mutate failure) := by
  obtain ⟨-, hserved⟩ := Collaborators.served_inTurn hserved
  cases e with
  | get | record | provision => exact nomatch hplace
  | writeStatus o answer =>
    obtain ⟨_, _, _, fresh, st, -, -, -, -, -, -, rfl⟩ := reconcile_makes_writeStatus hcall
    obtain ⟨later, hcatalog⟩ := h.catalog
    have hb : b ∈ Catalog.standard ⟨database, resources, none⟩ :=
      hcatalog ▸ List.mem_append_right earlier List.mem_cons_self
    exact absurd (Option.some.inj hplace).symm
      (Catalog.standard_tableKey_ne hb Database.kind.name (by decide) (by decide) _)
  | upsert placeholder change answer =>
    have htarget : w.2.objects.find? placeholder.tableKey = some target := by
      rw [Option.some.inj hplace, hguarded.kept]
    obtain ⟨failure, hfails⟩ := upsert_refused hr h hcall hguarded.begun htarget
    cases houtage : outages w.1 with
    | none =>
      rw [houtage] at hserved
      have hanswer : (.error (.mutate failure), w.2) = (answer, w'.2) := hfails.symm.trans hserved
      obtain ⟨rfl, hstore⟩ := Prod.mk.inj hanswer
      exact ⟨hstore.symm, placeholder, change, _, rfl, fun _ => ⟨failure, rfl⟩⟩
    | some outage =>
      rw [houtage] at hserved
      obtain ⟨rfl, hstore⟩ := Prod.mk.inj hserved
      exact ⟨hstore.symm, placeholder, change, _, rfl, nofun⟩

/-- **Every call of a pass leaves the guarded object as it is.** -/
theorem Guarded.serve {w w' : Nat × Store} {e : Exchange} (hr : r.catalog = Catalog.standard)
    (h : s.Blocked key database resources earlier b target)
    (hcall : (r.reconcile now key).Makes t e.call)
    (hserved : e.Served (Store.unreliable clock outages) w w')
    (hguarded : Guarded outages key s b target w t) :
    Guarded outages key s b target w' (t ++ [e]) where
  count := by
    rw [(Collaborators.served_inTurn hserved).1, hguarded.count, List.length_append]
    rfl
  begun := hguarded.begun.append (Session.served_unreliable hserved)
  kept := by
    by_cases hplace : e.place? = some b.placeholder.tableKey
    · rw [(hguarded.refuses hr h hcall hserved hplace).1, hguarded.kept]
    · rw [(Session.served_unreliable hserved).find?_of_ne hplace, hguarded.kept]
  refused i placeholder change answer hi hkey := by
    rw [List.getElem?_append] at hi
    split at hi
    · exact hguarded.refused i placeholder change answer hi hkey
    rw [List.getElem?_singleton] at hi
    split at hi
    · obtain rfl := Option.some.inj hi
      have hi : w.1 = i := by
        rw [hguarded.count]
        omega
      obtain ⟨-, _, _, error, heq, hmutate⟩ :=
        hguarded.refuses hr h hcall hserved (congrArg some hkey)
      exact ⟨error, (Exchange.upsert.inj heq).2.2, hi ▸ hmutate⟩
    · exact nomatch hi
  others tkey hplace := by
    have hlast : e.place? ≠ some tkey := hplace e (List.mem_append_right t List.mem_cons_self)
    rw [(Session.served_unreliable hserved).find?_of_ne hlast]
    exact hguarded.others tkey fun x hx => hplace x (List.mem_append_left _ hx)

private theorem guarded_pass (hr : r.catalog = Catalog.standard)
    (h : s.Blocked key database resources earlier b target) :
    Guarded outages key s b target
      ((r.reconcile now key).run (Store.unreliable clock outages) (0, s)).2
      ((r.reconcile now key).trace (Store.unreliable clock outages) (0, s)) :=
  Program.run_induct (fun hcall hserved hguarded => hguarded.serve hr h hcall hserved) (0, s)
    (guarded_nil h)

/-- A pass in which a builder is blocked calls no builder after it, and writes no status. -/
private theorem calls_of_blocked (hr : r.catalog = Catalog.standard)
    (h : s.Blocked key database resources earlier b target) :
    ∀ x ∈ (r.reconcile now key).trace (Store.unreliable clock outages) (0, s), x.place? = none ∨
      ∃ b' ∈ earlier ++ [b], ∃ answer,
        x = .upsert b'.placeholder (b'.owned database.metadata) answer := by
  have hguarded : Guarded outages key s b target
      ((r.reconcile now key).run (Store.unreliable clock outages) (0, s)).2
      ((r.reconcile now key).trace (Store.unreliable clock outages) (0, s)) := guarded_pass hr h
  refine calls_of_refused hr h (Program.ends_trace _ _ (0, s)) hguarded.begun
    fun change outcome hmem => ?_
  obtain ⟨i, hi⟩ := List.mem_iff_getElem?.mp hmem
  obtain ⟨_, hanswer, -⟩ := hguarded.refused i _ _ _ hi rfl
  exact nomatch hanswer

/-- **Controllers are never stolen.** Once a claim on an object has been granted, whatever claims
came before, the owner never changes; another claim is granted exactly when it is that of an owner
with the same kind and name in the namespace of the object. A claim that is refused changes nothing.

Therefore a pass with the standard catalog, over any store and whichever of its calls fail, leaves
an object that another owner controls as it is. Nothing but the objects of the builders before it
changes, and no later builder is called. When its builder is called, and the store answers that, the
pass reports that the object cannot be built. A pass whose database cannot be loaded or is
misconfigured changes no object at all. -/
theorem controllers_never_stolen :
    (∀ (m m₁ : Metadata) (before later : List Metadata.Claim) (claim : Metadata.Claim),
      (before.foldl Metadata.claimed m).setController claim.kind claim.owner = .ok m₁ →
      let m' := (before ++ claim :: later).foldl Metadata.claimed m
      m' = { m with owner := some ⟨claim.kind, claim.owner.name, true⟩ } ∧
        ∀ next : Metadata.Claim, (m'.setController next.kind next.owner).isOk = true ↔
          next.owner.ns = m.ns ∧ next.kind = claim.kind ∧ next.owner.name = claim.owner.name) ∧
    (∀ (m : Metadata) (claim : Metadata.Claim),
      (m.setController claim.kind claim.owner).isOk = false → m.claimed claim = m) ∧
    ∀ (r : Reconciler) (now : UInt64) (key : ObjectKey) (clock : Nat → UInt64)
      (outages : Nat → Option Outage) (s : Store), r.catalog = Catalog.standard →
      let pass := r.reconcile now key
      let t := pass.trace (Store.unreliable clock outages) (0, s)
      let directive := (pass.run (Store.unreliable clock outages) (0, s)).1
      let s' := (pass.run (Store.unreliable clock outages) (0, s)).2.2
      (∀ (database : Database) (resources : Resources) (earlier : List Builder) (b : Builder)
        (target : Object), s.Blocked key database resources earlier b target →
        s'.objects.find? b.placeholder.tableKey = some target ∧
        (∀ tkey, tkey ∉ earlier.map (·.placeholder.tableKey) →
          s'.objects.find? tkey = s.objects.find? tkey) ∧
        (∀ placeholder change answer, .upsert placeholder change answer ∈ t →
          placeholder ∈ (earlier ++ [b]).map (·.placeholder)) ∧
        ∀ (i : Nat) change answer, t[i]? = some (.upsert b.placeholder change answer) →
          outages i = none →
          ∃ failure, answer = .error (.mutate failure) ∧
            let error : PassError :=
              .sync b.placeholder.kind b.placeholder.key (.mutate failure)
            directive = .requeue { after := r.delays.default, error := some error } ∧
              error.category = .build) ∧
      ((∀ o database resources, s.find? Database.kind.name key = some o →
          Database.kind.ofObject o = .ok database → database.spec.resolve ≠ .ok resources) →
        s'.objects = s.objects) := by
  refine ⟨fun m m₁ before later claim h => Metadata.owner_of_granted h later,
    fun m claim h => ?_, ?_⟩
  · rcases m.claimed_cases claim with ⟨hgranted, -⟩ | ⟨-, hkept⟩
    · exact nomatch hgranted ▸ h
    · exact hkept
  intro r now key clock outages s hr pass t directive s'
  refine ⟨fun database resources earlier b target h => ?_, objects_of_unresolved⟩
  have hguarded : Guarded outages key s b target
      (pass.run (Store.unreliable clock outages) (0, s)).2 t := guarded_pass hr h
  have hcalls : ∀ x ∈ t, x.place? = none ∨ ∃ b' ∈ earlier ++ [b], ∃ answer,
      x = .upsert b'.placeholder (b'.owned database.metadata) answer := calls_of_blocked hr h
  refine ⟨hguarded.kept, fun tkey htkey => ?_, fun placeholder change answer hmem => ?_,
    fun i change answer hi houtage => ?_⟩
  · by_cases hb : tkey = b.placeholder.tableKey
    · rw [hb, h.found]
      exact hguarded.kept
    refine hguarded.others tkey fun x hx hplace => ?_
    rcases hcalls x hx with hnone | ⟨b', hb', answer, rfl⟩
    · exact nomatch hnone.symm.trans hplace
    · obtain rfl := Option.some.inj hplace
      rcases List.mem_append.mp hb' with hb' | hb'
      · exact htkey (List.mem_map_of_mem hb')
      · exact hb (congrArg (·.placeholder.tableKey) (List.mem_singleton.mp hb'))
  · rcases hcalls _ hmem with hnone | ⟨b', hb', _, heq⟩
    · exact nomatch hnone
    · obtain ⟨rfl, -⟩ := Exchange.upsert.inj heq
      exact List.mem_map_of_mem hb'
  · obtain ⟨_, rfl, hmutate⟩ := hguarded.refused i _ _ _ hi rfl
    obtain ⟨failure, rfl⟩ := hmutate houtage
    have hends : pass.Ends t directive := Program.ends_trace _ pass (0, s)
    exact ⟨failure, rfl, reconcile_upsert_error hends (List.mem_of_getElem? hi), rfl⟩

/-- A workload that the database `billing` controls. -/
def contended : Object :=
  let owner : OwnerReference := ⟨Database.kind.name, "billing", true⟩
  Workload.kind.toObject
    ⟨{ name := "orders", ns := "prod", version := 2, owner }, {}, { replicas := 2 }⟩

/-- A pass over the database `orders` that comes upon the workload of another database, after it has
made a service. -/
theorem controllers_never_stolen_contended :
    let s : Store := (Store.Operation.put contended).apply Store.awaitingTenant
    let a : Aggregate :=
      ⟨⟨{ name := "orders", ns := "prod", version := 1 },
        { storageCluster := { name := "main" }, nodes := 2, resources := some {} },
        { state := .initializing, conditions := [tenantInProgress.stamped 5] }⟩,
        .dedicated [], none⟩
    let pass := ({} : Reconciler).reconcile 7 ⟨"prod", "orders"⟩
    let c := Store.unreliable (fun _ => 7) fun _ => none
    s.Blocked ⟨"prod", "orders"⟩ a.database a.resources [Catalog.service a] (Catalog.workload a)
        contended ∧
      (pass.run c (0, s)).2.2.objects.find? "Workload/prod/orders" = some contended ∧
      ∃ failure, (pass.run c (0, s)).1 = .requeue
        { after := 10, error := some (.sync "Workload" ⟨"prod", "orders"⟩ (.mutate failure)) } := by
  intro s a pass c
  have hblocked : s.Blocked ⟨"prod", "orders"⟩ a.database a.resources [Catalog.service a]
      (Catalog.workload a) contended := by
    refine ⟨⟨_, rfl, rfl⟩, rfl, ⟨[], rfl⟩, rfl, _, rfl, rfl, by decide⟩
  obtain ⟨hkept, -, -, hreport⟩ := (controllers_never_stolen.2.2 {} 7 ⟨"prod", "orders"⟩
    (fun _ => 7) (fun _ => none) s rfl).1 a.database a.resources [Catalog.service a]
    (Catalog.workload a) contended hblocked
  obtain ⟨failure, -, hdirective, -⟩ := hreport 4 _ _ rfl rfl
  exact ⟨hblocked, hkept, failure, hdirective⟩

end Reconciler

end Converge

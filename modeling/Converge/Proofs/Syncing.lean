import Converge.Proofs.Changes
import Converge.Proofs.Idle
import Converge.Proofs.StandardCatalog

/-!
# Owned objects keep their shape

A builder that finds its object as it has left it changes nothing. So what a pass does about the
owned objects of a database it does at once: over the store that it leaves behind the next pass
finds all objects built, or fails at the same builder for the same reason.

## Main definitions

* `Store.Accepts`: a builder can make its object of what is stored in its place.
* `Store.Built`: the object of a builder has its shape.
* `Store.KeepsStatuses`: what is observed of the objects of a store is observed of them in another.
* `Builder.Stable`: a builder that changes nothing about what it has made.

## Main results

* `Store.upsert_built`: a stable builder fails, or its object is built afterwards.
* `Reconciler.syncEach_run`: the builders leave a store over which they change nothing.
-/

namespace Converge

/-! ### Builders over a store -/

/-- A builder that changes nothing about what it has made for an owner, whatever version and status
that has got since. -/
def Builder.Stable (b : Builder) (owner : Metadata) : Prop :=
  ∀ o o', b.owned owner o = .ok o' → ∀ status version,
    b.owned owner ({ o' with status }.withVersion version) =
      .ok ({ o' with status }.withVersion version)

theorem Catalog.standard_stable {a : Aggregate} {b : Builder} (hb : b ∈ standard a)
    (owner : Metadata) : b.Stable owner :=
  fun _ _ h status version => standard_owned_again hb h status version

namespace Store

variable {s s' s'' : Store} {owner : Metadata} {b : Builder}

/-- A builder can make its object of what is stored in its place, or of the placeholder. -/
def Accepts (s : Store) (owner : Metadata) (b : Builder) : Prop :=
  ∃ o, applyChange b.placeholder.tableKey (b.owned owner)
    ((s.objects.find? b.placeholder.tableKey).getD b.placeholder) = .ok o

private theorem accepts_congr
    (hs : s'.objects.find? b.placeholder.tableKey = s.objects.find? b.placeholder.tableKey) :
    s'.Accepts owner b ↔ s.Accepts owner b := by
  rw [Accepts, Accepts, hs]

/-- What is observed of an object of the first store is observed of it in the second. -/
def KeepsStatuses (s s' : Store) : Prop :=
  ∀ key o, s.objects.find? key = some o →
    ∃ o', s'.objects.find? key = some o' ∧ o'.status = o.status

theorem KeepsStatuses.of_objects (hs : s'.objects = s.objects) : s.KeepsStatuses s' :=
  fun _ o hfind => ⟨o, hs ▸ hfind, rfl⟩

theorem KeepsStatuses.trans (h : s.KeepsStatuses s') (h' : s'.KeepsStatuses s'') :
    s.KeepsStatuses s'' := by
  intro key o hfind
  obtain ⟨o', hfind', hstatus⟩ := h key o hfind
  obtain ⟨o'', hfind'', hstatus'⟩ := h' key o' hfind'
  exact ⟨o'', hfind'', hstatus'.trans hstatus⟩

private theorem keepsStatuses_withObject {key : String} {o : Object}
    (h : ∀ stored, s.objects.find? key = some stored → o.status = stored.status) :
    s.KeepsStatuses (s.withObject key o) := by
  intro key' stored hfind
  by_cases hkey : key = key'
  · subst hkey
    exact ⟨o, Table.find?_insert_self _ _ _, h stored hfind⟩
  · exact ⟨stored, (Table.find?_insert_ne _ hkey _).trans hfind, rfl⟩

/-- The object of a builder is there, and has the shape that the builder gives it. -/
def Built (s : Store) (owner : Metadata) (b : Builder) : Prop :=
  ∃ stored o, s.objects.find? b.placeholder.tableKey = some stored ∧
    applyChange b.placeholder.tableKey (b.owned owner) stored = .ok o ∧
    (updated stored o).same stored = true

/-- Whether an object is built can be seen from that object. -/
theorem Built.of_find? (h : s.Built owner b)
    (hs : s'.objects.find? b.placeholder.tableKey = s.objects.find? b.placeholder.tableKey) :
    s'.Built owner b := by
  obtain ⟨stored, o, hfind, hchange, hsame⟩ := h
  exact ⟨stored, o, hs.trans hfind, hchange, hsame⟩

theorem Built.upsert_eq (h : s.Built owner b) :
    s.upsert b.placeholder (b.owned owner) = (.ok .unchanged, s) := by
  obtain ⟨stored, o, hfind, hchange, hsame⟩ := h
  obtain ⟨hmade, hkey⟩ := applyChange_eq_ok_iff.mp hchange
  exact upsert_of_agrees hfind hmade hkey (Object.updated_same_iff.mp hsame)

private theorem built_of_owned (hb : b.Stable owner) {o : Object} {status : Json} {version : UInt64}
    {original : Object}
    (hchange : applyChange b.placeholder.tableKey (b.owned owner) original = .ok o)
    (hfind : s.objects.find? b.placeholder.tableKey =
      some ({ o with status }.withVersion version)) : s.Built owner b := by
  obtain ⟨hchange, hkey⟩ := applyChange_eq_ok_iff.mp hchange
  exact ⟨_, _, hfind, applyChange_eq_ok_iff.mpr ⟨hb _ _ hchange status version, hkey⟩,
    Object.same_self _⟩

/-- **A builder over a store.** A stable builder that can make its object has it built afterwards,
and any other fails. No other object changes, and every object keeps its status. -/
theorem upsert_built (hb : b.Stable owner) (s : Store) :
    (¬ s.Accepts owner b ∧ ∃ e, s.upsert b.placeholder (b.owned owner) = (.error e, s)) ∨
    ∃ outcome s', s.upsert b.placeholder (b.owned owner) = (.ok outcome, s') ∧ s'.Built owner b ∧
      s.KeepsStatuses s' ∧
      ∀ key, key ≠ b.placeholder.tableKey → s'.objects.find? key = s.objects.find? key := by
  cases hchange : applyChange b.placeholder.tableKey (b.owned owner)
    ((s.objects.find? b.placeholder.tableKey).getD b.placeholder) with
  | error e =>
    refine .inl ⟨fun ⟨o, ho⟩ => ?_, e, by rw [upsert_eq, hchange]⟩
    exact nomatch hchange.symm.trans ho
  | ok o =>
    refine .inr ?_
    obtain ⟨hmade, hkey⟩ := applyChange_eq_ok_iff.mp hchange
    have hother : ∀ o' key, key ≠ b.placeholder.tableKey →
        (s.withObject b.placeholder.tableKey o').objects.find? key = s.objects.find? key :=
      fun o' key hne => Table.find?_insert_ne _ (Ne.symm hne) _
    cases hfind : s.objects.find? b.placeholder.tableKey with
    | none =>
      rw [hfind, Option.getD_none] at hmade
      have hfind' : (s.withObject b.placeholder.tableKey (o.withVersion 1)).objects.find?
          b.placeholder.tableKey = some ({ o with status := o.status }.withVersion 1) :=
        Table.find?_insert_self _ _ _
      refine ⟨.created, _, upsert_of_none hfind hmade hkey, built_of_owned hb hchange hfind',
        keepsStatuses_withObject fun stored hstored => ?_, hother _⟩
      exact nomatch hfind.symm.trans hstored
    | some stored =>
      rw [hfind, Option.getD_some] at hmade
      by_cases hagrees : o.Agrees stored
      · rw [hfind] at hchange
        exact ⟨.unchanged, s, upsert_of_agrees hfind hmade hkey hagrees,
          ⟨stored, o, hfind, hchange, Object.updated_same_iff.mpr hagrees⟩, .of_objects rfl,
          fun _ _ => rfl⟩
      · refine ⟨.updated, _, upsert_of_not_agrees hfind hmade hkey hagrees,
          built_of_owned hb hchange (Table.find?_insert_self _ _ _),
          keepsStatuses_withObject fun stored' hstored => ?_, hother _⟩
        obtain rfl := Option.some.inj (hfind.symm.trans hstored)
        rfl

private theorem upsert_congr (hs : s'.objects = s.objects) (placeholder : Object)
    (change : Change) :
    (s'.upsert placeholder change).1 = (s.upsert placeholder change).1 := by
  rw [upsert_eq, upsert_eq, hs]
  split
  · rfl
  · rfl
  · split <;> rfl

end Store

namespace Program

variable {s : Store} {owner : Metadata} {b : Builder}

private theorem upsert_idle_of_built (h : s.Built owner b) :
    (upsert b.placeholder (b.owned owner) done).Idle s [] (.ok .unchanged) :=
  fun _ _ hs' => (h.of_find? (by rw [hs'])).upsert_eq

private theorem upsert_idle_of_error {e : StoreError}
    (h : s.upsert b.placeholder (b.owned owner) = (.error e, s)) :
    (upsert b.placeholder (b.owned owner) done).Idle s [] (.error e) := by
  intro now s' hs'
  have herror : (s'.upsert b.placeholder (b.owned owner)).1 = .error e := by
    rw [Store.upsert_congr hs', h]
  exact Prod.ext herror (Store.transact_error herror)

end Program

namespace Reconciler

variable {r : Reconciler} {a : Aggregate} {s : Store} {builders : List Builder}

/-- Builders whose objects are built change nothing. -/
theorem syncEach_idle_of_built (h : ∀ b ∈ builders, s.Built a.database.metadata b) :
    (r.syncEach a builders).Idle s [] (.proceed a) := by
  induction builders with
  | nil => exact Program.idle_pure
  | cons b rest ih =>
    have hrest := ih fun b' hb' => h b' (List.mem_cons_of_mem b hb')
    exact (Program.upsert_idle_of_built (h b List.mem_cons_self)).after hrest

/-- **The owned objects.** Builders that are stable and have objects of their own leave a store in
which all objects are built; or one of them cannot make its object, and they leave a store over
which they fail without changing anything. No other object changes and no tenant, and every object
keeps its status. -/
theorem syncEach_run (r : Reconciler) (a : Aggregate) (now : UInt64)
    (hstable : ∀ b ∈ builders, b.Stable a.database.metadata)
    (hkeys : (builders.map (·.placeholder.tableKey)).Nodup) (s : Store) :
    ∃ flow s', (r.syncEach a builders).run (Store.collaborators now) s = (flow, s') ∧
      (∀ key, key ∉ builders.map (·.placeholder.tableKey) →
        s'.objects.find? key = s.objects.find? key) ∧ s'.tenants = s.tenants ∧
      s.KeepsStatuses s' ∧
      ((flow = .proceed a ∧ ∀ b ∈ builders, s'.Built a.database.metadata b) ∨
        (∃ b ∈ builders, ¬ s.Accepts a.database.metadata b) ∧
        ∃ wish notices, flow = .halt wish a ∧ Brief a.key notices ∧
          (r.syncEach a builders).Idle s' notices flow) := by
  induction builders generalizing s with
  | nil =>
    exact ⟨_, _, rfl, fun _ _ => rfl, rfl, .of_objects rfl,
      .inl ⟨rfl, fun _ hb => absurd hb List.not_mem_nil⟩⟩
  | cons b rest ih =>
    rw [List.map_cons, List.nodup_cons] at hkeys
    rcases s.upsert_built (hstable b List.mem_cons_self) with ⟨hrefuses, e, he⟩ |
      ⟨outcome, s₁, heq, hbuilt, hkeeps, hother⟩
    · -- The builder fails now, and would fail again.
      have hidle : ∃ wish notices, Brief a.key notices ∧
          (r.syncEach a (b :: rest)).Idle s notices (.halt wish a) :=
        ⟨_, _, brief_singleton, (Program.upsert_idle_of_error he).after Program.notify_pure_idle⟩
      obtain ⟨wish, notices, hbrief, hidle⟩ := hidle
      obtain ⟨hobjects, htenants⟩ := s.tell_frame notices now
      exact ⟨_, _, hidle.run now, fun _ _ => by rw [hobjects], htenants, .of_objects hobjects,
        .inr ⟨⟨b, List.mem_cons_self, hrefuses⟩, wish, notices, rfl, hbrief,
          hidle.of_objects hobjects⟩⟩
    · -- The rest runs over a store with the object of the builder.
      obtain ⟨notices, hrun⟩ : ∃ notices,
          (r.syncEach a (b :: rest)).run (Store.collaborators now) s =
            (r.syncEach a rest).run (Store.collaborators now) (s₁.tell notices now) := by
        have hupsert : (Program.upsert b.placeholder (b.owned a.database.metadata) .done).run
            (Store.collaborators now) s = (.ok outcome, s₁) := heq
        rw [syncEach, Program.run_bind, hupsert]
        dsimp only
        split
        · exact ⟨[_], rfl⟩
        · exact ⟨[], rfl⟩
      obtain ⟨hobjects, htenants⟩ := s₁.tell_frame notices now
      have htenants₁ : s₁.tenants = s.tenants := by
        have hstore : (Store.Operation.upsert b.placeholder (b.owned a.database.metadata)).apply
            s = s₁ := congrArg Prod.snd heq
        exact hstore ▸ (Store.Operation.tenants_apply _ s).resolve_left nofun
      obtain ⟨flow, s', hrun', hother', htenants', hkeeps', hend⟩ :=
        ih (fun b' hb' => hstable b' (List.mem_cons_of_mem b hb')) hkeys.2 (s₁.tell notices now)
      have hbuilt' : s'.Built a.database.metadata b :=
        hbuilt.of_find? (by rw [hother' _ hkeys.1, hobjects])
      refine ⟨flow, s', hrun.trans hrun', fun key hkey => ?_,
        htenants'.trans (htenants.trans htenants₁),
        (hkeeps.trans (.of_objects hobjects)).trans hkeeps', ?_⟩
      · rw [List.map_cons, List.mem_cons, not_or] at hkey
        rw [hother' key hkey.2, hobjects, hother key hkey.1]
      rcases hend with ⟨rfl, hrest⟩ | ⟨⟨b', hb', hrefuses⟩, wish, notices', rfl, hbrief, hidle⟩
      · exact .inl ⟨rfl, List.forall_mem_cons.mpr ⟨hbuilt', hrest⟩⟩
      · -- The object of the first builder is not in the place of that of the later one.
        have hne : b'.placeholder.tableKey ≠ b.placeholder.tableKey := fun heq =>
          hkeys.1 (heq ▸ List.mem_map_of_mem hb')
        have hfirst : (s₁.tell notices now).objects.find? b'.placeholder.tableKey =
            s.objects.find? b'.placeholder.tableKey := by
          rw [hobjects, hother _ hne]
        refine .inr ⟨⟨b', List.mem_cons_of_mem b hb', fun haccepts => hrefuses ?_⟩, wish, notices',
          rfl, hbrief, (Program.upsert_idle_of_built hbuilt').after hidle⟩
        exact (Store.accepts_congr hfirst).mpr haccepts

end Reconciler

end Converge

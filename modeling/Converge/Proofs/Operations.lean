import Converge.Pass.Tenancy
import Converge.Proofs.Resources
import Converge.Store.World

/-!
# Operations of a store

Everything that happens to a store is an operation of one of six sorts. Three of them write an
object, and what they write depends on what is stored in its place.

## Main definitions

* `Store.Operation`, `Store.Operation.apply`: the operations of a store.
* `Store.Reachable`: the stores that come about by operations.
* `Store.Operation.Writes`: the object that an operation writes under a key.
* `Store.Placed`: every object is stored under its own key.

## Main results

* `Store.Operation.find?_apply`: what an operation does to the object under a key.
* `Store.Operation.tenants_apply`, `Store.Operation.events_apply`: the operations that change the
  tenants and the events.
* `Store.Reachable.placed`: in every reachable store each object is under its own key.
-/

namespace Converge.Store

/-! ### Operations -/

/-- An operation of a store. -/
inductive Operation where
  | put (o : Object)
  | delete (kind : String) (key : ObjectKey)
  | upsert (placeholder : Object) (change : Change)
  | writeStatus (o : Object)
  | putTenant (request : TenantRequest)
  | putEvent (e : Event)

/-- The store after an operation, which may have failed. -/
def Operation.apply (s : Store) : Operation → Store
  | put o => (s.put o).2
  | delete kind key => (s.delete kind key).2
  | upsert placeholder change => (s.upsert placeholder change).2
  | writeStatus o => (s.writeStatus o).2
  | putTenant request => (s.putTenant request).2
  | putEvent e => s.putEvent e

/-- The stores that come about by operations, in any order, from the empty one. -/
inductive Reachable : Store → Prop
  | empty : Reachable ∅
  | apply {s : Store} (h : Reachable s) (op : Operation) : Reachable (op.apply s)

theorem Reachable.foldl {s : Store} (h : Reachable s) (ops : List Operation) :
    Reachable (ops.foldl Operation.apply s) := by
  induction ops generalizing s with
  | nil => exact h
  | cons op ops ih => exact ih (h.apply op)

/-- A store in which the creation of the tenant of a database was announced, and everything else
that the database needs is there: its storage cluster is ready, and its workload runs two nodes. -/
def awaitingTenant : Store :=
  [.put (StorageCluster.kind.toObject
      ⟨.ofKey ⟨"prod", "main"⟩, { grpc := { tlsEnabled := true } }, { state := "Ready" }⟩),
    .put (Database.kind.toObject
      ⟨.ofKey ⟨"prod", "orders"⟩,
        { storageCluster := { name := "main" }, nodes := 2, resources := some {} },
        { state := .initializing, conditions := [tenantInProgress.stamped 5] }⟩),
    .put (Workload.kind.toObject ⟨.ofKey ⟨"prod", "orders"⟩, {}, { replicas := 2 }⟩)].foldl
    Operation.apply ∅

theorem awaitingTenant_reachable : awaitingTenant.Reachable := Reachable.empty.foldl _

/-! ### The operations that write objects -/

variable {s : Store} {key : String} {change : Change} {placeholder o o' : Object}

theorem applyChange_eq_ok_iff :
    applyChange key change o = .ok o' ↔ change o = .ok o' ∧ o'.tableKey = key := by
  rw [applyChange, except_bind_eq_ok_iff]
  simp only [mapError_eq_ok_iff, ne_eq, ite_not]
  constructor
  · rintro ⟨changed, hchange, h⟩
    split at h
    · rename_i hkey
      obtain rfl := Except.ok.inj h
      exact ⟨hchange, hkey⟩
    · exact nomatch h
  · rintro ⟨hchange, hkey⟩
    exact ⟨o', hchange, if_pos hkey⟩

/-- The object that a change makes of a stored one, before it gets its next version. -/
def updated (stored changed : Object) : Object :=
  { changed with status := stored.status }.withVersion stored.metadata.version

/-- An attempt to create an object or change it applies the change first. -/
theorem upsert_eq (s : Store) (placeholder : Object) (change : Change) :
    s.upsert placeholder change =
      match applyChange placeholder.tableKey change
          ((s.objects.find? placeholder.tableKey).getD placeholder),
        s.objects.find? placeholder.tableKey with
      | .error e, _ => (.error e, s)
      | .ok o, none => (.ok .created, s.withObject placeholder.tableKey (o.withVersion 1))
      | .ok o, some stored =>
        if (updated stored o).same stored then (.ok .unchanged, s)
        else (.ok .updated, s.withObject placeholder.tableKey
          ((updated stored o).withVersion (stored.metadata.version + 1))) := by
  simp only [upsert, transact]
  cases s.objects.find? placeholder.tableKey with
  | none =>
    simp only [Option.getD_none]
    cases applyChange placeholder.tableKey change placeholder <;> rfl
  | some stored =>
    simp only [Option.getD_some]
    cases applyChange placeholder.tableKey change stored with
    | error e => rfl
    | ok o =>
      simp only [bind, Except.bind, pure, Except.pure, updated]
      split <;> rename_i hbody <;> split at hbody <;> simp_all

/-- A status is written into an object that is there and has the right version. -/
theorem writeStatus_eq (s : Store) (o : Object) : s.writeStatus o =
    match s.objects.find? o.tableKey with
    | none => (.error (.missing o.tableKey), s)
    | some stored =>
      if stored.metadata.version = o.metadata.version then
        (.ok (stored.metadata.version + 1), s.withObject o.tableKey
          ({ stored with status := o.status }.withVersion (stored.metadata.version + 1)))
      else (.error (.conflict o.tableKey o.metadata.version stored.metadata.version), s) := by
  simp only [writeStatus, transact]
  cases s.objects.find? o.tableKey with
  | none => rfl
  | some stored =>
    by_cases h : stored.metadata.version = o.metadata.version <;> simp [h]

/-! ### What operations write -/

/-- The operation writes the object `o` under `key`. -/
inductive Operation.Writes (s : Store) : Operation → String → Object → Prop
  /-- An object is stored as given, with the status that is stored when it has none. -/
  | put (o : Object) : Writes s (.put o) o.tableKey (revision (s.objects.find? o.tableKey) o)
  /-- A placeholder is changed where nothing is stored. -/
  | create {placeholder o : Object} {change : Change}
      (hnone : s.objects.find? placeholder.tableKey = none) (hchange : change placeholder = .ok o)
      (hkey : o.tableKey = placeholder.tableKey) :
      Writes s (.upsert placeholder change) placeholder.tableKey (o.withVersion 1)
  /-- A stored object is changed, and keeps its status. -/
  | update {placeholder stored o : Object} {change : Change}
      (hfind : s.objects.find? placeholder.tableKey = some stored)
      (hchange : change stored = .ok o) (hkey : o.tableKey = placeholder.tableKey) :
      Writes s (.upsert placeholder change) placeholder.tableKey
        ((updated stored o).withVersion (stored.metadata.version + 1))
  /-- A stored object gets another status. -/
  | status {o stored : Object} (hfind : s.objects.find? o.tableKey = some stored)
      (hversion : stored.metadata.version = o.metadata.version) :
      Writes s (.writeStatus o) o.tableKey
        ({ stored with status := o.status }.withVersion (stored.metadata.version + 1))

/-- An event is folded into the latest of its subject or appended. -/
theorem putEvent_cases (s : Store) (e : Event) :
    (∃ key last, (s.eventsOf e.subject).getLast? = some (key, last) ∧ e.repeats last = true ∧
      s.putEvent e = { s with events := s.events.insert key (last.folded e) }) ∨
    s.putEvent e = s.appendEvent e := by
  rw [putEvent]
  split
  · rename_i key last hlast
    split
    · rename_i hrepeats
      exact .inl ⟨key, last, hlast, hrepeats, rfl⟩
    · exact .inr rfl
  · exact .inr rfl

theorem putEvent_eq (e : Event) (s : Store) : s.putEvent e =
    { s with events := (s.putEvent e).events, sequence := (s.putEvent e).sequence } := by
  rcases s.putEvent_cases e with ⟨key, last, -, -, h⟩ | h
  · rw [h]
  · rw [h, appendEvent]

theorem putTenant_eq (request : TenantRequest) (s : Store) :
    (s.putTenant request).2 = { s with tenants := (s.putTenant request).2.tenants } := by
  by_cases h : s.tenants.contains request.path = true <;> simp [putTenant, h]

/-- Every other operation touches objects only. -/
private theorem Operation.apply_cases (op : Operation) (s : Store) :
    (∃ e, op = .putEvent e) ∨ (∃ request, op = .putTenant request) ∨
      op.apply s = { s with objects := (op.apply s).objects } := by
  cases op with
  | putEvent e => exact .inl ⟨e, rfl⟩
  | putTenant request => exact .inr (.inl ⟨request, rfl⟩)
  | put | delete => exact .inr (.inr rfl)
  | upsert placeholder change =>
    refine .inr (.inr ?_)
    simp only [Operation.apply, upsert_eq]
    split
    · rfl
    · rfl
    · split <;> rfl
  | writeStatus o =>
    refine .inr (.inr ?_)
    simp only [Operation.apply, writeStatus_eq]
    split
    · rfl
    · split <;> rfl

theorem Operation.tenants_apply (op : Operation) (s : Store) :
    (∃ request, op = .putTenant request) ∨ (op.apply s).tenants = s.tenants := by
  rcases op.apply_cases s with ⟨e, rfl⟩ | h | h
  · exact .inr (by rw [Operation.apply, putEvent_eq])
  · exact .inl h
  · exact .inr (by rw [h])

theorem Operation.events_apply (op : Operation) (s : Store) :
    (∃ e, op = .putEvent e) ∨
      ((op.apply s).events = s.events ∧ (op.apply s).sequence = s.sequence) := by
  rcases op.apply_cases s with h | ⟨request, rfl⟩ | h
  · exact .inl h
  · exact .inr (by rw [Operation.apply, putTenant_eq]; exact ⟨rfl, rfl⟩)
  · exact .inr (by rw [h]; exact ⟨rfl, rfl⟩)

/-- An operation leaves all objects as they are, removes one, or writes one. -/
theorem Operation.objects_apply (op : Operation) (s : Store) :
    (op.apply s).objects = s.objects ∨
    (∃ kind key, op = .delete kind key ∧
      (op.apply s).objects = s.objects.erase (tableKey kind key)) ∨
    ∃ key o, op.Writes s key o ∧ (op.apply s).objects = s.objects.insert key o := by
  cases op with
  | put o => exact .inr (.inr ⟨_, _, .put o, rfl⟩)
  | delete kind key => exact .inr (.inl ⟨kind, key, rfl, rfl⟩)
  | putTenant request => exact .inl (by rw [Operation.apply, putTenant_eq])
  | putEvent e => exact .inl (by rw [Operation.apply, putEvent_eq])
  | upsert placeholder change =>
    simp only [Operation.apply, upsert_eq]
    split
    · exact .inl rfl
    · rename_i o hchange hfind
      rw [hfind] at hchange
      obtain ⟨hchange, hkey⟩ := applyChange_eq_ok_iff.mp hchange
      exact .inr (.inr ⟨_, _, .create hfind hchange hkey, rfl⟩)
    · rename_i o stored hchange hfind
      rw [hfind] at hchange
      obtain ⟨hchange, hkey⟩ := applyChange_eq_ok_iff.mp hchange
      split
      · exact .inl rfl
      · exact .inr (.inr ⟨_, _, .update hfind hchange hkey, rfl⟩)
  | writeStatus o =>
    simp only [Operation.apply, writeStatus_eq]
    split
    · exact .inl rfl
    · rename_i stored hfind
      split
      · rename_i hversion
        exact .inr (.inr ⟨_, _, .status hfind hversion, rfl⟩)
      · exact .inl rfl

/-- **The object under a key after an operation** is the one that was there, or was written just
now; or the object was removed. -/
theorem Operation.find?_apply (op : Operation) (s : Store) (key : String) :
    (op.apply s).objects.find? key = s.objects.find? key ∨
    (∃ o, op.Writes s key o ∧ (op.apply s).objects.find? key = some o) ∨
    ∃ kind key', op = .delete kind key' ∧ tableKey kind key' = key ∧
      (op.apply s).objects.find? key = none := by
  rcases op.objects_apply s with h | ⟨kind, key', rfl, h⟩ | ⟨key', o, hwrites, h⟩
  · exact .inl (by rw [h])
  · by_cases hkey : tableKey kind key' = key
    · exact .inr (.inr ⟨kind, key', rfl, hkey, by rw [h, Table.find?_erase, if_pos hkey]⟩)
    · exact .inl (by rw [h, Table.find?_erase, if_neg hkey])
  · by_cases hkey : key' = key
    · subst hkey
      exact .inr (.inl ⟨o, hwrites, by rw [h, Table.find?_insert_self]⟩)
    · exact .inl (by rw [h, Table.find?_insert_ne _ hkey])

/-! ### Objects under their own keys -/

/-- Every object is stored under its own key. -/
def Placed (s : Store) : Prop := ∀ key o, s.objects.find? key = some o → o.tableKey = key

private theorem revision_tableKey (stored? : Option Object) (o : Object) :
    (revision stored? o).tableKey = o.tableKey := by
  cases stored? <;> rfl

theorem Operation.Writes.tableKey {op : Operation} (hs : s.Placed) (h : op.Writes s key o) :
    o.tableKey = key := by
  cases h with
  | put o => exact revision_tableKey _ o
  | create _ _ hkey => exact hkey
  | update _ _ hkey => exact hkey
  | @status o stored hfind _ => exact hs o.tableKey stored hfind

theorem Placed.apply (hs : s.Placed) (op : Operation) : (op.apply s).Placed := by
  intro key o hfind
  rcases op.find?_apply s key with h | ⟨o', hwrites, h⟩ | ⟨_, _, -, -, h⟩
  · exact hs key o (h ▸ hfind)
  · obtain rfl := Option.some.inj (h.symm.trans hfind)
    exact hwrites.tableKey hs
  · rw [h] at hfind
    exact nomatch hfind

/-- In every reachable store each object is under its own key. -/
theorem Reachable.placed (h : s.Reachable) : s.Placed := by
  induction h with
  | empty => exact fun key o hfind => nomatch hfind
  | apply _ op ih => exact ih.apply op

end Converge.Store

import Converge.Proofs.Changes
import Converge.Proofs.Texts

/-!
# Operations on the texts of a store

An operation reads the text that is kept of an object, and writes a text. What it answers, and what
it writes, is what the operation does on the store that is read from the texts. Where the text
cannot be read, it fails, and the text stays.

## Main definitions

* `TextStore.apply`, `TextStore.Reachable`: the operations of a store, on texts, and the stores that
  come about by them.
* `TextStore.Placed`: every object that can be read is kept under its own key.

## Main results

* `TextStore.find?_opened`: the objects of the store that is read.
* `TextStore.revise_cases`: an operation leaves the texts as they are, or writes one.
* `TextStore.objectAt_withObject_self`: what is read after a write.
* `TextStore.upserting_eq_ok_iff`, `TextStore.restating_written`: what becomes of the object that
  was read.
* `TextStore.objects_apply`: what operations write is what they write in the store that is read.
-/

namespace Converge

namespace Object

/-- What is found where the text of the object is kept. -/
def restored (o : Object) : Except StoreError (Option Object) :=
  match o.reread with
  | some o' => .ok (some o')
  | none => .error (.reported .deserialization "malformed text")

variable {o o' : Object}

theorem restored_eq_ok_some_iff : o.restored = .ok (some o') ↔ o.reread = some o' := by
  rw [restored]
  cases o.reread <;> simp

/-- Reading changes nothing but the specification and the status. -/
theorem reread_eq_some_iff : o.reread = some o' ↔
    ∃ spec status, o.spec.reread nestingLimit = some spec ∧
      o.status.reread nestingLimit = some status ∧ o' = { o with spec, status } := by
  simp only [reread, Option.bind_eq_bind, Option.bind_eq_some_iff, Option.pure_def,
    Option.some.injEq]
  constructor
  · rintro ⟨spec, hspec, status, hstatus, rfl⟩
    exact ⟨spec, status, hspec, hstatus, rfl⟩
  · rintro ⟨spec, status, hspec, hstatus, rfl⟩
    exact ⟨spec, hspec, status, hstatus, rfl⟩

theorem reread_of_spec (h : o.spec.reread nestingLimit = none) : o.reread = none := by
  rw [reread, h]
  rfl

private theorem tableKey_of_reread (h : o.reread = some o') : o'.tableKey = o.tableKey := by
  obtain ⟨_, _, -, -, rfl⟩ := reread_eq_some_iff.mp h
  rfl

end Object

namespace TextStore

open Store (Operation Upserted)

variable {α : Type} {t : TextStore} {key key' : String} {o placeholder : Object} {change : Change}
  {revision : Revision α} {stored? written? : Option Object} {outcome : Upserted} {e : StoreError}

/-! ### Reading -/

theorem objectAt_of_find? {text : String} (h : t.objects.find? key = some text) :
    t.objectAt key = (Object.codec.ofText text).map some := by
  rw [objectAt, h]

theorem objectAt_eq_ok_none_iff : t.objectAt key = .ok none ↔ t.objects.find? key = none := by
  rw [objectAt]
  cases t.objects.find? key with
  | none => simp
  | some text => cases h : Object.codec.ofText text <;> simp [Except.map, h]

theorem objectAt_eq_ok_some_iff : t.objectAt key = .ok (some o) ↔
    ∃ text, t.objects.find? key = some text ∧ Object.codec.ofText text = .ok o := by
  rw [objectAt]
  cases t.objects.find? key with
  | none => simp
  | some text => cases h : Object.codec.ofText text <;> simp [Except.map, h]

private theorem objectAt_congr {t' : TextStore} (h : t'.objects.find? key = t.objects.find? key) :
    t'.objectAt key = t.objectAt key := by
  rw [objectAt, objectAt, h]

/-- **What is read after a write.** -/
theorem objectAt_withObject_self (t : TextStore) (key : String) (o : Object) :
    (t.withObject key o).objectAt key = o.restored := by
  rw [objectAt_of_find? (Table.find?_insert_self _ _ _), Object.ofText_toText, Object.restored]
  cases o.reread <;> rfl

theorem objectAt_withObject_ne (hne : key ≠ key') (o : Object) :
    (t.withObject key o).objectAt key' = t.objectAt key' :=
  objectAt_congr (Table.find?_insert_ne _ hne _)

/-- The objects of the store that is read are those that can be read. -/
theorem find?_opened : t.opened.objects.find? key = some o ↔ t.objectAt key = .ok (some o) := by
  rw [opened, Table.find?_filterMap, Option.bind_eq_some_iff, objectAt_eq_ok_some_iff]
  refine exists_congr fun text => and_congr_right fun _ => ?_
  cases Object.codec.ofText text <;> simp [Except.toOption]

theorem find?_opened_iff : t.opened.objects.find? key = some o ↔
    ∃ text, t.objects.find? key = some text ∧ Object.codec.ofText text = .ok o :=
  find?_opened.trans objectAt_eq_ok_some_iff

theorem find?_opened_of_ok (h : t.objectAt key = .ok stored?) :
    t.opened.objects.find? key = stored? := by
  cases stored? with
  | some o => exact find?_opened.mpr h
  | none =>
    rw [opened, Table.find?_filterMap, objectAt_eq_ok_none_iff.mp h]
    rfl

/-! ### Revisions -/

/-- Where the text cannot be read, nothing is done. -/
theorem revise_of_error (h : t.objectAt key = .error e) : t.revise key revision =
    (.error e, t) := by
  simp only [revise, h]
  rfl

/-- Where it can be read, what is written is what becomes of the object. -/
theorem revise_of_ok (h : t.objectAt key = .ok stored?) : t.revise key revision =
    match revision stored? with
    | .ok (a, some o) => (.ok a, t.withObject key o)
    | .ok (a, none) => (.ok a, t)
    | .error e => (.error e, t) := by
  simp only [revise, h]
  rfl

/-- An operation fails when the text cannot be read, or over what is read. -/
theorem revise_eq_error_iff : (t.revise key revision).1 = .error e ↔ t.objectAt key = .error e ∨
    ∃ stored?, t.objectAt key = .ok stored? ∧ revision stored? = .error e := by
  cases hread : t.objectAt key with
  | error e' => simp [revise_of_error hread]
  | ok stored? =>
    rw [revise_of_ok hread]
    match hrevision : revision stored? with
    | .error e' => simp [hrevision]
    | .ok (a, none) => simp [hrevision]
    | .ok (a, some o) => simp [hrevision]

theorem revise_eq_error (h : (t.revise key revision).1 = .error e) :
    t.revise key revision = (.error e, t) := by
  rcases revise_eq_error_iff.mp h with hread | ⟨stored?, hread, hrevision⟩
  · exact revise_of_error hread
  · rw [revise_of_ok hread, hrevision]

/-- **An operation on an object** leaves the texts as they are, or writes what becomes of it. -/
theorem revise_cases (t : TextStore) (key : String) (revision : Revision α) :
    (t.revise key revision).2 = t ∨ ∃ stored? a o, t.objectAt key = .ok stored? ∧
      revision stored? = .ok (a, some o) ∧ (t.revise key revision).2 = t.withObject key o := by
  cases hread : t.objectAt key with
  | error e => exact .inl (by rw [revise_of_error hread])
  | ok stored? =>
    rw [revise_of_ok hread]
    match hrevision : revision stored? with
    | .error e => exact .inl rfl
    | .ok (a, none) => exact .inl rfl
    | .ok (a, some o) => exact .inr ⟨stored?, a, o, rfl, hrevision, rfl⟩

/-- The change is applied first. -/
theorem upserting_eq (placeholder : Object) (change : Change) (stored? : Option Object) :
    upserting placeholder change stored? =
      match Store.applyChange placeholder.tableKey change (stored?.getD placeholder), stored? with
      | .error e, _ => .error e
      | .ok o, none => .ok (.created, some (o.withVersion 1))
      | .ok o, some stored =>
        if (Store.updated stored o).same stored then .ok (.unchanged, none)
        else .ok (.updated, some ((Store.updated stored o).withVersion
          (stored.metadata.version + 1))) := by
  cases stored? with
  | none =>
    simp only [upserting, Option.getD_none]
    cases Store.applyChange placeholder.tableKey change placeholder <;> rfl
  | some stored =>
    simp only [upserting, Option.getD_some]
    cases Store.applyChange placeholder.tableKey change stored <;> rfl

theorem upserting_eq_error_iff : upserting placeholder change stored? = .error e ↔
    Store.applyChange placeholder.tableKey change (stored?.getD placeholder) = .error e := by
  rw [upserting_eq]
  cases Store.applyChange placeholder.tableKey change (stored?.getD placeholder) with
  | error e' => simp
  | ok o =>
    cases stored? with
    | none => simp
    | some stored =>
      simp only [reduceCtorEq, iff_false]
      split <;> simp

theorem upserting_eq_ok_iff : upserting placeholder change stored? = .ok (outcome, written?) ↔
    ∃ o, change (stored?.getD placeholder) = .ok o ∧ o.tableKey = placeholder.tableKey ∧
      match stored? with
      | none => outcome = .created ∧ written? = some (o.withVersion 1)
      | some stored =>
        (o.Agrees stored ∧ outcome = .unchanged ∧ written? = none) ∨
        (¬ o.Agrees stored ∧ outcome = .updated ∧ written? =
          some ({ o with status := stored.status }.withVersion (stored.metadata.version + 1))) := by
  have hpair {a : Upserted} {w? : Option Object} :
      (.ok (a, w?) : Except StoreError (Upserted × Option Object)) = .ok (outcome, written?) ↔
        outcome = a ∧ written? = w? := by
    rw [Except.ok.injEq, Prod.mk.injEq, eq_comm, @eq_comm _ w?]
  rw [upserting_eq]
  cases happly : Store.applyChange placeholder.tableKey change (stored?.getD placeholder) with
  | error e =>
    constructor
    · exact nofun
    · rintro ⟨o, hchange, hkey, -⟩
      exact nomatch happly.symm.trans (Store.applyChange_eq_ok_iff.mpr ⟨hchange, hkey⟩)
  | ok o =>
    obtain ⟨hchange, hkey⟩ := Store.applyChange_eq_ok_iff.mp happly
    simp only [hchange, Except.ok.injEq, exists_eq_left', hkey, true_and]
    cases stored? with
    | none => exact hpair
    | some stored =>
      by_cases hagrees : o.Agrees stored
      · simp only [Object.updated_same_iff.mpr hagrees, if_true, hagrees, not_true_eq_false,
          true_and, false_and, or_false]
        exact hpair
      · simp only [mt Object.updated_same_iff.mp hagrees, hagrees, not_false_eq_true,
          true_and, false_and, false_or]
        exact hpair

theorem restating_written {w : Object} {version : UInt64}
    (h : restating w stored? = .ok (version, some o)) :
    ∃ stored, stored? = some stored ∧ stored.metadata.version = w.metadata.version ∧
      o = { stored with status := w.status }.withVersion (stored.metadata.version + 1) := by
  cases stored? with
  | none => cases h
  | some stored =>
    simp only [restating] at h
    split at h
    · cases h
    · rename_i hversion
      obtain ⟨-, heq⟩ := Prod.mk.inj (Except.ok.inj h)
      exact ⟨stored, rfl, not_ne_iff.mp hversion, (Option.some.inj heq).symm⟩

/-! ### Operations -/

/-- The texts after an operation, which may have failed. -/
def apply (t : TextStore) : Operation → TextStore
  | .put o => (t.put o).2
  | .delete kind key => (t.delete kind key).2
  | .upsert placeholder change => (t.upsert placeholder change).2
  | .writeStatus o => (t.writeStatus o).2
  | .putTenant request => (t.putTenant request).2
  | .putEvent e => t.putEvent e

/-- The texts that come about by operations, in any order, from the empty store. -/
inductive Reachable : TextStore → Prop
  | empty : Reachable ∅
  | apply {t : TextStore} (h : Reachable t) (op : Operation) : Reachable (t.apply op)

theorem Reachable.foldl (h : t.Reachable) (ops : List Operation) :
    (ops.foldl TextStore.apply t).Reachable := by
  induction ops generalizing t with
  | nil => exact h
  | cons op ops ih => exact ih (h.apply op)

private theorem writes_putting {s : Store} {w : Object} {version : UInt64}
    (h : putting w (s.objects.find? w.tableKey) = .ok (version, some o)) :
    (Operation.put w).Writes s w.tableKey o := by
  obtain ⟨-, heq⟩ := Prod.mk.inj (Except.ok.inj h)
  obtain rfl := Option.some.inj heq
  exact .put w

private theorem writes_upserting {s : Store}
    (h : upserting placeholder change (s.objects.find? placeholder.tableKey) =
      .ok (outcome, some o)) :
    (Operation.upsert placeholder change).Writes s placeholder.tableKey o := by
  obtain ⟨o', hchange, hkey, hwritten⟩ := upserting_eq_ok_iff.mp h
  cases hfind : s.objects.find? placeholder.tableKey with
  | none =>
    rw [hfind] at hchange hwritten
    obtain rfl := Option.some.inj hwritten.2
    exact .create hfind hchange hkey
  | some stored =>
    rw [hfind] at hchange hwritten
    rcases hwritten with ⟨-, -, heq⟩ | ⟨-, -, heq⟩
    · cases heq
    · obtain rfl := Option.some.inj heq
      exact .update hfind hchange hkey

private theorem writes_restating {s : Store} {w : Object} {version : UInt64}
    (h : restating w (s.objects.find? w.tableKey) = .ok (version, some o)) :
    (Operation.writeStatus w).Writes s w.tableKey o := by
  obtain ⟨stored, hfind, hversion, rfl⟩ := restating_written h
  exact .status hfind hversion

private theorem objects_revise {op : Operation}
    (h : ∀ {a o}, revision (t.opened.objects.find? key) = .ok (a, some o) →
      op.Writes t.opened key o) :
    (t.revise key revision).2.objects = t.objects ∨
      ∃ o, (∃ stored?, t.objectAt key = .ok stored?) ∧ op.Writes t.opened key o ∧
        (t.revise key revision).2.objects = t.objects.insert key (Object.codec.toText o) := by
  rcases t.revise_cases key revision with heq | ⟨stored?, a, o, hread, hrevision, heq⟩
  · exact .inl (congrArg objects heq)
  · rw [← find?_opened_of_ok hread] at hrevision
    exact .inr ⟨o, ⟨stored?, hread⟩, h hrevision, congrArg objects heq⟩

/-- **What operations write** is what they write in the store that is read, and they write only
where they can read. -/
theorem objects_apply (t : TextStore) (op : Operation) :
    (t.apply op).objects = t.objects ∨
    (∃ kind key, op = .delete kind key ∧
      (t.apply op).objects = t.objects.erase (tableKey kind key)) ∨
    ∃ key o, (∃ stored?, t.objectAt key = .ok stored?) ∧ op.Writes t.opened key o ∧
      (t.apply op).objects = t.objects.insert key (Object.codec.toText o) := by
  cases op with
  | delete kind key => exact .inr (.inl ⟨kind, key, rfl, rfl⟩)
  | putTenant | putEvent => exact .inl rfl
  | put o => exact (objects_revise writes_putting).imp_right fun h => .inr ⟨_, h⟩
  | upsert placeholder change =>
    exact (objects_revise writes_upserting).imp_right fun h => .inr ⟨_, h⟩
  | writeStatus o => exact (objects_revise writes_restating).imp_right fun h => .inr ⟨_, h⟩

private theorem tenants_revise (t : TextStore) (key : String) (revision : Revision α) :
    (t.revise key revision).2.tenants = t.tenants := by
  rcases t.revise_cases key revision with h | ⟨_, _, _, -, -, h⟩
  · rw [h]
  · rw [h]
    rfl

theorem tenants_apply (t : TextStore) (op : Operation) :
    (∃ request, op = .putTenant request) ∨ (t.apply op).tenants = t.tenants := by
  cases op with
  | putTenant request => exact .inl ⟨request, rfl⟩
  | delete => exact .inr rfl
  | put | upsert | writeStatus => exact .inr (t.tenants_revise _ _)
  | putEvent e =>
    refine .inr ?_
    rw [apply, putEvent, Store.putEvent_eq]
    rfl

/-! ### Objects under their own keys -/

/-- Every object that can be read is kept under its own key. -/
def Placed (t : TextStore) : Prop := ∀ key o, t.objectAt key = .ok (some o) → o.tableKey = key

theorem Placed.opened (h : t.Placed) : t.opened.Placed := fun key o hfind =>
  h key o (find?_opened.mp hfind)

theorem Placed.withObject (h : t.Placed) (hkey : o.tableKey = key) :
    (t.withObject key o).Placed := by
  intro key' o' hread
  by_cases hne : key = key'
  · subst hne
    rw [objectAt_withObject_self, Object.restored_eq_ok_some_iff] at hread
    exact (Object.tableKey_of_reread hread).trans hkey
  · exact h key' o' ((objectAt_withObject_ne hne o).symm.trans hread)

theorem Placed.of_objects {t' : TextStore} (h : t.Placed) (hobjects : t'.objects = t.objects) :
    t'.Placed := fun key o hread =>
  h key o ((objectAt_congr (congrArg (·.find? key) hobjects)).symm.trans hread)

theorem Placed.apply (h : t.Placed) (op : Operation) : (t.apply op).Placed := by
  rcases t.objects_apply op with hobjects | ⟨kind, key, -, hobjects⟩ |
    ⟨key, o, -, hwrites, hobjects⟩
  · exact h.of_objects hobjects
  · intro key' o hread
    obtain ⟨text, hfind, htext⟩ := objectAt_eq_ok_some_iff.mp hread
    rw [hobjects, Table.find?_erase] at hfind
    split at hfind
    · exact nomatch hfind
    · exact h key' o (objectAt_eq_ok_some_iff.mpr ⟨text, hfind, htext⟩)
  · exact (h.withObject (hwrites.tableKey h.opened)).of_objects hobjects

theorem Reachable.placed (h : t.Reachable) : t.Placed := by
  induction h with
  | empty => exact fun key o hread => nomatch hread
  | apply _ op ih => exact ih.apply op

end TextStore

end Converge

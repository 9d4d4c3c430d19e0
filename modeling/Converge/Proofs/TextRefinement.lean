import Converge.Proofs.Identity
import Converge.Proofs.StandardCatalog
import Converge.Proofs.Steps
import Converge.Proofs.TextOperations

/-!
# Texts and values

A store whose objects are kept as texts does what the store does that is read from them, as long as
the object in question can be read. If that store only holds values that are read as they are, and
what is written are such values, then the texts stay those of the store, operation by operation and
call by call, and all answers are the same. So it is for passes with the standard catalog, which
write nothing else: whatever is proved of passes over values holds of passes over texts.

## Main definitions

* `Store.revise`: an operation on one object of a store.
* `TextStore.Readable`: the object that an operation is about can be read.
* `TextStore.ofStore`: the texts of a store.
* `Store.Steady`: stores whose objects are read as they are.

## Main results

* `TextStore.revise_eq_saved`, `TextStore.apply_eq_saved`: an operation on texts is one on the store
  that is read from them.
* `TextStore.apply_ofStore`: an operation on the texts of a store.
* `Program.run_ofStore`, `Reconciler.reconcile_ofStore`: a run, and a pass, over such texts.
-/

namespace Converge

open TextStore (Revision putting upserting restating)
open Store (Operation)

/-! ### Operations on one object -/

namespace Store

variable {α : Type} {s : Store}

/-- Find the object under a table key, and store what a revision makes of it. -/
def revise (key : String) (revision : Revision α) : Action α := fun s =>
  match revision (s.objects.find? key) with
  | .ok (a, some o) => (.ok a, s.withObject key o)
  | .ok (a, none) => (.ok a, s)
  | .error e => (.error e, s)

theorem put_eq_revise (o : Object) (s : Store) :
    s.revise o.tableKey (putting o) = (.ok (s.put o).1, (s.put o).2) := rfl

private theorem upsert_eq_revise (placeholder : Object) (change : Change) (s : Store) :
    s.upsert placeholder change = s.revise placeholder.tableKey (upserting placeholder change) := by
  rw [upsert_eq, revise, TextStore.upserting_eq]
  cases s.objects.find? placeholder.tableKey with
  | none => cases applyChange placeholder.tableKey change (Option.none.getD placeholder) <;> rfl
  | some stored =>
    cases applyChange placeholder.tableKey change ((some stored).getD placeholder) with
    | error e => rfl
    | ok o =>
      dsimp only
      split <;> rfl

private theorem writeStatus_eq_revise (o : Object) (s : Store) :
    s.writeStatus o = s.revise o.tableKey (restating o) := by
  rw [writeStatus_eq, revise]
  cases s.objects.find? o.tableKey with
  | none => rfl
  | some stored =>
    simp only [restating]
    by_cases hversion : stored.metadata.version = o.metadata.version <;> simp [hversion]

/-- The registration of a tenant does not depend on the objects. -/
theorem putTenant_of_objects (request : TenantRequest) (s : Store) (objects : Table Object) :
    ({ s with objects }.putTenant request).2 = { (s.putTenant request).2 with objects } := by
  simp only [putTenant]
  split <;> rfl

/-- The recording of an event does not depend on the objects. -/
theorem putEvent_of_objects (e : Event) (s : Store) (objects : Table Object) :
    { s with objects }.putEvent e = { s.putEvent e with objects } := by
  have hevents : eventsOf { s with objects } e.subject = s.eventsOf e.subject := rfl
  rw [putEvent, putEvent, hevents]
  split
  · split <;> rfl
  · rfl

/-- Whatever is written has another version than what was there. -/
def Raises (revision : Revision α) : Prop :=
  ∀ stored a o, revision (some stored) = .ok (a, some o) →
    o.metadata.version = stored.metadata.version + 1

private theorem raises_putting (o : Object) : Raises (putting o) := by
  rintro stored a _ h
  obtain ⟨-, heq⟩ := Prod.mk.inj (Except.ok.inj h)
  rw [← Option.some.inj heq]
  rfl

private theorem raises_upserting (placeholder : Object) (change : Change) :
    Raises (upserting placeholder change) := by
  intro stored a o h
  obtain ⟨_, -, -, ⟨-, -, heq⟩ | ⟨-, -, heq⟩⟩ := TextStore.upserting_eq_ok_iff.mp h
  · cases heq
  · rw [Option.some.inj heq]
    rfl

private theorem raises_restating (o : Object) : Raises (restating o) := by
  intro stored version o' h
  obtain ⟨_, heq, -, rfl⟩ := TextStore.restating_written h
  rw [Option.some.inj heq]
  rfl

end Store

private theorem Object.not_same_of_version {o stored : Object}
    (h : o.metadata.version = stored.metadata.version + 1) : ¬ o.same stored = true := by
  intro hsame
  simp only [same, Bool.and_eq_true, beq_iff_eq] at hsame
  rw [hsame.1.1.2] at h
  have hnat := congrArg UInt64.toNat h
  rw [UInt64.toNat_add, UInt64.toNat_one] at hnat
  omega

/-! ### The store that is read, and its texts -/

namespace TextStore

variable {α : Type} {t : TextStore} {s : Store} {key : String} {o : Object} {text : String}
  {stored? : Option Object} {revision : Revision α} {op : Operation}

/-- What is kept under a key when a store was saved: the new text of an object that has changed, and
otherwise the text that was there, unless the object was removed. -/
theorem find?_saved (t : TextStore) (s : Store) (key : String) :
    (t.saved s).objects.find? key =
      match s.objects.find? key with
      | some o => if (t.opened.objects.find? key).any o.same then t.objects.find? key
        else some (Object.codec.toText o)
      | none => (t.objects.find? key).filter fun text => !(Object.codec.ofText text).toBool := by
  rw [saved, Table.find?_union, Table.find?_map, Table.find?_filter, Table.find?_filter]
  cases hfind : s.objects.find? key with
  | none => simp [Table.contains, hfind]
  | some o =>
    by_cases hsame : (t.opened.objects.find? key).any o.same = true
    · cases t.objects.find? key <;> simp [Table.contains, hfind, hsame, Option.filter]
    · simp [hsame, Option.filter]

private theorem find?_saved_of_eq (h : s.objects.find? key = t.opened.objects.find? key) :
    (t.saved s).objects.find? key = t.objects.find? key := by
  rw [find?_saved, h]
  cases hfind : t.opened.objects.find? key with
  | some o => simp [o.same_self]
  | none =>
    rw [opened, Table.find?_filterMap] at hfind
    cases htext : t.objects.find? key with
    | none => rfl
    | some text =>
      rw [htext] at hfind
      cases hread : Object.codec.ofText text with
      | ok o => simp [hread, Except.toOption] at hfind
      | error e => simp [hread, Except.toBool]

private theorem saved_eq {texts : Table String} (h : (t.saved s).objects = texts) :
    t.saved s = { t.withRegistry s with objects := texts } := by
  rw [← h]
  rfl

/-- Where only one object is another than was read, only one text is. -/
private theorem saved_objects_eq (key : String) {texts : Table String}
    (hself : (t.saved s).objects.find? key = texts.find? key)
    (hothers : ∀ k, key ≠ k → s.objects.find? k = t.opened.objects.find? k ∧
      texts.find? k = t.objects.find? k) :
    (t.saved s).objects = texts := by
  refine Table.ext_find? fun k => ?_
  by_cases hk : key = k
  · rw [← hk, hself]
  · rw [find?_saved_of_eq (hothers k hk).1, (hothers k hk).2]

private theorem saved_of_objects (h : s.objects = t.opened.objects) :
    t.saved s = t.withRegistry s := by
  have hobjects : (t.saved s).objects = t.objects :=
    Table.ext_find? fun k => find?_saved_of_eq (by rw [h])
  exact saved_eq hobjects

private theorem saved_opened (t : TextStore) : t.saved t.opened = t := saved_of_objects rfl

/-- **An operation on one object** whose text can be read is the operation on the store that is
read, and the texts of what comes of it. -/
theorem revise_eq_saved (hraises : Store.Raises revision) (hread : t.objectAt key = .ok stored?) :
    t.revise key revision =
      ((t.opened.revise key revision).1, t.saved (t.opened.revise key revision).2) := by
  have hfind := find?_opened_of_ok hread
  rw [revise_of_ok hread, Store.revise, hfind]
  match hrevision : revision stored? with
  | .error e => exact Prod.ext rfl t.saved_opened.symm
  | .ok (a, none) => exact Prod.ext rfl t.saved_opened.symm
  | .ok (a, some o) =>
    have hdiffers : ¬ (t.opened.objects.find? key).any o.same = true := by
      rw [hfind]
      cases stored? with
      | none => simp
      | some stored => exact Object.not_same_of_version (hraises stored a o hrevision)
    have hobjects : (t.saved (t.opened.withObject key o)).objects =
        t.objects.insert key (Object.codec.toText o) := by
      refine saved_objects_eq key ?_ fun k hk =>
        ⟨Table.find?_insert_ne _ hk _, Table.find?_insert_ne _ hk _⟩
      rw [find?_saved, Store.withObject, Table.find?_insert_self, Table.find?_insert_self]
      exact if_neg hdiffers
    exact Prod.ext rfl (saved_eq hobjects).symm

/-- The object that an operation is about can be read, or there is none. -/
def Readable (t : TextStore) (op : Operation) : Prop :=
  ∀ kind key, op.target? = some (kind, key) → ∃ stored?, t.find? kind key = .ok stored?

/-- **Operations on texts.** An operation on an object that can be read, or on something else, is
the operation on the store that is read, and the texts of what comes of it. -/
theorem apply_eq_saved (h : t.Readable op) : t.apply op = t.saved (op.apply t.opened) := by
  cases op with
  | put o =>
    obtain ⟨stored?, hread⟩ := h _ _ rfl
    exact congrArg Prod.snd (revise_eq_saved (Store.raises_putting o) hread)
  | upsert placeholder change =>
    obtain ⟨stored?, hread⟩ := h _ _ rfl
    rw [Operation.apply, Store.upsert_eq_revise]
    exact congrArg Prod.snd (revise_eq_saved (Store.raises_upserting placeholder change) hread)
  | writeStatus o =>
    obtain ⟨stored?, hread⟩ := h _ _ rfl
    rw [Operation.apply, Store.writeStatus_eq_revise]
    exact congrArg Prod.snd (revise_eq_saved (Store.raises_restating o) hread)
  | delete kind key =>
    obtain ⟨stored?, hread⟩ := h _ _ rfl
    have hobjects : (t.saved ((Operation.delete kind key).apply t.opened)).objects =
        t.objects.erase (tableKey kind key) := by
      have hothers : ∀ {α : Type} (objects : Table α) k, tableKey kind key ≠ k →
          (objects.erase (tableKey kind key)).find? k = objects.find? k := fun objects k hk => by
        rw [Table.find?_erase, if_neg hk]
      refine saved_objects_eq (tableKey kind key) ?_ fun k hk =>
        ⟨hothers _ k hk, hothers _ k hk⟩
      rw [find?_saved, Operation.apply, Store.delete, Table.find?_erase, Table.find?_erase,
        if_pos rfl, if_pos rfl]
      -- A text that can be read is not kept.
      cases htext : t.objects.find? (tableKey kind key) with
      | none => rfl
      | some text =>
        rw [find?, objectAt_of_find? htext] at hread
        cases hof : Object.codec.ofText text with
        | ok o => simp [hof, Except.toBool]
        | error e =>
          rw [hof] at hread
          cases hread
    exact (saved_eq hobjects).symm
  | putTenant request =>
    have hobjects : (t.opened.putTenant request).2.objects = t.opened.objects := by
      rw [Store.putTenant_eq]
    rw [Operation.apply, saved_of_objects hobjects, opened, Store.putTenant_of_objects]
    rfl
  | putEvent e =>
    have hobjects : (t.opened.putEvent e).objects = t.opened.objects := by rw [Store.putEvent_eq]
    rw [Operation.apply, saved_of_objects hobjects, opened, Store.putEvent_of_objects]
    rfl

/-! ### Stores that are read as they are -/

/-- The texts of a store. -/
def ofStore (s : Store) : TextStore where
  objects := s.objects.map Object.codec.toText
  tenants := s.tenants
  events := s.events
  sequence := s.sequence

end TextStore

namespace Object

variable {o : Object}

/-- Only the specification and the status count. -/
theorem steady_iff : o.Steady ↔
    o.spec.reread nestingLimit = some o.spec ∧ o.status.reread nestingLimit = some o.status := by
  rw [Steady, reread_eq_some_iff]
  constructor
  · rintro ⟨spec, status, hspec, hstatus, heq⟩
    obtain rfl : o.spec = spec := congrArg Object.spec heq
    obtain rfl : o.status = status := congrArg Object.status heq
    exact ⟨hspec, hstatus⟩
  · rintro ⟨hspec, hstatus⟩
    exact ⟨_, _, hspec, hstatus, rfl⟩

theorem steady_empty (kind : String) (key : ObjectKey) : (Object.empty kind key).Steady :=
  steady_iff.mpr ⟨rfl, rfl⟩

end Object

namespace Store

/-- All objects are read as they are. -/
def Steady (s : Store) : Prop := ∀ key o, s.objects.find? key = some o → o.Steady

variable {α : Type} {s : Store} {op : Operation} {key : String} {o : Object}

/-- A store stays so when an operation writes nothing else. -/
theorem Steady.apply (hs : s.Steady) (op : Operation)
    (hop : ∀ key o, op.Writes s key o → o.Steady) :
    (op.apply s).Steady := by
  intro key o hfind
  rcases op.find?_apply s key with h | ⟨o', hwrites, h⟩ | ⟨_, _, -, -, h⟩
  · exact hs key o (h ▸ hfind)
  · obtain rfl := Option.some.inj (h.symm.trans hfind)
    exact hop key o' hwrites
  · rw [h] at hfind
    exact nomatch hfind

end Store

namespace TextStore

variable {α : Type} {s : Store} {key : String}

theorem objectAt_ofStore (hs : s.Steady) (key : String) :
    (ofStore s).objectAt key = .ok (s.objects.find? key) := by
  cases hfind : s.objects.find? key with
  | none => exact objectAt_eq_ok_none_iff.mpr (by rw [ofStore, Table.find?_map, hfind]; rfl)
  | some o =>
    refine objectAt_eq_ok_some_iff.mpr ⟨Object.codec.toText o, ?_, ?_⟩
    · rw [ofStore, Table.find?_map, hfind]
      rfl
    · rw [Object.ofText_toText, hs key o hfind]

/-- The store that is read from its own texts. -/
theorem opened_ofStore (hs : s.Steady) : (ofStore s).opened = s := by
  have hobjects : (ofStore s).opened.objects = s.objects :=
    Table.ext_find? fun key => find?_opened_of_ok (objectAt_ofStore hs key)
  calc (ofStore s).opened = { s with objects := (ofStore s).opened.objects } := rfl
    _ = s := by rw [hobjects]

theorem withObject_ofStore (s : Store) (key : String) (o : Object) :
    (ofStore s).withObject key o = ofStore (s.withObject key o) := by
  simp only [withObject, Store.withObject, ofStore, Table.map_insert]

theorem revise_ofStore (hs : s.Steady) (key : String) (revision : Revision α) :
    (ofStore s).revise key revision =
      ((s.revise key revision).1, ofStore (s.revise key revision).2) := by
  rw [revise_of_ok (objectAt_ofStore hs key), Store.revise]
  match revision (s.objects.find? key) with
  | .error e => rfl
  | .ok (a, none) => rfl
  | .ok (a, some o) => exact Prod.ext rfl (withObject_ofStore s key o)

private theorem withRegistry_ofStore {s' : Store} (h : s'.objects = s.objects) :
    (ofStore s).withRegistry { s' with objects := ∅ } = ofStore s' := by
  simp only [withRegistry, ofStore, h]

theorem putTenant_ofStore (request : TenantRequest) (s : Store) :
    ((ofStore s).putTenant request).2 = ofStore (s.putTenant request).2 := by
  have hobjects : (s.putTenant request).2.objects = s.objects := by rw [Store.putTenant_eq]
  rw [← withRegistry_ofStore hobjects, ← Store.putTenant_of_objects]
  rfl

theorem putEvent_ofStore (e : Event) (s : Store) :
    (ofStore s).putEvent e = ofStore (s.putEvent e) := by
  have hobjects : (s.putEvent e).objects = s.objects := by rw [Store.putEvent_eq]
  rw [← withRegistry_ofStore hobjects, ← Store.putEvent_of_objects]
  rfl

/-- **Operations on the texts of a store.** -/
theorem apply_ofStore (hs : s.Steady) (op : Operation) :
    (ofStore s).apply op = ofStore (op.apply s) := by
  cases op with
  | put o => exact congrArg Prod.snd (revise_ofStore hs o.tableKey (putting o))
  | upsert placeholder change =>
    rw [Operation.apply, Store.upsert_eq_revise]
    exact congrArg Prod.snd (revise_ofStore hs _ _)
  | writeStatus o =>
    rw [Operation.apply, Store.writeStatus_eq_revise]
    exact congrArg Prod.snd (revise_ofStore hs _ _)
  | delete kind key =>
    simp only [apply, delete, Operation.apply, Store.delete, ofStore, Table.map_erase]
  | putTenant request => exact putTenant_ofStore request s
  | putEvent e => exact putEvent_ofStore e s

end TextStore

/-! ### Passes over texts -/

/-- What a call writes into a store whose objects are read as they are is read as it is. -/
def Program.Invocation.Steady : Program.Invocation → Prop
  | .upsert placeholder change => placeholder.Steady ∧
    ∀ o o', o.Steady → change o = .ok o' → o'.Steady
  | .writeStatus o => o.status.reread Object.nestingLimit = some o.status
  | .get .. | .record _ | .provision _ => True

namespace Store

variable {s : Store} {o placeholder : Object} {change : Change}

theorem Steady.upsert (hs : s.Steady)
    (h : (Program.Invocation.upsert placeholder change).Steady) :
    (s.upsert placeholder change).2.Steady := by
  refine hs.apply (.upsert placeholder change) fun key o' hwrites => ?_
  cases hwrites with
  | @create _ o _ _ hchange _ =>
    obtain ⟨hspec, hstatus⟩ := Object.steady_iff.mp (h.2 _ _ h.1 hchange)
    exact Object.steady_iff.mpr ⟨hspec, hstatus⟩
  | @update _ stored o _ hfind hchange _ =>
    have hstored := hs _ _ hfind
    exact Object.steady_iff.mpr ⟨(Object.steady_iff.mp (h.2 _ _ hstored hchange)).1,
      (Object.steady_iff.mp hstored).2⟩

theorem Steady.writeStatus (hs : s.Steady) (h : (Program.Invocation.writeStatus o).Steady) :
    (s.writeStatus o).2.Steady := by
  refine hs.apply (.writeStatus o) fun key o' hwrites => ?_
  cases hwrites with
  | @status _ stored hfind _ =>
    exact Object.steady_iff.mpr ⟨(Object.steady_iff.mp (hs _ _ hfind)).1, h⟩

theorem Steady.of_objects {s' : Store} (hs : s.Steady) (h : s'.objects = s.objects) : s'.Steady :=
  fun key o hfind => hs key o (h ▸ hfind)

end Store

/-- **A run over texts.** A program all of whose calls write what is read as it is runs over the
texts of a store as over the store. -/
theorem Program.run_ofStore {α : Type} {p : Program α} {s : Store} (hs : s.Steady) (now : UInt64)
    (hp : ∀ t c, p.Makes t c → c.Steady) :
    (p.run (Store.collaborators now) s).2.Steady ∧
    p.run (TextStore.collaborators now) (TextStore.ofStore s) =
      ((p.run (Store.collaborators now) s).1,
        TextStore.ofStore (p.run (Store.collaborators now) s).2) := by
  induction p generalizing s with
  | done a => exact ⟨hs, rfl⟩
  | get kind key next ih =>
    have hget : (TextStore.ofStore s).find? kind key = .ok (s.find? kind key) :=
      TextStore.objectAt_ofStore hs (tableKey kind key)
    simp only [run, TextStore.collaborators, hget]
    exact ih _ hs fun t c h => hp (_ :: t) c (.inr ⟨_, t, rfl, h⟩)
  | upsert placeholder change next ih =>
    have hupsert := TextStore.revise_ofStore hs placeholder.tableKey
      (TextStore.upserting placeholder change)
    rw [← Store.upsert_eq_revise] at hupsert
    have hcall := hp [] _ (.inl ⟨rfl, rfl⟩)
    have hnext := ih (s.upsert placeholder change).1 (hs.upsert hcall) fun t c h =>
      hp (_ :: t) c (.inr ⟨_, t, rfl, h⟩)
    refine ⟨hnext.1, ?_⟩
    simp only [run, TextStore.collaborators, TextStore.upsert, hupsert]
    exact hnext.2
  | writeStatus o next ih =>
    have hwrite := TextStore.revise_ofStore hs o.tableKey (TextStore.restating o)
    rw [← Store.writeStatus_eq_revise] at hwrite
    have hcall := hp [] _ (.inl ⟨rfl, rfl⟩)
    have hnext := ih ((s.writeStatus o).1.map fun _ => ()) (hs.writeStatus hcall) fun t c h =>
      hp (_ :: t) c (.inr ⟨_, t, rfl, h⟩)
    refine ⟨hnext.1, ?_⟩
    simp only [run, TextStore.collaborators, TextStore.writeStatus, hwrite]
    exact hnext.2
  | record notice next ih =>
    have hobjects : (s.record notice now).objects = s.objects := by
      rw [Store.record, Store.putEvent_eq]
    have hnext := ih (hs.of_objects hobjects) fun t c h => hp (_ :: t) c (.inr ⟨t, rfl, h⟩)
    refine ⟨hnext.1, ?_⟩
    simp only [run, TextStore.collaborators, TextStore.record, TextStore.putEvent_ofStore]
    exact hnext.2
  | provision request next ih =>
    have hobjects : (s.putTenant request).2.objects = s.objects := by rw [Store.putTenant_eq]
    have hnext := ih (.ok ()) (hs.of_objects hobjects) fun t c h =>
      hp (_ :: t) c (.inr ⟨_, t, rfl, h⟩)
    refine ⟨hnext.1, ?_⟩
    simp only [run, TextStore.collaborators, TextStore.putTenant_ofStore]
    exact hnext.2

namespace Catalog

variable {a : Aggregate} {b : Builder}

private theorem serviceSpec_plain (port : UInt16) (labels : Table String) :
    (serviceSpec port labels).Plain 4 := by
  have hport : (Json.int port.toNat).Plain 1 := .int (by omega) (by have := port.toNat_lt; omega)
  have hports :
      (Json.arr [.ofMembers [("name", .str "grpc"), ("port", .int port.toNat)]]).Plain 3 :=
    .arr (List.forall_mem_singleton.mpr (.ofMembers (by simpa using ⟨.str "grpc", hport⟩)))
  have hlabels : (Codec.texts.encode labels).Plain 1 :=
    Codec.table_writesPlain Codec.string_writesPlain labels
  exact .ofMembers (by simpa using ⟨hports, hlabels.mono (by decide)⟩)

/-- What a builder of the standard catalog specifies is read as it is. -/
theorem standard_owned_spec {owner : Metadata} {o o' : Object} (hb : b ∈ standard a)
    (h : b.owned owner o = .ok o') : o'.spec.reread Object.nestingLimit = some o'.spec := by
  obtain ⟨labels, spec, hshape, -, rfl⟩ := standard_owned_cases hb h
  change spec.reread Object.nestingLimit = some spec
  have hplain : ∃ depth ≤ Object.nestingLimit, spec.Plain depth := by
    rcases mem_standard hb with rfl | rfl
    · obtain rfl : serviceSpec ({} : GrpcService).port (selector a.name) = spec :=
        congrArg Object.spec (Except.ok.inj (hshape o))
      exact ⟨4, by decide, serviceSpec_plain _ _⟩
    · have hspec := hshape o
      simp only [workload] at hspec
      split at hspec
      · cases hspec
      · obtain rfl := congrArg Object.spec (Except.ok.inj hspec)
        exact ⟨2, by decide, WorkloadSpec.codec_writesPlain _⟩
  obtain ⟨depth, hdepth, hplain⟩ := hplain
  exact (hplain.mono hdepth).reread

private theorem standard_owned_steady {owner : Metadata} {o o' : Object} (hb : b ∈ standard a)
    (ho : o.Steady) (h : b.owned owner o = .ok o') : o'.Steady := by
  have hspec := standard_owned_spec hb h
  obtain ⟨_, _, _, -, rfl⟩ := standard_owned_cases hb h
  exact Object.steady_iff.mpr ⟨hspec, (Object.steady_iff.mp ho).2⟩

end Catalog

/-- **Passes over texts.** A pass with the standard catalog runs over the texts of a store as over
the store, as long as the objects in the store are read as they are; and they still are afterwards.
-/
theorem Reconciler.reconcile_ofStore {r : Reconciler} (hr : r.catalog = Catalog.standard)
    {s : Store}
    (hs : s.Steady) (now : UInt64) (key : ObjectKey) :
    ((r.reconcile now key).run (Store.collaborators now) s).2.Steady ∧
    (r.reconcile now key).run (TextStore.collaborators now) (TextStore.ofStore s) =
      (((r.reconcile now key).run (Store.collaborators now) s).1,
        TextStore.ofStore ((r.reconcile now key).run (Store.collaborators now) s).2) := by
  refine Program.run_ofStore hs now fun t c hmakes => ?_
  cases c with
  | get | record | provision => trivial
  | upsert placeholder change =>
    obtain ⟨o, a, b, -, -, hb, rfl, rfl⟩ := reconcile_makes_upsert hmakes
    rw [hr] at hb
    refine ⟨?_, fun o o' ho h => Catalog.standard_owned_steady hb ho h⟩
    rcases Catalog.mem_standard hb with rfl | rfl
    · exact Object.steady_empty _ _
    · exact Object.steady_empty _ _
  | writeStatus w =>
    obtain ⟨_, _, _, _, status, -, -, -, -, -, -, rfl⟩ := reconcile_makes_writeStatus hmakes
    exact ((DatabaseStatus.codec_writesPlain status).mono (by decide)).reread

end Converge

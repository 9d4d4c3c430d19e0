import Converge.Proofs.Operations
import Converge.Proofs.Names

/-!
# The identity of objects

An object is known by its kind, namespace and name. The store keeps it under these three joined by
slashes, and any of them may hold a slash itself. Then an object is found under other names than its
own, and what is done to these is done to the object; and the objects of the kind `Service/x` are
listed among those of the kind `Service`.

Names without slashes are safe, whatever other names the store holds, because their table keys have
two slashes only. All other names can be taken for others.

## Main definitions

* `Store.Operation.target?`: the kind and key that an operation is about.
* `Store.Identified`: nothing but the object itself is ever found at a kind and key, or touched.

## Main results

* `exists_tableKey_eq`: names with a slash share their table key with others.
* `Store.identified_iff`: the kinds and keys that identify an object.
* `Store.find?_upsert`: what is found after an object was created or changed.
* `Store.mem_list_iff`: the objects that are listed for a kind.
* `Store.object_identity`: all of this together.
-/

namespace Converge

/-! ### Table keys that are shared -/

private theorem exists_eq_append_of_not_free {text : String} (h : ¬ Free '/' text) :
    ∃ a b, text = a ++ "/" ++ b := by
  obtain ⟨a, b, hab⟩ := List.append_of_mem (Decidable.not_not.mp h)
  exact ⟨String.ofList a, String.ofList b, String.ext (by simp [hab])⟩

/-- A kind and key with a slash in one of their names have their table key in common with others. -/
theorem exists_tableKey_eq {kind : String} {key : ObjectKey}
    (h : ¬ (Free '/' kind ∧ key.Free '/')) :
    ∃ kind' key', (kind', key') ≠ (kind, key) ∧ tableKey kind' key' = tableKey kind key := by
  have hlonger : ∀ a b : String, a ≠ a ++ "/" ++ b := by
    intro a b heq
    have hlength := congrArg String.length heq
    simp only [String.length_append] at hlength
    have : "/".length = 1 := rfl
    omega
  obtain ⟨ns, name⟩ := key
  by_cases hkind : Free '/' kind
  · by_cases hns : Free '/' ns
    · have hname : ¬ Free '/' name := fun hname => h ⟨hkind, hns, hname⟩
      obtain ⟨a, b, rfl⟩ := exists_eq_append_of_not_free hname
      refine ⟨kind, ⟨ns ++ "/" ++ a, b⟩, fun heq => ?_,
        by simp only [tableKey, String.append_assoc]⟩
      exact hlonger ns a (congrArg (·.2.ns) heq).symm
    · obtain ⟨a, b, rfl⟩ := exists_eq_append_of_not_free hns
      refine ⟨kind ++ "/" ++ a, ⟨b, name⟩, fun heq => ?_,
        by simp only [tableKey, String.append_assoc]⟩
      exact hlonger kind a (congrArg Prod.fst heq).symm
  · obtain ⟨a, b, rfl⟩ := exists_eq_append_of_not_free hkind
    refine ⟨a, ⟨b, ns ++ "/" ++ name⟩, fun heq => ?_, by simp only [tableKey, String.append_assoc]⟩
    exact hlonger a b (congrArg Prod.fst heq)

namespace Store

variable {s : Store} {kind : String} {key : ObjectKey} {o placeholder : Object} {change : Change}
  {op : Operation}

/-! ### Operations and the objects they are about -/

/-- The kind and key of the object that an operation is about. -/
def Operation.target? : Operation → Option (String × ObjectKey)
  | put o | writeStatus o => some (o.kind, o.key)
  | delete kind key => some (kind, key)
  | upsert placeholder _ => some (placeholder.kind, placeholder.key)
  | putTenant _ | putEvent _ => none

private theorem Operation.Writes.target {tkey : String} (h : op.Writes s tkey o) :
    ∃ kind key, op.target? = some (kind, key) ∧ Converge.tableKey kind key = tkey := by
  cases h with
  | put | create | update | status => exact ⟨_, _, rfl, rfl⟩

theorem Operation.find?_apply_of_target_ne (h : ∀ kind' key', op.target? = some (kind', key') →
    Converge.tableKey kind' key' ≠ Converge.tableKey kind key) :
    (op.apply s).find? kind key = s.find? kind key := by
  rcases op.find?_apply s (Converge.tableKey kind key) with
    hsame | ⟨o, hwrites, -⟩ | ⟨kind', key', rfl, hkey, -⟩
  · exact hsame
  · obtain ⟨kind', key', htarget, hkey⟩ := hwrites.target
    exact absurd hkey (h kind' key' htarget)
  · exact absurd hkey (h kind' key' rfl)

/-! ### Looking an object up -/

/-- In all stores that come about by operations only the object of that kind and key is found at
them, and only operations about them do anything to it. -/
structure Identified (kind : String) (key : ObjectKey) : Prop where
  found : ∀ {s : Store} {o : Object}, s.Reachable → s.find? kind key = some o →
    o.kind = kind ∧ o.key = key
  kept : ∀ {s : Store} {op : Operation}, s.Reachable → op.target? ≠ some (kind, key) →
    (op.apply s).find? kind key = s.find? kind key

/-- **The names that identify an object** are those without slashes. -/
theorem identified_iff : Identified kind key ↔ Free '/' kind ∧ key.Free '/' := by
  constructor
  · intro h
    refine Decidable.byContradiction fun hfree => ?_
    obtain ⟨kind', key', hne, heq⟩ := exists_tableKey_eq hfree
    -- An object with the other names is found.
    let o := (Object.empty kind' key').withVersion 1
    have hfind : ((Operation.put (.empty kind' key')).apply ∅).find? kind key = some o := by
      rw [find?, ← heq]
      exact Table.find?_insert_self _ _ _
    obtain ⟨hkind, hkey⟩ := h.found (Reachable.empty.apply _) hfind
    exact hne (Prod.ext hkind hkey)
  · rintro ⟨hkind, hkey⟩
    constructor
    · intro s o hs hfind
      exact tableKey_inj hkind hkey (hs.placed _ o hfind)
    · intro s op hs htarget
      refine Operation.find?_apply_of_target_ne fun kind' key' h heq => htarget ?_
      obtain ⟨rfl, rfl⟩ := tableKey_inj hkind hkey heq
      exact h

theorem find?_upsert {outcome : Upserted} (h : (s.upsert placeholder change).1 = .ok outcome) :
    ∃ o, (s.upsert placeholder change).2.find? placeholder.kind placeholder.key = some o := by
  change ∃ o, (s.upsert placeholder change).2.objects.find? placeholder.tableKey = some o
  rw [upsert_eq] at h ⊢
  split at h
  · exact nomatch h
  · exact ⟨_, Table.find?_insert_self _ _ _⟩
  · rename_i stored _ hstored
    split at h
    · rename_i hsame
      rw [if_pos hsame]
      exact ⟨_, hstored⟩
    · rename_i hsame
      rw [if_neg hsame]
      exact ⟨_, Table.find?_insert_self _ _ _⟩

/-! ### Listing objects -/

theorem map_tableKey_list (hs : s.Placed) (kind : String) :
    (s.list kind).map Object.tableKey = (s.objects.startingWith (kind ++ "/")).map (·.1) := by
  rw [list, List.map_map]
  refine List.map_congr_left fun entry hentry => ?_
  exact hs _ _ ((Table.mem_entries_iff _ _ _).mp (List.mem_of_mem_filter hentry))

theorem nodup_list (hs : s.Placed) (kind : String) : (s.list kind).Nodup := by
  have hnodup : ((s.list kind).map Object.tableKey).Nodup := by
    rw [map_tableKey_list hs]
    exact s.objects.nodup_keys.sublist (List.filter_sublist.map _)
  exact List.Pairwise.of_map Object.tableKey
    (fun _ _ hne heq => hne (congrArg Object.tableKey heq)) hnodup

/-- **The objects that are listed for a kind** without slashes are all those whose kind is that one
or goes on after it with a slash. -/
theorem mem_list_iff (hs : s.Placed) (hkind : Free '/' kind) : o ∈ s.list kind ↔
    s.find? o.kind o.key = some o ∧ Continues '/' kind o.kind := by
  have hstart : (kind ++ "/").toList.isPrefixOf o.tableKey.toList = true ↔
      Continues '/' kind o.kind := by
    have htable : o.tableKey.toList = o.kind.toList ++ '/' :: o.key.display.toList := by
      simp [Object.tableKey, tableKey, ObjectKey.display]
    rw [List.isPrefixOf_iff_prefix, htable, String.toList_append]
    constructor
    · rintro ⟨rest, hrest⟩
      have hchars : kind.toList ++ '/' :: rest = o.kind.toList ++ '/' :: o.key.display.toList := by
        simpa using hrest
      exact Continues.of_eq_of_free hkind hchars
    · intro h
      exact h.trans ⟨o.key.display.toList, by simp⟩
  have hlisted : o ∈ s.list kind ↔ ∃ tkey, s.objects.find? tkey = some o ∧
      (kind ++ "/").toList.isPrefixOf tkey.toList = true := by
    simp [list, Table.startingWith, Table.mem_entries_iff]
  rw [hlisted]
  constructor
  · rintro ⟨tkey, hfind, hprefixed⟩
    obtain rfl := hs tkey o hfind
    exact ⟨hfind, hstart.mp hprefixed⟩
  · rintro ⟨hfind, hcontinues⟩
    exact ⟨o.tableKey, hfind, hstart.mpr hcontinues⟩

/-! ### Identity -/

/-- **The identity of objects.** A kind and key identify an object, in all stores that have come
about by any operations, exactly when no name of them holds a slash. Creating or changing an object
with such names leaves an object with the same names. Each object is listed once, and for a kind
without slashes those are listed whose kind is that one or goes on after it with a slash; so these
are the objects of the kind if no kind in the store holds a slash. -/
theorem object_identity (hs : s.Reachable) :
    (∀ kind key, Identified kind key ↔ Free '/' kind ∧ key.Free '/') ∧
    (∀ placeholder change outcome, placeholder.Free '/' →
      (s.upsert placeholder change).1 = .ok outcome →
      ∃ o, (s.upsert placeholder change).2.find? placeholder.kind placeholder.key = some o ∧
        o.kind = placeholder.kind ∧ o.key = placeholder.key) ∧
    ∀ kind, (s.list kind).Nodup ∧ (Free '/' kind →
      (∀ o, o ∈ s.list kind ↔ s.find? o.kind o.key = some o ∧ Continues '/' kind o.kind) ∧
      ((∀ tkey o, s.objects.find? tkey = some o → Free '/' o.kind) →
        ∀ o, o ∈ s.list kind ↔ s.find? kind o.key = some o ∧ o.kind = kind)) := by
  refine ⟨fun _ _ => identified_iff, ?_, fun kind =>
    ⟨nodup_list hs.placed kind, fun hkind => ?_⟩⟩
  · intro placeholder change outcome hfree hok
    obtain ⟨o, ho⟩ := find?_upsert hok
    have hidentified : Identified placeholder.kind placeholder.key := identified_iff.mpr hfree
    exact ⟨o, ho, hidentified.found (hs.apply (.upsert placeholder change)) ho⟩
  · refine ⟨fun o => mem_list_iff hs.placed hkind, fun hkinds o => ?_⟩
    rw [mem_list_iff hs.placed hkind]
    constructor
    · rintro ⟨hfind, hcontinues⟩
      have heq : o.kind = kind := hcontinues.eq_of_free (hkinds _ o hfind)
      exact ⟨heq ▸ hfind, heq⟩
    · rintro ⟨hfind, rfl⟩
      exact ⟨hfind, Continues.refl '/' o.kind⟩

/-- A service beside one whose namespace holds a slash: it is found under its own names, outlives
the removal of the other one, which is done under yet other names, and can be changed. -/
theorem object_identity_orders :
    let orders : ObjectKey := ⟨"prod", "orders"⟩
    let s := (Operation.put (.empty "Service" ⟨"prod/eu", "orders"⟩)).apply
      ((Operation.put (.empty "Service" orders)).apply ∅)
    let delete := Operation.delete "Service" ⟨"prod", "eu/orders"⟩
    (s.list "Service").length = 2 ∧ ((delete.apply s).list "Service").length = 1 ∧
      (delete.apply s).find? "Service" orders = s.find? "Service" orders ∧
      (∀ o, s.find? "Service" orders = some o → o.kind = "Service" ∧ o.key = orders) ∧
      (∃ o, (s.upsert (.empty "Service" orders) .ok).2.find? "Service" orders = some o ∧
        o.kind = "Service" ∧ o.key = orders) ∧
      ∀ o, o ∈ s.list "Service" ↔ s.find? "Service" o.key = some o ∧ o.kind = "Service" := by
  intro orders s delete
  have hs : s.Reachable := (Reachable.empty.apply (.put _)).apply (.put _)
  obtain ⟨hidentified, hupsert, hlist⟩ := object_identity hs
  have horders : Identified "Service" orders := (hidentified _ _).mpr (by decide)
  have hkinds : ∀ entry ∈ s.objects.entries, Free '/' entry.2.kind := by decide +kernel
  have hunchanged : (s.upsert (.empty "Service" orders) .ok).1 = .ok .unchanged := by decide +kernel
  refine ⟨by decide +kernel, by decide +kernel, horders.kept hs (by decide), fun o hfind =>
    horders.found hs hfind, hupsert _ _ _ (by decide) hunchanged,
    ((hlist "Service").2 (by decide)).2 fun tkey o hfind => ?_⟩
  exact hkinds (tkey, o) ((Table.mem_entries_iff _ _ _).mpr hfind)

/-- A service whose namespace holds a slash is found under other names, and removed under them; and
a service of another kind is listed with it. -/
theorem object_not_identified :
    let s := (Operation.put (.empty "Service" ⟨"prod/eu", "orders"⟩)).apply ∅
    let s' := (Operation.put (.empty "Service/x" ⟨"prod", "orders"⟩)).apply s
    (s.find? "Service" ⟨"prod", "eu/orders"⟩).map (·.key) = some ⟨"prod/eu", "orders"⟩ ∧
      (s.delete "Service" ⟨"prod", "eu/orders"⟩).2.list "Service" = [] ∧
      (s'.list "Service").map (·.kind) = ["Service", "Service/x"] := by
  intro s s'
  exact ⟨by decide +kernel, rfl, by decide +kernel⟩

end Store

end Converge

import Converge.Proofs.EventOrder
import Converge.Proofs.Footprint
import Converge.Proofs.Quiescence

/-!
# Passes over independent databases

Two databases are independent when they have different keys and different tenants, and neither wants
its place inside the other. Then no pass over the one looks at a cell that a pass over the other
writes, although both go to one table of objects and move one counter of events. So it does not
matter which pass comes first.

## Main definitions

* `Store.Independent`: independent databases.

## Main results

* `Store.Independent.not_touched`: what a pass writes a pass over an independent database does not
  look at.
* `Reconciler.pass_after`: a pass after one over an independent database.
* `Reconciler.passes_commute`: two passes in either order.
-/

namespace Converge

/-! ### Footprints of different databases -/

namespace Aggregate

variable {x y : Aggregate} {tkey : String}

private theorem exists_of_mem_places (h : tkey ∈ x.places) : ∃ kind key, tkey = tableKey kind key ∧
    ((kind = "Service" ∧ key = ⟨x.ns, x.name ++ "-grpc"⟩) ∨
      ((kind = Database.kind.name ∨ kind = Workload.kind.name) ∧ key = x.key)) := by
  rw [places] at h
  rcases List.mem_cons.mp h with rfl | h
  · exact ⟨_, _, rfl, .inl ⟨rfl, rfl⟩⟩
  rcases List.mem_cons.mp h with rfl | h
  · exact ⟨_, _, rfl, .inr ⟨.inl rfl, rfl⟩⟩
  split at h
  · exact absurd h List.not_mem_nil
  · exact ⟨_, _, List.mem_singleton.mp h, .inr ⟨.inr rfl, rfl⟩⟩

private theorem exists_of_mem_sources (h : tkey ∈ x.sources) :
    ∃ kind key, tkey = tableKey kind key ∧
    (kind = StorageCluster.kind.name ∨
      (kind = Database.kind.name ∧ x.sharedKey? = some key)) := by
  rcases List.mem_cons.mp h with rfl | h
  · exact ⟨_, _, rfl, .inl rfl⟩
  · obtain ⟨key, hkey, rfl⟩ := Option.map_eq_some_iff.mp (Option.mem_toList.mp h)
    exact ⟨_, key, rfl, .inr ⟨rfl, hkey⟩⟩

private theorem not_mem_footprint (hx : x.key.Free '/') (hne : x.key ≠ y.key)
    (hshared : y.sharedKey? ≠ some x.key) (h : tkey ∈ x.places) : tkey ∉ y.footprint := by
  intro hy
  obtain ⟨kind, key, rfl, hplace⟩ := exists_of_mem_places h
  have hfree : Free '/' kind ∧ key.Free '/' := by
    rcases hplace with ⟨rfl, rfl⟩ | ⟨rfl | rfl, rfl⟩
    · exact ⟨by decide, hx.1, hx.2.append (by decide)⟩
    · exact ⟨by decide, hx⟩
    · exact ⟨by decide, hx⟩
  rcases List.mem_append.mp hy with hy | hy
  · obtain ⟨kind', key', heq, hsource⟩ := exists_of_mem_sources hy
    obtain ⟨rfl, rfl⟩ := tableKey_inj hfree.1 hfree.2 heq.symm
    rcases hplace with ⟨rfl, -⟩ | ⟨hkind, rfl⟩
    · rcases hsource with h | ⟨h, -⟩ <;> exact absurd h (by decide)
    rcases hsource with rfl | ⟨-, h⟩
    · rcases hkind with h | h <;> exact absurd h (by decide)
    · exact hshared h
  · obtain ⟨kind', key', heq, hplace'⟩ := exists_of_mem_places hy
    obtain ⟨rfl, rfl⟩ := tableKey_inj hfree.1 hfree.2 heq.symm
    rcases hplace with ⟨rfl, rfl⟩ | ⟨hkind, rfl⟩
    · rcases hplace' with ⟨-, hkey⟩ | ⟨h | h, -⟩
      · obtain ⟨hns, hname⟩ := ObjectKey.mk.inj hkey
        have hname : x.name = y.name := by simpa using hname
        exact hne (congrArg₂ ObjectKey.mk hns hname)
      · exact absurd h (by decide)
      · exact absurd h (by decide)
    · rcases hplace' with ⟨rfl, -⟩ | ⟨-, hkey⟩
      · rcases hkind with h | h <;> exact absurd h (by decide)
      · exact hne hkey

end Aggregate

/-! ### Independent databases -/

namespace Store

variable {s s' : Store} {a b key : ObjectKey} {cell : Cell} {x : Aggregate}

/-- The databases at the two keys are independent: they are different and have different tenants,
and neither refers to the other as its shared database. -/
structure Independent (s : Store) (a b : ObjectKey) : Prop where
  ne : a ≠ b
  paths : ∀ x ∈ s.aggregate? a, ∀ y ∈ s.aggregate? b, x.path ≠ y.path
  left : ∀ x ∈ s.aggregate? a, x.sharedKey? ≠ some b
  right : ∀ y ∈ s.aggregate? b, y.sharedKey? ≠ some a

theorem Independent.symm (h : s.Independent a b) : s.Independent b a where
  ne := h.ne.symm
  paths y hy x hx := (h.paths x hx y hy).symm
  left := h.right
  right := h.left

private theorem free_slash_of_find? (hs : s.Placed)
    (hslash : ∀ tkey o, s.objects.find? tkey = some o → o.Free '/') {o : Object}
    (h : s.find? Database.kind.name key = some o) : key.Free '/' := by
  have ho := hslash _ o h
  rw [← (Object.eq_of_tableKey_eq ho (by decide) (hs _ o h)).2]
  exact ho.2

private theorem key_of_aggregate? (hs : s.Placed)
    (hslash : ∀ tkey o, s.objects.find? tkey = some o → o.Free '/')
    (h : s.aggregate? key = some x) : x.key = key ∧ key.Free '/' := by
  obtain ⟨o, hloads⟩ := Reconciler.exists_loads_of_aggregate? hs h
  have hkey := free_slash_of_find? hs hslash hloads.stored
  exact ⟨hloads.key_eq hkey, hkey⟩

/-- **Independent footprints.** What a pass writes a pass over an independent database does not
look at. -/
theorem Independent.not_touched (hs : s.Placed)
    (hslash : ∀ tkey o, s.objects.find? tkey = some o → o.Free '/') (h : s.Independent a b)
    (hw : s.Writable a cell) : ¬ s.Touched b cell := by
  intro ht
  cases hw with
  | tenant hx hpath =>
    cases ht with
    | tenant hy hpath' => exact h.paths _ hx _ hy (hpath.symm.trans hpath')
  | @object x tkey hx hplace =>
    obtain ⟨rfl, hfree⟩ := key_of_aggregate? hs hslash hx
    cases ht with
    | database =>
      obtain ⟨kind, key, heq, ⟨rfl, rfl⟩ | ⟨hkind, rfl⟩⟩ := Aggregate.exists_of_mem_places hplace
      · exact absurd (kind_eq_of_tableKey_eq (by decide) (by decide) heq).1 (by decide)
      · have hkind : Free '/' kind := by rcases hkind with rfl | rfl <;> decide
        exact h.ne (tableKey_inj hkind hfree heq).2.symm
    | object hy hmem =>
      obtain ⟨rfl, -⟩ := key_of_aggregate? hs hslash hy
      exact Aggregate.not_mem_footprint hfree h.ne (h.right _ hy) hplace hmem

end Store

/-! ### Two passes -/

namespace Reconciler

variable {r : Reconciler} {s : Store} {a b : ObjectKey} {now : UInt64}

/-- **A pass after one over an independent database** does what it does without that. -/
theorem pass_after (hr : r.catalog = Catalog.standard) (hs : s.Placed)
    (hslash : ∀ tkey o, s.objects.find? tkey = some o → o.Free '/') (h : s.Independent a b)
    (now : UInt64) :
    let s' := (r.pass a now s).2
    r.tells b now s' = r.tells b now s ∧ (r.pass b now s').1 = (r.pass b now s).1 ∧
      ∀ cell, s.SameAt s' cell → (r.pass b now s).2.SameAt (r.pass b now s').2 cell :=
  pass_local hr hs now fun _ ht =>
    pass_unwritten hr hs (fun hw => h.not_touched hs hslash hw ht) now

private theorem writable_of_pass (hr : r.catalog = Catalog.standard) (hs : s.Placed)
    (hslash : ∀ tkey o, s.objects.find? tkey = some o → o.Free '/') (h : s.Independent a b)
    {cell : Store.Cell} (hw : (r.pass a now s).2.Writable b cell) : s.Writable b cell :=
  hw.congr (pass_unwritten hr hs (fun hw => h.not_touched hs hslash hw .database) now)

private theorem sameAt_passes (hr : r.catalog = Catalog.standard) (hs : s.Placed)
    (hslash : ∀ tkey o, s.objects.find? tkey = some o → o.Free '/') (h : s.Independent a b)
    (now : UInt64) (cell : Store.Cell) :
    (r.pass b now (r.pass a now s).2).2.SameAt (r.pass a now (r.pass b now s).2).2 cell := by
  have hsA := (pass_confined hr hs now a).placed
  have hsB := (pass_confined hr hs now b).placed
  obtain ⟨-, -, hafterA⟩ := pass_after hr hs hslash h now
  obtain ⟨-, -, hafterB⟩ := pass_after hr hs hslash h.symm now
  -- A cell is written by one of the two passes at most. The other one finds it as it was, and
  -- leaves it as the first has made it.
  by_cases hw : s.Writable a cell
  · have hnot : ¬ s.Writable b cell := fun hw' => h.not_touched hs hslash hw hw'.touched
    have hsecond := pass_unwritten hr hsA (mt (writable_of_pass hr hs hslash h) hnot) now
    exact hsecond.symm.trans (hafterB cell (pass_unwritten hr hs hnot now))
  · have hsecond := pass_unwritten hr hsB (mt (writable_of_pass hr hs hslash h.symm) hw) now
    exact (hafterA cell (pass_unwritten hr hs hw now)).symm.trans hsecond

/-- The events after two passes are those before them, and after these what the two passes tell over
the first store. -/
private theorem events_passes (hr : r.catalog = Catalog.standard) (hs : s.Placed)
    (hslash : ∀ tkey o, s.objects.find? tkey = some o → o.Free '/') (h : s.Independent a b)
    (now : UInt64) : ((s.putEvents (r.tells a now s)).putEvents (r.tells b now s)).SameEvents
      (r.pass b now (r.pass a now s).2).2 := by
  have hsecond := r.pass_events b now (r.pass a now s).2
  rw [(pass_after hr hs hslash h now).1] at hsecond
  exact ((r.pass_events a now s).putEvents _).trans hsecond

private theorem listEvents_passes (hr : r.catalog = Catalog.standard) (hs : s.Reachable)
    (hplain : s.Plain) (hslash : ∀ tkey o, s.objects.find? tkey = some o → o.Free '/')
    (h : s.Independent a b) (now : UInt64)
    (hcount : (r.pass b now (r.pass a now s).2).2.sequence < UInt64.size) (subject : ObjectKey) :
    (r.pass b now (r.pass a now s).2).2.listEvents subject =
      (r.pass a now (r.pass b now s).2).2.listEvents subject := by
  have hab := events_passes hr hs.placed hslash h now
  have hba := events_passes hr hs.placed hslash h.symm now
  rw [hab.sequence] at hcount
  rw [hab.listEvents, hba.listEvents]
  -- A pass that tells anything has found its database, so that the key of that is without
  -- separators.
  have hsubject : ∀ {key : ObjectKey} {e : Event}, e ∈ r.tells key now s →
      e.subject = key ∧ key.Free ':' ∧ key.Free '/' := by
    intro key e he
    obtain ⟨o, hstored, hkey⟩ := subject_of_mem_tells hr hs.placed he
    have hfree := Store.free_slash_of_find? hs.placed hslash hstored
    exact ⟨hkey hfree, free_of_find? hs.placed hplain hstored, hfree⟩
  by_cases hbefore : r.tells a now s = []
  · rw [hbefore]
    rfl
  by_cases hafter : r.tells b now s = []
  · rw [hafter]
    rfl
  obtain ⟨_, he⟩ := List.exists_mem_of_ne_nil _ hbefore
  obtain ⟨_, he'⟩ := List.exists_mem_of_ne_nil _ hafter
  obtain ⟨-, hcolon, hslashA⟩ := hsubject he
  obtain ⟨-, hcolon', -⟩ := hsubject he'
  exact Store.listEvents_putEvents_comm hs.numbered hplain hcolon hcolon'
    (fun hdisplay => h.ne (ObjectKey.display_inj hslashA hdisplay))
    (fun _ he => (hsubject he).1) (fun _ he => (hsubject he).1) hcount subject

/-- **Passes over independent databases commute.** Over a store that has come about by any
operations, and whose names hold neither a slash nor a colon, passes over two independent databases
end with the same directives, and leave the same objects, tenants and lists of events, whichever
comes first. For the events the counter has to stay within the 64 bits that it is kept in. -/
theorem passes_commute (hr : r.catalog = Catalog.standard) (hs : s.Reachable) (hplain : s.Plain)
    (hslash : ∀ tkey o, s.objects.find? tkey = some o → o.Free '/') (h : s.Independent a b)
    (now : UInt64) :
    let ab := r.pass b now (r.pass a now s).2
    let ba := r.pass a now (r.pass b now s).2
    ba.1 = (r.pass a now s).1 ∧ ab.1 = (r.pass b now s).1 ∧ ab.2.objects = ba.2.objects ∧
      ab.2.tenants = ba.2.tenants ∧
      (ab.2.sequence < UInt64.size →
        ∀ subject, ab.2.listEvents subject = ba.2.listEvents subject) := by
  intro ab ba
  obtain ⟨hobjects, htenants⟩ := Store.eq_of_sameAt (sameAt_passes hr hs.placed hslash h now)
  exact ⟨(pass_after hr hs.placed hslash h.symm now).2.1,
    (pass_after hr hs.placed hslash h now).2.1, hobjects.symm, htenants.symm,
    listEvents_passes hr hs hplain hslash h now⟩

/-- One database gets its tenant while another one waits for its storage cluster. Which pass comes
first shows in the numbers of the events, but in none of the lists. -/
theorem passes_commute_orders_billing :
    let orders : ObjectKey := ⟨"prod", "orders"⟩
    let billing : ObjectKey := ⟨"prod", "billing"⟩
    let s := (Store.Operation.put (Database.kind.toObject
      ⟨.ofKey billing, { storageCluster := { name := "spare" }, resources := some {} }, {}⟩)).apply
        Store.awaitingTenant
    let ab := (({} : Reconciler).pass billing 7 (({} : Reconciler).pass orders 7 s).2).2
    let ba := (({} : Reconciler).pass orders 7 (({} : Reconciler).pass billing 7 s).2).2
    s.Reachable ∧ s.Independent orders billing ∧ ab.objects = ba.objects ∧
      ab.tenants = ba.tenants ∧ (∀ subject, ab.listEvents subject = ba.listEvents subject) ∧
      (ba.tenant? "/root/orders").isSome = true ∧
      (ba.listEvents orders).map (·.reason) = ["Provisioning", "Provisioning", "Initialized"] ∧
      ab.events.entries.map (·.1) ≠ ba.events.entries.map (·.1) := by
  intro orders billing s ab ba
  have hs : s.Reachable := Store.awaitingTenant_reachable.apply _
  have hplain : s.Plain := by decide +kernel
  have hfree : ∀ entry ∈ s.objects.entries, entry.2.Free '/' := by decide +kernel
  have hslash : ∀ tkey o, s.objects.find? tkey = some o → o.Free '/' := fun tkey o hfind =>
    hfree (tkey, o) ((Table.mem_entries_iff _ _ _).mpr hfind)
  have hindependent : s.Independent orders billing :=
    ⟨by decide, by decide +kernel, by decide +kernel, by decide +kernel⟩
  have hruns : ab.sequence < UInt64.size ∧ (ba.tenant? "/root/orders").isSome = true ∧
      (ba.listEvents orders).map (·.reason) = ["Provisioning", "Provisioning", "Initialized"] ∧
      ab.events.entries.map (·.1) ≠ ba.events.entries.map (·.1) := by decide +kernel
  obtain ⟨-, -, hobjects, htenants, hevents⟩ :=
    passes_commute (r := {}) rfl hs hplain hslash hindependent 7
  exact ⟨hs, hindependent, hobjects, htenants, hevents hruns.1, hruns.2⟩

end Reconciler

end Converge

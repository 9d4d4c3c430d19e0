import Converge.Table
import Mathlib.Data.List.Sort

/-!
# Tables with the same content

A table is determined by what is found in it, since its entries are sorted by their keys. So two
tables are shown to be equal key by key.

## Main results

* `Table.ext_find?`: a table is determined by its look-ups.
* `Table.map_insert`, `Table.map_erase`: point operations on a table of other values.
-/

namespace Converge.Table

variable {α β : Type} {s t : Table α}

instance : Std.Irrefl fun a b : String × α => a.1 < b.1 := ⟨fun a => String.lt_irrefl a.1⟩

instance : Std.Antisymm fun a b : String × α => a.1 < b.1 :=
  ⟨fun a _ h h' => absurd (String.lt_trans h h') (String.lt_irrefl a.1)⟩

/-- Two tables with the same look-ups are equal. -/
theorem ext_find? (h : ∀ k, s.find? k = t.find? k) : s = t :=
  ext (s.sorted.eq_of_mem_iff t.sorted fun (k, v) => by rw [mem_entries_iff, mem_entries_iff, h])

/-- A table made from its own entries. -/
theorem ofList_entries (t : Table α) : ofList t.entries = t :=
  ext_find? fun k => find?_ofList t.nodup_keys k

/-- An entry of a table that was made from a list is one of the list. -/
theorem mem_of_mem_ofList {l : List (String × α)} {e : String × α} (h : e ∈ (ofList l).entries) :
    e ∈ l := by
  obtain ⟨key, v⟩ := e
  rw [mem_entries_iff, ofList, find?_foldl_insert] at h
  have hfind : l.reverse.lookup key = some v := by simpa using h
  exact List.mem_reverse.mp (mem_of_lookup hfind)

/-- What is found among the values that a function gives. -/
theorem find?_filterMap (f : α → Option β) (t : Table α) (key : String) :
    (t.filterMap f).find? key = (t.find? key).bind f := by
  ext v
  rw [← mem_entries_iff, Option.bind_eq_some_iff]
  simp only [filterMap, List.mem_filterMap, Option.map_eq_some_iff]
  constructor
  · rintro ⟨⟨key', a⟩, hmem, b, hb, heq⟩
    obtain ⟨rfl, rfl⟩ := Prod.mk.inj heq
    exact ⟨a, (mem_entries_iff t _ a).mp hmem, hb⟩
  · rintro ⟨a, ha, hb⟩
    exact ⟨(key, a), (mem_entries_iff t key a).mpr ha, v, hb, rfl⟩

/-- What is found among the entries that satisfy a predicate. -/
theorem find?_filter (p : String → α → Bool) (t : Table α) (key : String) :
    (t.filter p).find? key = (t.find? key).filter (p key) := by
  ext v
  rw [← mem_entries_iff, Option.filter_eq_some_iff, ← mem_entries_iff]
  exact List.mem_filter

theorem insert_insert_self (t : Table α) (key : String) (v w : α) :
    (t.insert key v).insert key w = t.insert key w := by
  refine ext_find? fun k => ?_
  by_cases h : key = k <;> simp [find?_insert, h]

theorem map_insert (f : α → β) (t : Table α) (key : String) (value : α) :
    (t.insert key value).map f = (t.map f).insert key (f value) := by
  refine ext_find? fun k => ?_
  by_cases h : key = k <;> simp [find?_insert, h]

theorem map_erase (f : α → β) (t : Table α) (key : String) :
    (t.erase key).map f = (t.map f).erase key := by
  refine ext_find? fun k => ?_
  by_cases h : key = k <;> simp [find?_erase, h]

end Converge.Table

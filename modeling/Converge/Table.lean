/-!
# Tables keyed by text

A table is a finite map from text to values, kept as a list of entries in strictly increasing
order of their keys. Keys are compared by code point, which is also the order of their UTF-8
bytes, so walking the list is a scan in key order. The order is part of the type: two tables with
the same content are equal.

## Main definitions

* `Table`: entries in strictly increasing key order.
* `Table.find?`, `Table.insert`, `Table.erase`: point operations.
* `Table.between`, `Table.startingWith`: scans over a range of keys.

## Main results

* `Table.find?_insert`, `Table.find?_erase`: what a point operation does to every key.
* `Table.mem_entries_iff`: the entries are exactly what the look-ups find.
-/

namespace Converge

/-- Entries in strictly increasing order of their keys. -/
structure Table (α : Type) where
  /-- The entries, in key order. -/
  entries : List (String × α)
  sorted : entries.Pairwise (fun a b => a.1 < b.1)
  deriving DecidableEq

namespace Table

variable {α β : Type}

/-! ### Entry lists -/

/-- Two different keys are ordered one way or the other. -/
theorem lt_of_not_lt_of_ne {a b : String} (h : ¬ a < b) (hne : a ≠ b) : b < a := by
  refine Decidable.byContradiction fun hba => hne ?_
  exact String.le_antisymm (String.not_lt.mp hba) (String.not_lt.mp h)

/-- Put `value` at `key`, before the first entry with a larger key. -/
def insertEntry (key : String) (value : α) : List (String × α) → List (String × α)
  | [] => [(key, value)]
  | (k, v) :: rest =>
    if key < k then (key, value) :: (k, v) :: rest
    else if key = k then (key, value) :: rest
    else (k, v) :: insertEntry key value rest

/-- Every key of the result is the new key or an old one. -/
theorem mem_insertEntry {key : String} {value : α} {l : List (String × α)} {e : String × α}
    (h : e ∈ insertEntry key value l) : e.1 = key ∨ e ∈ l := by
  induction l with
  | nil => simp_all [insertEntry]
  | cons head rest ih =>
    obtain ⟨k, v⟩ := head
    rw [insertEntry] at h
    split at h
    · rcases List.mem_cons.mp h with rfl | h
      · exact .inl rfl
      · exact .inr h
    · split at h
      · rcases List.mem_cons.mp h with rfl | h
        · exact .inl rfl
        · exact .inr (List.mem_cons_of_mem _ h)
      · rcases List.mem_cons.mp h with rfl | h
        · exact .inr List.mem_cons_self
        · exact (ih h).imp_right (List.mem_cons_of_mem _)

/-- Insertion keeps the order of the keys. -/
theorem insertEntry_sorted (key : String) (value : α) {l : List (String × α)}
    (h : l.Pairwise (fun a b => a.1 < b.1)) :
    (insertEntry key value l).Pairwise (fun a b => a.1 < b.1) := by
  induction l with
  | nil => simp [insertEntry]
  | cons head rest ih =>
    obtain ⟨k, v⟩ := head
    have ⟨hk, hrest⟩ := List.pairwise_cons.mp h
    rw [insertEntry]
    split
    · rename_i hlt
      refine List.pairwise_cons.mpr ⟨fun e he => ?_, h⟩
      rcases List.mem_cons.mp he with rfl | he
      · exact hlt
      · exact String.lt_trans hlt (hk e he)
    · split
      · rename_i heq
        exact List.pairwise_cons.mpr ⟨fun e he => heq ▸ hk e he, hrest⟩
      · rename_i hlt hne
        refine List.pairwise_cons.mpr ⟨fun e he => ?_, ih hrest⟩
        rcases mem_insertEntry he with heq | he
        · exact heq ▸ lt_of_not_lt_of_ne hlt hne
        · exact hk e he

/-! ### Tables -/

/-- The table without entries. -/
def empty : Table α := ⟨[], .nil⟩

instance : EmptyCollection (Table α) := ⟨empty⟩
instance : Inhabited (Table α) := ⟨empty⟩

/-- Whether the table has no entry. -/
def isEmpty (t : Table α) : Bool := t.entries.isEmpty

/-- The value stored at `key`, if any. -/
def find? (t : Table α) (key : String) : Option α := t.entries.lookup key

/-- Whether some value is stored at `key`. -/
def contains (t : Table α) (key : String) : Bool := (t.find? key).isSome

/-- Store `value` at `key`, replacing what was there. -/
def insert (t : Table α) (key : String) (value : α) : Table α :=
  ⟨insertEntry key value t.entries, insertEntry_sorted key value t.sorted⟩

/-- Keep the entries that satisfy `p`. -/
def filter (t : Table α) (p : String → α → Bool) : Table α :=
  ⟨t.entries.filter fun e => p e.1 e.2, t.sorted.filter _⟩

/-- Apply `f` to every value, and keep the entries for which it gives one. -/
def filterMap (f : α → Option β) (t : Table α) : Table β where
  entries := t.entries.filterMap fun e => (f e.2).map (e.1, ·)
  sorted := by
    refine t.sorted.filterMap _ fun a b h => ?_
    simp only [Option.map_eq_some_iff]
    rintro _ ⟨_, -, rfl⟩ _ ⟨_, -, rfl⟩
    exact h

/-- Remove the entry at `key`, if any. -/
def erase (t : Table α) (key : String) : Table α := t.filter fun k _ => k != key

/-- The table with the given entries; of two with one key the later counts. -/
def ofList (l : List (String × α)) : Table α := l.foldl (fun t e => t.insert e.1 e.2) ∅

/-- All entries of `other` put into `t`, replacing those with the same keys. -/
def union (t other : Table α) : Table α :=
  other.entries.foldl (fun t e => t.insert e.1 e.2) t

/-- Apply `f` to every value. -/
def map (f : α → β) (t : Table α) : Table β :=
  ⟨t.entries.map fun e => (e.1, f e.2), List.pairwise_map.mpr t.sorted⟩

/-- The entries with `low ≤ key < high`, in key order. -/
def between (t : Table α) (low high : String) : List (String × α) :=
  t.entries.filter fun e => !decide (e.1 < low) && decide (e.1 < high)

/-- The entries whose keys begin with `start`, in key order. -/
def startingWith (t : Table α) (start : String) : List (String × α) :=
  t.entries.filter fun e => start.toList.isPrefixOf e.1.toList

/-! ### Look-ups after each operation -/

@[ext] theorem ext {s t : Table α} (h : s.entries = t.entries) : s = t := by
  cases s; cases t; simp_all

/-- The first entry is found under its key, and hides no other. -/
theorem lookup_cons (k k' : String) (v : α) (l : List (String × α)) :
    ((k', v) :: l).lookup k = if k' = k then some v else l.lookup k := by
  by_cases h : k' = k
  · simp [h]
  · simp [h, List.lookup_cons, beq_eq_false_iff_ne.mpr (Ne.symm h)]

theorem lookup_insertEntry (key k : String) (value : α) {l : List (String × α)}
    (h : l.Pairwise (fun a b => a.1 < b.1)) :
    (insertEntry key value l).lookup k = if key = k then some value else l.lookup k := by
  induction l with
  | nil => simp [insertEntry, lookup_cons]
  | cons head rest ih =>
    obtain ⟨k', v⟩ := head
    have ⟨_, hrest⟩ := List.pairwise_cons.mp h
    rw [insertEntry]
    split
    · simp [lookup_cons]
    · split
      · rename_i heq
        subst heq
        by_cases hk : key = k <;> simp [lookup_cons, hk]
      · rename_i hne
        rw [lookup_cons, ih hrest, lookup_cons]
        by_cases hk : key = k
        · subst hk; simp [Ne.symm hne]
        · simp [hk]

/-- A look-up after an insertion finds the new value at its key and the old one elsewhere. -/
theorem find?_insert (t : Table α) (key k : String) (value : α) :
    (t.insert key value).find? k = if key = k then some value else t.find? k :=
  lookup_insertEntry key k value t.sorted

@[simp] theorem find?_insert_self (t : Table α) (key : String) (value : α) :
    (t.insert key value).find? key = some value := by simp [find?_insert]

theorem find?_insert_ne (t : Table α) {key k : String} (h : key ≠ k) (value : α) :
    (t.insert key value).find? k = t.find? k := by simp [find?_insert, h]

theorem lookup_filter_key (p : String → Bool) (k : String) (l : List (String × α)) :
    (l.filter fun e => p e.1).lookup k = if p k then l.lookup k else none := by
  induction l with
  | nil => simp
  | cons head rest ih =>
    obtain ⟨k', v⟩ := head
    by_cases hp : p k' <;> by_cases hk : k' = k <;> simp_all [lookup_cons]

/-- A look-up after an erasure finds nothing at the erased key and the old value elsewhere. -/
theorem find?_erase (t : Table α) (key k : String) :
    (t.erase key).find? k = if key = k then none else t.find? k := by
  rw [find?, erase, filter, lookup_filter_key (fun k => k != key), find?]
  by_cases h : key = k
  · simp [h]
  · simp [h, Ne.symm h]

@[simp] theorem find?_empty (k : String) : (∅ : Table α).find? k = none := rfl

/-- A stored value is an entry of the table. -/
theorem mem_of_lookup {k : String} {v : α} {l : List (String × α)}
    (h : l.lookup k = some v) : (k, v) ∈ l := by
  obtain ⟨l₁, l₂, rfl, -⟩ := List.lookup_eq_some_iff.mp h
  exact List.mem_append_right l₁ List.mem_cons_self

/-- In a list in which no key repeats every entry is found under its key. -/
theorem lookup_of_mem_of_nodup {k : String} {v : α} {l : List (String × α)}
    (hn : (l.map (·.1)).Nodup) (h : (k, v) ∈ l) : l.lookup k = some v := by
  induction l with
  | nil => simp at h
  | cons head rest ih =>
    obtain ⟨k', v'⟩ := head
    rw [List.map_cons, List.nodup_cons] at hn
    rw [lookup_cons]
    rcases List.mem_cons.mp h with heq | h
    · simp_all
    · have hne : k' ≠ k := by
        rintro rfl
        exact hn.1 (List.mem_map.mpr ⟨_, h, rfl⟩)
      rw [if_neg hne]
      exact ih hn.2 h

/-- In a sorted list no key repeats. -/
theorem nodup_of_sorted {l : List (String × α)} (h : l.Pairwise (fun a b => a.1 < b.1)) :
    (l.map (·.1)).Nodup :=
  List.pairwise_map.mpr (h.imp fun {a b} (h : a.1 < b.1) (heq : a.1 = b.1) =>
    String.lt_irrefl b.1 (heq ▸ h))

/-- The keys of a table do not repeat. -/
theorem nodup_keys (t : Table α) : (t.entries.map (·.1)).Nodup := nodup_of_sorted t.sorted

/-- The entries are exactly the stored values under their keys. -/
theorem mem_entries_iff (t : Table α) (k : String) (v : α) :
    (k, v) ∈ t.entries ↔ t.find? k = some v :=
  ⟨lookup_of_mem_of_nodup t.nodup_keys, mem_of_lookup⟩

/-- Entries put into a table one after the other: at a key the last of them is found. -/
theorem find?_foldl_insert (l : List (String × α)) (t : Table α) (k : String) :
    (l.foldl (fun t e => t.insert e.1 e.2) t).find? k
      = (l.reverse.lookup k).or (t.find? k) := by
  induction l generalizing t with
  | nil => simp
  | cons head rest ih =>
    obtain ⟨k', v⟩ := head
    rw [List.foldl_cons, ih, List.reverse_cons, find?_insert]
    rw [List.lookup_append]
    by_cases h : k' = k <;> cases rest.reverse.lookup k <;> simp [lookup_cons, h]

/-- A list in which no key repeats is looked up the same in either direction. -/
theorem lookup_reverse {l : List (String × α)} (h : (l.map (·.1)).Nodup) (k : String) :
    l.reverse.lookup k = l.lookup k := by
  have hr : (l.reverse.map (·.1)).Nodup := by
    rw [List.map_reverse]
    exact List.pairwise_reverse.mpr (h.imp Ne.symm)
  cases hl : l.lookup k with
  | some v => exact lookup_of_mem_of_nodup hr (List.mem_reverse.mpr (mem_of_lookup hl))
  | none =>
    cases hl' : l.reverse.lookup k with
    | none => rfl
    | some v =>
      have := lookup_of_mem_of_nodup h (List.mem_reverse.mp (mem_of_lookup hl'))
      simp [hl] at this

/-- A table made from a list in which no key repeats is looked up like the list. -/
theorem find?_ofList {l : List (String × α)} (h : (l.map (·.1)).Nodup) (k : String) :
    (ofList l).find? k = l.lookup k := by
  rw [ofList, find?_foldl_insert, lookup_reverse h]
  simp

/-! ### Tables of other values -/

theorem lookup_map (f : α → β) (k : String) (l : List (String × α)) :
    (l.map fun e => (e.1, f e.2)).lookup k = (l.lookup k).map f := by
  induction l with
  | nil => rfl
  | cons head rest ih =>
    obtain ⟨k', v⟩ := head
    by_cases h : k' = k <;> simp [lookup_cons, h, ih]

@[simp] theorem find?_map (f : α → β) (t : Table α) (k : String) :
    (t.map f).find? k = (t.find? k).map f := lookup_map f k t.entries

@[simp] theorem contains_map (f : α → β) (t : Table α) (k : String) :
    (t.map f).contains k = t.contains k := by simp [contains]

theorem between_map (f : α → β) (t : Table α) (low high : String) :
    (t.map f).between low high = (t.between low high).map fun e => (e.1, f e.2) :=
  List.filter_map

theorem startingWith_map (f : α → β) (t : Table α) (start : String) :
    (t.map f).startingWith start = (t.startingWith start).map fun e => (e.1, f e.2) :=
  List.filter_map

end Table

end Converge

import Converge.Proofs.Identity
import Converge.Proofs.KeyOrder
import Converge.Proofs.Recreation

/-!
# How a store holds its objects

Whatever operations a store has seen, of which any may have failed, every object in it is stored
under its own table key, and its version is the number of times it was written since it came into
being. The operations see to that in different ways: one takes the key and replaces the version of
the object that it is given, one refuses a change that would move an object, and one writes to the
object that it has found.

## Main definitions

* `Store.Operation.tally`, `Store.writes`: how often an object has been written after an operation
  and after a run.

## Main results

* `Store.Written.apply`, `Store.written_foldl`: an operation and a run count the writes of every
  object.
* `Store.representation`: the keys and versions in a store.
-/

namespace Converge.Store

variable {s : Store} {key : String} {ops : List Operation} {n : Nat} {o : Object}

/-! ### Counting writes -/

/-- How often the object under `key` has been written after an operation of the store `s`, when it
had been written `n` times before. -/
def Operation.tally (s : Store) (key : String) (n : Nat) (op : Operation) : Nat :=
  if op.deletes key then 0 else n + (op.revises s key).toNat

theorem Operation.tally_le (s : Store) (key : String) (n : Nat) (op : Operation) :
    op.tally s key n ≤ n + 1 := by
  have hrevises := Bool.toNat_le (op.revises s key)
  rw [tally]
  split <;> omega

theorem Written.apply (h : s.Written key n) (op : Operation) :
    (op.apply s).Written key (op.tally s key n) := by
  rw [Operation.tally]
  cases hdelete : op.deletes key with
  | true => exact Operation.written_of_deletes hdelete
  | false => exact Operation.written_apply h hdelete

/-- How often it has been written after a run of operations. -/
def writes (key : String) (s : Store) (n : Nat) : List Operation → Nat
  | [] => n
  | op :: ops => writes key (op.apply s) (op.tally s key n) ops

/-- **A run counts the writes** of every object. -/
theorem written_foldl (h : s.Written key n) (ops : List Operation) :
    (ops.foldl Operation.apply s).Written key (writes key s n ops) := by
  induction ops generalizing s n with
  | nil => exact h
  | cons op ops ih => exact ih (h.apply op)

theorem writes_le (key : String) (s : Store) (n : Nat) (ops : List Operation) :
    writes key s n ops ≤ n + ops.length := by
  induction ops generalizing s n with
  | nil => exact Nat.le_refl n
  | cons op ops ih =>
    calc writes key s n (op :: ops)
        ≤ op.tally s key n + ops.length := ih (op.apply s) (op.tally s key n)
      _ ≤ n + 1 + ops.length := Nat.add_le_add_right (op.tally_le s key n) ops.length
      _ = n + (op :: ops).length := by rw [List.length_cons, Nat.add_assoc, Nat.add_comm 1]

/-- A version that counts writes is at least one, as long as its bits are enough for the count. -/
theorem one_le_ofNat (hpos : 0 < n) (hlt : n < UInt64.size) : 1 ≤ UInt64.ofNat n := by
  rw [UInt64.le_iff_toNat_le, UInt64.toNat_ofNat_of_lt' hlt]
  exact hpos

/-! ### Reachable stores -/

/-- **How a store holds its objects.** After any operations each object is stored under its own
table key, and its version is the number of times that it was written since it came into being. That
is at least one, and a version has 64 bits for it. No table key occurs twice, and the keys are
scanned in the order of their code points, also when only the objects of one kind are listed. -/
theorem representation (ops : List Operation) :
    let s := ops.foldl Operation.apply ∅
    (∀ key o, s.objects.find? key = some o →
      let n := writes key ∅ 0 ops
      o.tableKey = key ∧ 0 < n ∧ n ≤ ops.length ∧ o.metadata.version = UInt64.ofNat n ∧
        (n < UInt64.size → 1 ≤ o.metadata.version)) ∧
    (s.objects.entries.map (·.1)).Nodup ∧
    (s.objects.entries.map (·.1)).Pairwise (fun a b => Text.codePoints a < Text.codePoints b) ∧
    ∀ kind, ((s.list kind).map Object.tableKey).Pairwise
      fun a b => Text.codePoints a < Text.codePoints b := by
  intro s
  have hs : s.Placed := (Reachable.empty.foldl ops).placed
  have hsorted : s.objects.entries.Pairwise fun e e' =>
      Text.codePoints e.1 < Text.codePoints e'.1 :=
    s.objects.sorted.imp Text.codePoints_lt_iff.mpr
  refine ⟨fun key o hfind => ?_, s.objects.nodup_keys, List.pairwise_map.mpr hsorted,
    fun kind => ?_⟩
  · obtain ⟨hpos, hversion⟩ := (written_foldl (written_of_none rfl) ops).of_some hfind
    refine ⟨hs key o hfind, hpos, ?_, hversion, fun hlt => ?_⟩
    · simpa using writes_le key ∅ 0 ops
    · rw [hversion]
      exact one_le_ofNat hpos hlt
  · rw [map_tableKey_list hs]
    exact List.pairwise_map.mpr (hsorted.filter _)

/-- A database is not moved, and makes room for a new one. This counts from one, whatever version it
comes with, and is written once more; a status for the version that it came with is refused. -/
theorem representation_orders :
    let database := Object.empty "Database" ⟨"prod", "orders"⟩
    let ops : List Operation :=
      [.put database, .upsert database fun o => .ok { o with kind := "Service" },
        .delete "Database" ⟨"prod", "orders"⟩, .upsert database fun o => .ok (o.withVersion 7),
        .writeStatus (database.withVersion 7), .put database]
    let s := ops.foldl Operation.apply ∅
    ∃ o, s.objects.find? "Database/prod/orders" = some o ∧ o.tableKey = "Database/prod/orders" ∧
      o.metadata.version = 2 ∧ 1 ≤ o.metadata.version := by
  intro database ops s
  obtain ⟨o, ho⟩ : ∃ o, s.objects.find? "Database/prod/orders" = some o :=
    Option.isSome_iff_exists.mp (by decide +kernel)
  obtain ⟨hkey, -, -, hversion, hone⟩ := (representation ops).1 "Database/prod/orders" o ho
  have hwrites : writes "Database/prod/orders" ∅ 0 ops = 2 := by decide +kernel
  rw [hwrites] at hversion hone
  exact ⟨o, ho, hkey, hversion, hone (by decide)⟩

end Converge.Store

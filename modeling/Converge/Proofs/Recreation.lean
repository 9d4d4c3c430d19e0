import Converge.Proofs.Versions

/-!
# Objects that are stored again

The version of an object counts how often that object was written. An object that is stored where
another one was deleted is a new one, and its versions begin with the first one again. The store
compares numbers only. So a client that still holds the deleted object is refused as long as the new
object was not written as often as the deleted one was when the client read it, and otherwise its
status is given to the new object.

## Main definitions

* `Store.Written`: how often the object under a key was written.

## Main results

* `Store.Operation.written_apply`: what an operation adds to that.
* `SharedStore.written_run`: an object was written as often as the run has written it since it was
  deleted.
* `SharedStore.status_after_recreation`: when a client that holds a deleted object is refused.
-/

namespace Converge

namespace Store

variable {s : Store} {key : String} {op : Operation} {n : Nat}

/-- The object under `key` was written `n` times since it came into being, as its version tells. For
no writes there is no object. -/
def Written (s : Store) (key : String) (n : Nat) : Prop :=
  (s.objects.find? key).elim (n = 0) fun o => 0 < n ∧ o.metadata.version = UInt64.ofNat n

theorem written_of_none (h : s.objects.find? key = none) : s.Written key 0 := by
  rw [Written, h]
  rfl

theorem Written.of_some {o : Object} (h : s.Written key n) (hfind : s.objects.find? key = some o) :
    0 < n ∧ o.metadata.version = UInt64.ofNat n := by
  rwa [Written, hfind] at h

private theorem Written.isSome_iff (h : s.Written key n) :
    (s.objects.find? key).isSome = true ↔ 0 < n := by
  rw [Written] at h
  cases hfind : s.objects.find? key with
  | none =>
    rw [hfind] at h
    obtain rfl : n = 0 := h
    decide
  | some o =>
    rw [hfind] at h
    exact iff_of_true rfl h.1

/-- **An operation counts.** A write makes a first version or adds one to the version that is
there. -/
theorem Operation.written_apply (h : s.Written key n) (hdelete : op.deletes key = false) :
    (op.apply s).Written key (n + (op.revises s key).toNat) := by
  cases hrevises : op.revises s key with
  | false => rwa [Written, find?_apply_of_not_revises hrevises hdelete]
  | true =>
    obtain ⟨o, ho, hversion⟩ := find?_apply_of_revises hrevises
    rw [Written, ho]
    refine ⟨Nat.succ_pos n, hversion.trans ?_⟩
    cases hfind : s.objects.find? key with
    | none =>
      rw [Written, hfind] at h
      obtain rfl : n = 0 := h
      rfl
    | some stored =>
      obtain ⟨-, hstored⟩ := h.of_some hfind
      calc stored.metadata.version + 1
          = UInt64.ofNat n + UInt64.ofNat 1 := by rw [hstored]; rfl
        _ = UInt64.ofNat (n + 1) := (UInt64.ofNat_add n 1).symm

/-- What becomes of a status is decided by the version of the object that is there. -/
private theorem writeStatus_of_find? {o stored : Object}
    (h : s.objects.find? o.tableKey = some stored) : s.writeStatus o =
      if stored.metadata.version = o.metadata.version then
        (.ok (stored.metadata.version + 1), s.withObject o.tableKey
          ({ stored with status := o.status }.withVersion (stored.metadata.version + 1)))
      else (.error (.conflict o.tableKey o.metadata.version stored.metadata.version), s) := by
  rw [writeStatus_eq, h]

theorem Operation.written_of_deletes (h : op.deletes key = true) : (op.apply s).Written key 0 :=
  written_of_none ((op.counted s).deletes key h)

end Store

namespace SharedStore

variable {ι : Type} [DecidableEq ι] {x : SharedStore ι} {m : Move ι} {before after : List (Move ι)}
  {moves : List (Move ι)} {tkey : String} {client : ι} {o : Object} {n : Nat}

private theorem written_step (h : x.store.Written tkey n) (hdelete : m.deletes tkey = false) :
    (x.step m).store.Written tkey (n + (x.revises tkey m).toNat) := by
  cases hop : x.operation? m with
  | none => simpa [step, revises, hop] using h
  | some op =>
    simp only [step, revises, hop, Option.elim_some, Option.any_some]
    exact Store.Operation.written_apply h ((deletes_of_operation? hop).trans hdelete)

/-- In a run in which an object is not deleted its writes add up. -/
theorem written_run (h : x.store.Written tkey n) (hdelete : ∀ m ∈ moves, m.deletes tkey = false) :
    (x.run moves).store.Written tkey (n + x.revisions tkey moves) := by
  induction moves generalizing x n with
  | nil => exact h
  | cons m moves ih =>
    obtain ⟨hm, hmoves⟩ := List.forall_mem_cons.mp hdelete
    rw [revisions, ← Nat.add_assoc]
    exact ih (written_step h hm) hmoves

private theorem written_step_of_deletes (h : m.deletes tkey = true) :
    (x.step m).store.Written tkey 0 := by
  cases m with
  | operate op => exact Store.Operation.written_of_deletes h
  | read | save => exact nomatch h

/-- After a deletion the writes of the rest of the run are those of the object that is there. -/
private theorem written_run_of_deletes (h : m.deletes tkey = true)
    (hdelete : ∀ m ∈ after, m.deletes tkey = false) :
    ((x.run (before ++ [m])).run after).store.Written tkey
      ((x.run (before ++ [m])).revisions tkey after) := by
  have hforgotten : (x.run (before ++ [m])).store.Written tkey 0 := by
    rw [run, List.foldl_append]
    exact written_step_of_deletes h
  simpa using written_run hforgotten hdelete

/-- **A status after a deletion.** Let clients share a store that has come about by any operations.
One of them reads an object, and reads nothing else after that. Then clients and operations follow
each other in any order, and the object is deleted, for the last time in the move `m`. The object is
there again exactly when it was written since, and its version is the number of these writes. As
long as this is not the version that the client has read, the client is refused for a conflict and
nothing changes. When it is, the client gives its status to the new object. -/
theorem status_after_recreation (hs : x.store.Reachable) {kind : String} {key : ObjectKey}
    (hfind : x.store.find? kind key = some o)
    (hreads : ∀ kind key, Move.read client kind key ∉ before ++ m :: after)
    (hdeleted : m.deletes (tableKey kind key) = true)
    (hkept : ∀ m ∈ after, m.deletes (tableKey kind key) = false) :
    let y := (x.step (.read client kind key)).run (before ++ [m])
    let z := y.run after
    let writes := y.revisions (tableKey kind key) after
    z.seen client = some o ∧ ((z.store.find? kind key).isSome = true ↔ 0 < writes) ∧
      ∀ stored, z.store.find? kind key = some stored →
        stored.metadata.version = UInt64.ofNat writes ∧ ∀ status,
          (o.metadata.version ≠ UInt64.ofNat writes → z.store.writeStatus { o with status } =
            (.error (.conflict (tableKey kind key) o.metadata.version stored.metadata.version),
              z.store)) ∧
          (o.metadata.version = UInt64.ofNat writes →
            (z.store.writeStatus { o with status }).1 = .ok (stored.metadata.version + 1) ∧
            (z.step (.save client status)).store.find? kind key =
              some ({ stored with status }.withVersion (stored.metadata.version + 1))) := by
  intro y z writes
  have hplace : o.tableKey = tableKey kind key := hs.placed _ o hfind
  have hseen : z.seen client = some o := by
    have hmoves : z = (x.step (.read client kind key)).run (before ++ m :: after) := by
      simp [z, y, run]
    rw [hmoves, seen_run hreads, ← hfind]
    exact Function.update_self _ _ _
  have hwritten : z.store.Written (tableKey kind key) writes :=
    written_run_of_deletes hdeleted hkept
  refine ⟨hseen, hwritten.isSome_iff, fun stored hstored => ?_⟩
  obtain ⟨-, hversion⟩ := hwritten.of_some hstored
  refine ⟨hversion, fun status => ?_⟩
  have hsave : z.store.writeStatus { o with status } =
      if stored.metadata.version = o.metadata.version then
        (.ok (stored.metadata.version + 1), z.store.withObject (tableKey kind key)
          ({ stored with status }.withVersion (stored.metadata.version + 1)))
      else (.error (.conflict (tableKey kind key) o.metadata.version stored.metadata.version),
        z.store) := by
    rw [Store.find?, ← hplace] at hstored
    rw [← hplace]
    exact Store.writeStatus_of_find? (o := { o with status }) hstored
  constructor
  · intro hne
    rw [hsave, if_neg]
    rw [hversion]
    exact hne.symm
  · intro heq
    rw [← hversion] at heq
    rw [if_pos heq.symm] at hsave
    refine ⟨by rw [hsave], ?_⟩
    have hstep : (z.step (.save client status)).store =
        (z.store.writeStatus { o with status }).2 := by
      simp only [step, operation?, hseen]
      rfl
    rw [hstep, hsave]
    exact Table.find?_insert_self _ _ _

/-- A service was deleted, and another one was stored in its place and then changed: a client that
has read the first version of the deleted one is refused. -/
theorem status_after_recreation_changed :
    let grpc : ObjectKey := ⟨"prod", "orders-grpc"⟩
    let service (port : String) : Object := { Object.empty "Service" grpc with spec := .str port }
    let x : SharedStore Unit := ⟨(Store.Operation.put (service "1")).apply ∅, fun _ => none⟩
    let deletion : Move Unit := .operate (.delete "Service" grpc)
    let after : List (Move Unit) := [.operate (.put (service "2")), .operate (.put (service "3"))]
    let z := ((x.step (.read () "Service" grpc)).run ([] ++ [deletion])).run after
    z.seen () = some ((service "1").withVersion 1) ∧
      (z.store.find? "Service" grpc).map (·.metadata.version) = some 2 ∧
      z.store.writeStatus { (service "1").withVersion 1 with status := .str "Ready" } =
        (.error (.conflict "Service/prod/orders-grpc" 1 2), z.store) := by
  intro grpc service x deletion after z
  have hs : x.store.Reachable := Store.Reachable.empty.apply (.put (service "1"))
  have hfind : x.store.find? "Service" grpc = some ((service "1").withVersion 1) := rfl
  have hreads : ∀ kind key, Move.read () kind key ∉ [] ++ deletion :: after := by
    simp [deletion, after]
  have hkept : ∀ m ∈ after, m.deletes (tableKey "Service" grpc) = false := by
    simp [after, Move.deletes, Store.Operation.deletes]
  have hkey : tableKey "Service" grpc = "Service/prod/orders-grpc" := by decide
  have hwrites : ((x.step (.read () "Service" grpc)).run ([] ++ [deletion])).revisions
      (tableKey "Service" grpc) after = 2 := by decide +kernel
  have hversion : (z.store.find? "Service" grpc).map (·.metadata.version) = some 2 := by
    decide +kernel
  obtain ⟨stored, hstored, htwo⟩ := Option.map_eq_some_iff.mp hversion
  obtain ⟨hseen, -, hguard⟩ :=
    status_after_recreation hs hfind hreads (beq_self_eq_true (tableKey "Service" grpc)) hkept
  refine ⟨hseen, hversion, ?_⟩
  rw [← hkey, ← htwo]
  exact ((hguard _ hstored).2 (.str "Ready")).1 (by rw [hwrites]; decide)

/-- A service was deleted, and another one was stored in its place. Its version is the one that a
client has read of the deleted one, and so the client gives its status to the new one. -/
theorem status_crosses_deletion :
    let grpc : ObjectKey := ⟨"prod", "orders-grpc"⟩
    let service (port : String) : Object := { Object.empty "Service" grpc with spec := .str port }
    let x : SharedStore Unit := ⟨(Store.Operation.put (service "1")).apply ∅, fun _ => none⟩
    let z := x.run [.read () "Service" grpc, .operate (.delete "Service" grpc),
      .operate (.put (service "2"))]
    z.seen () = some ((service "1").withVersion 1) ∧
      z.store.find? "Service" grpc = some ((service "2").withVersion 1) ∧
      (z.store.writeStatus { (service "1").withVersion 1 with status := .str "Ready" }).1 = .ok 2 ∧
      (z.step (.save () (.str "Ready"))).store.find? "Service" grpc =
        some ({ service "2" with status := .str "Ready" }.withVersion 2) := by
  intro grpc service x z
  exact ⟨rfl, rfl, rfl, Table.find?_insert_self _ _ _⟩

end SharedStore

end Converge

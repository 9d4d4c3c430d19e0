import Converge.Proofs.Operations
import Mathlib.Logic.Function.Basic

/-!
# Versions guard statuses

The version of an object counts how often the object was written. Clients that share a store read
an object, edit its status and write it back, with anything else going on in between. By the
version the store knows whether the object was written since the client has read it, and then it
refuses the client. So of all the clients that have read one version only one gets its status
written.

## Main definitions

* `Store.Operation.fails`, `Store.Operation.revises`, `Store.Operation.deletes`: what becomes of an
  operation.
* `Store.Operation.Counted`: what an operation does to the versions in a store.
* `SharedStore`, `SharedStore.Move`, `SharedStore.run`: clients that share a store.
* `SharedStore.revisions`, `SharedStore.successes`: how often an object is written in a run, and how
  often that is a status based on a given version.

## Main results

* `Store.Operation.counted`: every operation counts the versions.
* `SharedStore.versionAt_run`: in a run the version of an object grows with each write.
* `SharedStore.optimistic_concurrency`: a client is refused exactly when the object was written
  since, and of the clients that have read one version at most one succeeds.
-/

namespace Converge

namespace Store

variable {s : Store} {key : String} {op : Operation} {o : Object}

/-! ### What becomes of an operation -/

/-- The operation fails. -/
def Operation.fails (s : Store) : Operation → Bool
  | upsert placeholder change => !(s.upsert placeholder change).1.isOk
  | writeStatus o => !(s.writeStatus o).1.isOk
  | put _ | delete .. | putTenant _ | putEvent _ => false

/-- The operation writes the object under `key`: it is stored, created or changed, or gets another
status. -/
def Operation.revises (s : Store) (key : String) : Operation → Bool
  | put o => o.tableKey == key
  | upsert placeholder change =>
    placeholder.tableKey == key && (s.upsert placeholder change).1.toOption.any Upserted.changed
  | writeStatus o => o.tableKey == key && (s.writeStatus o).1.isOk
  | delete .. | putTenant _ | putEvent _ => false

/-- The operation deletes the object under `key`. -/
def Operation.deletes (key : String) : Operation → Bool
  | delete kind key' => tableKey kind key' == key
  | put _ | upsert .. | writeStatus _ | putTenant _ | putEvent _ => false

/-- The version of the object under a key, and zero where there is none. -/
def versionAt (s : Store) (key : String) : Nat :=
  (s.objects.find? key).elim 0 (·.metadata.version.toNat)

private theorem versionAt_of_find? (h : s.objects.find? key = some o) :
    s.versionAt key = o.metadata.version.toNat := by
  rw [versionAt, h]
  rfl

private theorem writeStatus_isOk_iff : (s.writeStatus o).1.isOk = true ↔
    ∃ stored, s.objects.find? o.tableKey = some stored ∧
      stored.metadata.version = o.metadata.version := by
  rw [writeStatus_eq]
  cases s.objects.find? o.tableKey with
  | none => simp [Except.isOk, Except.toBool]
  | some stored =>
    by_cases h : stored.metadata.version = o.metadata.version <;>
      simp [h, Except.isOk, Except.toBool]

private theorem Operation.apply_of_fails (h : op.fails s = true) : op.apply s = s := by
  have hfailed : ∀ {α : Type} {result : Except StoreError α}, (!result.isOk) = true →
      ∃ e, result = .error e := by
    intro α result hresult
    cases result with
    | ok => exact nomatch hresult
    | error e => exact ⟨e, rfl⟩
  cases op with
  | upsert placeholder change =>
    obtain ⟨e, he⟩ := hfailed h
    exact transact_error he
  | writeStatus o =>
    obtain ⟨e, he⟩ := hfailed h
    exact transact_error he
  | put | delete | putTenant | putEvent => exact nomatch h

theorem Operation.find?_apply_of_revises (h : op.revises s key = true) :
    ∃ o, (op.apply s).objects.find? key = some o ∧ o.metadata.version =
      (s.objects.find? key).elim 1 (·.metadata.version + 1) := by
  cases op with
  | put o =>
    obtain rfl : o.tableKey = key := beq_iff_eq.mp h
    refine ⟨_, Table.find?_insert_self _ _ _, ?_⟩
    cases s.objects.find? o.tableKey <;> rfl
  | upsert placeholder change =>
    obtain ⟨hkey, hchanged⟩ := Bool.and_eq_true_iff.mp h
    obtain rfl : placeholder.tableKey = key := beq_iff_eq.mp hkey
    dsimp only [Operation.apply]
    rw [upsert_eq] at hchanged ⊢
    split at hchanged
    · exact nomatch hchanged
    · rename_i hfind
      rw [hfind]
      exact ⟨_, Table.find?_insert_self _ _ _, rfl⟩
    · rename_i hfind
      rw [hfind]
      split at hchanged
      · exact nomatch hchanged
      · rename_i hsame
        rw [if_neg hsame]
        exact ⟨_, Table.find?_insert_self _ _ _, rfl⟩
  | writeStatus o =>
    obtain ⟨hkey, hok⟩ := Bool.and_eq_true_iff.mp h
    obtain rfl : o.tableKey = key := beq_iff_eq.mp hkey
    obtain ⟨stored, hfind, hversion⟩ := writeStatus_isOk_iff.mp hok
    dsimp only [Operation.apply]
    simp only [writeStatus_eq, hfind, if_pos hversion]
    exact ⟨_, Table.find?_insert_self _ _ _, rfl⟩
  | delete | putTenant | putEvent => exact nomatch h

/-- Where an operation neither writes nor deletes the object stays as it is. -/
theorem Operation.find?_apply_of_not_revises (h : op.revises s key = false)
    (hdelete : op.deletes key = false) :
    (op.apply s).objects.find? key = s.objects.find? key := by
  cases op with
  | put o => exact Table.find?_insert_ne _ (beq_eq_false_iff_ne.mp h) _
  | delete kind key' =>
    have hne : tableKey kind key' ≠ key := beq_eq_false_iff_ne.mp hdelete
    exact (Table.find?_erase _ _ _).trans (if_neg hne)
  | upsert placeholder change =>
    by_cases hkey : placeholder.tableKey = key
    · have hchanged : (s.upsert placeholder change).1.toOption.any Upserted.changed = false := by
        simpa [Operation.revises, hkey] using h
      dsimp only [Operation.apply]
      rw [upsert_eq] at hchanged ⊢
      split at hchanged
      · rfl
      · exact nomatch hchanged
      · split at hchanged
        · rename_i hsame
          rw [if_pos hsame]
        · exact nomatch hchanged
    · simp only [Operation.apply, upsert_eq]
      split
      · rfl
      · exact Table.find?_insert_ne _ hkey _
      · split
        · rfl
        · exact Table.find?_insert_ne _ hkey _
  | writeStatus o =>
    by_cases hkey : o.tableKey = key
    · have hfails : (Operation.writeStatus o).fails s = true := by
        simpa [Operation.revises, Operation.fails, hkey] using h
      rw [Operation.apply_of_fails hfails]
    · simp only [Operation.apply, writeStatus_eq]
      split
      · rfl
      · split
        · exact Table.find?_insert_ne _ hkey _
        · rfl
  | putTenant request => rw [Operation.apply, putTenant_eq]
  | putEvent e => rw [Operation.apply, putEvent_eq]

/-- What an operation does to the versions in a store. The version of an object stays within the 64
bits that it is kept in. -/
structure Operation.Counted (s : Store) (op : Operation) : Prop where
  /-- An operation that fails leaves the whole store as it was. -/
  fails : op.fails s = true → op.apply s = s
  /-- An object that is created has the version one. -/
  creates : ∀ key, op.revises s key = true → s.objects.find? key = none →
    ∃ o, (op.apply s).objects.find? key = some o ∧ o.metadata.version = 1
  /-- An object that is written has the next version. -/
  revises : ∀ key stored, op.revises s key = true → s.objects.find? key = some stored →
    stored.metadata.version.toNat + 1 < UInt64.size →
    ∃ o, (op.apply s).objects.find? key = some o ∧
      o.metadata.version.toNat = stored.metadata.version.toNat + 1
  /-- An object that is deleted is gone. -/
  deletes : ∀ key, op.deletes key = true → (op.apply s).objects.find? key = none
  /-- All other objects stay as they are. -/
  keeps : ∀ key, op.revises s key = false → op.deletes key = false →
    (op.apply s).objects.find? key = s.objects.find? key

private theorem toNat_add_one {version : UInt64} (h : version.toNat + 1 < UInt64.size) :
    (version + 1).toNat = version.toNat + 1 := by
  rw [UInt64.toNat_add]
  exact Nat.mod_eq_of_lt h

/-- **Every operation counts the versions.** -/
theorem Operation.counted (s : Store) (op : Operation) : op.Counted s where
  fails := apply_of_fails
  creates key h hnone := by
    obtain ⟨o, hfind, hversion⟩ := find?_apply_of_revises h
    rw [hnone] at hversion
    exact ⟨o, hfind, hversion⟩
  revises key stored h hstored hbound := by
    obtain ⟨o, hfind, hversion⟩ := find?_apply_of_revises h
    rw [hstored] at hversion
    exact ⟨o, hfind, by rw [hversion]; exact toNat_add_one hbound⟩
  deletes key h := by
    cases op with
    | delete kind key' => exact (Table.find?_erase _ _ _).trans (if_pos (beq_iff_eq.mp h))
    | put | upsert | writeStatus | putTenant | putEvent => exact nomatch h
  keeps _ := find?_apply_of_not_revises

private theorem Operation.versionAt_apply (hdelete : op.deletes key = false)
    (hbound : s.versionAt key + (op.revises s key).toNat < UInt64.size) :
    (op.apply s).versionAt key = s.versionAt key + (op.revises s key).toNat := by
  cases hrevises : op.revises s key with
  | false => rw [versionAt, (op.counted s).keeps key hrevises hdelete, versionAt]; rfl
  | true =>
    rw [hrevises] at hbound
    cases hfind : s.objects.find? key with
    | none =>
      obtain ⟨o, ho, hversion⟩ := (op.counted s).creates key hrevises hfind
      rw [versionAt_of_find? ho, hversion, versionAt, hfind]
      rfl
    | some stored =>
      rw [versionAt_of_find? hfind] at hbound ⊢
      obtain ⟨o, ho, hversion⟩ := (op.counted s).revises key stored hrevises hfind hbound
      rw [versionAt_of_find? ho, hversion]
      rfl

private theorem Operation.isSome_find?_apply (hdelete : op.deletes key = false)
    (h : (s.objects.find? key).isSome = true) : ((op.apply s).objects.find? key).isSome = true := by
  cases hrevises : op.revises s key with
  | false => rwa [find?_apply_of_not_revises hrevises hdelete]
  | true =>
    obtain ⟨o, ho, -⟩ := find?_apply_of_revises hrevises
    rw [ho]
    rfl

end Store

/-! ### Clients that share a store -/

/-- A store, and what each of its clients has read last. -/
structure SharedStore (ι : Type) where
  store : Store
  seen : ι → Option Object

namespace SharedStore

variable {ι : Type}

/-- What can happen when clients share a store. -/
inductive Move (ι : Type) where
  /-- A client reads an object. -/
  | read (client : ι) (kind : String) (key : ObjectKey)
  /-- A client gives another status to the object that it has read last, and writes that. -/
  | save (client : ι) (status : Json)
  /-- Anybody performs an operation. -/
  | operate (op : Store.Operation)

/-- The move deletes the object under `key`. -/
def Move.deletes (key : String) : Move ι → Bool
  | operate op => op.deletes key
  | read .. | save .. => false

/-- The operation that a move performs on the store. -/
def operation? (x : SharedStore ι) : Move ι → Option Store.Operation
  | .read .. => none
  | .save client status => (x.seen client).map fun o => .writeStatus { o with status }
  | .operate op => some op

/-- The move writes the object under `key`. -/
def revises (x : SharedStore ι) (key : String) (m : Move ι) : Bool :=
  (x.operation? m).any (·.revises x.store key)

/-- A client that tries to write a status now would succeed. -/
def succeeds (x : SharedStore ι) (client : ι) (status : Json) : Bool :=
  (x.seen client).any fun o => (x.store.writeStatus { o with status }).1.isOk

/-- In the move a client succeeds in writing a status to the object under `key`, of which it has
read the version `version`. -/
def wins (x : SharedStore ι) (key : String) (version : UInt64) : Move ι → Bool
  | .save client status => x.succeeds client status &&
    (x.seen client).any fun o => o.tableKey == key && o.metadata.version == version
  | .read .. | .operate _ => false

variable {x : SharedStore ι} {m : Move ι} {moves : List (Move ι)} {key : String} {client : ι}
  {version : UInt64} {status : Json} {o : Object}

theorem deletes_of_operation? {op : Store.Operation} (h : x.operation? m = some op) :
    op.deletes key = m.deletes key := by
  cases m with
  | read => exact nomatch h
  | operate op' =>
    obtain rfl := Option.some.inj h
    rfl
  | save client status =>
    obtain ⟨o, -, rfl⟩ := Option.map_eq_some_iff.mp h
    rfl

private theorem succeeds_iff (hseen : x.seen client = some o) : x.succeeds client status = true ↔
    ∃ stored, x.store.objects.find? o.tableKey = some stored ∧
      stored.metadata.version = o.metadata.version := by
  rw [succeeds, hseen, Option.any_some, Store.writeStatus_isOk_iff]
  rfl

private theorem revises_of_wins (h : x.wins key version m = true) :
    x.revises key m = true ∧ x.store.versionAt key = version.toNat := by
  cases m with
  | read | operate => exact nomatch h
  | save client status =>
    obtain ⟨hsucceeds, hbased⟩ := Bool.and_eq_true_iff.mp h
    obtain ⟨o, hseen, hbased⟩ := (Option.any_eq_true _ _).mp hbased
    obtain ⟨hkey, hversion⟩ := Bool.and_eq_true_iff.mp hbased
    obtain rfl : o.tableKey = key := beq_iff_eq.mp hkey
    obtain rfl : o.metadata.version = version := beq_iff_eq.mp hversion
    obtain ⟨stored, hfind, hstored⟩ := (succeeds_iff hseen).mp hsucceeds
    refine ⟨?_, by rw [Store.versionAt_of_find? hfind, hstored]⟩
    have hok : (x.store.writeStatus { o with status }).1.isOk = true := by
      simpa [succeeds, hseen] using hsucceeds
    simp only [revises, operation?, hseen, Option.map_some, Option.any_some,
      Store.Operation.revises, hok, Bool.and_true]
    exact beq_iff_eq.mpr rfl

/-! ### Runs -/

variable [DecidableEq ι]

/-- The clients and their store after a move. -/
def step (x : SharedStore ι) (m : Move ι) : SharedStore ι where
  store := (x.operation? m).elim x.store (·.apply x.store)
  seen := match m with
    | .read client kind key => Function.update x.seen client (x.store.find? kind key)
    | .save .. | .operate _ => x.seen

/-- The clients and their store after some moves. -/
def run (x : SharedStore ι) (moves : List (Move ι)) : SharedStore ι := moves.foldl step x

/-- How often the object under `key` is written in a run. -/
def revisions (key : String) : SharedStore ι → List (Move ι) → Nat
  | _, [] => 0
  | x, m :: moves => (x.revises key m).toNat + revisions key (x.step m) moves

/-- How often in a run a status is written on the basis of the version `version` of the object
under `key`. -/
def successes (key : String) (version : UInt64) : SharedStore ι → List (Move ι) → Nat
  | _, [] => 0
  | x, m :: moves => (x.wins key version m).toNat + successes key version (x.step m) moves

private theorem versionAt_step (hdelete : m.deletes key = false)
    (hbound : x.store.versionAt key + (x.revises key m).toNat < UInt64.size) :
    (x.step m).store.versionAt key = x.store.versionAt key + (x.revises key m).toNat := by
  cases hop : x.operation? m with
  | none => simp [step, revises, hop]
  | some op =>
    simp only [step, revises, hop, Option.elim_some, Option.any_some] at hbound ⊢
    exact Store.Operation.versionAt_apply ((deletes_of_operation? hop).trans hdelete) hbound

/-- The first move of a run in which the version stays within its 64 bits counts it, and the version
stays there in the rest of the run. -/
private theorem versionAt_cons (hdelete : m.deletes key = false)
    (hbound : x.store.versionAt key + x.revisions key (m :: moves) < UInt64.size) :
    (x.step m).store.versionAt key = x.store.versionAt key + (x.revises key m).toNat ∧
      (x.step m).store.versionAt key + (x.step m).revisions key moves < UInt64.size := by
  rw [revisions, ← Nat.add_assoc] at hbound
  have hstep := versionAt_step hdelete (Nat.lt_of_le_of_lt (Nat.le_add_right _ _) hbound)
  exact ⟨hstep, by rwa [hstep]⟩

/-- **Versions count writes.** In a run in which the object is not deleted its version grows by the
number of writes. -/
theorem versionAt_run (hdelete : ∀ m ∈ moves, m.deletes key = false)
    (hbound : x.store.versionAt key + x.revisions key moves < UInt64.size) :
    (x.run moves).store.versionAt key = x.store.versionAt key + x.revisions key moves := by
  induction moves generalizing x with
  | nil => rfl
  | cons m moves ih =>
    obtain ⟨hm, hmoves⟩ := List.forall_mem_cons.mp hdelete
    obtain ⟨hstep, hrest⟩ := versionAt_cons hm hbound
    rw [revisions, ← Nat.add_assoc, ← hstep]
    exact ih hmoves hrest

private theorem isSome_find?_run (hdelete : ∀ m ∈ moves, m.deletes key = false)
    (h : (x.store.objects.find? key).isSome = true) :
    ((x.run moves).store.objects.find? key).isSome = true := by
  induction moves generalizing x with
  | nil => exact h
  | cons m moves ih =>
    obtain ⟨hm, hmoves⟩ := List.forall_mem_cons.mp hdelete
    refine ih hmoves ?_
    cases hop : x.operation? m with
    | none => simpa [step, hop] using h
    | some op =>
      simp only [step, hop, Option.elim_some]
      exact Store.Operation.isSome_find?_apply ((deletes_of_operation? hop).trans hm) h

/-- What a client has read it still holds after a run in which it reads nothing else. -/
theorem seen_run (h : ∀ kind key, Move.read client kind key ∉ moves) :
    (x.run moves).seen client = x.seen client := by
  induction moves generalizing x with
  | nil => rfl
  | cons m moves ih =>
    have hrest := @ih (x.step m) fun kind key hmem => h kind key (List.mem_cons_of_mem m hmem)
    refine hrest.trans ?_
    cases m with
    | read client' kind key =>
      have hne : client ≠ client' := by
        rintro rfl
        exact h kind key List.mem_cons_self
      exact Function.update_of_ne hne _ _
    | save | operate => rfl

/-- **A status is written over what was read.** A client that has read an object succeeds in writing
its status exactly when nobody has written the object since. -/
private theorem succeeds_iff_revisions {kind : String} {key : ObjectKey} (hs : x.store.Placed)
    (hfind : x.store.find? kind key = some o)
    (hreads : ∀ kind key, Move.read client kind key ∉ moves)
    (hdelete : ∀ m ∈ moves, m.deletes (tableKey kind key) = false)
    (hbound : o.metadata.version.toNat +
      (x.step (.read client kind key)).revisions (tableKey kind key) moves < UInt64.size) :
    ((x.step (.read client kind key)).run moves).succeeds client status = true ↔
      (x.step (.read client kind key)).revisions (tableKey kind key) moves = 0 := by
  have hplace : o.tableKey = tableKey kind key := hs _ o hfind
  have hread : (x.step (.read client kind key)).seen client = some o := by
    rw [← hfind]
    exact Function.update_self _ _ _
  have hfind' : (x.step (.read client kind key)).store.objects.find? o.tableKey = some o :=
    hplace ▸ hfind
  rw [← hplace] at hdelete hbound ⊢
  generalize x.step (.read client kind key) = y at hread hfind' hbound ⊢
  have hseen : (y.run moves).seen client = some o := (seen_run hreads).trans hread
  obtain ⟨stored, hstored⟩ := Option.isSome_iff_exists.mp <|
    isSome_find?_run hdelete (Option.isSome_iff_exists.mpr ⟨o, hfind'⟩)
  have hversion : stored.metadata.version.toNat =
      o.metadata.version.toNat + y.revisions o.tableKey moves := by
    rw [← Store.versionAt_of_find? hfind'] at hbound ⊢
    rw [← Store.versionAt_of_find? hstored]
    exact versionAt_run hdelete hbound
  rw [succeeds_iff hseen, hstored]
  constructor
  · rintro ⟨_, heq, hsame⟩
    obtain rfl := Option.some.inj heq
    rw [hsame] at hversion
    omega
  · intro hnone
    refine ⟨stored, rfl, UInt64.toNat_inj.mp ?_⟩
    rw [hversion, hnone, Nat.add_zero]

/-! ### Clients that have read one version -/

private theorem successes_eq_zero (hdelete : ∀ m ∈ moves, m.deletes key = false)
    (hbound : x.store.versionAt key + x.revisions key moves < UInt64.size)
    (hlater : version.toNat < x.store.versionAt key) : x.successes key version moves = 0 := by
  induction moves generalizing x with
  | nil => rfl
  | cons m moves ih =>
    obtain ⟨hm, hmoves⟩ := List.forall_mem_cons.mp hdelete
    obtain ⟨hstep, hrest⟩ := versionAt_cons hm hbound
    have hloses : x.wins key version m = false := by
      refine Bool.eq_false_iff.mpr fun hwins => ?_
      have hversion := (revises_of_wins hwins).2
      omega
    have hzero : successes key version (x.step m) moves = 0 := ih hmoves hrest (by omega)
    rw [successes, hloses, hzero]
    rfl

/-- **One client succeeds.** Of the clients that have read one version of an object at most one
succeeds in writing its status, and only once. -/
private theorem successes_le_one (hdelete : ∀ m ∈ moves, m.deletes key = false)
    (hbound : x.store.versionAt key + x.revisions key moves < UInt64.size) :
    x.successes key version moves ≤ 1 := by
  induction moves generalizing x with
  | nil => exact Nat.zero_le 1
  | cons m moves ih =>
    obtain ⟨hm, hmoves⟩ := List.forall_mem_cons.mp hdelete
    obtain ⟨hstep, hrest⟩ := versionAt_cons hm hbound
    rw [successes]
    cases hwins : x.wins key version m with
    | false => simpa using ih hmoves hrest
    | true =>
      obtain ⟨hrevises, hversion⟩ := revises_of_wins hwins
      rw [hrevises, hversion] at hstep
      have hlater : version.toNat < (x.step m).store.versionAt key := by
        rw [hstep]
        exact Nat.lt_succ_self _
      rw [successes_eq_zero hmoves hrest hlater]
      exact Nat.le_refl 1

/-- **Optimistic concurrency.** Let any number of clients share a store that has come about by any
operations, and hold whatever they have read. Every operation counts the versions. Let a client read
an object, and then let clients and operations follow each other in any order, as long as the client
reads nothing else and the object is not deleted: the client succeeds in writing the status of what
it has read exactly when nobody has written the object since. And in a run in which an object is not
deleted at most one status is written on the basis of one version. The versions have to stay within
the 64 bits that they are kept in. -/
theorem optimistic_concurrency (hs : x.store.Reachable) :
    (∀ op : Store.Operation, op.Counted x.store) ∧
    (∀ client kind key o moves, x.store.find? kind key = some o →
      (∀ kind key, Move.read client kind key ∉ moves) →
      (∀ m ∈ moves, m.deletes (tableKey kind key) = false) →
      let y := x.step (.read client kind key)
      o.metadata.version.toNat + y.revisions (tableKey kind key) moves < UInt64.size →
      ∀ status, (y.run moves).succeeds client status = true ↔
        y.revisions (tableKey kind key) moves = 0) ∧
    ∀ key version moves, (∀ m ∈ moves, m.deletes key = false) →
      x.store.versionAt key + x.revisions key moves < UInt64.size →
      x.successes key version moves ≤ 1 :=
  ⟨fun op => op.counted x.store,
    fun _ _ _ _ _ hfind hreads hdelete hbound _ =>
      succeeds_iff_revisions hs.placed hfind hreads hdelete hbound,
    fun _ _ _ hdelete hbound => successes_le_one hdelete hbound⟩

/-- Two clients read the first version of a database. The one that writes its status first succeeds,
and the other is refused. -/
theorem optimistic_concurrency_two_clients :
    let D : ObjectKey := ⟨"prod", "orders"⟩
    let x : SharedStore Bool := ⟨(Store.Operation.put (.empty "Database" D)).apply ∅, fun _ => none⟩
    let moves : List (Move Bool) := [.read true "Database" D, .save true (.str "first")]
    let y := x.step (.read false "Database" D)
    (y.run moves).succeeds false (.str "second") = false ∧
      x.successes "Database/prod/orders" 1
        (.read false "Database" D :: moves ++ [.save false (.str "second")]) = 1 ∧
      x.successes "Database/prod/orders" 1
        (.read false "Database" D :: moves ++ [.save false (.str "second")]) ≤ 1 := by
  intro D x moves y
  have hs : x.store.Reachable := Store.Reachable.empty.apply (.put (.empty "Database" D))
  obtain ⟨-, hguard, hone⟩ := optimistic_concurrency hs
  have hfind : x.store.find? "Database" D = some ((Object.empty "Database" D).withVersion 1) := rfl
  have hkey : tableKey "Database" D = "Database/prod/orders" := by decide
  have hrevisions : y.revisions (tableKey "Database" D) moves = 1 := by decide +kernel
  have hreads : ∀ kind key, Move.read false kind key ∉ moves := by
    intro kind key hmem
    simp [moves] at hmem
  have hdelete : ∀ m ∈ moves, m.deletes (tableKey "Database" D) = false := by
    simp [moves, Move.deletes]
  have hbound : ((Object.empty "Database" D).withVersion 1).metadata.version.toNat +
      y.revisions (tableKey "Database" D) moves < UInt64.size := by
    rw [hrevisions]
    decide
  have hiff := hguard false "Database" D _ moves hfind hreads hdelete hbound (.str "second")
  refine ⟨Bool.eq_false_iff.mpr fun h => ?_, by decide +kernel, hone _ _ _ ?_ (by decide +kernel)⟩
  · exact absurd (hiff.mp h) (by rw [hrevisions]; decide)
  · simp [moves, Move.deletes]

end SharedStore

end Converge

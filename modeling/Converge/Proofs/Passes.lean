import Converge.Proofs.EventLog
import Converge.Proofs.Session
import Converge.Proofs.StandardCatalog

/-!
# Passes in a row

Passes over one database follow each other over a store that answers every call, at times that a
clock tells. The stores between them are reachable when the first one is, and passes bring no colon
into a name.

## Main definitions

* `Reconciler.pass`: a pass over a store.
* `Reconciler.passes`: the store after a number of passes.

## Main results

* `Reconciler.passes_reachable_plain`: what passes keep.
-/

namespace Converge

open Program (Invocation Exchange)

namespace Reconciler

/-- A pass over the database at `key` at time `now`, with a store that answers all calls: its
directive and the store afterwards. -/
def pass (r : Reconciler) (key : ObjectKey) (now : UInt64) (s : Store) : Directive × Store :=
  (r.reconcile now key).run (Store.collaborators now) s

/-- The store after `n` passes in a row over the database at `key`, at the times of `clock`. -/
def passes (r : Reconciler) (key : ObjectKey) (clock : Nat → UInt64) (s : Store) : Nat → Store
  | 0 => s
  | n + 1 => (r.pass key (clock n) (r.passes key clock s n)).2

end Reconciler

namespace Session

variable {s s' : Store} {r : Reconciler} {now : UInt64} {key : ObjectKey} {t : List Exchange}
  {e : Exchange}

/-- What was read in the exchanges `t` is in its place, and has names without colons. -/
def PlainlyRead (t : List Exchange) : Prop :=
  InPlace t ∧ ∀ kind key o, .get kind key (.ok (some o)) ∈ t → o.key.Free ':'

theorem PlainlyRead.append (ht : PlainlyRead t) (hs : s.Placed) (hplain : s.Plain)
    (h : Served s s' e) : PlainlyRead (t ++ [e]) := by
  refine ⟨ht.1.append hs h, fun kind key o hmem => ?_⟩
  rcases List.mem_append.mp hmem with hmem | hmem
  · exact ht.2 kind key o hmem
  · obtain rfl := List.mem_singleton.mp hmem
    exact (hplain.objects _ o h.find?).2

private theorem PlainlyRead.free_key (ht : PlainlyRead t) {o : Object} {database : Database}
    (hget : .get Database.kind.name key (.ok (some o)) ∈ t)
    (ho : Database.kind.ofObject o = .ok database) : key.Free ':' ∧ database.key.Free ':' := by
  have hkey : database.key.Free ':' := by
    rw [Resource.key, (ResourceKind.ofObject_eq_ok_iff.mp ho).2.1]
    exact ht.2 _ _ o hget
  have hdisplay : key.display = database.key.display := by
    have h := (tableKey_of_ofObject ho).trans (ht.1 _ _ o hget)
    exact (kind_eq_of_tableKey_eq (by decide) (by decide) h).2.symm
  refine ⟨?_, hkey⟩
  rw [ObjectKey.free_iff_display (by decide), hdisplay]
  exact (ObjectKey.free_iff_display (by decide)).mp hkey

/-- No call of a pass with the standard catalog brings a colon into a name. -/
theorem Served.plain (hr : r.catalog = Catalog.standard) (hplain : s.Plain) (ht : PlainlyRead t)
    (hcall : (r.reconcile now key).Makes t e.call) (h : Served s s' e) : s'.Plain := by
  rcases h.cases with rfl | ⟨op, hperforms, rfl⟩
  · exact hplain
  cases e with
  | get => exact hperforms.elim
  | provision request answer =>
    obtain rfl : op = .putTenant request := hperforms
    exact hplain.apply nofun nofun
  | writeStatus w answer =>
    obtain rfl : op = .writeStatus w := hperforms
    refine hplain.apply (fun tkey o hwrites => ?_) nofun
    cases hwrites with
    | @status _ stored hfind _ => exact hplain.objects _ stored hfind
  | upsert placeholder change answer =>
    obtain rfl : op = .upsert placeholder change := hperforms
    obtain ⟨o, a, b, hget, ho, hb, rfl, rfl⟩ := Reconciler.reconcile_makes_upsert hcall
    rw [hr] at hb
    refine hplain.apply (fun tkey o' hwrites => ?_) nofun
    cases hwrites with
    | create _ hchange _ =>
      have hfree := Catalog.standard_free hb (ht.free_key hget ho).2 (by decide) (by decide)
        (by decide)
      obtain ⟨hkind, hkey, -⟩ := Catalog.standard_owned hb hchange
      exact ⟨hkind ▸ hfree.1, hkey ▸ hfree.2⟩
    | @update _ stored _ _ hfind hchange _ =>
      have hfree := hplain.objects _ stored hfind
      obtain ⟨hkind, hkey, -⟩ := Catalog.standard_owned hb hchange
      exact ⟨hkind ▸ hfree.1, hkey ▸ hfree.2⟩
  | record notice =>
    obtain ⟨e, rfl, rfl⟩ := hperforms
    obtain ⟨o, database, hget, ho, hsubject⟩ := Reconciler.reconcile_makes_record hcall
    obtain ⟨hkey, hkey'⟩ := ht.free_key hget ho
    refine hplain.apply nofun fun e' he' => ?_
    obtain rfl := Store.Operation.putEvent.inj he'
    rcases hsubject with hsubject | hsubject
    · exact hsubject ▸ hkey
    · exact hsubject ▸ hkey'

private theorem invariant_reachable_plain : Invariant (fun _ _ => False)
    (fun s => s.Reachable ∧ s.Plain) fun _ _ t => PlainlyRead t where
  operate _ hclients := hclients.elim
  begin _ := ⟨inPlace_nil, fun _ _ _ h => absurd h List.not_mem_nil⟩
  serve hr hs ht hcall h := by
    refine ⟨⟨?_, h.plain hr hs.2 ht hcall⟩, ht.append hs.1.placed hs.2 h⟩
    rcases h.cases with rfl | ⟨op, -, rfl⟩
    · exact hs.1
    · exact hs.1.apply op

end Session

namespace Reconciler

variable {r : Reconciler} {key : ObjectKey} {s : Store}

/-- **What a pass keeps.** The store after a pass is reachable, and no name in it holds a colon,
when both is so before. -/
private theorem pass_reachable_plain (hr : r.catalog = Catalog.standard) (hs : s.Reachable)
    (hplain : s.Plain) (now : UInt64) :
    (r.pass key now s).2.Reachable ∧ (r.pass key now s).2.Plain :=
  (Session.invariant_reachable_plain.reaches (Session.holds_of_store ⟨hs, hplain⟩)
    (Session.reaches_run r hr now key s none)).1

theorem passes_reachable_plain (hr : r.catalog = Catalog.standard) (hs : s.Reachable)
    (hplain : s.Plain) (clock : Nat → UInt64) (n : Nat) :
    (r.passes key clock s n).Reachable ∧ (r.passes key clock s n).Plain := by
  induction n with
  | zero => exact ⟨hs, hplain⟩
  | succ n ih => exact pass_reachable_plain hr ih.1 ih.2 (clock n)

end Reconciler

end Converge

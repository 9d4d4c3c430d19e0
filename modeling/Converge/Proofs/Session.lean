import Converge.Proofs.Operations
import Converge.Proofs.Steps

/-!
# Sessions

In a session passes run over a store, one call at a time, while clients perform operations of
their own between any two calls. Every single call can fail; a call that fails leaves the store as
it is. A pass can also be given up, when another one begins.

An invariant of sessions has two parts: one about the store, and one about what the pass in
progress has been answered so far. `Session.Invariant` says what has to be checked of them.

## Main definitions

* `Session`, `Session.Move`, `Session.step`: sessions and how they go on.
* `Session.Reaches`: runs of a session with the standard catalog.
* `Session.Served`: a call that is answered or fails.
* `Session.Invariant`: an invariant of sessions.

## Main results

* `Session.reaches_run`: a pass without failures is part of a session.
* `Session.Served.cases`: a call is an operation of the store, or leaves it as it is.
* `Session.Invariant.reaches`: an invariant holds in the whole run.
-/

namespace Converge

open Program (Invocation Exchange)

/-- How the collaborators fail a call. -/
structure Outage where
  store : StoreError
  tenants : ProvisionError

/-- The answers of a store that fails every call: nothing is read, written or recorded. -/
def Store.failing (outage : Outage) : Collaborators Store where
  get _ _ s := (.error outage.store, s)
  upsert _ _ s := (.error outage.store, s)
  writeStatus _ s := (.error outage.store, s)
  record _ s := s
  provision _ s := (.error outage.tenants, s)

/-- A store, and what is left of the pass over the database at a key that is in progress. -/
structure Session where
  store : Store := ∅
  pass : Option (ObjectKey × Program Directive) := none

namespace Session

/-- What can happen next in a session. -/
inductive Move where
  /-- A client performs an operation. -/
  | operate (op : Store.Operation)
  /-- A pass begins, and takes the place of the one in progress. -/
  | begin (r : Reconciler) (now : UInt64) (key : ObjectKey)
  /-- The next call of the pass is answered at time `now`. -/
  | call (now : UInt64)
  /-- The next call of the pass fails. -/
  | fail (outage : Outage)

/-- The session after the next call of the pass in progress. -/
def advance (x : Session) (c : Collaborators Store) : Session :=
  match x.pass with
  | none => x
  | some (key, p) => { store := (p.step c x.store).2, pass := some (key, (p.step c x.store).1) }

/-- The session after a move. -/
def step (x : Session) : Move → Session
  | .operate op => { x with store := op.apply x.store }
  | .begin r now key => { x with pass := some (key, r.reconcile now key) }
  | .call now => x.advance (Store.collaborators now)
  | .fail outage => x.advance (Store.failing outage)

/-- The moves where clients keep to the operations in `clients`, and passes have the standard
catalog. -/
def Admits (clients : Store → Store.Operation → Prop) (x : Session) : Move → Prop
  | .operate op => clients x.store op
  | .begin r _ _ => r.catalog = Catalog.standard
  | .call _ | .fail _ => True

/-- The sessions that come after `x` when clients keep to the operations in `clients`. -/
inductive Reaches (clients : Store → Store.Operation → Prop) (x : Session) : Session → Prop
  | refl : Reaches clients x x
  | step {y : Session} (m : Move) (h : Reaches clients x y) (hm : y.Admits clients m) :
      Reaches clients x (y.step m)

variable {clients : Store → Store.Operation → Prop} {x y z : Session} {s s' : Store}
  {key : ObjectKey} {p : Program Directive} {t : List Exchange} {e : Exchange}

theorem Reaches.trans (h₁ : Reaches clients x y) (h₂ : Reaches clients y z) :
    Reaches clients x z := by
  induction h₂ with
  | refl => exact h₁
  | step m _ hm ih => exact .step m ih hm

/-! ### Whole passes -/

private theorem reaches_rest (now : UInt64) (key : ObjectKey) (p : Program Directive) (s : Store) :
    Reaches clients ⟨s, some (key, p)⟩
      ⟨(p.run (Store.collaborators now) s).2,
        some (key, .done (p.run (Store.collaborators now) s).1)⟩ := by
  have hstep : ∀ p s, Reaches clients ⟨s, some (key, p)⟩
      ((⟨s, some (key, p)⟩ : Session).step (.call now)) := fun p s =>
    .step (.call now) .refl trivial
  induction p generalizing s with
  | done d => exact .refl
  | record notice next ih => exact (hstep _ s).trans (ih _)
  | get _ _ next ih | upsert _ _ next ih | writeStatus _ next ih | provision _ next ih =>
    exact (hstep _ s).trans (ih _ _)

/-- **Passes in a session.** A pass without failures and without anything in between is part of a
session. -/
theorem reaches_run (r : Reconciler) (hr : r.catalog = Catalog.standard) (now : UInt64)
    (key : ObjectKey) (s : Store) (pass : Option (ObjectKey × Program Directive)) :
    Reaches clients ⟨s, pass⟩
      ⟨((r.reconcile now key).run (Store.collaborators now) s).2,
        some (key, .done ((r.reconcile now key).run (Store.collaborators now) s).1)⟩ :=
  .trans (.step (.begin r now key) .refl hr) (reaches_rest now key _ s)

/-! ### Single calls -/

/-- The call of an exchange was answered or has failed. -/
def Served (s s' : Store) (e : Exchange) : Prop :=
  (∃ now, e.Served (Store.collaborators now) s s') ∨
    ∃ outage, e.Served (Store.failing outage) s s'

/-- The operation that a call asks for. -/
def Performs : Invocation → Store.Operation → Prop
  | .get .., _ => False
  | .upsert placeholder change, op => op = .upsert placeholder change
  | .writeStatus o, op => op = .writeStatus o
  | .record notice, op => ∃ e, e.toNotice = notice ∧ op = .putEvent e
  | .provision request, op => op = .putTenant request

/-- A call is an operation of the store, or leaves it as it is. -/
theorem Served.cases (h : Served s s' e) :
    s' = s ∨ ∃ op, Performs e.call op ∧ s' = op.apply s := by
  rcases h with ⟨now, h⟩ | ⟨outage, h⟩
  · cases e with
    | get kind key answer => exact .inl (congrArg Prod.snd h).symm
    | upsert placeholder change answer =>
      exact .inr ⟨.upsert placeholder change, rfl, (congrArg Prod.snd h).symm⟩
    | writeStatus o answer => exact .inr ⟨.writeStatus o, rfl, (congrArg Prod.snd h).symm⟩
    | record notice => exact .inr ⟨.putEvent _, ⟨_, rfl, rfl⟩, Eq.symm h⟩
    | provision request answer =>
      exact .inr ⟨.putTenant request, rfl, (congrArg Prod.snd h).symm⟩
  · cases e with
    | record notice => exact .inl (Eq.symm h)
    | get | upsert | writeStatus | provision => exact .inl (congrArg Prod.snd h).symm

theorem Served.find? {kind : String} {o : Object}
    (h : Served s s' (.get kind key (.ok (some o)))) : s.find? kind key = some o := by
  rcases h with ⟨now, h⟩ | ⟨outage, h⟩
  · exact Except.ok.inj (congrArg Prod.fst h)
  · exact nomatch congrArg Prod.fst h

/-- What is left of a pass after the exchanges `t`. -/
def Left (r : Reconciler) (now : UInt64) (key : ObjectKey) (t : List Exchange)
    (p : Program Directive) : Prop :=
  ∀ t' c, p.Makes t' c → (r.reconcile now key).Makes (t ++ t') c

/-- The next call of a pass is one of the pass, and what is left afterwards is left of the pass. -/
theorem advance_cases (c : Collaborators Store) (hp : x.pass = some (key, p)) :
    x.advance c = x ∨ ∃ e p', e.Served c x.store (x.advance c).store ∧ p.Makes [] e.call ∧
      (x.advance c).pass = some (key, p') ∧
      ∀ r now t, Left r now key t p → Left r now key (t ++ [e]) p' := by
  obtain ⟨s, pass⟩ := x
  obtain rfl : pass = some (key, p) := hp
  rcases Program.step_cases c p s with ⟨h, -⟩ | ⟨e, hserved, hmakes, hrest⟩
  · exact .inl (by simp only [advance, h])
  · refine .inr ⟨e, (p.step c s).1, hserved, hmakes, rfl, fun r now t hleft t' call hcall => ?_⟩
    rw [List.append_assoc]
    exact hleft (e :: t') call (hrest t' call hcall)

/-! ### Objects that were read -/

/-- Every object that was read in the exchanges `t` has the kind and key that were asked for, as
far as the table key tells. -/
def InPlace (t : List Exchange) : Prop :=
  ∀ kind key o, .get kind key (.ok (some o)) ∈ t → o.tableKey = tableKey kind key

theorem inPlace_nil : InPlace [] := fun _ _ _ h => absurd h List.not_mem_nil

theorem InPlace.append (ht : InPlace t) (hs : s.Placed) (h : Served s s' e) :
    InPlace (t ++ [e]) := by
  intro kind key o hmem
  rcases List.mem_append.mp hmem with hmem | hmem
  · exact ht kind key o hmem
  · obtain rfl := List.mem_singleton.mp hmem
    exact hs _ o h.find?

theorem Served.placed (h : Served s s' e) (hs : s.Placed) : s'.Placed := by
  rcases h.cases with rfl | ⟨op, -, rfl⟩
  · exact hs
  · exact hs.apply op

theorem tableKey_of_ofObject {o : Object} {database : Database}
    (h : Database.kind.ofObject o = .ok database) :
    tableKey Database.kind.name database.key = o.tableKey := by
  obtain ⟨hkind, hmeta, -⟩ := ResourceKind.ofObject_eq_ok_iff.mp h
  rw [Object.tableKey, hkind, Object.key, ← hmeta, Resource.key]

/-- A pass writes the status of its own database only. -/
theorem tableKey_of_makes_writeStatus {r : Reconciler} {now : UInt64} {w : Object}
    (ht : InPlace t) (h : (r.reconcile now key).Makes t (.writeStatus w)) :
    w.tableKey = tableKey Database.kind.name key := by
  obtain ⟨o, database, o', fresh, st, hget, ho, hget', ho', -, -, rfl⟩ :=
    Reconciler.reconcile_makes_writeStatus h
  calc (Database.kind.toObject { fresh with status := st }).tableKey
      = tableKey Database.kind.name fresh.key := rfl
    _ = o'.tableKey := tableKey_of_ofObject ho'
    _ = tableKey Database.kind.name database.key := ht _ _ _ hget'
    _ = o.tableKey := tableKey_of_ofObject ho
    _ = tableKey Database.kind.name key := ht _ _ _ hget

/-! ### Invariants -/

/-- An invariant of sessions: `I` holds of the store, and `K` of the store, the key of the pass in
progress and what the pass has been answered. -/
structure Invariant (clients : Store → Store.Operation → Prop) (I : Store → Prop)
    (K : Store → ObjectKey → List Exchange → Prop) : Prop where
  operate : ∀ {s : Store} {op : Store.Operation}, I s → clients s op →
    I (op.apply s) ∧ ∀ {key t}, K s key t → K (op.apply s) key t
  begin : ∀ {s : Store} {key : ObjectKey}, I s → K s key []
  serve : ∀ {s s' : Store} {r : Reconciler} {now : UInt64} {key : ObjectKey} {t : List Exchange}
    {e : Exchange}, r.catalog = Catalog.standard → I s → K s key t →
    (r.reconcile now key).Makes t e.call → Served s s' e → I s' ∧ K s' key (t ++ [e])

variable {I : Store → Prop} {K : Store → ObjectKey → List Exchange → Prop}

/-- What an invariant says about a session. -/
def Holds (I : Store → Prop) (K : Store → ObjectKey → List Exchange → Prop) (x : Session) : Prop :=
  I x.store ∧ ∀ key p, x.pass = some (key, p) →
    ∃ (r : Reconciler) (now : UInt64) (t : List Exchange),
      r.catalog = Catalog.standard ∧ Left r now key t p ∧ K x.store key t

theorem Invariant.advance (hinv : Invariant clients I K) (hx : x.Holds I K)
    {c : Collaborators Store}
    (hc : ∀ {s s'} {e : Exchange}, e.Served c s s' → Served s s' e) : (x.advance c).Holds I K := by
  cases hp : x.pass with
  | none =>
    have h : x.advance c = x := by simp only [Session.advance, hp]
    rwa [h]
  | some pass =>
    obtain ⟨key, p⟩ := pass
    rcases advance_cases c hp with h | ⟨e, p', hserved, hmakes, hp', hleft'⟩
    · rwa [h]
    obtain ⟨r, now, t, hr, hleft, hk⟩ := hx.2 key p hp
    have hcall : (r.reconcile now key).Makes t e.call := by
      simpa using hleft [] e.call hmakes
    obtain ⟨hi', hk'⟩ := hinv.serve hr hx.1 hk hcall (hc hserved)
    refine ⟨hi', fun key' q hq => ?_⟩
    obtain ⟨rfl, rfl⟩ := Prod.mk.inj (Option.some.inj (hp'.symm.trans hq))
    exact ⟨r, now, t ++ [e], hr, hleft' r now t hleft, hk'⟩

/-- An invariant survives a move. -/
theorem Invariant.step (hinv : Invariant clients I K) (hx : x.Holds I K) {m : Move}
    (hm : x.Admits clients m) : (x.step m).Holds I K := by
  cases m with
  | operate op =>
    obtain ⟨hi, hk⟩ := hinv.operate hx.1 hm
    refine ⟨hi, fun key p hp => ?_⟩
    obtain ⟨r, now, t, hr, hleft, ht⟩ := hx.2 key p hp
    exact ⟨r, now, t, hr, hleft, hk ht⟩
  | begin r now key =>
    refine ⟨hx.1, fun key' p hp => ?_⟩
    obtain ⟨rfl, rfl⟩ := Prod.mk.inj (Option.some.inj hp)
    exact ⟨r, now, [], hm, fun _ _ h => h, hinv.begin hx.1⟩
  | call now => exact hinv.advance hx fun h => .inl ⟨now, h⟩
  | fail outage => exact hinv.advance hx fun h => .inr ⟨outage, h⟩

/-- **An invariant holds in the whole run** of a session in which it holds at the beginning. -/
theorem Invariant.reaches (hinv : Invariant clients I K) (hx : x.Holds I K)
    (h : Reaches clients x y) : y.Holds I K := by
  induction h with
  | refl => exact hx
  | step m _ hm ih => exact hinv.step ih hm

theorem holds_of_store (hs : I s) : (⟨s, none⟩ : Session).Holds I K :=
  ⟨hs, fun _ _ hp => nomatch hp⟩

end Session

end Converge

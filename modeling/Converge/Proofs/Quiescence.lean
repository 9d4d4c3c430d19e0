import Converge.Proofs.Progress

/-!
# Quiescence

When nobody else writes to the store, three passes over a database are enough: from the fourth pass
on nothing changes but the count and the time of the latest event. A pass that is stuck on anything
says again what it has said before. A pass that is not stuck writes the status once, and that takes
the database from the announcement of its tenant to the created tenant, and from there to readiness.

## Main definitions

* `Reconciler.Quiet`: a store over which passes do nothing.
* `Reconciler.Announced`, `Reconciler.Created`: the next pass can create the tenant, or has nothing
  left to do but to make the database ready.

## Main results

* `Reconciler.Prepared.pass_cases`, `Reconciler.Announced.pass_cases`, `Reconciler.Created.pass`:
  what one pass leads to.
* `Reconciler.settled_two_or_quiet_three`: after two passes the store is settled, or after three
  nothing is left to say.
-/

namespace Converge

namespace Reconciler

variable {r : Reconciler} {key : ObjectKey} {s s' : Store} {o : Object} {a : Aggregate}
  {now : UInt64}

/-! ### Nothing left to say -/

/-- Over the store passes over the database at a key neither write nor record anything, and end
alike. -/
def Quiet (r : Reconciler) (key : ObjectKey) (s : Store) : Prop :=
  ∃ d, ∀ now, (r.reconcile now key).Idle s [] d

theorem Quiet.settled (h : r.Quiet key s) : r.Settled key s :=
  have ⟨d, hidle⟩ := h
  ⟨[], d, brief_nil, hidle⟩

private theorem quiet_of_missing (h : s.find? Database.kind.name key = none) : r.Quiet key s :=
  ⟨_, r.idle_of_missing h⟩

private theorem Quiet.pass_eq (h : r.Quiet key s) (now : UInt64) : (r.pass key now s).2 = s := by
  obtain ⟨d, hidle⟩ := h
  rw [pass, (hidle now).run, Store.tell_nil]

/-! ### Single passes -/

/-- Over the store a pass finds that the tenant of the database is there. -/
def Created (r : Reconciler) (key : ObjectKey) (s : Store) : Prop :=
  ∃ o a, r.Prepared key s o a ∧ s.Runs a ∧ a.tenantInitialized = true

/-- Over the store a pass finds that the creation of the tenant was announced. -/
def Announced (r : Reconciler) (key : ObjectKey) (s : Store) : Prop :=
  ∃ o a, r.Prepared key s o a ∧ s.Runs a ∧ a.tenantInitialized = false ∧
    (a.status.condition? tenantInitialized).isSome = true ∧ a.status.state = .initializing

/-- Once the tenant is there one pass makes the database ready. -/
theorem Created.pass (hr : r.catalog = Catalog.standard) (h : r.Created key s) (now : UInt64) :
    r.Quiet key (r.pass key now s).2 := by
  obtain ⟨o, a, h, hruns, hinit⟩ := h
  by_cases hready : a.status.state = .ready
  · have hquiet : r.Quiet key s := ⟨_, h.idle_of_ready hruns hinit hready⟩
    rwa [hquiet.pass_eq]
  · have hrestates := h.promotes hr hruns hinit hready now
    obtain ⟨o', version, h'⟩ := hrestates.prepared
    exact ⟨_, h'.idle_of_ready (hrestates.runs hruns version) hinit rfl⟩

private theorem Prepared.pass_of_lacks (hr : r.catalog = Catalog.standard)
    (h : r.Prepared key s o a)
    (hlacks : s.Lacks a) (now : UInt64) : r.Settled key (r.pass key now s).2 := by
  have hrestates := h.regresses hr hlacks now
  obtain ⟨o', version, h'⟩ := hrestates.prepared
  -- The next pass lacks them as well, and finds the status as it would write it.
  have hlacks' := hlacks.restated (hrestates.find?_of_ne (by decide) (by decide) _) version
    { a.status with state := .provisioning }
  obtain ⟨notice, hbrief, hgate⟩ := awaitScale_run_of_lacks (r := r) hlacks'
  have hidle : (r.awaitScale (a.restated version _)).Idle _ [notice] _ := fun now s'' hs'' =>
    (hgate now s'' hs'').trans
      (h'.persist_idle now _ ((s''.record_frame notice now).1.trans hs''))
  exact h'.settled (fun now => hidle.andThen_halt) hbrief

theorem Announced.pass_cases (hr : r.catalog = Catalog.standard) (h : r.Announced key s)
    (now : UInt64) : r.Settled key (r.pass key now s).2 ∨ r.Created key (r.pass key now s).2 := by
  obtain ⟨o, a, h, hruns, hinit, hknown⟩ := h
  rcases h.creates hr hruns hinit hknown now with ⟨-, hstuck⟩ | ⟨_, -, hrestates⟩
  · exact .inl (hstuck.settled.pass now)
  · obtain ⟨o', version, h'⟩ := hrestates.prepared
    exact .inr ⟨o', _, h', hrestates.runs hruns version,
      a.status.isTrue_setCondition tenantCompleted now⟩

/-- **A pass over a prepared store** leaves a store that is settled, or in which the creation of the
tenant was announced, or in which the tenant was created. -/
theorem Prepared.pass_cases (hr : r.catalog = Catalog.standard) (h : r.Prepared key s o a)
    (now : UInt64) : r.Settled key (r.pass key now s).2 ∨ r.Announced key (r.pass key now s).2 ∨
      r.Created key (r.pass key now s).2 := by
  cases h.outcome hr now with
  | stuck _ hstuck => exact .inl (hstuck.settled.pass now)
  | regressed hlacks => exact .inl (h.pass_of_lacks hr hlacks now)
  | announced hruns _ _ status hrestates hnot hknown =>
    obtain ⟨o', version, h'⟩ := hrestates.prepared
    exact .inr (.inl ⟨o', _, h', hrestates.runs hruns version, hnot, hknown⟩)
  | created hruns hinit hknown =>
    have hcases := Announced.pass_cases hr ⟨o, a, h, hruns, hinit, hknown⟩ now
    exact hcases.imp_right .inr
  | promoted hruns hinit | done hruns hinit =>
    exact .inl (Created.pass hr ⟨o, a, h, hruns, hinit⟩ now).settled

/-! ### Passes in a row -/

/-- **Three passes.** After two passes the store is settled, or after three nothing is left to
say. -/
theorem settled_two_or_quiet_three (hr : r.catalog = Catalog.standard) (hs : s.Placed)
    (clock : Nat → UInt64) :
    r.Settled key (r.passes key clock s 2) ∨ r.Quiet key (r.passes key clock s 3) := by
  have hone : r.Settled key (r.passes key clock s 1) ∨ r.Announced key (r.passes key clock s 1) ∨
      r.Created key (r.passes key clock s 1) := by
    rw [passes, passes]
    rcases pass_prepares hr hs (clock 0) with ⟨h, -⟩ | ⟨s', o, a, h, heq, -⟩
    · exact .inl h
    · rw [heq]
      exact h.pass_cases hr (clock 0)
  rcases hone with h | h | h
  · exact .inl (h.pass (clock 1))
  · rcases h.pass_cases hr (clock 1) with h | h
    · exact .inl h
    · exact .inr (h.pass hr (clock 2))
  · exact .inl (h.pass hr (clock 1)).settled

private theorem Quiet.passes_eq {clock : Nat → UInt64} {m n : Nat}
    (h : r.Quiet key (r.passes key clock s m)) (hn : m ≤ n) :
    r.passes key clock s n = r.passes key clock s m := by
  induction hn with
  | refl => rfl
  | step _ ih => rw [passes, ih, h.pass_eq]

end Reconciler

namespace Store

/-- Between two stores nothing has changed, except that an event may have been folded into the
latest of its subject. -/
structure Still (s s' : Store) : Prop where
  objects : s'.objects = s.objects
  tenants : s'.tenants = s.tenants
  sequence : s'.sequence = s.sequence
  events : s'.events = s.events ∨ ∃ e key last,
    (s.eventsOf e.subject).getLast? = some (key, last) ∧ e.repeats last = true ∧
      s'.events = s.events.insert key (last.folded e)

end Store

namespace Reconciler

variable {r : Reconciler} {key : ObjectKey} {s s' : Store} {clock : Nat → UInt64} {m n : Nat}
  {notice : Notice} {d : Directive}

private theorem passes_tell (hidle : ∀ now, (r.reconcile now key).Idle s' [notice] d)
    (hobjects : (r.passes key clock s m).objects = s'.objects)
    (htells : (r.passes key clock s m).Tells notice) (hn : m ≤ n) :
    (r.passes key clock s n).objects = s'.objects ∧ (r.passes key clock s n).Tells notice := by
  induction hn with
  | refl => exact ⟨hobjects, htells⟩
  | @step n _ ih =>
    have hpass : r.passes key clock s (n + 1) = (r.passes key clock s n).record notice (clock n) :=
      congrArg Prod.snd (hidle (clock n) (clock n) _ ih.1)
    rw [hpass]
    exact ⟨(Store.record_frame _ _ _).1.trans ih.1, (ih.2.record_eq (clock n)).1⟩

private theorem Quiet.still (h : r.Quiet key (r.passes key clock s m)) (hm : m ≤ 3) (hn : 3 ≤ n) :
    (r.passes key clock s n).Still (r.passes key clock s (n + 1)) ∧
      (r.pass key (clock n) (r.passes key clock s n)).1 =
        (r.pass key (clock 3) (r.passes key clock s 3)).1 := by
  have hmn : m ≤ n := Nat.le_trans hm hn
  rw [h.passes_eq hmn, h.passes_eq (Nat.le_succ_of_le hmn), h.passes_eq hm]
  obtain ⟨d, hidle⟩ := h
  rw [pass, pass, (hidle (clock n)).run, (hidle (clock 3)).run]
  exact ⟨⟨rfl, rfl, rfl, .inl rfl⟩, rfl⟩

theorem free_of_find? (hs : s.Placed) (hplain : s.Plain) {o : Object}
    (h : s.find? Database.kind.name key = some o) : key.Free ':' := by
  have hfree : Free ':' o.tableKey := (free_tableKey_iff (by decide)).mpr (hplain.objects _ o h)
  rw [hs _ o h] at hfree
  exact ((free_tableKey_iff (by decide)).mp hfree).2

/-- **Quiescence.** Over a store that has come about by any operations, and whose names hold no
colon, passes in a row over any database come to rest. The fourth pass and every later one, at
whatever times, leave all objects and tenants as they are, add no event, and end with the directive
of the fourth. The counter of events has to stay within the 64 bits that it is kept in. -/
theorem quiescence (hr : r.catalog = Catalog.standard) (hs : s.Reachable) (hplain : s.Plain)
    (hcount : (r.passes key clock s 3).sequence < UInt64.size) (hn : 3 ≤ n) :
    (r.passes key clock s n).Still (r.passes key clock s (n + 1)) ∧
      (r.pass key (clock n) (r.passes key clock s n)).1 =
        (r.pass key (clock 3) (r.passes key clock s 3)).1 := by
  rcases settled_two_or_quiet_three hr hs.placed clock with ⟨notices, d, hbrief, hidle⟩ | h
  swap
  · exact h.still (Nat.le_refl 3) hn
  match notices with
  | [] => exact Quiet.still ⟨d, hidle⟩ (Nat.le_succ 2) hn
  | [notice] =>
    have hkeeps : (r.passes key clock s 2).Reachable ∧ (r.passes key clock s 2).Plain :=
      passes_reachable_plain hr hs hplain clock 2
    cases hfind : (r.passes key clock s 2).find? Database.kind.name key with
    | none => exact (quiet_of_missing hfind).still (Nat.le_succ 2) hn
    | some o =>
      have hsubject : notice.subject.Free ':' := by
        rw [ObjectKey.free_iff_display (by decide),
          hbrief.display_eq notice (List.mem_singleton_self notice),
          ← ObjectKey.free_iff_display (by decide)]
        exact free_of_find? hkeeps.1.placed hkeeps.2 hfind
      have hpass : ∀ k, (r.passes key clock s k).objects = (r.passes key clock s 2).objects →
          r.pass key (clock k) (r.passes key clock s k) =
            (d, (r.passes key clock s k).record notice (clock k)) :=
        fun k h => hidle (clock k) (clock k) _ h
      have hthree := congrArg Prod.snd (hpass 2 rfl)
      change r.passes key clock s 3 = _ at hthree
      have hobjects : (r.passes key clock s 3).objects = (r.passes key clock s 2).objects := by
        rw [hthree]
        exact (Store.record_frame _ _ _).1
      have htells : (r.passes key clock s 3).Tells notice := by
        rw [hthree] at hcount ⊢
        exact Store.record_tells hkeeps.1.numbered hkeeps.2 hsubject (clock 2) hcount
      -- What the third pass has recorded every later one says again.
      obtain ⟨hobjects', htells'⟩ := passes_tell hidle hobjects htells hn
      obtain ⟨-, tkey, last, hlast, hrepeats, hrecord⟩ := htells'.record_eq (clock n)
      have hnext := congrArg Prod.snd (hpass n hobjects')
      change r.passes key clock s (n + 1) = _ at hnext
      refine ⟨?_, by rw [hpass n hobjects', hpass 3 hobjects]⟩
      rw [hnext, hrecord]
      exact ⟨rfl, rfl, rfl, .inr ⟨⟨notice, clock n, 1⟩, tkey, last, hlast, hrepeats, rfl⟩⟩

/-- The storage cluster of a database is missing: from the fourth pass on that is only counted. -/
theorem quiescence_missing_storage :
    let D : ObjectKey := ⟨"prod", "orders"⟩
    let s := (Store.Operation.put (Database.kind.toObject
      ⟨.ofKey D, { storageCluster := { name := "main" }, resources := some {} }, {}⟩)).apply ∅
    let passes := ({} : Reconciler).passes D UInt64.ofNat s
    s.Reachable ∧ s.Plain ∧ (passes 3).sequence = 1 ∧ (passes 5).Still (passes 6) ∧
      (({} : Reconciler).pass D 5 (passes 5)).1 = (({} : Reconciler).pass D 3 (passes 3)).1 ∧
      ((passes 6).listEvents D).getLast?.map (·.count) = some 6 := by
  intro D s passes
  have hs : s.Reachable := Store.Reachable.empty.apply _
  have hplain : s.Plain := by decide +kernel
  obtain ⟨hsequence, hlast⟩ : (passes 3).sequence = 1 ∧
      ((passes 6).listEvents D).getLast?.map (·.count) = some 6 := by decide +kernel
  have hcount : (passes 3).sequence < UInt64.size := by
    rw [hsequence]
    decide
  have hstill := quiescence rfl hs hplain hcount (by decide : 3 ≤ 5)
  exact ⟨hs, hplain, hsequence, hstill.1, hstill.2, hlast⟩

end Reconciler

end Converge

import Converge.Proofs.EventHistory
import Converge.Proofs.TenantRegistry

/-!
# Locality of programs

A call looks at one cell of the store at most: at the object under a table key, or at the tenant at
a path. So a program cannot tell stores apart that hold the same in all cells that its calls look
at, and wherever else such stores agree they still do so after a run. The events of a store decide
nothing: what a run adds to them are the notices that it records.

## Main definitions

* `Store.Cell`, `Program.Invocation.cell?`: the cells of a store, and the cell of a call.
* `Store.SameAt`: two stores that hold the same in a cell.
* `Store.SameEvents`: two stores with the same events.
* `Program.told`: the events that are recorded in a trace.

## Main results

* `Store.served_local`: the locality of a call.
* `Program.run_local`: the locality of a run.
* `Program.run_events`: the events after a run.
-/

namespace Converge

open Program (Invocation Exchange)

/-! ### Cells -/

/-- A cell of a store. -/
inductive Store.Cell where
  /-- The object under a table key. -/
  | object (tkey : String)
  /-- The tenant at a path. -/
  | tenant (path : String)
  deriving DecidableEq

/-- The cell that a call looks at. -/
def Program.Invocation.cell? : Invocation → Option Store.Cell
  | .get kind key => some (.object (tableKey kind key))
  | .upsert placeholder _ => some (.object placeholder.tableKey)
  | .writeStatus o => some (.object o.tableKey)
  | .record _ => none
  | .provision request => some (.tenant request.path)

namespace Store

variable {s s' s'' : Store} {cell : Cell}

/-- The stores hold the same in a cell. -/
def SameAt (s s' : Store) : Cell → Prop
  | .object tkey => s'.objects.find? tkey = s.objects.find? tkey
  | .tenant path => s'.tenant? path = s.tenant? path

theorem SameAt.symm (h : s.SameAt s' cell) : s'.SameAt s cell := by
  cases cell <;> exact Eq.symm h

theorem SameAt.trans (h₁ : s.SameAt s' cell) (h₂ : s'.SameAt s'' cell) : s.SameAt s'' cell := by
  cases cell <;> exact Eq.trans h₂ h₁

theorem SameAt.of_eq (hobjects : s'.objects = s.objects) (htenants : s'.tenants = s.tenants)
    (cell : Cell) : s.SameAt s' cell := by
  cases cell with
  | object tkey => exact congrArg (Table.find? · tkey) hobjects
  | tenant path => exact tenant?_congr htenants path

/-- Stores that hold the same in every cell have the same objects and tenants. -/
theorem eq_of_sameAt (h : ∀ cell, s.SameAt s' cell) :
    s'.objects = s.objects ∧ s'.tenants = s.tenants :=
  ⟨Table.ext_find? fun tkey => h (.object tkey), Table.ext_find? fun path => h (.tenant path)⟩

/-- Where stores agree they do so when the same object enters both. -/
theorem SameAt.withObject (h : s.SameAt s' cell) (tkey : String) (o : Object) :
    (s.withObject tkey o).SameAt (s'.withObject tkey o) cell := by
  cases cell with
  | tenant path => exact h
  | object tkey' =>
    change (s'.objects.insert tkey o).find? tkey' = (s.objects.insert tkey o).find? tkey'
    rw [Table.find?_insert, Table.find?_insert]
    exact if_congr Iff.rfl rfl h

/-! ### The locality of a call -/

/-- What an attempt to create an object or change it does depends on its cell. -/
theorem upsert_local {placeholder : Object} (h : s.SameAt s' (.object placeholder.tableKey))
    (change : Change) :
    (s'.upsert placeholder change).1 = (s.upsert placeholder change).1 ∧
      ∀ cell, s.SameAt s' cell →
        (s.upsert placeholder change).2.SameAt (s'.upsert placeholder change).2 cell := by
  have hfind : s'.objects.find? placeholder.tableKey = s.objects.find? placeholder.tableKey := h
  rw [upsert_eq, upsert_eq, hfind]
  split
  · exact ⟨rfl, fun _ h => h⟩
  · exact ⟨rfl, fun _ h => h.withObject _ _⟩
  · split
    · exact ⟨rfl, fun _ h => h⟩
    · exact ⟨rfl, fun _ h => h.withObject _ _⟩

/-- What an attempt to write a status does depends on the cell of the object. -/
theorem writeStatus_local {o : Object} (h : s.SameAt s' (.object o.tableKey)) :
    (s'.writeStatus o).1 = (s.writeStatus o).1 ∧
      ∀ cell, s.SameAt s' cell → (s.writeStatus o).2.SameAt (s'.writeStatus o).2 cell := by
  have hfind : s'.objects.find? o.tableKey = s.objects.find? o.tableKey := h
  rw [writeStatus_eq, writeStatus_eq, hfind]
  split
  · exact ⟨rfl, fun _ h => h⟩
  · split
    · exact ⟨rfl, fun _ h => h.withObject _ _⟩
    · exact ⟨rfl, fun _ h => h⟩

/-- What the registration of a tenant does depends on the cell of its path. -/
theorem putTenant_local {request : TenantRequest} (h : s.SameAt s' (.tenant request.path)) :
    ∀ cell, s.SameAt s' cell → (s.putTenant request).2.SameAt (s'.putTenant request).2 cell := by
  intro cell hcell
  cases cell with
  | object tkey =>
    rw [putTenant_eq request s, putTenant_eq request s']
    exact hcell
  | tenant path =>
    by_cases hpath : request.path = path
    · subst hpath
      have htenant : s'.tenant? request.path = s.tenant? request.path := h
      rw [SameAt, tenant?_putTenant_self, tenant?_putTenant_self, htenant]
    · rw [SameAt, tenant?_putTenant_of_ne hpath, tenant?_putTenant_of_ne hpath]
      exact hcell

end Store

open Store (SameAt)

/-- **The locality of a call.** A call is answered alike over stores that hold the same in its cell.
Where such stores agree they still do so afterwards. -/
theorem Store.served_local (now : UInt64) {e : Exchange} {s s' t : Store}
    (hcell : ∀ cell ∈ e.call.cell?, s.SameAt s' cell)
    (h : e.Served (Store.collaborators now) s t) :
    ∃ t', e.Served (Store.collaborators now) s' t' ∧
      ∀ cell, s.SameAt s' cell → t.SameAt t' cell := by
  cases e with
  | get kind key answer =>
    obtain ⟨rfl, rfl⟩ := Prod.mk.inj h
    have hfind : s'.find? kind key = s.find? kind key := hcell _ rfl
    exact ⟨s', congrArg (fun found => (Except.ok found, s')) hfind, fun _ h => h⟩
  | record notice =>
    obtain rfl : s.record notice now = t := h
    refine ⟨s'.record notice now, rfl, fun cell hsame => ?_⟩
    have hrecord : s.SameAt (s.record notice now) cell :=
      .of_eq (s.record_frame notice now).1 (s.record_frame notice now).2 cell
    exact (hrecord.symm.trans hsame).trans
      (.of_eq (s'.record_frame notice now).1 (s'.record_frame notice now).2 cell)
  | upsert placeholder change answer =>
    obtain ⟨hanswer, hsame⟩ := Store.upsert_local (hcell _ rfl) change
    obtain rfl : (s.upsert placeholder change).2 = t := congrArg Prod.snd h
    have hanswer' : (s.upsert placeholder change).1 = answer := congrArg Prod.fst h
    exact ⟨_, Prod.ext (hanswer.trans hanswer') rfl, hsame⟩
  | writeStatus o answer =>
    obtain ⟨hanswer, hsame⟩ := Store.writeStatus_local (hcell _ rfl)
    obtain rfl : (s.writeStatus o).2 = t := congrArg Prod.snd h
    have hanswer' : ((s.writeStatus o).1.map fun _ => ()) = answer := congrArg Prod.fst h
    exact ⟨_, Prod.ext ((congrArg (Except.map fun _ => ()) hanswer).trans hanswer') rfl, hsame⟩
  | provision request answer =>
    have hsame := Store.putTenant_local (hcell _ rfl)
    obtain rfl : (s.putTenant request).2 = t := congrArg Prod.snd h
    have hanswer : .ok () = answer := congrArg Prod.fst h
    exact ⟨_, Prod.ext hanswer rfl, hsame⟩

/-! ### The locality of a run -/

namespace Program

variable {α : Type} {p : Program α} {now : UInt64} {s s' : Store}

/-- **The locality of a run.** A program runs alike over stores that hold the same in all cells that
its calls look at. Where such stores agree they still do so afterwards. -/
theorem run_local (h : ∀ e ∈ p.trace (Store.collaborators now) s, ∀ cell ∈ e.call.cell?,
      s.SameAt s' cell) :
    p.trace (Store.collaborators now) s' = p.trace (Store.collaborators now) s ∧
      (p.run (Store.collaborators now) s').1 = (p.run (Store.collaborators now) s).1 ∧
      ∀ cell, s.SameAt s' cell → (p.run (Store.collaborators now) s).2.SameAt
        (p.run (Store.collaborators now) s').2 cell := by
  induction p generalizing s s' with
  | done a => exact ⟨rfl, rfl, fun _ h => h⟩
  | record notice next ih =>
    obtain ⟨_, rfl, hsame⟩ := Store.served_local now (h _ List.mem_cons_self) rfl
    obtain ⟨htrace, hvalue, hrest⟩ := ih fun e he cell hcell =>
      hsame cell (h e (List.mem_cons_of_mem _ he) cell hcell)
    exact ⟨congrArg (_ :: ·) htrace, hvalue, fun cell hcell => hrest cell (hsame cell hcell)⟩
  | get _ _ next ih | upsert _ _ next ih | writeStatus _ next ih | provision _ next ih =>
    obtain ⟨_, hserved, hsame⟩ := Store.served_local now (h _ List.mem_cons_self) rfl
    obtain ⟨htrace, hvalue, hrest⟩ := ih _ fun e he cell hcell =>
      hsame cell (h e (List.mem_cons_of_mem _ he) cell hcell)
    simp only [Exchange.Served] at hserved
    simp only [trace, run, hserved]
    exact ⟨congrArg (_ :: ·) htrace, hvalue, fun cell hcell => hrest cell (hsame cell hcell)⟩

end Program

/-! ### The events of a run -/

namespace Store

variable {s s' s'' : Store}

/-- The stores hold the same events, and have given out the same numbers. -/
structure SameEvents (s s' : Store) : Prop where
  events : s'.events = s.events
  sequence : s'.sequence = s.sequence

theorem SameEvents.refl (s : Store) : s.SameEvents s := ⟨rfl, rfl⟩

theorem SameEvents.trans (h₁ : s.SameEvents s') (h₂ : s'.SameEvents s'') : s.SameEvents s'' :=
  ⟨h₂.events.trans h₁.events, h₂.sequence.trans h₁.sequence⟩

theorem SameEvents.listEvents (h : s.SameEvents s') (subject : ObjectKey) :
    s'.listEvents subject = s.listEvents subject := by
  rw [Store.listEvents, Store.listEvents, eventsOf, eventsOf, h.events]

/-- What the recording of an event does depends on the events only. -/
theorem SameEvents.putEvent (h : s.SameEvents s') (e : Event) :
    (s.putEvent e).SameEvents (s'.putEvent e) := by
  have hrange : s'.eventsOf e.subject = s.eventsOf e.subject := by
    rw [eventsOf, eventsOf, h.events]
  have happend : (s.appendEvent e).SameEvents (s'.appendEvent e) := by
    constructor
    · simp only [appendEvent, hrange, h.events, h.sequence]
    · exact congrArg (· + 1) h.sequence
  rw [Store.putEvent, Store.putEvent, hrange]
  split
  · split
    · exact ⟨congrArg (Table.insert · _ _) h.events, h.sequence⟩
    · exact happend
  · exact happend

theorem SameEvents.putEvents (h : s.SameEvents s') (calls : List Event) :
    (s.putEvents calls).SameEvents (s'.putEvents calls) := by
  induction calls generalizing s s' with
  | nil => exact h
  | cons e calls ih => exact ih (h.putEvent e)

/-- Every operation but the recording of an event leaves the events as they are. -/
theorem sameEvents_apply (op : Operation) (hop : ∀ e, op ≠ .putEvent e) (s : Store) :
    s.SameEvents (op.apply s) := by
  rcases op.events_apply s with ⟨e, he⟩ | ⟨hevents, hsequence⟩
  · exact absurd he (hop e)
  · exact ⟨hevents, hsequence⟩

end Store

namespace Program

variable {α : Type} {now : UInt64}

/-- The events that are recorded in the exchanges at time `now`. -/
def told (now : UInt64) (t : List Exchange) : List Event :=
  t.filterMap fun
    | .record notice => some { toNotice := notice, timestamp := now }
    | _ => none

theorem exists_of_mem_told {t : List Exchange} {e : Event} (h : e ∈ told now t) :
    ∃ notice, .record notice ∈ t ∧ e.subject = notice.subject := by
  obtain ⟨x, hx, he⟩ := List.mem_filterMap.mp h
  cases x with
  | record notice =>
    obtain rfl := Option.some.inj he
    exact ⟨notice, hx, rfl⟩
  | get | upsert | writeStatus | provision => exact nomatch he

/-- **The events after a run** are those before it, and after them what the run has told. -/
theorem run_events (p : Program α) (now : UInt64) (s : Store) :
    (s.putEvents (told now (p.trace (Store.collaborators now) s))).SameEvents
      (p.run (Store.collaborators now) s).2 := by
  induction p generalizing s with
  | done a => exact .refl s
  | record notice next ih => exact ih (s.record notice now)
  | get _ _ next ih => exact ih _ s
  | upsert placeholder change next ih =>
    have hsame := Store.sameEvents_apply (.upsert placeholder change) nofun s
    exact (hsame.putEvents _).trans (ih _ _)
  | writeStatus o next ih =>
    have hsame := Store.sameEvents_apply (.writeStatus o) nofun s
    exact (hsame.putEvents _).trans (ih _ _)
  | provision request next ih =>
    have hsame := Store.sameEvents_apply (.putTenant request) nofun s
    exact (hsame.putEvents _).trans (ih _ _)

end Program

end Converge

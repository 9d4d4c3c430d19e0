import Converge.Proofs.Changes
import Converge.Proofs.Idle

/-!
# The builders of a pass in turn

The builders of a catalog work on the store one after the other, each in one write, and the notices
about them do not touch what they work on. So what a pass does about the owned objects is the
composition of these writes, up to the first that fails: that one leaves the store as the builders
before it have left it, and no later one runs. Nothing is assumed about the builders here. They may
build anything, also from what another has built, and several of them may build the same object.

## Main definitions

* `Store.Builds`: builders that succeed one after the other.
* `Aggregate.buildNotices`, `Aggregate.failureNotice`: what is told of builders.

## Main results

* `Store.upsert_tell`: notices and writes do not depend on each other.
* `Reconciler.sync_composition`: what a pass does about the owned objects.
-/

namespace Converge

open Program (Exchange)

/-! ### Notices and writes -/

namespace Store

variable {s s₁ s₂ : Store} {now : UInt64} {owner : Metadata}

private theorem record_withObject (s : Store) (notice : Notice) (now : UInt64) (key : String)
    (o : Object) :
    (s.withObject key o).record notice now = (s.record notice now).withObject key o := by
  have hevents : (s.withObject key o).eventsOf notice.subject = s.eventsOf notice.subject := rfl
  simp only [record, putEvent, hevents]
  split
  · split <;> rfl
  · rfl

private theorem tell_withObject (s : Store) (notices : List Notice) (now : UInt64) (key : String)
    (o : Object) :
    (s.withObject key o).tell notices now = (s.tell notices now).withObject key o := by
  induction notices generalizing s with
  | nil => rfl
  | cons notice notices ih =>
    change ((s.withObject key o).record notice now).tell notices now = _
    rw [record_withObject, ih]
    rfl

/-- What a write makes of a store, and whether it fails, does not depend on the notices that were
recorded before. -/
theorem upsert_tell (s : Store) (notices : List Notice) (now : UInt64) (placeholder : Object)
    (change : Change) : (s.tell notices now).upsert placeholder change =
      ((s.upsert placeholder change).1, (s.upsert placeholder change).2.tell notices now) := by
  rw [upsert_eq, upsert_eq, (s.tell_frame notices now).1]
  split
  · rfl
  · exact Prod.ext rfl (s.tell_withObject notices now _ _).symm
  · split
    · rfl
    · exact Prod.ext rfl (s.tell_withObject notices now _ _).symm

/-! ### Builders in turn -/

/-- Some builders work on the store `s` one after the other, each in one write on the store that the
one before has left, and all succeed. What becomes of their objects stands beside them. -/
inductive Builds (owner : Metadata) : Store → List (Builder × Upserted) → Store → Prop
  | nil {s : Store} : Builds owner s [] s
  | cons {s s₁ s₂ : Store} {b : Builder} {outcome : Upserted} {rest : List (Builder × Upserted)}
      (first : s.upsert b.placeholder (b.owned owner) = (.ok outcome, s₁))
      (others : Builds owner s₁ rest s₂) : Builds owner s ((b, outcome) :: rest) s₂

theorem Builds.tenants {done : List (Builder × Upserted)} (h : s.Builds owner done s₁) :
    s₁.tenants = s.tenants := by
  induction h with
  | nil => rfl
  | @cons s s₁ s₂ b outcome rest first others ih =>
    have hstore : (Operation.upsert b.placeholder (b.owned owner)).apply s = s₁ :=
      congrArg Prod.snd first
    rw [ih, ← hstore]
    exact (Operation.tenants_apply _ s).resolve_left nofun

/-- Either all builders succeed, or there is a first one that fails. -/
private theorem builds_cases (s : Store) (owner : Metadata) (builders : List Builder) :
    (∃ done s₁, builders = done.map Prod.fst ∧ s.Builds owner done s₁) ∨
      ∃ done b later e s₁, builders = done.map Prod.fst ++ b :: later ∧ s.Builds owner done s₁ ∧
        (s₁.upsert b.placeholder (b.owned owner)).1 = .error e := by
  induction builders generalizing s with
  | nil => exact .inl ⟨[], s, rfl, .nil⟩
  | cons b rest ih =>
    cases hupsert : s.upsert b.placeholder (b.owned owner) with
    | mk result s₁ =>
      cases result with
      | error e => exact .inr ⟨[], b, rest, e, s, rfl, .nil, congrArg Prod.fst hupsert⟩
      | ok outcome =>
        rcases ih s₁ with ⟨done, s₂, rfl, hbuilds⟩ | ⟨done, b', later, e, s₂, rfl, hbuilds, hfails⟩
        · exact .inl ⟨(b, outcome) :: done, s₂, rfl, .cons hupsert hbuilds⟩
        · exact .inr ⟨(b, outcome) :: done, b', later, e, s₂, rfl, .cons hupsert hbuilds, hfails⟩

end Store

/-! ### What is told of builders -/

/-- How the notices about a builder begin. -/
def Builder.target (b : Builder) : String :=
  let kind := b.placeholder.kind
  let key := b.placeholder.key
  s!"Resource: {kind}, Namespace: {key.ns}, Name: {key.name}"

namespace Aggregate

/-- The notice about a builder that has written its object. -/
def changeNotice (a : Aggregate) (b : Builder) (outcome : Store.Upserted) : Notice where
  subject := a.key
  severity := .normal
  reason := "Provisioning"
  message := s!"{b.target}, changed, result: {outcome}"

/-- The notice about a builder that has failed. -/
def failureNotice (a : Aggregate) (b : Builder) (e : StoreError) : Notice where
  subject := a.key
  severity := .warning
  reason := "ProvisioningFailed"
  message := s!"{b.target}, failed to sync, error: {e.message}"

/-- The notices about builders that have succeeded: one for each that has written its object, in
their order. -/
def told (a : Aggregate) (done : List (Builder × Store.Upserted)) : List Notice :=
  (done.filter fun x => x.2.changed).map fun x => a.changeNotice x.1 x.2

/-- The calls about builders that have succeeded: one write for each, and then the notice about
it. -/
def exchanges (a : Aggregate) (done : List (Builder × Store.Upserted)) : List Exchange :=
  done.flatMap fun x => .upsert x.1.placeholder (x.1.owned a.database.metadata) (.ok x.2) ::
    (a.told [x]).map .record

private theorem told_cons (a : Aggregate) (x : Builder × Store.Upserted)
    (rest : List (Builder × Store.Upserted)) : a.told (x :: rest) = a.told [x] ++ a.told rest := by
  rw [told, told, told, ← List.map_append, ← List.filter_append, List.singleton_append]

private theorem exchanges_cons (a : Aggregate) (x : Builder × Store.Upserted)
    (rest : List (Builder × Store.Upserted)) :
    a.exchanges (x :: rest) = a.exchanges [x] ++ a.exchanges rest := by
  rw [exchanges, exchanges, exchanges, ← List.flatMap_append, List.singleton_append]

end Aggregate

namespace Reconciler

variable {r : Reconciler} {a : Aggregate} {b : Builder} {s s₁ : Store} {now : UInt64}

/-! ### The calls of the builders -/

private theorem upsert_done_run (now : UInt64) {placeholder : Object} {change : Change}
    {result : Except StoreError Store.Upserted} (h : s.upsert placeholder change = (result, s₁)) :
    (Program.upsert placeholder change .done).run (Store.collaborators now) s = (result, s₁) ∧
      (Program.upsert placeholder change .done).trace (Store.collaborators now) s =
        [.upsert placeholder change result] :=
  ⟨h, congrArg (fun x : Except _ _ × Store => [Exchange.upsert placeholder change x.1]) h⟩

private theorem syncEach_cons_ok (r : Reconciler) (now : UInt64) {outcome : Store.Upserted}
    (rest : List Builder)
    (h : s.upsert b.placeholder (b.owned a.database.metadata) = (.ok outcome, s₁)) :
    (r.syncEach a (b :: rest)).run (Store.collaborators now) s =
        (r.syncEach a rest).run (Store.collaborators now) (s₁.tell (a.told [(b, outcome)]) now) ∧
      (r.syncEach a (b :: rest)).trace (Store.collaborators now) s =
        a.exchanges [(b, outcome)] ++ (r.syncEach a rest).trace (Store.collaborators now)
          (s₁.tell (a.told [(b, outcome)]) now) := by
  obtain ⟨hrun, htrace⟩ := upsert_done_run now h
  rw [syncEach, Program.run_bind, Program.trace_bind, hrun, htrace]
  cases outcome <;> exact ⟨rfl, rfl⟩

private theorem syncEach_cons_error (r : Reconciler) (now : UInt64) {e : StoreError}
    (later : List Builder)
    (h : s.upsert b.placeholder (b.owned a.database.metadata) = (.error e, s₁)) :
    (r.syncEach a (b :: later)).run (Store.collaborators now) s =
        (.fail r.delays.default (.sync b.placeholder.kind b.placeholder.key e) a,
          s₁.tell [a.failureNotice b e] now) ∧
      (r.syncEach a (b :: later)).trace (Store.collaborators now) s =
        [.upsert b.placeholder (b.owned a.database.metadata) (.error e),
          .record (a.failureNotice b e)] := by
  obtain ⟨hrun, htrace⟩ := upsert_done_run now h
  rw [syncEach, Program.run_bind, Program.trace_bind, hrun, htrace]
  exact ⟨rfl, rfl⟩

/-- Builders that succeed come before the rest, whatever was told before them. -/
private theorem syncEach_append (r : Reconciler) (now : UInt64)
    {done : List (Builder × Store.Upserted)}
    (rest : List Builder) (h : s.Builds a.database.metadata done s₁) (notices : List Notice) :
    (r.syncEach a (done.map Prod.fst ++ rest)).run (Store.collaborators now)
          (s.tell notices now) =
        (r.syncEach a rest).run (Store.collaborators now) (s₁.tell (notices ++ a.told done) now) ∧
      (r.syncEach a (done.map Prod.fst ++ rest)).trace (Store.collaborators now)
          (s.tell notices now) =
        a.exchanges done ++ (r.syncEach a rest).trace (Store.collaborators now)
          (s₁.tell (notices ++ a.told done) now) := by
  induction h generalizing notices with
  | @nil s =>
    have htold : notices ++ a.told [] = notices := List.append_nil notices
    rw [htold]
    exact ⟨rfl, rfl⟩
  | @cons s s₁ s₂ b outcome done first others ih =>
    have hfirst : (s.tell notices now).upsert b.placeholder (b.owned a.database.metadata) =
        (.ok outcome, s₁.tell notices now) := by
      rw [Store.upsert_tell, first]
    obtain ⟨hrun, htrace⟩ := syncEach_cons_ok r now (done.map Prod.fst ++ rest) hfirst
    obtain ⟨hrun', htrace'⟩ := ih (notices ++ a.told [(b, outcome)])
    rw [← Store.tell_append] at hrun htrace
    rw [List.append_assoc, ← Aggregate.told_cons] at hrun' htrace'
    refine ⟨hrun.trans hrun', htrace.trans ?_⟩
    rw [htrace', a.exchanges_cons (b, outcome) done, List.append_assoc]

/-- **The builders in turn.** Let a pass with any catalog bring the objects that a database owns to
their shape, over any store. Either all builders succeed, each on the store that the one before has
left, or there is a first that fails. If all succeed, the pass proceeds, and their writes are all
that has happened to objects. If one fails, the pass halts with the default delay and an error that
names the object of the builder; objects are as the builders before it have left them, and the later
ones are not called. The notices are one for each builder that has written its object, in their
order, and at the end a warning if a builder has failed. Tenants do not change. -/
theorem sync_composition (r : Reconciler) (a : Aggregate) (now : UInt64) (s : Store) :
    let owner := a.database.metadata
    let flow := ((r.sync a).run (Store.collaborators now) s).1
    let s' := ((r.sync a).run (Store.collaborators now) s).2
    let t := (r.sync a).trace (Store.collaborators now) s
    ((∃ done s₁, r.catalog a = done.map Prod.fst ∧ s.Builds owner done s₁) ∨
      ∃ done b later e s₁, r.catalog a = done.map Prod.fst ++ b :: later ∧ s.Builds owner done s₁ ∧
        (s₁.upsert b.placeholder (b.owned owner)).1 = .error e) ∧
    (∀ done s₁, r.catalog a = done.map Prod.fst → s.Builds owner done s₁ →
      flow = .proceed a ∧ s' = s₁.tell (a.told done) now ∧ t = a.exchanges done ∧
        s'.objects = s₁.objects ∧ s'.tenants = s.tenants) ∧
    ∀ done b later e s₁, r.catalog a = done.map Prod.fst ++ b :: later → s.Builds owner done s₁ →
      (s₁.upsert b.placeholder (b.owned owner)).1 = .error e →
      flow = .fail r.delays.default (.sync b.placeholder.kind b.placeholder.key e) a ∧
        s' = s₁.tell (a.told done ++ [a.failureNotice b e]) now ∧
        t = a.exchanges done ++ [.upsert b.placeholder (b.owned owner) (.error e),
          .record (a.failureNotice b e)] ∧
        s'.objects = s₁.objects ∧ s'.tenants = s.tenants := by
  refine ⟨s.builds_cases _ _, ?_, ?_⟩
  · intro done s₁ hcatalog hbuilds
    obtain ⟨hrun, htrace⟩ := syncEach_append r now [] hbuilds []
    rw [List.append_nil, ← hcatalog] at hrun htrace
    obtain ⟨hobjects, htenants⟩ := s₁.tell_frame (a.told done) now
    refine ⟨congrArg Prod.fst hrun, congrArg Prod.snd hrun, htrace.trans (List.append_nil _),
      ?_, ?_⟩
    · exact (congrArg (·.2.objects) hrun).trans hobjects
    · exact (congrArg (·.2.tenants) hrun).trans (htenants.trans hbuilds.tenants)
  · intro done b later e s₁ hcatalog hbuilds hfails
    have hfails' : (s₁.tell (a.told done) now).upsert b.placeholder
        (b.owned a.database.metadata) = (.error e, s₁.tell (a.told done) now) := by
      rw [Store.upsert_tell, Store.upsert_eq_error hfails]
    obtain ⟨hrun, htrace⟩ := syncEach_append r now (b :: later) hbuilds []
    rw [← hcatalog, List.nil_append] at hrun htrace
    obtain ⟨hlast, htold⟩ := syncEach_cons_error r now later hfails'
    have hrun := hrun.trans hlast
    rw [← Store.tell_append] at hrun
    obtain ⟨hobjects, htenants⟩ := s₁.tell_frame (a.told done ++ [a.failureNotice b e]) now
    refine ⟨congrArg Prod.fst hrun, congrArg Prod.snd hrun, htrace.trans (congrArg _ htold), ?_, ?_⟩
    · exact (congrArg (·.2.objects) hrun).trans hobjects
    · exact (congrArg (·.2.tenants) hrun).trans (htenants.trans hbuilds.tenants)

end Reconciler

end Converge

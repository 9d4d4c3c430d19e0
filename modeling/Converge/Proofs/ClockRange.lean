import Converge.Proofs.Requeue
import Converge.Simulation.Basic
import Mathlib

/-!
# Delays and the range of the clock

The delays of a configuration are durations below `2 ^ 64`, and the clock of the schedule ends at
`2 ^ 63`. A configuration with a delay too long for the clock is accepted all the same, and the
controller overflows the clock as soon as a pass asks for that delay. Every configured delay is one
that some pass asks for, so a configuration is safe at an instant exactly when none of its delays
leads out of the range from there.

## Main definitions

* `Program.Yields`: a property of all values that a program can end with.
* `Delays.list`, `Controller.waits`: the delays of a reconciler and of a controller.
* `Store.staged`: stores with one database.

## Main results

* `Reconciler.reconcile_yields`: the delays that a pass can ask for.
* `Controller.exists_stagedAfter?`: every delay is one that a pass asks for.
* `Controller.tick_total_iff`: the instants at which no tick overflows the clock.
* `Settings.tick_total_iff_of_parse`: the same for accepted configurations.
-/

namespace Converge

/-! ### Values of programs -/

namespace Program

variable {α β σ : Type} {p : Program α} {f : α → Program β} {a : α} {P : α → Prop} {Q : β → Prop}
  {step : Program Flow} {next : Aggregate → Program Flow} {F : Flow → Prop}

/-- Every value that the program can end with has the property, whatever its calls are answered. -/
def Yields (p : Program α) (P : α → Prop) : Prop := ∀ t a, p.Ends t a → P a

theorem yields_pure (h : P a) : (pure a : Program α).Yields P := by
  rintro t _ ⟨-, rfl⟩
  exact h

/-- The last of two programs decides, whatever the first ends with. -/
theorem Yields.after (h : ∀ a, (f a).Yields Q) : (p >>= f).Yields Q := by
  intro t b hends
  obtain ⟨_, t₂, a, -, -, hends⟩ := ends_bind.mp hends
  exact h a t₂ b hends

theorem Yields.bind (hp : p.Yields P) (h : ∀ a, P a → (f a).Yields Q) : (p >>= f).Yields Q := by
  intro t b hends
  obtain ⟨t₁, t₂, a, -, hfirst, hends⟩ := ends_bind.mp hends
  exact h a (hp t₁ a hfirst) t₂ b hends

theorem Yields.ite {c : Prop} [Decidable c] {q : Program α} (hp : p.Yields P) (hq : q.Yields P) :
    (if c then p else q).Yields P := by
  split
  · exact hp
  · exact hq

/-- Two steps in a row end as the first when it halts, and as the second otherwise. -/
theorem Yields.andThen (hstep : step.Yields F) (hnext : ∀ a, (next a).Yields F) :
    (step.andThen next).Yields F := by
  refine hstep.bind fun flow hflow => ?_
  cases flow with
  | proceed a => exact hnext a
  | halt wish a => exact yields_pure hflow

theorem Yields.run (h : p.Yields P) (c : Collaborators σ) (s : σ) : P (p.run c s).1 :=
  h _ _ (ends_trace c p s)

end Program

/-! ### The delays that a pass asks for -/

/-- All delays of a reconciler. -/
def Delays.list (d : Delays) : List Seconds :=
  [d.default, d.statusUpdate, d.tenantCreation, d.storageAwait, d.sharedDatabaseAwait]

/-- A step proceeds, or halts with one of the delays. -/
def Flow.AsksOf (delays : List Seconds) : Flow → Prop
  | proceed _ => True
  | halt wish _ => wish.after ∈ delays

namespace Reconciler

open Program (Yields)

variable {r : Reconciler} {now : UInt64} {key : ObjectKey} {a : Aggregate}

theorem persistAndHalt_yields : (r.persistAndHalt a).Yields (Flow.AsksOf r.delays.list) := by
  have hpersist : (r.persistStatus a).Yields (·.after ∈ r.delays.list) := by
    rw [persistStatus_eq]
    refine .after fun found => .after fun result => ?_
    cases result with
    | ok _ => exact Program.yields_pure (by simp [Delays.list])
    | error e => exact .after fun _ => Program.yields_pure (by simp [Delays.list])
  exact hpersist.bind fun wish hwish => Program.yields_pure hwish

theorem awaitStorage_yields : (r.awaitStorage a).Yields (Flow.AsksOf r.delays.list) := by
  refine .after fun found => ?_
  match found with
  | .error _ | .ok none =>
    exact .after fun _ => Program.yields_pure (by
      simp [Flow.AsksOf, Flow.fail, Flow.wait, Delays.list])
  | .ok (some storage) =>
    refine .ite (Program.yields_pure trivial) (.after fun _ => Program.yields_pure ?_)
    simp [Flow.AsksOf, Flow.wait, Delays.list]

theorem syncEach_yields (builders : List Builder) :
    (r.syncEach a builders).Yields (Flow.AsksOf r.delays.list) := by
  induction builders with
  | nil => exact Program.yields_pure trivial
  | cons b rest ih =>
    refine .after fun result => ?_
    cases result with
    | ok outcome => exact .ite (.after fun _ => ih) ih
    | error e =>
      exact .after fun _ => Program.yields_pure (by simp [Flow.AsksOf, Flow.fail, Delays.list])

theorem promote_yields : (r.promote a).Yields (Flow.AsksOf r.delays.list) :=
  .ite (.after fun _ => persistAndHalt_yields) (Program.yields_pure trivial)

theorem awaitScale_yields : (r.awaitScale a).Yields (Flow.AsksOf r.delays.list) := by
  refine .ite promote_yields (.after fun found => ?_)
  match found with
  | .error _ =>
    exact .after fun _ => Program.yields_pure (by simp [Flow.AsksOf, Flow.fail, Delays.list])
  | .ok none => exact Program.yields_pure (by simp [Flow.AsksOf, Flow.wait, Delays.list])
  | .ok (some workload) => exact .ite promote_yields (.after fun _ => persistAndHalt_yields)

theorem announceTenant_yields :
    (r.announceTenant now a).Yields (Flow.AsksOf r.delays.list) :=
  .ite (Program.yields_pure trivial) persistAndHalt_yields

/-- A wish to wait for the shared database. -/
theorem storageOf_yields : (r.storageOf a).Yields
    fun found => ∀ wish, found = .error wish → wish.after ∈ r.delays.list := by
  unfold storageOf
  split
  · exact Program.yields_pure nofun
  · exact Program.yields_pure nofun
  refine .after fun found => ?_
  have hwish : ∀ wish : Requeue, wish.after = r.delays.sharedDatabaseAwait →
      ∀ wish', (.error wish : Except Requeue TenantStorage) = .error wish' →
        wish'.after ∈ r.delays.list := by
    rintro wish hafter _ heq
    obtain rfl := Except.error.inj heq
    simp [hafter, Delays.list]
  match found with
  | .error _ | .ok none => exact .after fun _ => Program.yields_pure (hwish _ rfl)
  | .ok (some database) =>
    exact .ite (Program.yields_pure nofun) (.after fun _ => Program.yields_pure (hwish _ rfl))

theorem createTenant_yields : (r.createTenant now a).Yields (Flow.AsksOf r.delays.list) := by
  refine storageOf_yields.bind fun found hfound => ?_
  match found with
  | .error wish => exact Program.yields_pure (hfound wish rfl)
  | .ok storage =>
    dsimp only
    split
    · exact Program.yields_pure (by simp [Flow.AsksOf, Flow.wait, Delays.list])
    · refine .after fun result => ?_
      cases result with
      | error e =>
        exact .after fun _ => Program.yields_pure (by simp [Flow.AsksOf, Flow.fail, Delays.list])
      | ok _ => exact .after fun _ => persistAndHalt_yields

theorem steps_yields : (r.steps now a).Yields (Flow.AsksOf r.delays.list) :=
  awaitStorage_yields.andThen fun _ => (syncEach_yields _).andThen fun _ =>
    awaitScale_yields.andThen fun _ => .ite (Program.yields_pure trivial)
      (announceTenant_yields.andThen fun _ => createTenant_yields)

/-- **The delays of a pass.** Whatever its calls are answered, a pass asks for no delay but one of
those that are configured. -/
theorem reconcile_yields : (r.reconcile now key).Yields
    fun d => ∀ delay, d.after? = some delay → delay ∈ r.delays.list := by
  have hdefault : ∀ error, ∀ delay,
      (Directive.requeue { after := r.delays.default, error }).after? = some delay →
        delay ∈ r.delays.list := by
    rintro error _ ⟨rfl⟩
    simp [Delays.list]
  refine .after fun found => ?_
  match found with
  | .error _ => exact Program.yields_pure (hdefault _)
  | .ok none => exact Program.yields_pure nofun
  | .ok (some database) =>
    dsimp only
    split
    · exact .after fun _ => Program.yields_pure (hdefault _)
    · have hrun : ∀ a, (r.runAggregate now a).Yields
          fun result => ∀ delay, result.1.after? = some delay → delay ∈ r.delays.list := by
        intro a
        refine steps_yields.bind fun flow hflow => ?_
        cases flow with
        | proceed a => exact Program.yields_pure nofun
        | halt wish a =>
          refine Program.yields_pure ?_
          rintro _ ⟨rfl⟩
          exact hflow
      exact (hrun _).bind fun result hresult => Program.yields_pure hresult

end Reconciler

/-! ### Ticks that do not overflow the clock -/

/-- A store in which the creation of the tenant of a database was announced, but with another
specification and status of the database. -/
def Store.staged (spec : DatabaseSpec) (status : DatabaseStatus) : Store :=
  (Operation.put (Database.kind.toObject ⟨.ofKey ⟨"prod", "orders"⟩, spec, status⟩)).apply
    awaitingTenant

theorem Store.staged_reachable (spec : DatabaseSpec) (status : DatabaseStatus) :
    (staged spec status).Reachable :=
  awaitingTenant_reachable.apply _

/-- Only that database is listed. -/
theorem Store.list_staged (spec : DatabaseSpec) (status : DatabaseStatus) :
    ((staged spec status).list Database.kind.name).map Object.key = [⟨"prod", "orders"⟩] := by
  cbv

/-- The delay that a pass over the database of a staged store asks for, when calls fail as `outages`
says. -/
def Reconciler.stagedAfter? (r : Reconciler) (spec : DatabaseSpec) (status : DatabaseStatus)
    (outages : Nat → Option Outage) : Option Seconds :=
  ((r.reconcile 0 ⟨"prod", "orders"⟩).run (Store.unreliable (fun _ => 0) outages)
    (0, Store.staged spec status)).1.after?

namespace Controller

variable {c : Controller} {now : Instant} {σ : Type}

/-- All delays after which a controller runs another pass. -/
def waits (c : Controller) : List Seconds := c.resync :: c.reconciler.delays.list

/-- The delay after any pass is one of these. -/
theorem after_mem_waits (c : Controller) (world : Collaborators σ) (clock : UInt64)
    (key : ObjectKey) (s : σ) :
    ((c.reconciler.reconcile clock key).run world s).1.after?.getD c.resync ∈ c.waits := by
  have hyields := (Reconciler.reconcile_yields : (c.reconciler.reconcile clock key).Yields _).run
    world s
  cases hafter : ((c.reconciler.reconcile clock key).run world s).1.after? with
  | none => exact List.mem_cons_self
  | some delay => exact List.mem_cons_of_mem _ (hyields delay hafter)

/-- When no delay leads out of the range of the clock all passes can be scheduled. -/
theorem runEach_total (hwaits : ∀ delay ∈ c.waits, now + delay.toNat < Instant.limit)
    (world : Collaborators σ) (clock : UInt64) (keys : List ObjectKey) (schedule : Schedule)
    (s : σ) : ∃ result, c.runEach world clock now keys schedule s = .ok result := by
  induction keys generalizing schedule s with
  | nil => exact ⟨_, rfl⟩
  | cons key keys ih =>
    rw [runEach]
    split
    · have hnext : c.next now ((c.reconciler.reconcile clock key).run world s).1 < Instant.limit :=
        hwaits _ (c.after_mem_waits world clock key s)
      obtain ⟨result, hresult⟩ := ih
        (schedule.insert key (c.next now ((c.reconciler.reconcile clock key).run world s).1))
        ((c.reconciler.reconcile clock key).run world s).2
      rw [runPass_eq]
      dsimp only
      rw [if_pos hnext]
      refine ⟨(result.1 + 1, result.2), ?_⟩
      change (c.runEach world clock now keys _ _ >>= _) = _
      rw [hresult]
      rfl
    · exact ih schedule s

/-- **Every delay is asked for** by a pass over the database of some staged store, with some calls
failing. -/
theorem exists_stagedAfter? (hc : c.reconciler.catalog = Catalog.standard) {delay : Seconds}
    (hdelay : delay ∈ c.waits) : ∃ spec status outages,
      (c.reconciler.stagedAfter? spec status outages).getD c.resync = delay := by
  obtain ⟨⟨delays, clusterDomain, catalog⟩, resync⟩ := c
  obtain rfl : catalog = Catalog.standard := hc
  rcases List.mem_cons.mp hdelay with rfl | hdelay
  · -- A database that is ready.
    have h : Reconciler.stagedAfter? ⟨delays, clusterDomain, Catalog.standard⟩
        { storageCluster := { name := "main" }, nodes := 2, resources := some {} }
        { state := .ready, conditions := [tenantCompleted.stamped 5] } (fun _ => none) = none := by
      with_unfolding_all rfl
    exact ⟨_, _, _, by rw [h]; rfl⟩
  simp only [Delays.list, List.mem_cons, List.not_mem_nil, or_false] at hdelay
  rcases hdelay with rfl | rfl | rfl | rfl | rfl
  · -- A database that does not say what storage it asks for.
    have h : Reconciler.stagedAfter? ⟨delays, clusterDomain, Catalog.standard⟩
        { storageCluster := { name := "main" } } {} (fun _ => none) = some delays.default := by
      with_unfolding_all rfl
    exact ⟨_, _, _, by rw [h]; rfl⟩
  · -- A database whose tenant is announced.
    have h : Reconciler.stagedAfter? ⟨delays, clusterDomain, Catalog.standard⟩
        { storageCluster := { name := "main" }, nodes := 2, resources := some {} } {}
        (fun _ => none) = some delays.statusUpdate := by
      with_unfolding_all rfl
    exact ⟨_, _, _, by rw [h]; rfl⟩
  · -- A database whose tenant cannot be created.
    have h : Reconciler.stagedAfter? ⟨delays, clusterDomain, Catalog.standard⟩
        { storageCluster := { name := "main" }, nodes := 2, resources := some {} }
        { state := .initializing, conditions := [tenantInProgress.stamped 5] }
        (fun n => if n = 7 then some ⟨.reported .backend "", .unavailable ""⟩ else none) =
          some delays.tenantCreation := by
      with_unfolding_all rfl
    exact ⟨_, _, _, by rw [h]; rfl⟩
  · -- A database without its storage cluster.
    have h : Reconciler.stagedAfter? ⟨delays, clusterDomain, Catalog.standard⟩
        { storageCluster := { name := "other" }, resources := some {} } {} (fun _ => none) =
          some delays.storageAwait := by
      with_unfolding_all rfl
    exact ⟨_, _, _, by rw [h]; rfl⟩
  · -- A database without the database that it shares.
    have h : Reconciler.stagedAfter? ⟨delays, clusterDomain, Catalog.standard⟩
        { storageCluster := { name := "main" }, serverlessResources := some ⟨{ name := "shared" }⟩ }
        { state := .initializing, conditions := [tenantInProgress.stamped 5] } (fun _ => none) =
          some delays.sharedDatabaseAwait := by
      with_unfolding_all rfl
    exact ⟨_, _, _, by rw [h]; rfl⟩

/-- **The range of the clock.** No tick at an instant overflows the clock, whatever the schedule,
the store and the calls that fail, exactly when no delay leads out of the range of the clock from
there. -/
theorem tick_total_iff (hc : c.reconciler.catalog = Catalog.standard) (now : Instant) :
    (∀ x : Loop, x.store.Reachable → ∀ t : Tick, t.now = now → ∃ result, c.tick x t = .ok result) ↔
      ∀ delay ∈ c.waits, now + delay.toNat < Instant.limit := by
  constructor
  · intro htotal delay hdelay
    obtain ⟨spec, status, outages, hafter⟩ := exists_stagedAfter? hc hdelay
    let t : Tick := { now, clock := 0, outages }
    obtain ⟨result, hresult⟩ := htotal ⟨{}, .staged spec status⟩ (Store.staged_reachable _ _) t rfl
    have hlisted : t.listed ⟨{}, .staged spec status⟩ = [⟨"prod", "orders"⟩] :=
      Store.list_staged spec status
    unfold tick at hresult
    rw [hlisted, runDue_eq (List.nodup_singleton _)] at hresult
    simp only at hresult
    split at hresult
    · rename_i hnext
      have hpass := hnext (⟨"prod", "orders"⟩, _) List.mem_cons_self
      rwa [← hafter]
    · exact nomatch hresult
  · rintro hwaits x - t rfl
    obtain ⟨result, hresult⟩ := runEach_total hwaits t.world t.clock (t.listed x)
      (x.schedule.retain (t.listed x)) (0, t.start x)
    rw [tick, runDue, hresult]
    exact ⟨_, rfl⟩

end Controller

/-! ### Accepted configurations -/

namespace Settings

variable {text : String} {settings : Settings}

/-- All durations of an accepted configuration are such. -/
theorem durations_of_parse (h : parse text = .ok settings) : ∃ delays resync tick,
    settings.delays = .ok delays ∧ settings.resync = .ok resync ∧ settings.tick = .ok tick := by
  rw [parse] at h
  split at h
  · exact nomatch h
  · obtain ⟨_, hvalid, hsettings⟩ := except_bind_eq_ok_iff.mp h
    obtain rfl := Except.ok.inj hsettings
    obtain ⟨delays, hdelays, hvalid⟩ := except_bind_eq_ok_iff.mp hvalid
    obtain ⟨resync, hresync, hvalid⟩ := except_bind_eq_ok_iff.mp hvalid
    obtain ⟨tick, htick, -⟩ := except_bind_eq_ok_iff.mp hvalid
    exact ⟨delays, resync, tick, hdelays, hresync, htick⟩

/-- A controller can be set up with an accepted configuration. -/
theorem ofSettings_of_parse (h : parse text = .ok settings) (catalog : Catalog) :
    ∃ c tick, Controller.ofSettings settings catalog = .ok (c, tick) ∧
      c.reconciler.catalog = catalog ∧ settings.delays = .ok c.reconciler.delays ∧
      settings.resync = .ok c.resync := by
  obtain ⟨delays, resync, tick, hdelays, hresync, htick⟩ := durations_of_parse h
  refine ⟨⟨⟨delays, settings.clusterDomain, catalog⟩, resync⟩, tick, ?_, rfl, hdelays, hresync⟩
  rw [Controller.ofSettings, hdelays, hresync, htick]
  rfl

/-- **Accepted configurations and the clock.** With every accepted configuration a controller can be
set up. No tick of it at an instant overflows the clock exactly when neither a configured delay nor
the resync interval leads out of the range of the clock from there. -/
theorem tick_total_iff_of_parse (h : parse text = .ok settings) :
    ∃ c tick, Controller.ofSettings settings .standard = .ok (c, tick) ∧
      settings.delays = .ok c.reconciler.delays ∧ settings.resync = .ok c.resync ∧
      ∀ now, (∀ x : Loop, x.store.Reachable → ∀ t : Tick, t.now = now →
        ∃ result, c.tick x t = .ok result) ↔
          ∀ delay ∈ c.resync :: c.reconciler.delays.list, now + delay.toNat < Instant.limit := by
  obtain ⟨c, tick, hc, hcatalog, hdelays, hresync⟩ := ofSettings_of_parse h .standard
  exact ⟨c, tick, hc, hdelays, hresync, c.tick_total_iff hcatalog⟩

/-- Settings that say how long to wait for a storage cluster, and nothing else. -/
def awaiting (delay : String) : Settings := { requeue := some { storageAwait := some delay } }

/-- A configuration with the longest delay that the clock can take at its start. -/
theorem tick_total_iff_of_parse_longest :
    parse "[requeue]\nstorage_await = \"9223372036853775807\"\n" =
        .ok (awaiting "9223372036853775807") ∧
      ∃ c tick, Controller.ofSettings (awaiting "9223372036853775807") .standard = .ok (c, tick) ∧
        ∀ x : Loop, x.store.Reachable → ∀ t : Tick, t.now = Simulation.start →
          ∃ result, c.tick x t = .ok result := by
  have hparse : parse "[requeue]\nstorage_await = \"9223372036853775807\"\n" =
      .ok (awaiting "9223372036853775807") := by cbv
  obtain ⟨c, tick, hc, hdelays, hresync, htotal⟩ := tick_total_iff_of_parse hparse
  have hdelays' : c.reconciler.delays = { storageAwait := 9223372036853775807 } :=
    Except.ok.inj (hdelays.symm.trans (by cbv))
  have hresync' : c.resync = 300 := Except.ok.inj (hresync.symm.trans (by cbv))
  refine ⟨hparse, c, tick, hc, (htotal _).mpr ?_⟩
  rw [hdelays', hresync']
  simp [Delays.list, Simulation.start, Instant.limit]

/-- With a longer delay the first tick overflows the clock, if the storage cluster of a database is
missing. -/
theorem tick_overflows_of_parse : ∃ settings c tick,
    parse "[requeue]\nstorage_await = \"9223372036854775807\"\n" = .ok settings ∧
      Controller.ofSettings settings .standard = .ok (c, tick) ∧ ∃ x : Loop, x.store.Reachable ∧
        c.tick x { now := Simulation.start, clock := 1000 } = .error {} := by
  have hparse : parse "[requeue]\nstorage_await = \"9223372036854775807\"\n" =
      .ok (awaiting "9223372036854775807") := by cbv
  let c : Controller := { reconciler := { delays := { storageAwait := 9223372036854775807 } } }
  have hc : Controller.ofSettings (awaiting "9223372036854775807") .standard = .ok (c, 1) := by cbv
  let spec : DatabaseSpec :=
    { storageCluster := { name := "storage" }, nodes := 1, resources := some {} }
  let o := Database.kind.toObject ⟨.ofKey ⟨"prod", "orders"⟩, spec, {}⟩
  let x : Loop := { store := (Store.Operation.put o).apply ∅ }
  have htick : (c.tick x { now := Simulation.start, clock := 1000 }).toOption.isNone = true := by
    decide +kernel
  refine ⟨_, c, 1, hparse, hc, x, Store.Reachable.empty.apply (.put o), ?_⟩
  cases hresult : c.tick x { now := Simulation.start, clock := 1000 } with
  | error e => rfl
  | ok result => simp [hresult, Except.toOption] at htick

end Settings

end Converge

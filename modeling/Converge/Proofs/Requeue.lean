import Converge.Proofs.Frame
import Converge.Proofs.Identity
import Converge.Schedule
import Mathlib.Data.List.Nodup

/-!
# The schedule of passes over a run

The controller ticks: each time it lists the databases, forgets those that are gone, and runs a pass
over each that is due. Between two ticks clients change the store as they like, and in a tick any
calls of the passes may fail.

What a tick does to the schedule is said without the schedule of its own passes, because the keys
that are listed are all different: a pass moves the due time of its own database only, so that the
databases that have a pass in a tick are those that were due when it began.

## Main definitions

* `Controller.passEach`: passes over given databases, one after the other.
* `Controller.rescheduled`: the schedule after passes.
* `Loop`, `Tick`, `Controller.tick`, `Controller.Ticks`: the controller, and runs of it.
* `Controller.Scheduled`: what a tick does to the schedule.

## Main results

* `Controller.runDue_eq`: a tick as passes over the databases that were due when it began.
* `Controller.scheduled_of_tick`: the law of a single tick.
* `Controller.requeue_schedule`: when a database has its passes in a run.
-/

namespace Converge

/-! ### Schedules -/

namespace Schedule

variable {schedule : Schedule} {key key' : ObjectKey} {instant now : Instant}

theorem due?_insert (schedule : Schedule) (key key' : ObjectKey) (instant : Instant) :
    (schedule.insert key instant).due? key' =
      if key = key' then some instant else schedule.due? key' := by
  rw [due?, insert, List.find?_cons]
  by_cases h : key = key'
  · simp [h]
  · simp only [beq_eq_false_iff_ne.mpr h, if_neg h, List.find?_filter, due?]
    refine congrArg (Option.map _) (congrArg (List.find? · schedule.entries) (funext fun e => ?_))
    by_cases he : e.1 = key'
    · simp [he, Ne.symm h]
    · simp [he]

theorem due?_retain (schedule : Schedule) (keys : List ObjectKey) (key : ObjectKey) :
    (schedule.retain keys).due? key = if key ∈ keys then schedule.due? key else none := by
  rw [due?, retain, List.find?_filter]
  split
  · rename_i h
    refine congrArg (Option.map _) (congrArg (List.find? · schedule.entries) (funext fun e => ?_))
    by_cases he : e.1 = key
    · simp [he, h]
    · simp [he]
  · rename_i h
    rw [Option.map_eq_none_iff, List.find?_eq_none]
    intro e _ he
    simp only [Bool.decide_and, Bool.and_eq_true, decide_eq_true_eq, List.contains_iff_mem,
      beq_iff_eq] at he
    exact h (he.2 ▸ he.1)

theorem isDue_iff : schedule.isDue key now = true ↔
    ∀ instant, schedule.due? key = some instant → instant ≤ now := by
  rw [isDue]
  cases schedule.due? key <;> simp

theorem isDue_congr {schedule' : Schedule} (h : schedule'.due? key = schedule.due? key) :
    schedule'.isDue key now = schedule.isDue key now := by
  rw [isDue, isDue, h]

end Schedule

/-! ### The passes of a tick -/

namespace Controller

variable {σ : Type} {c : Controller} {world : Collaborators σ} {clock : UInt64} {now : Instant}
  {keys listed : List ObjectKey} {schedule schedule' : Schedule} {s : σ} {key : ObjectKey}
  {d : Directive} {passes : List (ObjectKey × Directive)}

/-- Passes over databases, one after the other: the directive of each, and the world afterwards. -/
def passEach (c : Controller) (world : Collaborators σ) (clock : UInt64) :
    List ObjectKey → σ → List (ObjectKey × Directive) × σ
  | [], s => ([], s)
  | key :: keys, s =>
    let (directive, s) := (c.reconciler.reconcile clock key).run world s
    let (passes, s) := c.passEach world clock keys s
    ((key, directive) :: passes, s)

theorem keys_passEach (keys : List ObjectKey) (s : σ) :
    (c.passEach world clock keys s).1.map (·.1) = keys := by
  induction keys generalizing s with
  | nil => rfl
  | cons key keys ih => exact congrArg (key :: ·) (ih _)

/-- When a database is due after a pass at `now` has returned a directive: after the delay that the
directive asks for, or after the resync interval. -/
def next (c : Controller) (now : Instant) (d : Directive) : Instant :=
  now + (d.after?.getD c.resync).toNat

/-- The schedule after passes at `now`. -/
def rescheduled (c : Controller) (now : Instant) (schedule : Schedule)
    (passes : List (ObjectKey × Directive)) : Schedule :=
  passes.foldl (fun schedule pass => schedule.insert pass.1 (c.next now pass.2)) schedule

theorem due?_rescheduled_of_notMem (h : key ∉ passes.map (·.1)) :
    (c.rescheduled now schedule passes).due? key = schedule.due? key := by
  induction passes generalizing schedule with
  | nil => rfl
  | cons pass passes ih =>
    rw [List.map_cons, List.mem_cons, not_or] at h
    exact (ih h.2).trans (by rw [Schedule.due?_insert, if_neg (Ne.symm h.1)])

theorem due?_rescheduled_of_mem (hnodup : (passes.map (·.1)).Nodup) (h : (key, d) ∈ passes) :
    (c.rescheduled now schedule passes).due? key = some (c.next now d) := by
  induction passes generalizing schedule with
  | nil => exact absurd h List.not_mem_nil
  | cons pass passes ih =>
    rw [List.map_cons, List.nodup_cons] at hnodup
    rcases List.mem_cons.mp h with rfl | h
    · refine (due?_rescheduled_of_notMem hnodup.1).trans ?_
      rw [Schedule.due?_insert, if_pos rfl]
    · exact ih hnodup.2 h

/-- A single pass moves the due time of its database. -/
theorem runPass_eq (c : Controller) (world : Collaborators σ) (clock : UInt64) (now : Instant)
    (key : ObjectKey) (schedule : Schedule) (s : σ) :
    c.runPass world clock now key schedule s =
      let run := (c.reconciler.reconcile clock key).run world s
      if c.next now run.1 < Instant.limit then
        .ok (schedule.insert key (c.next now run.1), run.2)
      else .error {} :=
  rfl

/-- **The passes over different keys**: those that are due are passed over in order, and the others
left alone. It is an error when one of them would become due too late. -/
theorem runEach_eq (hkeys : keys.Nodup) :
    c.runEach world clock now keys schedule s =
      let run := c.passEach world clock (keys.filter (schedule.isDue · now)) s
      if ∀ pass ∈ run.1, c.next now pass.2 < Instant.limit then
        .ok (run.1.length, c.rescheduled now schedule run.1, run.2)
      else .error {} := by
  induction keys generalizing schedule s with
  | nil => simp [runEach, passEach, rescheduled]
  | cons key keys ih =>
    obtain ⟨hkey, hkeys⟩ := List.nodup_cons.mp hkeys
    rw [runEach, List.filter_cons]
    split
    · -- The pass over this key does not move the others.
      have hfilter : ∀ instant, keys.filter ((schedule.insert key instant).isDue · now) =
          keys.filter (schedule.isDue · now) := fun instant =>
        List.filter_congr fun key' hkey' => Schedule.isDue_congr (by
          have hne : key ≠ key' := fun h => hkey (h ▸ hkey')
          rw [Schedule.due?_insert, if_neg hne])
      rw [runPass_eq, passEach]
      generalize (c.reconciler.reconcile clock key).run world s = run
      obtain ⟨d, s'⟩ := run
      simp only [List.forall_mem_cons]
      by_cases hnext : c.next now d < Instant.limit
      · have ih' := @ih (schedule.insert key (c.next now d)) s' hkeys
        rw [hfilter] at ih'
        simp only [hnext, true_and]
        change (c.runEach world clock now keys _ s' >>= _) = _
        rw [ih']
        simp only
        split <;> rfl
      · simp only [hnext, false_and, if_false]
        rfl
    · exact ih hkeys

/-- **A tick as passes** over the databases that are listed and were due when it began. -/
theorem runDue_eq (hlisted : listed.Nodup) :
    c.runDue world clock now listed schedule s =
      let run := c.passEach world clock (listed.filter (schedule.isDue · now)) s
      if ∀ pass ∈ run.1, c.next now pass.2 < Instant.limit then
        .ok (run.1.length, c.rescheduled now (schedule.retain listed) run.1, run.2)
      else .error {} := by
  have hfilter : listed.filter ((schedule.retain listed).isDue · now) =
      listed.filter (schedule.isDue · now) :=
    List.filter_congr fun key hkey => Schedule.isDue_congr
      (by rw [Schedule.due?_retain, if_pos hkey])
  rw [runDue, runEach_eq hlisted, hfilter]

end Controller

/-! ### Runs -/

/-- The controller between two ticks: its schedule, and the store. -/
structure Loop where
  schedule : Schedule := {}
  store : Store := ∅

/-- A tick: what clients have done to the store since the one before, the instant, what the clock on
the wall shows, and which calls of the passes fail. -/
structure Tick where
  changes : List Store.Operation := []
  now : Instant
  clock : UInt64
  outages : Nat → Option Outage := fun _ => none

namespace Tick

/-- The store when the tick begins. -/
def start (t : Tick) (x : Loop) : Store := t.changes.foldl (fun s op => op.apply s) x.store

/-- The databases that the tick lists. -/
def listed (t : Tick) (x : Loop) : List ObjectKey :=
  ((t.start x).list Database.kind.name).map Object.key

/-- The answers to the calls of the passes in the tick. -/
def world (t : Tick) : Collaborators (Nat × Store) := Store.unreliable (fun _ => t.clock) t.outages

end Tick

namespace Controller

variable {c : Controller} {x y : Loop} {t : Tick} {n : Nat}

/-- A tick of the controller: the number of passes, and what it leaves. -/
def tick (c : Controller) (x : Loop) (t : Tick) : Except ClockOverflow (Nat × Loop) := do
  let (passes, schedule, _, store) ←
    c.runDue t.world t.clock t.now (t.listed x) x.schedule (0, t.start x)
  return (passes, { schedule, store })

/-- The passes over the databases that were due when the tick began, and the store afterwards. -/
def passesDue (c : Controller) (x : Loop) (t : Tick) : List (ObjectKey × Directive) × Nat × Store :=
  c.passEach t.world t.clock ((t.listed x).filter (x.schedule.isDue · t.now)) (0, t.start x)

/-- The databases that have a pass in a tick, each with the directive of the pass. -/
def passes (c : Controller) (x : Loop) (t : Tick) : List (ObjectKey × Directive) :=
  (c.passesDue x t).1

/-- What a tick does to the schedule. -/
structure Scheduled (c : Controller) (x : Loop) (t : Tick) (n : Nat) (y : Loop) : Prop where
  /-- Due times are held for the databases that were listed, and for no others. -/
  listed : ∀ key, (y.schedule.due? key).isSome = true ↔ key ∈ t.listed x
  /-- A database that is due later has no pass, and is due when it was. -/
  waits : ∀ key ∈ t.listed x, ∀ instant, x.schedule.due? key = some instant → t.now < instant →
    key ∉ (c.passes x t).map (·.1) ∧ y.schedule.due? key = some instant
  /-- Every other database that is listed has one pass. -/
  once : ∀ key ∈ t.listed x, (∀ instant, x.schedule.due? key = some instant → instant ≤ t.now) →
    ((c.passes x t).map (·.1)).count key = 1
  /-- Nothing else has a pass. -/
  only : ∀ key ∈ (c.passes x t).map (·.1), key ∈ t.listed x
  /-- After a pass a database is due as its directive says. -/
  due : ∀ key d, (key, d) ∈ c.passes x t → y.schedule.due? key = some (c.next t.now d)
  count : n = (c.passes x t).length
  /-- These passes are what the tick has done. -/
  store : y.store = (c.passesDue x t).2.2

/-- What the tick does, if no two databases that are listed have the same key. -/
theorem tick_eq_ok (hlisted : (t.listed x).Nodup)
    (h : c.tick x t = .ok (n, y)) :
    n = (c.passes x t).length ∧
      y.schedule = c.rescheduled t.now (x.schedule.retain (t.listed x)) (c.passes x t) ∧
      y.store = (c.passesDue x t).2.2 := by
  rw [tick, runDue_eq hlisted] at h
  simp only at h
  split at h
  · obtain ⟨rfl, rfl⟩ := Prod.mk.inj (Except.ok.inj h)
    exact ⟨rfl, rfl, rfl⟩
  · exact nomatch h

/-- **The law of a tick.** -/
theorem scheduled_of_tick (hlisted : (t.listed x).Nodup) (h : c.tick x t = .ok (n, y)) :
    c.Scheduled x t n y := by
  obtain ⟨hn, hschedule, hstore⟩ := tick_eq_ok hlisted h
  have hkeys : (c.passes x t).map (·.1) = (t.listed x).filter (x.schedule.isDue · t.now) :=
    keys_passEach _ _
  have hnodup : ((c.passes x t).map (·.1)).Nodup := hkeys ▸ hlisted.filter _
  have hmem : ∀ key, key ∈ (c.passes x t).map (·.1) ↔
      key ∈ t.listed x ∧ x.schedule.isDue key t.now = true := by
    intro key
    rw [hkeys, List.mem_filter]
  have hkept : ∀ key, key ∉ (c.passes x t).map (·.1) →
      y.schedule.due? key = if key ∈ t.listed x then x.schedule.due? key else none := by
    intro key hkey
    rw [hschedule, due?_rescheduled_of_notMem hkey, Schedule.due?_retain]
  have hdue : ∀ key d, (key, d) ∈ c.passes x t → y.schedule.due? key = some (c.next t.now d) := by
    intro key d hpass
    rw [hschedule, due?_rescheduled_of_mem hnodup hpass]
  refine ⟨fun key => ?_, fun key hkey instant hinstant hlater => ?_, fun key hkey hready => ?_,
    fun key hkey => ((hmem key).mp hkey).1, hdue, hn, hstore⟩
  · by_cases hpassed : key ∈ (c.passes x t).map (·.1)
    · obtain ⟨⟨_, d⟩, hpass, rfl⟩ := List.mem_map.mp hpassed
      rw [hdue _ d hpass]
      exact iff_of_true rfl ((hmem _).mp hpassed).1
    · rw [hkept key hpassed]
      split
      · rename_i hkey
        refine iff_of_true ?_ hkey
        -- A database without a due time is due.
        cases hinstant : x.schedule.due? key with
        | some instant => rfl
        | none =>
          have hready : x.schedule.isDue key t.now = true := Schedule.isDue_iff.mpr
            fun instant h => nomatch hinstant.symm.trans h
          exact absurd ((hmem key).mpr ⟨hkey, hready⟩) hpassed
      · rename_i hkey
        exact iff_of_false Bool.false_ne_true hkey
  · have hnot : key ∉ (c.passes x t).map (·.1) := fun hpassed =>
      absurd (Schedule.isDue_iff.mp ((hmem key).mp hpassed).2 instant hinstant)
        (Nat.not_le_of_lt hlater)
    exact ⟨hnot, by rw [hkept key hnot, if_pos hkey, hinstant]⟩
  · exact List.count_eq_one_of_mem hnodup ((hmem key).mpr ⟨hkey, Schedule.isDue_iff.mpr hready⟩)

/-- Passes leave a reachable store. -/
theorem reachable_passEach {s : Store} (hs : s.Reachable) (t : Tick) (keys : List ObjectKey)
    (n : Nat) : (c.passEach t.world t.clock keys (n, s)).2.2.Reachable := by
  induction keys generalizing n s with
  | nil => exact hs
  | cons key keys ih =>
    exact ih (Session.reachable_unreliable hs c.reconciler t.clock key _ t.outages n) _

end Controller

/-- The keys of the objects that are listed for a kind are all different, if no kind in the store
holds a slash. -/
theorem Store.nodup_keys_list {s : Store} (hs : s.Placed) {kind : String} (hkind : Free '/' kind)
    (hkinds : ∀ tkey o, s.objects.find? tkey = some o → Free '/' o.kind) :
    ((s.list kind).map Object.key).Nodup := by
  refine (nodup_list hs kind).map_on fun o ho o' ho' hkey => ?_
  rw [mem_list_iff hs hkind] at ho ho'
  have heq : o.kind = kind := ho.2.eq_of_free (hkinds _ o ho.1)
  have heq' : o'.kind = kind := ho'.2.eq_of_free (hkinds _ o' ho'.1)
  rw [heq, hkey] at ho
  rw [heq'] at ho'
  exact Option.some.inj (ho.1.symm.trans ho'.1)

/-! ### Runs of ticks -/

namespace Controller

/-- The controller ticks `N` times, at none of them with an overflow of the clock: the tick number
`i` begins with `x i` and returns `counts i`. -/
structure Ticks (c : Controller) (N : Nat) (ticks : Nat → Tick) (x : Nat → Loop)
    (counts : Nat → Nat) : Prop where
  tick : ∀ i, i < N → c.tick (x i) (ticks i) = .ok (counts i, x (i + 1))
  reachable : (x 0).store.Reachable
  /-- No kind in the store holds a slash when a tick begins. -/
  kinds : ∀ i, i < N → ∀ tkey o, ((ticks i).start (x i)).objects.find? tkey = some o →
    Free '/' o.kind

namespace Ticks

variable {c : Controller} {N i j : Nat} {ticks : Nat → Tick} {x : Nat → Loop}
  {counts : Nat → Nat} {key : ObjectKey} {d : Directive} {instant : Instant}

theorem nodup_listed (h : c.Ticks N ticks x counts) (hi : i < N) (hx : (x i).store.Reachable) :
    ((ticks i).listed (x i)).Nodup :=
  Store.nodup_keys_list (hx.foldl (ticks i).changes).placed (by decide) (h.kinds i hi)

theorem reachable_store (h : c.Ticks N ticks x counts) : ∀ i ≤ N, (x i).store.Reachable := by
  intro i
  induction i with
  | zero => exact fun _ => h.reachable
  | succ i ih =>
    intro hi
    have hx := ih (Nat.le_of_succ_le hi)
    rw [(tick_eq_ok (h.nodup_listed hi hx) (h.tick i hi)).2.2]
    exact reachable_passEach (hx.foldl (ticks i).changes) (ticks i) _ 0

/-- Every tick of a run follows the law. -/
theorem scheduled (h : c.Ticks N ticks x counts) (hi : i < N) :
    c.Scheduled (x i) (ticks i) (counts i) (x (i + 1)) :=
  scheduled_of_tick (h.nodup_listed hi (h.reachable_store i hi.le)) (h.tick i hi)

/-- A database that stays listed has no pass before it is due, and is due when it was. -/
theorem waits (h : c.Ticks N ticks x counts) (hij : i ≤ j) (hj : j ≤ N)
    (hdue : (x i).schedule.due? key = some instant)
    (hlisted : ∀ k, i ≤ k → k < j → key ∈ (ticks k).listed (x k))
    (hearly : ∀ k, i ≤ k → k < j → (ticks k).now < instant) :
    (∀ k, i ≤ k → k < j → key ∉ (c.passes (x k) (ticks k)).map (·.1)) ∧
      (x j).schedule.due? key = some instant := by
  induction j, hij using Nat.le_induction with
  | base => exact ⟨fun k hik hki => absurd hki (Nat.not_lt_of_le hik), hdue⟩
  | succ j hij ih =>
    obtain ⟨hpasses, hheld⟩ := ih (Nat.le_of_succ_le hj)
      (fun k hik hkj => hlisted k hik (Nat.lt_succ_of_lt hkj))
      fun k hik hkj => hearly k hik (Nat.lt_succ_of_lt hkj)
    obtain ⟨hnot, hnext⟩ := (h.scheduled hj).waits key (hlisted j hij j.lt_succ_self) instant hheld
      (hearly j hij j.lt_succ_self)
    refine ⟨fun k hik hkj => ?_, hnext⟩
    rcases Nat.lt_succ_iff_lt_or_eq.mp hkj with hkj | rfl
    · exact hpasses k hik hkj
    · exact hnot

/-- A database that is listed has a pass exactly when it is not due later. -/
theorem passed_iff (h : c.Ticks N ticks x counts) (hi : i < N)
    (hlisted : key ∈ (ticks i).listed (x i)) :
    key ∈ (c.passes (x i) (ticks i)).map (·.1) ↔
      ∀ instant, (x i).schedule.due? key = some instant → instant ≤ (ticks i).now := by
  constructor
  · intro hpassed instant hinstant
    by_contra hlater
    exact ((h.scheduled hi).waits key hlisted instant hinstant (Nat.lt_of_not_le hlater)).1 hpassed
  · intro hready
    have hcount := (h.scheduled hi).once key hlisted hready
    exact List.count_pos_iff.mp (by rw [hcount]; exact Nat.one_pos)

end Ticks

/-- **The schedule of passes.** Whatever schedule a run begins with, and whatever happens to the
store between two ticks, every tick follows the law of `Scheduled`. So a database that stays listed
after a pass has no pass in the ticks before it is due again, and has one in the tick after these if
and only if that is not too early either; and a database that was not listed has a pass in the first
tick that lists it again. -/
theorem requeue_schedule {c : Controller} {N : Nat} {ticks : Nat → Tick} {x : Nat → Loop}
    {counts : Nat → Nat} (h : c.Ticks N ticks x counts) :
    (∀ i < N, c.Scheduled (x i) (ticks i) (counts i) (x (i + 1))) ∧
    (∀ i j key d, i < j → j < N → (key, d) ∈ c.passes (x i) (ticks i) →
      (∀ k, i < k → k ≤ j → key ∈ (ticks k).listed (x k)) →
      (∀ k, i < k → k < j → (ticks k).now < c.next (ticks i).now d) →
      (∀ k, i < k → k < j → key ∉ (c.passes (x k) (ticks k)).map (·.1)) ∧
      (key ∈ (c.passes (x j) (ticks j)).map (·.1) ↔ c.next (ticks i).now d ≤ (ticks j).now)) ∧
    ∀ i j key, i < j → j < N → (∀ k, i ≤ k → k < j → key ∉ (ticks k).listed (x k)) →
      key ∈ (ticks j).listed (x j) → key ∈ (c.passes (x j) (ticks j)).map (·.1) := by
  refine ⟨fun i hi => h.scheduled hi, ?_, ?_⟩
  · intro i j key d hij hj hpass hlisted hearly
    obtain ⟨hpasses, hheld⟩ := h.waits hij hj.le ((h.scheduled (hij.trans hj)).due key d hpass)
      (fun k hik hkj => hlisted k hik hkj.le) hearly
    refine ⟨hpasses, ?_⟩
    rw [h.passed_iff hj (hlisted j hij le_rfl)]
    constructor
    · exact fun hready => hready _ hheld
    · rintro hlate instant hinstant
      obtain rfl := Option.some.inj (hheld.symm.trans hinstant)
      exact hlate
  · intro i j key hij hj habsent hlisted
    -- A database that was not listed by the tick before has no due time.
    obtain ⟨k, rfl⟩ := Nat.exists_eq_add_one_of_ne_zero (Nat.ne_zero_of_lt hij)
    have hgone := habsent k (Nat.le_of_lt_succ hij) k.lt_succ_self
    refine (h.passed_iff hj hlisted).mpr fun instant hinstant => absurd ?_ hgone
    exact ((h.scheduled (Nat.lt_of_succ_lt hj)).listed key).mp (by rw [hinstant]; rfl)

/-- A database without its storage cluster has a pass every sixty seconds. It is removed, and has a
pass as soon as it is there again. -/
theorem requeue_schedule_orders :
    let orders : ObjectKey := ⟨"prod", "orders"⟩
    let o := Database.kind.toObject
      ⟨.ofKey orders, { storageCluster := { name := "main" }, resources := some {} }, {}⟩
    let ticks : Nat → Tick
      | 0 => { changes := [.put o], now := 0, clock := 0 }
      | 1 => { now := 59, clock := 59 }
      | 2 => { now := 60, clock := 60 }
      | 3 => { changes := [.delete "Database" orders], now := 61, clock := 61 }
      | _ => { changes := [.put o], now := 62, clock := 62 }
    let c : Controller := {}
    let x : Nat → Loop := Nat.rec {} fun i x => ((c.tick x (ticks i)).toOption.getD (0, x)).2
    let counts i := ((c.tick (x i) (ticks i)).toOption.getD (0, x i)).1
    let passed i := (c.passes (x i) (ticks i)).map (·.1)
    c.Ticks 5 ticks x counts ∧ (x 1).schedule.due? orders = some 60 ∧
      orders ∉ passed 1 ∧ orders ∈ passed 2 ∧ orders ∉ passed 3 ∧ orders ∈ passed 4 := by
  intro orders o ticks c x counts passed
  have hok : ∀ i < 5, (c.tick (x i) (ticks i)).toOption.isSome = true := by decide +kernel
  have hkinds : ∀ i < 5, ∀ entry ∈ ((ticks i).start (x i)).objects.entries,
      Free '/' entry.2.kind := by decide +kernel
  have hticks : c.Ticks 5 ticks x counts := by
    refine ⟨fun i hi => ?_, .empty, fun i hi tkey o hfind =>
      hkinds i hi (tkey, o) ((Table.mem_entries_iff _ _ _).mpr hfind)⟩
    have hstep : x (i + 1) = ((c.tick (x i) (ticks i)).toOption.getD (0, x i)).2 := rfl
    have hsome := hok i hi
    rw [hstep]
    simp only [counts]
    cases hresult : c.tick (x i) (ticks i) with
    | ok result => rfl
    | error e => simp [hresult, Except.toOption] at hsome
  have hlisted : ∀ i < 5, orders ∈ (ticks i).listed (x i) ↔ i ≠ 3 := by decide +kernel
  have htimes : ∀ k < 2, (ticks k).now < 60 := by decide
  obtain ⟨hlaw, hagain, hback⟩ := requeue_schedule hticks
  have hpass : (orders, .requeue { after := 60 }) ∈ c.passes (x 0) (ticks 0) := by decide +kernel
  obtain ⟨hnone, hdue⟩ := hagain 0 2 orders (.requeue { after := 60 }) (by decide) (by decide) hpass
    (fun k _ hk => (hlisted k (by omega)).mpr (by omega)) fun k _ hk => htimes k hk
  have hgone : orders ∉ (ticks 3).listed (x 3) := fun h => (hlisted 3 (by decide)).mp h rfl
  have habsent : ∀ k, 3 ≤ k → k < 4 → orders ∉ (ticks k).listed (x k) := by
    intro k h₁ h₂
    obtain rfl : k = 3 := by omega
    exact hgone
  exact ⟨hticks, (hlaw 0 (by decide)).due orders _ hpass, hnone 1 (by decide) (by decide),
    hdue.mpr le_rfl, fun h => hgone ((hlaw 3 (by decide)).only orders h),
    hback 3 4 orders (by decide) (by decide) habsent ((hlisted 4 (by decide)).mpr (by decide))⟩

end Controller

end Converge

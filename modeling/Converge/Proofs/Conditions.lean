import Converge.Database
import Mathlib.Data.List.Induction
import Mathlib.Tactic.ByContra

/-!
# Observations of a database

An observation enters the list of conditions in one of two ways: it revises the first condition of
its type, or it is appended because there is none. What it says is then the current condition of
its type, and to make it once more changes nothing. The time of a condition is that of the latest
observation to *turn* it: of the first one, or of one whose status is another than the one before.

## Main definitions

* `Condition.effectiveTime`: the time with which an observation enters.
* `DatabaseStatus.Entered`: the list of conditions before and after an observation.
* `DatabaseStatus.observeAll`: the status after observations made one after the other.
* `DatabaseStatus.Turns`, `DatabaseStatus.LatestTurn`: the observations that turn a condition.

## Main results

* `DatabaseStatus.find?_insertCondition`: the current condition of every type after an observation.
* `DatabaseStatus.isTrue_setCondition`: an observation decides whether its condition holds.
* `DatabaseStatus.setCondition_spec`: what one observation does, and what a sequence of them does to
  the time of a condition.
-/

namespace Converge

/-! ### Single conditions -/

namespace Condition

variable {c old new : Condition} {now : UInt64}

/-- The time with which an observation made at time `now` enters a status: its own if it has one. -/
def effectiveTime (c : Condition) (now : UInt64) : UInt64 :=
  if c.lastTransition = 0 then now else c.lastTransition

theorem stamped_eq (c : Condition) (now : UInt64) :
    c.stamped now = { c with lastTransition := c.effectiveTime now } := by
  rw [stamped, effectiveTime]
  split <;> rfl

@[simp]
theorem stamped_type : (c.stamped now).type = c.type := by rw [stamped_eq]

@[simp]
theorem stamped_status : (c.stamped now).status = c.status := by rw [stamped_eq]

@[simp]
theorem stamped_reason : (c.stamped now).reason = c.reason := by rw [stamped_eq]

@[simp]
theorem stamped_message : (c.stamped now).message = c.message := by rw [stamped_eq]

@[simp]
theorem stamped_lastTransition : (c.stamped now).lastTransition = c.effectiveTime now := by
  rw [stamped_eq]

theorem differs_eq_false_iff : old.differs new = false ↔
    old.status = new.status ∧ old.reason = new.reason ∧ old.message = new.message := by
  simp [differs, and_assoc]

/-- A condition stays as it is exactly under an observation that says the same. -/
theorem revise_eq_self_iff : old.revise new = old ↔ old.differs new = false := by
  rw [differs_eq_false_iff, revise]
  constructor
  · intro h
    exact ⟨congrArg (·.status) h.symm, congrArg (·.reason) h.symm, congrArg (·.message) h.symm⟩
  · rintro ⟨hstatus, hreason, hmessage⟩
    rw [if_pos hstatus, ← hstatus, ← hreason, ← hmessage]

end Condition

namespace DatabaseStatus

variable {st : DatabaseStatus} {c old cond : Condition} {type : String} {now : UInt64}
  {l before after : List Condition}

/-! ### One observation -/

/-- The list of conditions before and after an observation `c` made at time `now`. -/
inductive Entered (c : Condition) (now : UInt64) : List Condition → List Condition → Prop
  /-- There is no condition of the type of `c`. -/
  | appended {l : List Condition} (hnew : ∀ other ∈ l, other.type ≠ c.type) :
      Entered c now l (l ++ [{ c with lastTransition := c.effectiveTime now }])
  /-- The first condition of the type of `c` keeps its time if it keeps its status. -/
  | revised {before after : List Condition} {old : Condition}
      (hfirst : ∀ earlier ∈ before, earlier.type ≠ c.type) (htype : old.type = c.type) :
      Entered c now (before ++ old :: after) (before ++ { c with
        lastTransition := if old.status = c.status then old.lastTransition
          else c.effectiveTime now } :: after)

theorem condition?_eq_none_iff :
    st.condition? type = none ↔ ∀ other ∈ st.conditions, other.type ≠ type := by
  simp [condition?, List.find?_eq_none]

/-- The current condition of a type is the first one. -/
theorem condition?_eq_some_iff : st.condition? type = some old ↔ old.type = type ∧
    ∃ before after, st.conditions = before ++ old :: after ∧
      ∀ earlier ∈ before, earlier.type ≠ type := by
  simp [condition?, List.find?_eq_some_iff_append]

theorem insertCondition_of_forall_ne (h : ∀ other ∈ l, other.type ≠ c.type) :
    insertCondition c l = l ++ [c] := by
  induction l with
  | nil => rfl
  | cons other l ih =>
    obtain ⟨hother, hl⟩ := List.forall_mem_cons.mp h
    rw [insertCondition, if_neg (by simpa using hother), ih hl, List.cons_append]

theorem insertCondition_append (hbefore : ∀ earlier ∈ before, earlier.type ≠ c.type)
    (htype : old.type = c.type) :
    insertCondition c (before ++ old :: after) = before ++ old.revise c :: after := by
  induction before with
  | nil => rw [List.nil_append, insertCondition, if_pos (by simpa using htype), List.nil_append]
  | cons earlier before ih =>
    obtain ⟨hearlier, hbefore⟩ := List.forall_mem_cons.mp hbefore
    rw [List.cons_append, insertCondition, if_neg (by simpa using hearlier), ih hbefore,
      List.cons_append]

/-- The current condition of every type after an observation. -/
theorem find?_insertCondition (c : Condition) (l : List Condition) (type : String) :
    (insertCondition c l).find? (·.type == type) =
      if c.type = type then some ((l.find? (·.type == type)).elim c (·.revise c))
      else l.find? (·.type == type) := by
  induction l with
  | nil => by_cases h : c.type = type <;> simp [insertCondition, h]
  | cons old rest ih =>
    rw [insertCondition]
    by_cases hold : old.type = c.type <;> by_cases h : c.type = type <;>
      simp_all [List.find?_cons, Condition.revise]

theorem condition?_setCondition (st : DatabaseStatus) (c : Condition) (now : UInt64)
    (type : String) : (st.setCondition c now).1.condition? type =
      if c.type = type then
        some ((st.condition? type).elim (c.stamped now) (·.revise (c.stamped now)))
      else st.condition? type := by
  rw [condition?, setCondition, find?_insertCondition, Condition.stamped_type]
  rfl

/-- The first observation of a type is appended. -/
theorem setCondition_of_none (h : st.condition? c.type = none) : st.setCondition c now =
    ({ st with conditions := st.conditions ++ [c.stamped now] }, true) := by
  rw [setCondition, Condition.stamped_type, h,
    insertCondition_of_forall_ne (by simpa using condition?_eq_none_iff.mp h)]
  rfl

/-- A later one revises the first condition of its type. -/
theorem setCondition_of_some (hst : st.conditions = before ++ old :: after)
    (hbefore : ∀ earlier ∈ before, earlier.type ≠ c.type) (htype : old.type = c.type) :
    st.setCondition c now =
      ({ st with conditions := before ++ old.revise (c.stamped now) :: after },
        old.differs (c.stamped now)) := by
  have hfind : st.condition? c.type = some old :=
    condition?_eq_some_iff.mpr ⟨htype, before, after, hst, hbefore⟩
  rw [setCondition, Condition.stamped_type, hfind, hst,
    insertCondition_append (by simpa using hbefore) (by simpa using htype)]
  rfl

/-- The two ways in which an observation enters. -/
theorem type_cases (st : DatabaseStatus) (type : String) : st.condition? type = none ∨
    ∃ before old after, st.conditions = before ++ old :: after ∧
      (∀ earlier ∈ before, earlier.type ≠ type) ∧ old.type = type := by
  cases hfind : st.condition? type with
  | none => exact .inl rfl
  | some old =>
    obtain ⟨htype, before, after, hst, hbefore⟩ := condition?_eq_some_iff.mp hfind
    exact .inr ⟨before, old, after, hst, hbefore, htype⟩

theorem entered_setCondition (st : DatabaseStatus) (c : Condition) (now : UInt64) :
    Entered c now st.conditions (st.setCondition c now).1.conditions := by
  rcases st.type_cases c.type with hnone | ⟨before, old, after, hst, hbefore, htype⟩
  · rw [setCondition_of_none hnone, Condition.stamped_eq]
    exact .appended (condition?_eq_none_iff.mp hnone)
  · have hrevised : Entered c now (before ++ old :: after) _ := .revised hbefore htype
    rw [setCondition_of_some hst hbefore htype, hst, Condition.revise]
    simpa [htype] using hrevised

/-- The types of the conditions stay distinct. -/
theorem Entered.nodup {l l' : List Condition} (h : Entered c now l l')
    (hl : (l.map (·.type)).Nodup) : (l'.map (·.type)).Nodup := by
  cases h with
  | appended hnew =>
    rw [List.map_append, List.map_singleton, List.nodup_append]
    exact ⟨hl, List.pairwise_singleton _ _, by simpa using hnew⟩
  | revised _ htype => simpa [htype] using hl

/-- After an observation the condition of its type is there, and says what was observed. -/
theorem condition?_setCondition_self (st : DatabaseStatus) (c : Condition) (now : UInt64) :
    ∃ cond, (st.setCondition c now).1.condition? c.type = some cond ∧ cond.status = c.status ∧
      cond.reason = c.reason ∧ cond.message = c.message := by
  rw [condition?_setCondition, if_pos rfl]
  refine ⟨_, rfl, ?_⟩
  cases st.condition? c.type <;> simp [Condition.revise]

theorem isTrue_setCondition (st : DatabaseStatus) (c : Condition) (now : UInt64) :
    (st.setCondition c now).1.isTrue c.type = (c.status == .holds) := by
  obtain ⟨cond, hfind, hstatus, -⟩ := st.condition?_setCondition_self c now
  rw [isTrue, hfind, Option.any_some, hstatus]

/-- An observation tells that something changed exactly when the list did. -/
theorem setCondition_changed_iff (st : DatabaseStatus) (c : Condition) (now : UInt64) :
    (st.setCondition c now).2 = true ↔ (st.setCondition c now).1.conditions ≠ st.conditions := by
  rcases st.type_cases c.type with hnone | ⟨before, old, after, hst, hbefore, htype⟩
  · rw [setCondition_of_none hnone]
    simp
  · rw [setCondition_of_some hst hbefore htype, hst, ← Bool.not_eq_false, ne_eq,
      List.append_cancel_left_eq, List.cons_eq_cons, Condition.revise_eq_self_iff]
    simp

/-- An observation that says what the current condition of its type says changes nothing. -/
theorem setCondition_eq_self (hfind : st.condition? c.type = some cond)
    (hstatus : cond.status = c.status) (hreason : cond.reason = c.reason)
    (hmessage : cond.message = c.message) : st.setCondition c now = (st, false) := by
  obtain ⟨htype, before, after, hst, hbefore⟩ := condition?_eq_some_iff.mp hfind
  have hsame : cond.differs (c.stamped now) = false :=
    Condition.differs_eq_false_iff.mpr (by simp [hstatus, hreason, hmessage])
  rw [setCondition_of_some hst hbefore htype, Condition.revise_eq_self_iff.mpr hsame, hsame, ← hst]

/-! ### Sequences of observations -/

variable {calls : List (Condition × UInt64)} {call : Condition × UInt64}

/-- The status after observations made one after the other, each with the time at which it was
made. -/
def observeAll (st : DatabaseStatus) (calls : List (Condition × UInt64)) : DatabaseStatus :=
  calls.foldl (fun st call => (st.setCondition call.1 call.2).1) st

/-- The observation `c` turns the condition of a type: it is the first of its type, or has another
status than the current one. -/
def Turns (st : DatabaseStatus) (type : String) (c : Condition) : Prop :=
  c.type = type ∧ ∀ old, st.condition? type = some old → old.status ≠ c.status

/-- Among the observations `before`, then `c` at time `now`, then `after`, it is `c` that turned the
condition of a type last. -/
structure LatestTurn (st : DatabaseStatus) (type : String) (before : List (Condition × UInt64))
    (c : Condition) (now : UInt64) (after : List (Condition × UInt64)) : Prop where
  turns : (st.observeAll before).Turns type c
  still : ∀ middle call rest, after = middle ++ call :: rest →
    ¬ (st.observeAll (before ++ (c, now) :: middle)).Turns type call.1

@[simp]
theorem observeAll_nil : st.observeAll [] = st := rfl

@[simp]
theorem observeAll_cons :
    st.observeAll (call :: calls) = (st.setCondition call.1 call.2).1.observeAll calls := rfl

theorem observeAll_append (st : DatabaseStatus) (before after : List (Condition × UInt64)) :
    st.observeAll (before ++ after) = (st.observeAll before).observeAll after :=
  List.foldl_append

/-- An observation that turns the condition of a type gives it its time. -/
theorem Turns.lastTransition (h : st.Turns type c) (now : UInt64) :
    ∃ cond, (st.setCondition c now).1.condition? type = some cond ∧
      cond.lastTransition = c.effectiveTime now := by
  obtain ⟨rfl, hturns⟩ := h
  rw [condition?_setCondition, if_pos rfl]
  refine ⟨_, rfl, ?_⟩
  cases hfind : st.condition? c.type with
  | none => simp
  | some old => simp [Condition.revise, hturns old hfind]

/-- One that does not turn it leaves it its time. -/
theorem lastTransition_of_not_turns (h : ¬ st.Turns type c) (now : UInt64)
    (hfind : st.condition? type = some old) :
    ∃ cond, (st.setCondition c now).1.condition? type = some cond ∧
      cond.lastTransition = old.lastTransition := by
  rw [condition?_setCondition, hfind]
  split
  · rename_i htype
    have hstatus : old.status = c.status := by
      by_contra hne
      refine h ⟨htype, fun old' hold => ?_⟩
      obtain rfl := Option.some.inj (hfind.symm.trans hold)
      exact hne
    exact ⟨_, rfl, by simp [Condition.revise, hstatus]⟩
  · exact ⟨old, rfl, rfl⟩

/-- The time of a condition stays through observations none of which turns it. -/
theorem lastTransition_observeAll (hstill : ∀ middle call rest, calls = middle ++ call :: rest →
    ¬ (st.observeAll middle).Turns type call.1) (hfind : st.condition? type = some old) :
    ∃ cond, (st.observeAll calls).condition? type = some cond ∧
      cond.lastTransition = old.lastTransition := by
  induction calls generalizing st old with
  | nil => exact ⟨old, hfind, rfl⟩
  | cons call calls ih =>
    obtain ⟨cond, hcond, htime⟩ :=
      lastTransition_of_not_turns (hstill [] call calls rfl) call.2 hfind
    obtain ⟨cond', hcond', htime'⟩ := ih
      (fun middle call' rest h => hstill (call :: middle) call' rest (by rw [h, List.cons_append]))
      hcond
    exact ⟨cond', hcond', htime'.trans htime⟩

/-- The time of a condition is that of the observation that turned it last. -/
theorem LatestTurn.lastTransition {before after : List (Condition × UInt64)}
    (h : LatestTurn st type before c now after) :
    ∃ cond, (st.observeAll (before ++ (c, now) :: after)).condition? type = some cond ∧
      cond.lastTransition = c.effectiveTime now := by
  obtain ⟨turned, hturned, htime⟩ := h.turns.lastTransition now
  have hstill : ∀ middle call rest, after = middle ++ call :: rest →
      ¬ (((st.observeAll before).setCondition c now).1.observeAll middle).Turns type call.1 := by
    simpa [observeAll_append] using h.still
  rw [observeAll_append, observeAll_cons]
  obtain ⟨cond, hcond, hkept⟩ := lastTransition_observeAll hstill hturned
  exact ⟨cond, hcond, hkept.trans htime⟩

/-- The current condition of a type was turned by some observation, if it was not there at first. -/
theorem exists_latestTurn (hnone : st.condition? type = none)
    (hfind : (st.observeAll calls).condition? type = some cond) :
    ∃ before c now after, calls = before ++ (c, now) :: after ∧
      LatestTurn st type before c now after := by
  -- the last observation turns the condition, or the latest to do so is among the ones before
  induction calls using List.reverseRecOn generalizing cond with
  | nil => exact nomatch hnone.symm.trans hfind
  | append_singleton calls call ih =>
    by_cases hturns : (st.observeAll calls).Turns type call.1
    · exact ⟨calls, call.1, call.2, [], rfl, hturns, fun _ _ _ h => by simp at h⟩
    have hearlier : ∃ cond, (st.observeAll calls).condition? type = some cond := by
      rw [observeAll_append, observeAll_cons, observeAll_nil, condition?_setCondition] at hfind
      by_contra hnot
      have hfound : (st.observeAll calls).condition? type = none :=
        Option.eq_none_iff_forall_ne_some.mpr fun cond h => hnot ⟨cond, h⟩
      split at hfind
      · rename_i htype
        exact hturns ⟨htype, fun old h => nomatch hfound.symm.trans h⟩
      · exact nomatch hfound.symm.trans hfind
    obtain ⟨earlier, hearlier⟩ := hearlier
    obtain ⟨before, c, now, after, rfl, hlatest⟩ := ih hearlier
    refine ⟨before, c, now, after ++ [call], by simp, hlatest.turns, fun middle call' rest h => ?_⟩
    rcases rest.eq_nil_or_concat with rfl | ⟨rest, last, rfl⟩
    · obtain ⟨rfl, hcall⟩ := List.append_inj' h rfl
      obtain rfl := List.singleton_inj.mp hcall
      exact hturns
    · rw [List.concat_eq_append, ← List.cons_append, ← List.append_assoc] at h
      exact hlatest.still middle call' rest (List.append_inj' h rfl).1

theorem observeAll_eq_none_iff : (st.observeAll calls).condition? type = none ↔
    st.condition? type = none ∧ ∀ call ∈ calls, call.1.type ≠ type := by
  induction calls generalizing st with
  | nil => simp
  | cons call calls ih =>
    rw [observeAll_cons, ih, condition?_setCondition, List.forall_mem_cons]
    by_cases h : call.1.type = type <;> simp [h]

/-- **Observations of a database.** An observation revises the first condition of its type or is
appended; all other conditions, their order, and the distinctness of the types stay. The condition
of its type then says what was observed, the list changed exactly if that is told, and to make the
observation once more changes nothing. Through any observations of a type that was not there at
first, the condition of that type has the time of the observation that turned it last. -/
theorem setCondition_spec (st : DatabaseStatus) :
    (∀ c now,
      Entered c now st.conditions (st.setCondition c now).1.conditions ∧
      (st.setCondition c now).1.state = st.state ∧
      ((st.conditions.map (·.type)).Nodup →
        ((st.setCondition c now).1.conditions.map (·.type)).Nodup) ∧
      (∃ cond, (st.setCondition c now).1.condition? c.type = some cond ∧
        cond.status = c.status ∧ cond.reason = c.reason ∧ cond.message = c.message) ∧
      ((st.setCondition c now).2 = true ↔
        (st.setCondition c now).1.conditions ≠ st.conditions) ∧
      ∀ later, (st.setCondition c now).1.setCondition c later =
        ((st.setCondition c now).1, false)) ∧
    ∀ type calls, st.condition? type = none →
      (∀ cond, (st.observeAll calls).condition? type = some cond →
        (∃ before c now after, calls = before ++ (c, now) :: after ∧
          LatestTurn st type before c now after) ∧
        ∀ before c now after, calls = before ++ (c, now) :: after →
          LatestTurn st type before c now after →
          cond.lastTransition = c.effectiveTime now) ∧
      ((st.observeAll calls).condition? type = none ↔ ∀ call ∈ calls, call.1.type ≠ type) := by
  refine ⟨fun c now => ?_, fun type calls hnone => ⟨fun cond hcond => ⟨?_, ?_⟩, ?_⟩⟩
  · obtain ⟨cond, hfind, hstatus, hreason, hmessage⟩ := st.condition?_setCondition_self c now
    have hentered := st.entered_setCondition c now
    exact ⟨hentered, rfl, hentered.nodup, ⟨cond, hfind, hstatus, hreason, hmessage⟩,
      st.setCondition_changed_iff c now,
      fun later => setCondition_eq_self hfind hstatus hreason hmessage⟩
  · exact exists_latestTurn hnone hcond
  · rintro before c now after rfl hlatest
    obtain ⟨cond', hcond', htime⟩ := hlatest.lastTransition
    obtain rfl := Option.some.inj (hcond.symm.trans hcond')
    exact htime
  · rw [observeAll_eq_none_iff]
    exact and_iff_right hnone

/-- A tenant is in creation, is still so with another message, is created, and is still so: the time
is that of the third observation. -/
theorem setCondition_spec_of_four :
    ∃ cond, (observeAll {} [(⟨"TenantCreated", .unknown, "CreationInProgress", "", 0⟩, 100),
        (⟨"TenantCreated", .unknown, "CreationInProgress", "retried", 0⟩, 200),
        (⟨"TenantCreated", .holds, "CreationCompleted", "", 0⟩, 300),
        (⟨"TenantCreated", .holds, "CreationCompleted", "checked", 350⟩, 400)]).condition?
          "TenantCreated" = some cond ∧ cond.lastTransition = 300 ∧ cond.message = "checked" := by
  refine ⟨_, rfl, ?_, rfl⟩
  refine (((setCondition_spec {}).2 "TenantCreated" _ rfl).1 _ rfl).2
    [(⟨"TenantCreated", .unknown, "CreationInProgress", "", 0⟩, 100),
      (⟨"TenantCreated", .unknown, "CreationInProgress", "retried", 0⟩, 200)]
    ⟨"TenantCreated", .holds, "CreationCompleted", "", 0⟩ 300
    [(⟨"TenantCreated", .holds, "CreationCompleted", "checked", 350⟩, 400)] rfl
    ⟨⟨rfl, fun old hold => ?_⟩, fun middle call rest h => ?_⟩
  · obtain rfl := Option.some.inj hold
    decide
  · obtain ⟨rfl, hcall⟩ | ⟨-, hcall⟩ := List.singleton_eq_append_iff.mp h
    · obtain ⟨rfl, -⟩ := List.cons_eq_cons.mp hcall
      exact fun hturns => hturns.2 _ rfl rfl
    · exact absurd hcall (List.cons_ne_nil _ _)

end DatabaseStatus

end Converge

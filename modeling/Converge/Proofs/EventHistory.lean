import Converge.Proofs.EventIsolation

/-!
# The history of a subject

The events of all subjects share a table and a counter. For one subject that does not show: what is
listed for it are the latest entries of a history that only its own events make. An event that says
what the latest entry says is counted there, and any other event becomes an entry of its own.

## Main definitions

* `Event.enter`, `Event.history`: the history of a list of events.
* `Store.putEvents`: a store after some events were recorded.

## Main results

* `Event.rtake_enter`: what follows depends on the latest entries only.
* `Store.listEvents_putEvent`: what an event does to the events of its own subject.
* `Store.listEvents_putEvents`: the events of a subject are the latest entries of its history.
-/

namespace Converge

/-! ### Histories -/

private theorem rtake_rtake_append {α : Type} (l l' : List α) {m n : Nat} (h : n ≤ m + l'.length) :
    (l.rtake m ++ l').rtake n = (l ++ l').rtake n := by
  simp only [List.rtake, List.drop_append, List.drop_drop, List.length_append, List.length_drop]
  congr 2 <;> omega

private theorem rtake_of_length_le {α : Type} {l : List α} {n : Nat} (h : l.length ≤ n) :
    l.rtake n = l := by
  rw [List.rtake, Nat.sub_eq_zero_of_le h, List.drop_zero]

private theorem map_rtake {α β : Type} (f : α → β) (l : List α) (n : Nat) :
    (l.rtake n).map f = (l.map f).rtake n := by
  rw [List.rtake, List.rtake, List.map_drop, List.length_map]

private theorem length_rtake_le {α : Type} (l : List α) (n : Nat) : (l.rtake n).length ≤ n := by
  rw [List.rtake, List.length_drop]
  omega

namespace Event

/-- A history after an event. An event that says what the latest entry says counts that once more,
up to the largest count, and moves it to its own time; any other event is appended. -/
def enter (entries : List Event) (e : Event) : List Event :=
  match entries.getLast? with
  | none => [e]
  | some last =>
    if last.severity = e.severity ∧ last.reason = e.reason ∧ last.message = e.message then
      let count := min (last.count.toNat + 1) (UInt32.size - 1)
      entries.dropLast ++ [{ last with timestamp := e.timestamp, count := UInt32.ofNat count }]
    else entries ++ [e]

/-- The history of a list of events. -/
def history (events : List Event) : List Event := events.foldl enter []

variable {e last : Event} {entries : List Event}

private theorem repeats_iff : e.repeats last = true ↔
    last.severity = e.severity ∧ last.reason = e.reason ∧ last.message = e.message := by
  simp [repeats, and_assoc]

private theorem folded_eq (last e : Event) : last.folded e =
    { last with
      timestamp := e.timestamp
      count := UInt32.ofNat (min (last.count.toNat + 1) (UInt32.size - 1)) } := by
  have hcount : (if last.count.toNat + 1 < UInt32.size then last.count + 1 else last.count) =
      UInt32.ofNat (min (last.count.toNat + 1) (UInt32.size - 1)) := by
    have hlt := last.count.toNat_lt_size
    refine UInt32.toNat_inj.mp ?_
    rw [UInt32.toNat_ofNat_of_lt' (by omega)]
    split
    · rename_i hless
      rw [UInt32.toNat_add, UInt32.toNat_one, Nat.mod_eq_of_lt hless]
      omega
    · omega
  rw [folded, hcount]

theorem enter_concat (entries : List Event) (last e : Event) : enter (entries ++ [last]) e =
    if e.repeats last then entries ++ [last.folded e] else entries ++ [last] ++ [e] := by
  simp only [enter, List.getLast?_concat, List.dropLast_concat, folded_eq, repeats_iff]

/-- The latest entries after an event depend on the latest entries before it only. -/
theorem rtake_enter (entries : List Event) (e : Event) (limit : Nat) :
    (enter entries e).rtake (limit + 1) =
      (enter (entries.rtake (limit + 1)) e).rtake (limit + 1) := by
  cases entries using List.reverseRecOn with
  | nil => rw [List.rtake_nil]
  | append_singleton entries last =>
    rw [List.rtake_concat_succ, enter_concat, enter_concat]
    split
    · exact (rtake_rtake_append entries [last.folded e] (Nat.le_refl _)).symm
    · rw [List.append_assoc, List.append_assoc]
      exact (rtake_rtake_append entries ([last] ++ [e]) (Nat.le_succ _)).symm

end Event

/-! ### The events of a store -/

namespace Store

variable {s : Store} {subject : ObjectKey} {key : String} {e last : Event}

/-- A store after some events were recorded, one after the other. -/
def putEvents (events : List Event) (s : Store) : Store := events.foldl (fun s e => s.putEvent e) s

private theorem putEvents_concat (events : List Event) (e : Event) (s : Store) :
    s.putEvents (events ++ [e]) = (s.putEvents events).putEvent e := by
  simp [putEvents]

/-- An event is folded into the latest that is listed for its subject if it repeats that. Otherwise
it is listed after that, under the next number, and the oldest give way to it. -/
theorem listEvents_putEvent_cases (hs : s.Numbered) (hplain : s.Plain)
    (he : e.subject.Free ':') :
    (∃ before last, s.listEvents e.subject = before ++ [last] ∧ e.repeats last = true ∧
      (s.putEvent e).sequence = s.sequence ∧
      (s.putEvent e).listEvents e.subject = before ++ [last.folded e]) ∨
    ((∀ before last, s.listEvents e.subject = before ++ [last] → e.repeats last = false) ∧
      (s.putEvent e).sequence = s.sequence + 1 ∧
      (s.sequence + 1 < UInt64.size → (s.putEvent e).listEvents e.subject =
        (s.listEvents e.subject ++ [e]).rtake eventLimit)) := by
  have happended : s.putEvent e = s.appendEvent e → (s.putEvent e).sequence = s.sequence + 1 ∧
      (s.sequence + 1 < UInt64.size → (s.putEvent e).listEvents e.subject =
        (s.listEvents e.subject ++ [e]).rtake eventLimit) := by
    intro happend
    rw [happend]
    refine ⟨rfl, fun hcount => ?_⟩
    rw [listEvents, eventsOf_appendEvent hs hplain he hcount, map_rtake, List.map_append]
    rfl
  cases hlast : (s.eventsOf e.subject).getLast? with
  | none =>
    refine .inr ⟨fun before last hlist => ?_, happended (by rw [putEvent, hlast])⟩
    rw [listEvents, List.getLast?_eq_none_iff.mp hlast] at hlist
    simp at hlist
  | some latest =>
    obtain ⟨key, last⟩ := latest
    obtain ⟨before, hbefore⟩ := List.getLast?_eq_some_iff.mp hlast
    have hlist : s.listEvents e.subject = before.map (·.2) ++ [last] := by
      rw [listEvents, hbefore, List.map_append, List.map_singleton]
    by_cases hrepeats : e.repeats last = true
    · have hfold : s.putEvent e = { s with events := s.events.insert key (last.folded e) } := by
        rw [putEvent, hlast]
        exact if_pos hrepeats
      refine .inl ⟨_, last, hlist, hrepeats, by rw [hfold], ?_⟩
      rw [hfold, listEvents, eventsOf_folded hbefore, List.map_append, List.map_singleton]
    · refine .inr ⟨fun before' last' hlist' => ?_, happended ?_⟩
      · obtain ⟨-, hlast'⟩ := List.append_inj' (hlist.symm.trans hlist') rfl
        rw [← (List.cons.inj hlast').1]
        exact Bool.eq_false_iff.mpr hrepeats
      · rw [putEvent, hlast]
        exact if_neg hrepeats

/-- **The events of a subject** are continued as its history when one of its own is recorded. -/
theorem listEvents_putEvent (hs : s.Numbered) (hplain : s.Plain) (he : e.subject.Free ':')
    (hcount : (s.putEvent e).sequence < UInt64.size)
    (hlimit : (s.listEvents e.subject).length ≤ eventLimit) :
    (s.putEvent e).listEvents e.subject =
      (Event.enter (s.listEvents e.subject) e).rtake eventLimit := by
  rcases listEvents_putEvent_cases hs hplain he with
    ⟨before, last, hlist, hrepeats, -, hfolded⟩ | ⟨hnew, hsequence, happended⟩
  · rw [hlist, List.length_append, List.length_singleton] at hlimit
    rw [hfolded, hlist, Event.enter_concat, if_pos hrepeats, rtake_of_length_le]
    rwa [List.length_append, List.length_singleton]
  · rw [happended (hsequence ▸ hcount)]
    cases hlist : s.listEvents e.subject using List.reverseRecOn with
    | nil => rfl
    | append_singleton before last =>
      have hnot : ¬ e.repeats last = true := Bool.eq_false_iff.mp (hnew before last hlist)
      rw [Event.enter_concat, if_neg hnot]

/-! ### Events one after the other -/

private theorem putEvents_reachable_plain {calls : List Event}
    (hcalls : ∀ e ∈ calls, e.subject.Free ':') :
    ((∅ : Store).putEvents calls).Reachable ∧ ((∅ : Store).putEvents calls).Plain := by
  induction calls using List.reverseRecOn with
  | nil => exact ⟨.empty, nofun, nofun⟩
  | append_singleton calls e ih =>
    obtain ⟨hreachable, hplain⟩ := ih fun e' he' => hcalls e' (List.mem_append_left _ he')
    rw [putEvents_concat]
    refine ⟨hreachable.apply (.putEvent e), ?_⟩
    change (Operation.apply _ (.putEvent e)).Plain
    refine hplain.apply nofun ?_
    rintro _ ⟨⟩
    exact hcalls e List.mem_concat_self

/-- The recording of an event does not lower the counter. -/
theorem sequence_le_putEvent (s : Store) (e : Event) : s.sequence ≤ (s.putEvent e).sequence := by
  rcases s.putEvent_cases e with ⟨_, _, -, -, h⟩ | h
  · rw [h]
  · rw [h]
    exact Nat.le_succ _

/-- **The events of a subject.** After any events were recorded, about any subjects without colons,
the events of a subject are the latest entries of the history that its own events make. The counter
of events has to stay within the 64 bits that it is kept in. -/
theorem listEvents_putEvents (calls : List Event) (subject : ObjectKey)
    (hcalls : ∀ e ∈ calls, e.subject.Free ':')
    (hslash : subject.Free '/') (hcolon : subject.Free ':')
    (hcount : ((∅ : Store).putEvents calls).sequence < UInt64.size) :
    ((∅ : Store).putEvents calls).listEvents subject =
      (Event.history (calls.filter (·.subject = subject))).rtake eventLimit := by
  induction calls using List.reverseRecOn with
  | nil => rfl
  | append_singleton calls e ih =>
    have hprevious := fun e' he' => hcalls e' (List.mem_append_left [e] he')
    have he := hcalls e List.mem_concat_self
    obtain ⟨hreachable, hplain⟩ := putEvents_reachable_plain hprevious
    rw [putEvents_concat] at hcount ⊢
    have ih := ih hprevious (Nat.lt_of_le_of_lt (sequence_le_putEvent _ e) hcount)
    rw [List.filter_append]
    by_cases hsubject : e.subject = subject
    · subst hsubject
      have hlimit := ih ▸ length_rtake_le _ _
      rw [listEvents_putEvent hreachable.numbered hplain hcolon hcount hlimit, ih,
        List.filter_singleton]
      simp only [decide_true, Event.history, List.foldl_append]
      exact (Event.rtake_enter _ e 63).symm
    · rw [listEvents_putEvent_of_apart (ObjectKey.apart_of_ne he hcolon hslash hsubject), ih,
        List.filter_singleton]
      simp [hsubject]

/-- Of four events about a database the second and the last repeat the one before. The last one
would be counted beyond the largest count. -/
theorem listEvents_putEvents_orders :
    let orders : ObjectKey := ⟨"prod", "orders"⟩
    let tell (subject : ObjectKey) (reason : String) (timestamp : UInt64) : Event :=
      { subject, severity := .normal, reason, message := "", timestamp }
    let often : Event := { tell orders "Initialized" 4 with count := 4294967295 }
    ((∅ : Store).putEvents [tell orders "Waiting" 1, tell ⟨"prod", "billing"⟩ "Waiting" 2,
        tell orders "Waiting" 3, often, tell orders "Initialized" 5]).listEvents orders =
      [{ tell orders "Waiting" 3 with count := 2 }, { often with timestamp := 5 }] := by
  intro orders tell often
  rw [listEvents_putEvents _ orders (by decide) (by decide) (by decide) (by decide +kernel)]
  decide +kernel

end Store

end Converge

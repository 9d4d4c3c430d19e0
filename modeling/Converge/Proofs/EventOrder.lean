import Converge.Proofs.EventHistory

/-!
# Events in another order

All events share a counter, and so the key under which an event is kept depends on all that were
recorded before it. What is listed for a subject does not: it depends on the events about that
subject alone. Events about two subjects that are apart can therefore be recorded in any order.

## Main results

* `Store.putEvents_congr`: what events about a subject add depends on what is listed for it.
* `Store.listEvents_putEvents_comm`: events about two subjects in either order.
-/

namespace Converge.Store

variable {s s' : Store} {subject a b : ObjectKey} {e : Event} {calls before after : List Event}

/-! ### What the recording of events keeps -/

theorem Numbered.putEvents (hs : s.Numbered) (calls : List Event) :
    (s.putEvents calls).Numbered := by
  induction calls generalizing s with
  | nil => exact hs
  | cons e calls ih => exact ih (hs.putEvent e)

theorem Plain.putEvent (hs : s.Plain) (he : e.subject.Free ':') : (s.putEvent e).Plain := by
  change (Operation.apply s (.putEvent e)).Plain
  refine hs.apply nofun ?_
  rintro _ ⟨⟩
  exact he

theorem Plain.putEvents (hs : s.Plain) (hcalls : ∀ e ∈ calls, e.subject.Free ':') :
    (s.putEvents calls).Plain := by
  induction calls generalizing s with
  | nil => exact hs
  | cons e calls ih =>
    exact ih (hs.putEvent (hcalls e List.mem_cons_self)) fun e' he' =>
      hcalls e' (List.mem_cons_of_mem e he')

theorem sequence_le_putEvents (s : Store) (calls : List Event) :
    s.sequence ≤ (s.putEvents calls).sequence := by
  induction calls generalizing s with
  | nil => exact Nat.le_refl _
  | cons e calls ih => exact Nat.le_trans (sequence_le_putEvent s e) (ih _)

theorem listEvents_putEvents_of_apart (h : ∀ e ∈ calls, e.subject.Apart subject) :
    (s.putEvents calls).listEvents subject = s.listEvents subject := by
  induction calls generalizing s with
  | nil => rfl
  | cons e calls ih =>
    calc (s.putEvents (e :: calls)).listEvents subject
        = (s.putEvent e).listEvents subject := ih fun e' he' => h e' (List.mem_cons_of_mem e he')
      _ = s.listEvents subject := listEvents_putEvent_of_apart (h e List.mem_cons_self)

/-! ### Subjects and their display forms -/

/-- What is listed for a subject depends on its display form only. -/
theorem listEvents_congr (h : a.display = b.display) : s.listEvents a = s.listEvents b := by
  rw [listEvents, listEvents, eventsOf, eventsOf, h]

/-- Where no name holds a colon nothing is listed for a subject that does. -/
theorem listEvents_eq_nil (hs : s.Numbered) (hplain : s.Plain) (h : ¬ subject.Free ':') :
    s.listEvents subject = [] := by
  refine List.eq_nil_iff_forall_not_mem.mpr fun e he => h ?_
  obtain ⟨key, hfind, hcontinues⟩ := (mem_listEvents_iff hs).mp he
  have hfree := (ObjectKey.free_iff_display (by decide)).mp (hplain.events key e hfind)
  rw [ObjectKey.free_iff_display (by decide), ← hcontinues.eq_of_free hfree]
  exact hfree

/-! ### Events about one subject -/

/-- An event adds to the counter, and to what is listed for its subject, what that list says; the
two counters may differ. -/
theorem putEvent_congr {d : Nat} (hs : s.Numbered) (hs' : s'.Numbered) (hplain : s.Plain)
    (hplain' : s'.Plain) (he : e.subject.Free ':')
    (hlist : s.listEvents e.subject = s'.listEvents e.subject)
    (hsequence : s.sequence = s'.sequence + d) :
    (s.putEvent e).sequence = (s'.putEvent e).sequence + d ∧
      ((s.putEvent e).sequence < UInt64.size →
        (s.putEvent e).listEvents e.subject = (s'.putEvent e).listEvents e.subject) := by
  rcases listEvents_putEvent_cases hs hplain he with
    ⟨before, last, hbefore, hrepeats, hseq, hfolded⟩ | ⟨hnew, hseq, happended⟩ <;>
  rcases listEvents_putEvent_cases hs' hplain' he with
    ⟨before', last', hbefore', hrepeats', hseq', hfolded'⟩ | ⟨hnew', hseq', happended'⟩
  · obtain ⟨rfl, hlast⟩ := List.append_inj' (hbefore.symm.trans (hlist.trans hbefore')) rfl
    obtain rfl := (List.cons.inj hlast).1
    exact ⟨by omega, fun _ => hfolded.trans hfolded'.symm⟩
  · exact absurd hrepeats (by simp [hnew' before last (hlist.symm.trans hbefore)])
  · exact absurd hrepeats' (by simp [hnew before' last' (hlist.trans hbefore')])
  · refine ⟨by omega, fun hcount => ?_⟩
    rw [happended (by omega), happended' (by omega), hlist]

/-- **Events about one subject** add to the counter, and to what is listed for the subject, what
that list says. The counters of two stores may differ, as long as the larger stays within the 64
bits that it is kept in. -/
theorem putEvents_congr {d : Nat} (hs : s.Numbered) (hs' : s'.Numbered) (hplain : s.Plain)
    (hplain' : s'.Plain) (hsubject : subject.Free ':') (hcalls : ∀ e ∈ calls, e.subject = subject)
    (hlist : s.listEvents subject = s'.listEvents subject)
    (hsequence : s.sequence = s'.sequence + d)
    (hcount : (s.putEvents calls).sequence < UInt64.size ∨
      (s'.putEvents calls).sequence + d < UInt64.size) :
    (s.putEvents calls).listEvents subject = (s'.putEvents calls).listEvents subject ∧
      (s.putEvents calls).sequence = (s'.putEvents calls).sequence + d := by
  induction calls generalizing s s' with
  | nil => exact ⟨hlist, hsequence⟩
  | cons e calls ih =>
    obtain rfl := hcalls e List.mem_cons_self
    obtain ⟨hnext, hlisted⟩ := putEvent_congr hs hs' hplain hplain' hsubject hlist hsequence
    have hless : (s.putEvent e).sequence < UInt64.size := by
      have hle := sequence_le_putEvents (s.putEvent e) calls
      have hle' := sequence_le_putEvents (s'.putEvent e) calls
      rw [putEvents, putEvents, List.foldl_cons, List.foldl_cons, ← putEvents,
        ← putEvents] at hcount
      omega
    exact ih (hs.putEvent e) (hs'.putEvent e) (hplain.putEvent hsubject)
      (hplain'.putEvent hsubject) (fun e' he' => hcalls e' (List.mem_cons_of_mem e he'))
      (hlisted hless) hnext hcount

/-! ### Events about two subjects -/

/-- **Events in either order.** Events about a subject and events about another one lead to the same
lists for all subjects, whichever are recorded first. The counter of events has to stay within the
64 bits that it is kept in. -/
theorem listEvents_putEvents_comm (hs : s.Numbered) (hplain : s.Plain) (ha : a.Free ':')
    (hb : b.Free ':') (hne : a.display ≠ b.display) (hbefore : ∀ e ∈ before, e.subject = a)
    (hafter : ∀ e ∈ after, e.subject = b)
    (hcount : ((s.putEvents before).putEvents after).sequence < UInt64.size)
    (subject : ObjectKey) :
    ((s.putEvents before).putEvents after).listEvents subject =
      ((s.putEvents after).putEvents before).listEvents subject := by
  have hfreeA : ∀ e ∈ before, e.subject.Free ':' := fun e he => hbefore e he ▸ ha
  have hfreeB : ∀ e ∈ after, e.subject.Free ':' := fun e he => hafter e he ▸ hb
  have hapartA : ∀ c : ObjectKey, c.Free ':' → a.display ≠ c.display → ∀ s : Store,
      (s.putEvents before).listEvents c = s.listEvents c := fun c hc hne s =>
    listEvents_putEvents_of_apart fun e he =>
      hbefore e he ▸ ObjectKey.apart_of_display_ne ha hc hne
  have hapartB : ∀ c : ObjectKey, c.Free ':' → b.display ≠ c.display → ∀ s : Store,
      (s.putEvents after).listEvents c = s.listEvents c := fun c hc hne s =>
    listEvents_putEvents_of_apart fun e he =>
      hafter e he ▸ ObjectKey.apart_of_display_ne hb hc hne
  -- Each of the two lists of events meets the same list for its subject, whether it is recorded
  -- first or second, and a counter that the other one has moved on.
  obtain ⟨dA, hdA⟩ := Nat.exists_eq_add_of_le (sequence_le_putEvents s before)
  obtain ⟨dB, hdB⟩ := Nat.exists_eq_add_of_le (sequence_le_putEvents s after)
  obtain ⟨hlistB, hsequence⟩ := putEvents_congr (hs.putEvents before) hs
    (hplain.putEvents hfreeA) hplain hb hafter (hapartA b hb hne s) hdA (.inl hcount)
  obtain ⟨hlistA, -⟩ := putEvents_congr (hs.putEvents after) hs (hplain.putEvents hfreeB) hplain
    ha hbefore (hapartB a ha hne.symm s) hdB (.inr (by omega))
  by_cases hsubject : subject.Free ':'
  swap
  · rw [listEvents_eq_nil ((hs.putEvents before).putEvents after)
        ((hplain.putEvents hfreeA).putEvents hfreeB) hsubject,
      listEvents_eq_nil ((hs.putEvents after).putEvents before)
        ((hplain.putEvents hfreeB).putEvents hfreeA) hsubject]
  by_cases heqA : a.display = subject.display
  · rw [← listEvents_congr heqA, ← listEvents_congr heqA, hapartB a ha hne.symm, hlistA]
  by_cases heqB : b.display = subject.display
  · rw [← listEvents_congr heqB, ← listEvents_congr heqB, hapartA b hb hne, hlistB]
  · rw [hapartB subject hsubject heqB, hapartA subject hsubject heqA,
      hapartA subject hsubject heqA, hapartB subject hsubject heqB]

end Converge.Store

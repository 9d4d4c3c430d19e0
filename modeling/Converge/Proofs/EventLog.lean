import Converge.Proofs.KeyOrder
import Converge.Proofs.Names
import Converge.Proofs.Operations
import Mathlib.Data.List.DropRight

/-!
# The events of a subject

Events are kept in the order of their keys, and a key ends in a number of twenty digits. As long
as the numbers have no more digits, and no name holds a colon, the range of a subject holds its own
events only, and the event that was recorded last is the last in it. So a notice that is recorded
twice in a row is folded the second time.

## Main definitions

* `Store.Numbered`: events are stored under their subjects and under numbers that were given out.
* `Store.Plain`: no name holds a colon.
* `Store.Tells`: the latest event of a subject says what a notice says.

## Main results

* `Store.Reachable.numbered`: the events of every reachable store are numbered.
* `Store.eventsOf_folded`, `Store.eventsOf_appendEvent`: the events of a subject after one more.
* `Store.record_tells`: the latest event is the one that was recorded last.
* `Store.Tells.record_eq`: what is told again is folded.
-/

namespace Converge

namespace Store

variable {s : Store} {subject : ObjectKey} {e last : Event} {key : String} {notice : Notice}

/-! ### Numbers of events -/

/-- Every event is stored under its subject and a number that was given out. -/
def Numbered (s : Store) : Prop :=
  ∀ key e, s.events.find? key = some e → ∃ n, n ≤ s.sequence ∧ key = eventKey e.subject n

/-- No kind, no namespace and no name holds a colon, neither of an object nor of the subject of an
event. -/
structure Plain (s : Store) : Prop where
  objects : ∀ key o, s.objects.find? key = some o → o.Free ':'
  events : ∀ key e, s.events.find? key = some e → e.subject.Free ':'

private theorem plain_iff : s.Plain ↔ (∀ entry ∈ s.objects.entries, entry.2.Free ':') ∧
    ∀ entry ∈ s.events.entries, entry.2.subject.Free ':' := by
  constructor
  · exact fun h => ⟨fun entry hmem => h.objects _ _ ((Table.mem_entries_iff _ _ _).mp hmem),
      fun entry hmem => h.events _ _ ((Table.mem_entries_iff _ _ _).mp hmem)⟩
  · exact fun ⟨hobjects, hevents⟩ =>
      ⟨fun key o hfind => hobjects (key, o) ((Table.mem_entries_iff _ _ _).mpr hfind),
        fun key e hfind => hevents (key, e) ((Table.mem_entries_iff _ _ _).mpr hfind)⟩

instance : Decidable s.Plain := decidable_of_iff _ plain_iff.symm

theorem find?_foldl_erase {α : Type} (entries : List (String × α)) (t : Table α) (k : String) :
    (entries.foldl (fun t entry => t.erase entry.1) t).find? k =
      if k ∈ entries.map (·.1) then none else t.find? k := by
  induction entries generalizing t with
  | nil => simp
  | cons entry entries ih =>
    have hcons : k ∈ (entry :: entries).map (·.1) ↔ entry.1 = k ∨ k ∈ entries.map (·.1) :=
      List.mem_cons.trans (or_congr_left eq_comm)
    rw [List.foldl_cons, ih, Table.find?_erase]
    by_cases hmem : k ∈ entries.map (·.1)
    · rw [if_pos hmem, if_pos (hcons.mpr (.inr hmem))]
    · rw [if_neg hmem]
      exact if_congr (by rw [hcons, or_iff_left hmem]) rfl rfl

private theorem find?_appendEvent {e' : Event} (h : (s.appendEvent e).events.find? key = some e') :
    (key = eventKey e.subject (s.sequence + 1) ∧ e' = e) ∨ s.events.find? key = some e' := by
  simp only [appendEvent, find?_foldl_erase] at h
  split at h
  · cases h
  · rw [Table.find?_insert] at h
    split at h
    · rename_i hkey
      exact .inl ⟨hkey.symm, (Option.some.inj h).symm⟩
    · exact .inr h

/-- The events of a subject are those whose keys begin with its display form and a colon. -/
theorem mem_eventsOf_iff : (key, e) ∈ s.eventsOf subject ↔
    s.events.find? key = some e ∧ ∃ rest, key = subject.display ++ ":" ++ rest := by
  rw [eventsOf, Table.mem_between_iff, Text.between_colon_iff]

theorem Numbered.putEvent (hs : s.Numbered) (e : Event) : (s.putEvent e).Numbered := by
  intro key e' h
  rcases s.putEvent_cases e with ⟨key', last, hlast, -, heq⟩ | heq
  · rw [heq] at h ⊢
    rw [Table.find?_insert] at h
    split at h
    · rename_i hkey
      subst hkey
      obtain rfl := Option.some.inj h
      have hfind := (mem_eventsOf_iff.mp (List.mem_of_getLast? hlast)).1
      exact hs key' last hfind
    · exact hs key e' h
  · rw [heq] at h ⊢
    rcases find?_appendEvent h with ⟨rfl, rfl⟩ | h
    · exact ⟨s.sequence + 1, Nat.le_refl _, rfl⟩
    · obtain ⟨n, hn, hkey⟩ := hs key e' h
      exact ⟨n, Nat.le_succ_of_le hn, hkey⟩

/-- The events of every reachable store are numbered. -/
theorem Reachable.numbered (h : s.Reachable) : s.Numbered := by
  induction h with
  | empty => exact fun key e hfind => nomatch hfind
  | @apply s _ op ih =>
    rcases op.events_apply s with ⟨e, rfl⟩ | ⟨hevents, hsequence⟩
    · exact ih.putEvent e
    · rwa [Numbered, hevents, hsequence]

theorem Plain.apply (hs : s.Plain) {op : Operation}
    (hwrites : ∀ key o, op.Writes s key o → o.Free ':')
    (htells : ∀ e, op = .putEvent e → e.subject.Free ':') : (op.apply s).Plain := by
  constructor
  · intro key o hfind
    rcases op.find?_apply s key with h | ⟨o', ho', h⟩ | ⟨_, _, -, -, h⟩
    · exact hs.objects key o (h ▸ hfind)
    · obtain rfl := Option.some.inj (h.symm.trans hfind)
      exact hwrites key o' ho'
    · rw [h] at hfind
      exact nomatch hfind
  · intro key e' hfind
    rcases op.events_apply s with ⟨e, rfl⟩ | ⟨hevents, -⟩
    · have he := htells e rfl
      rw [Operation.apply] at hfind
      rcases s.putEvent_cases e with ⟨key', last, hlast, -, heq⟩ | heq
      · have hlast := (mem_eventsOf_iff.mp (List.mem_of_getLast? hlast)).1
        rw [heq, Table.find?_insert] at hfind
        split at hfind
        · -- The event in the place of the folded one still has its subject.
          obtain rfl := Option.some.inj hfind
          exact hs.events key' last hlast
        · exact hs.events key e' hfind
      · rw [heq] at hfind
        rcases find?_appendEvent hfind with ⟨-, rfl⟩ | hfind
        · exact he
        · exact hs.events key e' hfind
    · exact hs.events key e' (hevents ▸ hfind)

/-! ### The range of a subject -/

private theorem display_eq_of_eventKey {subject' : ObjectKey} {n : Nat} {rest : String}
    (hsubject : subject.Free ':') (hsubject' : subject'.Free ':')
    (h : eventKey subject' n = subject.display ++ ":" ++ rest) :
    subject'.display = subject.display := by
  have hchars : subject'.display.toList ++ ':' :: (Text.padded 20 n).toList =
      subject.display.toList ++ ':' :: rest.toList := by
    simpa [eventKey] using congrArg String.toList h
  have hfree := (ObjectKey.free_iff_display (by decide)).mp hsubject
  have hfree' := (ObjectKey.free_iff_display (by decide)).mp hsubject'
  exact String.ext (append_cons_inj hfree' hfree hchars).1

private theorem key_of_mem_eventsOf (hs : s.Numbered) (hplain : s.Plain)
    (hsubject : subject.Free ':')
    (h : (key, e) ∈ s.eventsOf subject) : ∃ n, n ≤ s.sequence ∧ key = eventKey subject n := by
  obtain ⟨hfind, rest, hrest⟩ := mem_eventsOf_iff.mp h
  obtain ⟨n, hn, rfl⟩ := hs key e hfind
  have hdisplay := display_eq_of_eventKey hsubject (hplain.events _ e hfind) hrest
  exact ⟨n, hn, by rw [eventKey, eventKey, hdisplay]⟩

private theorem eventKey_lt_eventKey {m n : Nat} (h : m < n) (hn : n < UInt64.size) :
    eventKey subject m < eventKey subject n := by
  have hdigits : ∀ {k : Nat}, k < UInt64.size → (Nat.toDigits 10 k).length ≤ 20 := by
    intro k hk
    rw [Nat.length_toDigits_le_iff (by decide) (by decide)]
    exact Nat.lt_of_lt_of_le hk (by decide)
  have hpadded := Text.padded_lt_padded (by decide) (hdigits (Nat.lt_trans h hn)) (hdigits hn) h
  rw [String.lt_iff] at hpadded ⊢
  simp only [eventKey, String.toList_append]
  exact List.append_left_lt hpadded

/-! ### The latest event of a subject -/

theorem eventsOf_sorted (s : Store) (subject : ObjectKey) :
    (s.eventsOf subject).Pairwise (fun a b => a.1 < b.1) :=
  s.events.sorted.filter _

private theorem mem_drop_iff_of_sorted {α : Type} {l : List (String × α)} {entry : String × α}
    (h : l.Pairwise (fun a b => a.1 < b.1)) (n : Nat) :
    entry ∈ l.drop n ↔ entry ∈ l ∧ entry.1 ∉ (l.take n).map (·.1) := by
  rw [← List.take_append_drop n l, List.pairwise_append] at h
  constructor
  · refine fun hmem => ⟨List.mem_of_mem_drop hmem, fun hkey => ?_⟩
    obtain ⟨earlier, hearlier, heq⟩ := List.mem_map.mp hkey
    have hlt := h.2.2 earlier hearlier entry hmem
    rw [heq] at hlt
    exact String.lt_irrefl _ hlt
  · rintro ⟨hmem, hkey⟩
    rw [← List.take_append_drop n l, List.mem_append] at hmem
    exact hmem.resolve_left fun htake => hkey (List.mem_map_of_mem htake)

/-- The events of a subject are those under earlier keys and the one under the latest key. -/
private theorem eventsOf_eq_concat {before : List (String × Event)}
    (hsorted : before.Pairwise (fun a b => a.1 < b.1)) (hless : ∀ entry ∈ before, entry.1 < key)
    (hlatest : ∀ e', (key, e') ∈ s.eventsOf subject ↔ e' = e)
    (hearlier : ∀ k e', key ≠ k → ((k, e') ∈ s.eventsOf subject ↔ (k, e') ∈ before)) :
    s.eventsOf subject = before ++ [(key, e)] := by
  refine (eventsOf_sorted s subject).eq_of_mem_iff ?_ fun (k, e') => ?_
  · refine List.pairwise_append.mpr ⟨hsorted, List.pairwise_singleton _ _,
      fun entry hentry latest hlatest => ?_⟩
    rw [List.mem_singleton.mp hlatest]
    exact hless entry hentry
  · rw [List.mem_append, List.mem_singleton]
    by_cases hk : key = k
    · subst hk
      have hnot : (key, e') ∉ before := fun hmem => String.lt_irrefl key (hless _ hmem)
      rw [hlatest, or_iff_right hnot, Prod.mk.injEq, and_iff_right rfl]
    · have hnot : (k, e') ≠ (key, e) := fun heq => hk (congrArg Prod.fst heq).symm
      rw [hearlier k e' hk, or_iff_left hnot]

/-- An event that is folded takes the place of the latest of its subject. -/
theorem eventsOf_folded {before : List (String × Event)}
    (h : s.eventsOf subject = before ++ [(key, last)]) (e : Event) :
    ({ s with events := s.events.insert key e } : Store).eventsOf subject =
      before ++ [(key, e)] := by
  have hsorted := eventsOf_sorted s subject
  rw [h, List.pairwise_append] at hsorted
  have hmem : ∀ k e', (k, e') ∈ s.eventsOf subject ↔ (k, e') ∈ before ∨ (k, e') = (key, last) := by
    intro k e'
    rw [h, List.mem_append, List.mem_singleton]
  obtain ⟨-, hrange⟩ := mem_eventsOf_iff.mp ((hmem key last).mpr (.inr rfl))
  refine eventsOf_eq_concat hsorted.1 (fun entry hentry =>
    hsorted.2.2 entry hentry (key, last) List.mem_cons_self) (fun e' => ?_) fun k e' hk => ?_
  · rw [mem_eventsOf_iff, Table.find?_insert_self, and_iff_left hrange, Option.some.injEq, eq_comm]
  · have hnot : (k, e') ≠ (key, last) := fun heq => hk (congrArg Prod.fst heq).symm
    rw [mem_eventsOf_iff, Table.find?_insert_ne _ hk, ← mem_eventsOf_iff, hmem, or_iff_left hnot]

/-- An event that is appended is the latest of its subject, and the oldest give way to it. -/
theorem eventsOf_appendEvent (hs : s.Numbered) (hplain : s.Plain) (he : e.subject.Free ':')
    (hcount : s.sequence + 1 < UInt64.size) :
    (s.appendEvent e).eventsOf e.subject =
      (s.eventsOf e.subject ++ [(eventKey e.subject (s.sequence + 1), e)]).rtake eventLimit := by
  let entries := s.eventsOf e.subject
  let key := eventKey e.subject (s.sequence + 1)
  let excess := entries.length + 1 - eventLimit
  have hless : ∀ entry ∈ entries, entry.1 < key := by
    intro entry hentry
    obtain ⟨n, hn, heq⟩ := key_of_mem_eventsOf hs hplain he hentry
    rw [heq]
    exact eventKey_lt_eventKey (Nat.lt_succ_of_le hn) hcount
  have hrtake : (entries ++ [(key, e)]).rtake eventLimit = entries.drop excess ++ [(key, e)] := by
    rw [List.rtake, List.length_append, List.length_singleton, List.drop_append_of_le_length]
    simp only [eventLimit]
    omega
  have hkeys : key ∉ (entries.take excess).map (·.1) := by
    intro hmem
    obtain ⟨entry, hentry, heq⟩ := List.mem_map.mp hmem
    exact String.lt_irrefl key (heq ▸ hless entry (List.mem_of_mem_take hentry))
  have hfind : ∀ k, (s.appendEvent e).events.find? k =
      if k ∈ (entries.take excess).map (·.1) then none
      else if key = k then some e else s.events.find? k := by
    intro k
    rw [← Table.find?_insert, ← find?_foldl_erase]
    rfl
  change _ = (entries ++ [(key, e)]).rtake eventLimit
  rw [hrtake]
  refine eventsOf_eq_concat ((eventsOf_sorted s _).sublist (List.drop_sublist _ _))
    (fun entry hentry => hless entry (List.mem_of_mem_drop hentry)) (fun e' => ?_) fun k e' hk => ?_
  · have hrange : ∃ rest, key = e.subject.display ++ ":" ++ rest := ⟨_, rfl⟩
    rw [mem_eventsOf_iff, hfind, if_neg hkeys, if_pos rfl, and_iff_left hrange, Option.some.injEq,
      eq_comm]
  · -- Of the other events of the subject those beyond the limit are gone.
    rw [mem_drop_iff_of_sorted (eventsOf_sorted s _), mem_eventsOf_iff, mem_eventsOf_iff, hfind,
      if_neg hk]
    by_cases hold : k ∈ (entries.take excess).map (·.1)
    · rw [if_pos hold]
      exact ⟨fun h => (nomatch h.1), fun h => absurd hold h.2⟩
    · rw [if_neg hold]
      exact (and_iff_left hold).symm

/-! ### What the latest event says -/

/-- The latest event of the subject of a notice says what the notice says. -/
def Tells (s : Store) (notice : Notice) : Prop :=
  ∃ key last, (s.eventsOf notice.subject).getLast? = some (key, last) ∧
    ∀ now, ({ toNotice := notice, timestamp := now } : Event).repeats last = true

/-- What is told again is folded into the latest event, which then still tells it. -/
theorem Tells.record_eq (h : s.Tells notice) (now : UInt64) : (s.record notice now).Tells notice ∧
    ∃ key last, (s.eventsOf notice.subject).getLast? = some (key, last) ∧
      ({ toNotice := notice, timestamp := now } : Event).repeats last = true ∧
      s.record notice now =
        { s with events := s.events.insert key (last.folded ⟨notice, now, 1⟩) } := by
  obtain ⟨key, last, hlast, hrepeats⟩ := h
  have heq : s.record notice now =
      { s with events := s.events.insert key (last.folded ⟨notice, now, 1⟩) } := by
    simp only [record, putEvent, hlast, hrepeats now, if_true]
  refine ⟨?_, key, last, hlast, hrepeats now, heq⟩
  obtain ⟨before, hbefore⟩ := List.getLast?_eq_some_iff.mp hlast
  rw [heq]
  refine ⟨key, last.folded ⟨notice, now, 1⟩, ?_, hrepeats⟩
  rw [eventsOf_folded hbefore, List.getLast?_concat]

/-- **The latest event.** A notice that was just recorded is what the latest event of its subject
says, as long as the number of the event has at most 64 bits. -/
theorem record_tells (hs : s.Numbered) (hplain : s.Plain) (hsubject : notice.subject.Free ':')
    (now : UInt64) (hcount : (s.record notice now).sequence < UInt64.size) :
    (s.record notice now).Tells notice := by
  rcases s.putEvent_cases ⟨notice, now, 1⟩ with ⟨key, last, hlast, hrepeats, -⟩ | heq
  · exact (Tells.record_eq ⟨key, last, hlast, fun _ => hrepeats⟩ now).1
  have hrecord : s.record notice now = s.appendEvent ⟨notice, now, 1⟩ := heq
  rw [hrecord] at hcount ⊢
  refine ⟨eventKey notice.subject (s.sequence + 1), ⟨notice, now, 1⟩, ?_, fun now => ?_⟩
  · have hevents : (s.appendEvent ⟨notice, now, 1⟩).eventsOf notice.subject = _ :=
      eventsOf_appendEvent hs hplain hsubject hcount
    rw [hevents, eventLimit, List.rtake_concat_succ, List.getLast?_concat]
  · simp [Event.repeats]

end Store

end Converge

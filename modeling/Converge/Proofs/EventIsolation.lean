import Converge.Proofs.EventLog

/-!
# Events of different subjects

The events of all subjects are in one table, and those of a subject are the range of keys that begin
with its display form and a colon. A name may hold a colon itself. Then the range of the subject
`prod/orders` holds the events of `prod/orders:archive` as well: they are listed for both subjects,
and an event of the one can be folded into an event of the other or drop it.

Two subjects are apart when neither display form is the other one or goes on after it with a colon.
Subjects that are apart never notice each other, whatever else the store holds, and for all other
subjects there is a store in which they do.

## Main definitions

* `ObjectKey.Apart`: two subjects of which neither continues the other.

## Main results

* `Store.exists_eventKey_eq_iff`: the ranges in which the key of an event is.
* `ObjectKey.apart_of_ne`: different keys without separators are apart.
* `Store.mem_listEvents_iff`: the events that are listed for a subject.
* `Store.listEvents_putEvent_of_apart`: what is listed for a subject that is apart.
* `Store.event_isolation`: the subjects between which events are isolated.
-/

namespace Converge

namespace ObjectKey

variable {a b : ObjectKey}

/-- Neither of the display forms is the other one, or goes on after it with a colon. -/
def Apart (a b : ObjectKey) : Prop :=
  ¬ Continues ':' a.display b.display ∧ ¬ Continues ':' b.display a.display

instance (a b : ObjectKey) : Decidable (a.Apart b) := inferInstanceAs (Decidable (_ ∧ _))

theorem apart_of_display_ne (ha : a.Free ':') (hb : b.Free ':') (hne : a.display ≠ b.display) :
    a.Apart b := by
  rw [free_iff_display (by decide)] at ha hb
  exact ⟨fun h => hne (h.eq_of_free hb).symm, fun h => hne (h.eq_of_free ha)⟩

theorem apart_of_ne (ha : a.Free ':') (hb : b.Free ':') (hslash : b.Free '/') (hne : a ≠ b) :
    a.Apart b :=
  apart_of_display_ne ha hb fun h => hne (display_inj hslash h.symm).symm

end ObjectKey

namespace Store

variable {s : Store} {subject subject' : ObjectKey} {e e' : Event} {key : String}

/-! ### Ranges of keys -/

private theorem colon_notMem_padded (width n : Nat) : ':' ∉ (Text.padded width n).toList := by
  rw [Text.toList_padded, List.mem_append, List.mem_replicate, not_or]
  refine ⟨fun h => absurd h.2 (by decide), fun h => ?_⟩
  have hdigit := Nat.isDigit_of_mem_toDigits (by decide) (by decide) h
  exact absurd hdigit (by decide)

private theorem number_eq_of_eventKey_eq {m n : Nat}
    (h : eventKey subject m = eventKey subject' n) :
    m = n := by
  have hchars : subject.display.toList ++ ':' :: (Text.padded 20 m).toList =
      subject'.display.toList ++ ':' :: (Text.padded 20 n).toList := by
    simpa [eventKey] using congrArg String.toList h
  -- What stands after the last colon is the number.
  have hreverse := congrArg List.reverse hchars
  simp only [List.reverse_append, List.reverse_cons, List.append_assoc, List.singleton_append]
    at hreverse
  obtain ⟨hdigits, -⟩ := append_cons_inj (by simpa using colon_notMem_padded 20 m)
    (by simpa using colon_notMem_padded 20 n) hreverse
  calc m = Nat.ofDigitChars 10 (Text.padded 20 m).toList 0 := (Text.ofDigitChars_padded 20 m).symm
    _ = Nat.ofDigitChars 10 (Text.padded 20 n).toList 0 := by rw [List.reverse_injective hdigits]
    _ = n := Text.ofDigitChars_padded 20 n

/-- The key of an event is in the ranges of those subjects that its own subject continues. -/
theorem exists_eventKey_eq_iff {n : Nat} :
    (∃ rest, eventKey subject' n = subject.display ++ ":" ++ rest) ↔
      Continues ':' subject.display subject'.display := by
  constructor
  · rintro ⟨rest, h⟩
    have hchars : subject.display.toList ++ ':' :: rest.toList =
        subject'.display.toList ++ ':' :: (Text.padded 20 n).toList := by
      simpa [eventKey] using (congrArg String.toList h).symm
    exact Continues.of_eq_of_free_rest (colon_notMem_padded 20 n) hchars
  · rintro ⟨rest, hrest⟩
    refine ⟨String.ofList (rest ++ (Text.padded 20 n).toList), String.ext ?_⟩
    calc (eventKey subject' n).toList
        = subject'.display.toList ++ [':'] ++ (Text.padded 20 n).toList := by simp [eventKey]
      _ = subject.display.toList ++ [':'] ++ rest ++ (Text.padded 20 n).toList := by rw [hrest]
      _ = _ := by simp

private theorem ne_of_apart (h : subject'.Apart subject) (rest rest' : String) :
    subject.display ++ ":" ++ rest ≠ subject'.display ++ ":" ++ rest' := by
  intro heq
  have hchars : subject.display.toList ++ ':' :: rest.toList =
      subject'.display.toList ++ ':' :: rest'.toList := by
    simpa using congrArg String.toList heq
  exact (Continues.or_of_eq hchars).elim h.2 h.1

/-- **What is listed for a subject** are all events whose subject is that one or continues it. -/
theorem mem_listEvents_iff (hs : s.Numbered) : e ∈ s.listEvents subject ↔
    ∃ key, s.events.find? key = some e ∧ Continues ':' subject.display e.subject.display := by
  have hlisted : e ∈ s.listEvents subject ↔ ∃ key, (key, e) ∈ s.eventsOf subject := by
    simp [listEvents]
  rw [hlisted]
  refine exists_congr fun key => ?_
  rw [mem_eventsOf_iff]
  refine and_congr_right fun hfind => ?_
  obtain ⟨n, -, rfl⟩ := hs key e hfind
  exact exists_eventKey_eq_iff

/-- **An event that was recorded** is listed for its subject, as it was given or as the repetition
of an event that was listed before. -/
theorem exists_mem_listEvents_putEvent (hs : s.Numbered) (e : Event) :
    ∃ stored ∈ (s.putEvent e).listEvents e.subject, stored = e ∨
      ∃ last ∈ s.listEvents e.subject, e.repeats last = true ∧ stored = last.folded e := by
  rcases s.putEvent_cases e with ⟨key, last, hlast, hrepeats, heq⟩ | heq
  · obtain ⟨before, hbefore⟩ := List.getLast?_eq_some_iff.mp hlast
    refine ⟨last.folded e, ?_, .inr ⟨last, ?_, hrepeats, rfl⟩⟩
    · rw [heq, listEvents, eventsOf_folded hbefore, List.map_append]
      simp
    · exact List.mem_map.mpr ⟨(key, last), List.mem_of_getLast? hlast, rfl⟩
  · -- None of the events that give way has the number of the new one.
    have hfresh : eventKey e.subject (s.sequence + 1) ∉ ((s.eventsOf e.subject).take
        ((s.eventsOf e.subject).length + 1 - eventLimit)).map (·.1) := by
      intro hmem
      obtain ⟨entry, hentry, hkey⟩ := List.mem_map.mp hmem
      obtain ⟨hfind, -⟩ := mem_eventsOf_iff.mp (List.mem_of_mem_take hentry)
      obtain ⟨n, hn, hnumber⟩ := hs entry.1 entry.2 hfind
      have := number_eq_of_eventKey_eq (hnumber.symm.trans hkey)
      omega
    have hfind : (s.appendEvent e).events.find? (eventKey e.subject (s.sequence + 1)) = some e := by
      simp only [appendEvent, find?_foldl_erase, if_neg hfresh, Table.find?_insert_self]
    refine ⟨e, ?_, .inl rfl⟩
    rw [heq]
    exact List.mem_map.mpr ⟨_, mem_eventsOf_iff.mpr ⟨hfind, _, rfl⟩, rfl⟩

/-! ### One event after another -/

private theorem find?_putEvent_of_ne (hkey : ∀ rest, key ≠ e.subject.display ++ ":" ++ rest) :
    (s.putEvent e).events.find? key = s.events.find? key := by
  have hrange : ∀ entry ∈ s.eventsOf e.subject, entry.1 ≠ key := by
    intro entry hentry heq
    obtain ⟨-, rest, hrest⟩ := mem_eventsOf_iff.mp hentry
    exact hkey rest (heq.symm.trans hrest)
  rcases s.putEvent_cases e with ⟨key', last, hlast, -, heq⟩ | heq
  · rw [heq, Table.find?_insert_ne _ (hrange _ (List.mem_of_getLast? hlast))]
  · have hnew : eventKey e.subject (s.sequence + 1) ≠ key := (hkey _).symm
    rw [heq, appendEvent]
    simp only [find?_foldl_erase]
    rw [if_neg, Table.find?_insert_ne _ hnew]
    intro hmem
    obtain ⟨entry, hentry, heq⟩ := List.mem_map.mp hmem
    exact hrange entry (List.mem_of_mem_take hentry) heq

/-- **The events of a subject that is apart** stay as they are when an event is recorded. -/
theorem listEvents_putEvent_of_apart (h : e.subject.Apart subject) :
    (s.putEvent e).listEvents subject = s.listEvents subject := by
  rw [listEvents, listEvents]
  congr 1
  refine (eventsOf_sorted _ _).eq_of_mem_iff (eventsOf_sorted _ _) fun (key, e') => ?_
  rw [mem_eventsOf_iff, mem_eventsOf_iff]
  refine and_congr_left fun ⟨rest, hrest⟩ => ?_
  rw [find?_putEvent_of_ne fun rest' => hrest ▸ ne_of_apart h rest rest']

/-! ### Subjects that are not apart -/

private theorem eventsOf_putEvent_empty (h : Continues ':' subject.display e.subject.display) :
    ((∅ : Store).putEvent e).eventsOf subject = [(eventKey e.subject 1, e)] := by
  have hevents : ((∅ : Store).putEvent e).events.entries = [(eventKey e.subject 1, e)] := rfl
  have hrange : ¬ eventKey e.subject 1 < subject.display ++ ":" ∧
      eventKey e.subject 1 < subject.display ++ ";" :=
    Text.between_colon_iff.mpr (exists_eventKey_eq_iff.mpr h)
  rw [eventsOf, Table.between, hevents, List.filter_singleton]
  simp [hrange]

private theorem exists_listEvents_putEvent_ne {a b : ObjectKey} (h : ¬ a.Apart b) :
    ∃ s : Store, s.Reachable ∧ ∃ e : Event, e.subject = a ∧
      (s.putEvent e).listEvents b ≠ s.listEvents b := by
  let told (subject : ObjectKey) : Event :=
    { subject, severity := .normal, reason := "", message := "", timestamp := 0 }
  rw [ObjectKey.Apart, not_and_or, not_not, not_not] at h
  rcases h with h | h
  · -- The event of `b` is the latest in the range of `a`.
    let s := (∅ : Store).putEvent (told b)
    have hs : s.eventsOf b = [] ++ [(eventKey b 1, told b)] :=
      eventsOf_putEvent_empty (Continues.refl ':' b.display)
    have hfold : s.putEvent (told a) =
        { s with events := s.events.insert (eventKey b 1) ((told b).folded (told a)) } := by
      have hlast : s.eventsOf (told a).subject = [(eventKey b 1, told b)] :=
        eventsOf_putEvent_empty h
      rw [putEvent, hlast]
      rfl
    refine ⟨s, Reachable.empty.apply (.putEvent (told b)), told a, rfl, ?_⟩
    rw [hfold, listEvents, listEvents, hs, eventsOf_folded hs]
    intro heq
    have hcount : (2 : UInt32) = 1 := congrArg Event.count (List.cons.inj heq).1
    exact absurd hcount (by decide)
  · have hempty : (∅ : Store).listEvents b = [] := rfl
    refine ⟨∅, Reachable.empty, told a, rfl, ?_⟩
    have hlisted : ((∅ : Store).putEvent (told a)).eventsOf b = [(eventKey a 1, told a)] :=
      eventsOf_putEvent_empty h
    rw [hempty, listEvents, hlisted]
    exact List.cons_ne_nil _ _

/-- **The isolation of events.** Recording an event about one subject leaves what is listed for
another one as it is, in every store that has come about by any operations, exactly when the two
subjects are apart. What is listed for a subject are the events in the store whose subject is that
one or continues it; so these are its own events if no other subject continues it. -/
theorem event_isolation (subject : ObjectKey) :
    (∀ other : ObjectKey, other.Apart subject ↔
      ∀ s : Store, s.Reachable → ∀ e : Event, e.subject = other →
        (s.putEvent e).listEvents subject = s.listEvents subject) ∧
    ∀ s : Store, s.Reachable →
      (∀ e, e ∈ s.listEvents subject ↔
        ∃ key, s.events.find? key = some e ∧ Continues ':' subject.display e.subject.display) ∧
      ((∀ key e, s.events.find? key = some e → e.subject = subject ∨ e.subject.Apart subject) →
        ∀ e ∈ s.listEvents subject, e.subject = subject) := by
  refine ⟨fun other => ⟨fun h s _ e he => ?_, fun h => ?_⟩, fun s hs => ⟨fun e => ?_, ?_⟩⟩
  · subst he
    exact listEvents_putEvent_of_apart h
  · refine Decidable.byContradiction fun hnot => ?_
    obtain ⟨s, hs, e, he, hne⟩ := exists_listEvents_putEvent_ne hnot
    exact hne (h s hs e he)
  · exact mem_listEvents_iff hs.numbered
  · intro hapart e he
    obtain ⟨key, hfind, hcontinues⟩ := (mem_listEvents_iff hs.numbered).mp he
    exact (hapart key e hfind).resolve_right fun h => h.2 hcontinues

/-- A database, and another one whose name goes on with a hyphen: an event of the one is not listed
for the other, and not folded into the event of the other. -/
theorem event_isolation_archive :
    let orders : ObjectKey := ⟨"prod", "orders"⟩
    let archive : ObjectKey := ⟨"prod", "orders-archive"⟩
    let tell (subject : ObjectKey) : Event :=
      { subject, severity := .normal, reason := "Pending", message := "", timestamp := 1 }
    let s := ((∅ : Store).putEvent (tell orders)).putEvent (tell archive)
    (s.putEvent (tell archive)).listEvents orders = s.listEvents orders ∧
      s.listEvents orders = [tell orders] ∧ ∀ e ∈ s.listEvents orders, e.subject = orders := by
  intro orders archive tell s
  obtain ⟨hisolated, hlisted⟩ := event_isolation orders
  have hs : s.Reachable := (Reachable.empty.apply (.putEvent _)).apply (.putEvent _)
  have hentries : ∀ entry ∈ s.events.entries,
      entry.2.subject = orders ∨ entry.2.subject.Apart orders := by decide +kernel
  refine ⟨(hisolated archive).mp (by decide +kernel) s hs (tell archive) rfl, by decide +kernel,
    (hlisted s hs).2 fun key e hfind => ?_⟩
  exact hentries (key, e) ((Table.mem_entries_iff _ _ _).mpr hfind)

/-- A name that goes on with a colon: the first event about `prod/orders:archive` is listed for
`prod/orders`, which is another subject, and an event about that is folded into it. -/
theorem events_not_isolated_archive :
    let orders : ObjectKey := ⟨"prod", "orders"⟩
    let archive : ObjectKey := ⟨"prod", "orders:archive"⟩
    let tell (subject : ObjectKey) (timestamp : UInt64) : Event :=
      { subject, severity := .normal, reason := "Pending", message := "", timestamp }
    let s := (∅ : Store).putEvent (tell archive 1)
    archive ≠ orders ∧ (∅ : Store).listEvents orders = [] ∧ s.listEvents orders = [tell archive 1] ∧
      (s.putEvent (tell orders 2)).listEvents archive =
        [{ tell archive 2 with count := 2 }] := by
  decide +kernel

end Store

end Converge

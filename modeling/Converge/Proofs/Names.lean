import Converge.Catalog
import Mathlib.Data.List.Basic

/-!
# Names without separators

The text under which an object is stored joins its kind, namespace and name by slashes. It
determines all three of them when none of them holds a slash.

A text that holds a separator can be read as another one that is continued after the separator.
That is the only way in which a range of keys can hold keys of others.

## Main definitions

* `Free`: a text without a given character.
* `ObjectKey.Free`, `Object.Free`: keys and objects whose names are without it.
* `Continues`: a text that is another one or goes on after it with a separator.

## Main results

* `Continues.of_eq_of_free_rest`, `Continues.of_eq_of_free`: texts that begin alike.
* `ObjectKey.display_inj`: a key without slashes is determined by its display form.
* `tableKey_inj`, `Object.eq_of_tableKey_eq`: so are a kind and a key by their table key.
-/

namespace Converge

variable {c : Char}

/-- A text does not hold the character `c`. -/
def Free (c : Char) (text : String) : Prop := c ∉ text.toList

instance (text : String) : Decidable (Free c text) := inferInstanceAs (Decidable (c ∉ text.toList))

theorem Free.append {a b : String} (ha : Free c a) (hb : Free c b) : Free c (a ++ b) := by
  simp only [Free, String.toList_append, List.mem_append, not_or]
  exact ⟨ha, hb⟩

/-- Neither the namespace nor the name holds the character `c`. -/
def ObjectKey.Free (c : Char) (key : ObjectKey) : Prop :=
  Converge.Free c key.ns ∧ Converge.Free c key.name

instance (key : ObjectKey) : Decidable (key.Free c) :=
  inferInstanceAs (Decidable (Converge.Free c key.ns ∧ Converge.Free c key.name))

/-- Neither the kind nor the namespace nor the name holds the character `c`. -/
def Object.Free (c : Char) (o : Object) : Prop := Converge.Free c o.kind ∧ o.key.Free c

instance (o : Object) : Decidable (o.Free c) :=
  inferInstanceAs (Decidable (Converge.Free c o.kind ∧ o.key.Free c))

/-- A character other than the slash is in the display form of a key when it is in one of its
parts. -/
theorem ObjectKey.free_iff_display (hc : c ≠ '/') {key : ObjectKey} :
    key.Free c ↔ Converge.Free c key.display := by
  simp [ObjectKey.Free, Converge.Free, display, hc]

theorem free_tableKey_iff (hc : c ≠ '/') {kind : String} {key : ObjectKey} :
    Free c (tableKey kind key) ↔ Free c kind ∧ key.Free c := by
  simp [ObjectKey.Free, Free, tableKey, hc]

/-- A list is cut in one way only at the first occurrence of an element. -/
theorem append_cons_inj {α : Type} {c : α} {x x' y y' : List α} (hx : c ∉ x) (hx' : c ∉ x')
    (h : x ++ c :: y = x' ++ c :: y') : x = x' ∧ y = y' := by
  induction x generalizing x' with
  | nil =>
    cases x' with
    | nil => exact ⟨rfl, (List.cons.inj h).2⟩
    | cons a x' =>
      have ha : c = a := (List.cons.inj h).1
      exact absurd (ha ▸ List.mem_cons_self) hx'
  | cons a x ih =>
    cases x' with
    | nil =>
      have ha : a = c := (List.cons.inj h).1
      exact absurd (ha ▸ List.mem_cons_self) hx
    | cons a' x' =>
      obtain ⟨rfl, hrest⟩ := List.cons.inj h
      have hxrest : c ∉ x := fun hc => hx (List.mem_cons_of_mem _ hc)
      have hxrest' : c ∉ x' := fun hc => hx' (List.mem_cons_of_mem _ hc)
      obtain ⟨rfl, hy⟩ := ih hxrest hxrest' hrest
      exact ⟨rfl, hy⟩

/-! ### Texts that continue others -/

/-- The text is `start`, or goes on after it with the separator `c`. -/
def Continues (c : Char) (start text : String) : Prop :=
  start.toList ++ [c] <+: text.toList ++ [c]

instance (start text : String) : Decidable (Continues c start text) :=
  inferInstanceAs (Decidable (start.toList ++ [c] <+: text.toList ++ [c]))

namespace Continues

variable {start text : String} {rest rest' : List Char}

theorem refl (c : Char) (text : String) : Continues c text text := List.prefix_rfl

/-- A text without the separator continues no other text. -/
theorem eq_of_free (h : Continues c start text) (htext : Free c text) : text = start := by
  rcases List.prefix_concat_iff.mp h with heq | hstart
  · exact String.ext (List.append_cancel_right heq).symm
  · exact absurd (hstart.mem List.mem_concat_self) htext

/-- Of two texts that are followed by a separator in the same text one continues the other. -/
theorem or_of_eq (h : start.toList ++ c :: rest = text.toList ++ c :: rest') :
    Continues c start text ∨ Continues c text start := by
  have hstart : start.toList ++ [c] <+: start.toList ++ c :: rest := ⟨rest, by simp⟩
  have htext : text.toList ++ [c] <+: start.toList ++ c :: rest := ⟨rest', by simp [h]⟩
  exact List.prefix_or_prefix_of_prefix hstart htext

/-- Of such texts the one without the separator is continued. -/
theorem of_eq_of_free (hstart : Free c start)
    (h : start.toList ++ c :: rest = text.toList ++ c :: rest') : Continues c start text := by
  rcases or_of_eq h with h | h
  · exact h
  · rw [h.eq_of_free hstart]
    exact refl c text

/-- Of such texts the one after which no other separator comes continues the other. -/
theorem of_eq_of_free_rest (hrest : c ∉ rest')
    (h : start.toList ++ c :: rest = text.toList ++ c :: rest') : Continues c start text := by
  rcases or_of_eq h with hcontinues | ⟨between, hbetween⟩
  · exact hcontinues
  · -- What lies between the two separators is a part of what follows the first.
    have hparts : text.toList ++ [c] ++ (between ++ rest) = text.toList ++ [c] ++ rest' := by
      rw [← List.append_assoc, hbetween, List.append_assoc, List.append_assoc]
      exact h
    rcases List.eq_nil_or_concat' between with rfl | ⟨between, last, rfl⟩
    · rw [List.append_nil] at hbetween
      exact ⟨[], by rw [List.append_nil, hbetween]⟩
    · rw [← List.append_assoc] at hbetween
      have hlast : last = c := (List.append_inj' hbetween rfl).2 |> List.cons.inj |>.1
      refine absurd ?_ hrest
      rw [← List.append_cancel_left hparts, hlast]
      simp

end Continues

/-! ### Keys -/

theorem ObjectKey.display_inj {key key' : ObjectKey} (hkey : key.Free '/')
    (h : key.display = key'.display) : key = key' := by
  have hchars : key.ns.toList ++ '/' :: key.name.toList
      = key'.ns.toList ++ '/' :: key'.name.toList := by
    simpa [display] using congrArg String.toList h
  obtain ⟨hns, -, hname⟩ := (List.append_cons_inj_of_notMem hkey.1 hkey.2).mp hchars
  obtain ⟨ns, name⟩ := key
  obtain rfl : ns = key'.ns := String.ext hns
  obtain rfl : name = key'.name := String.ext hname
  rfl

theorem kind_eq_of_tableKey_eq {kind kind' : String} {key key' : ObjectKey}
    (hkind : Free '/' kind) (hkind' : Free '/' kind')
    (h : tableKey kind key = tableKey kind' key') : kind = kind' ∧ key.display = key'.display := by
  have hchars : kind.toList ++ '/' :: key.display.toList
      = kind'.toList ++ '/' :: key'.display.toList := by
    simpa [tableKey, ObjectKey.display] using congrArg String.toList h
  obtain ⟨hkinds, hkeys⟩ := append_cons_inj hkind hkind' hchars
  exact ⟨String.ext hkinds, String.ext hkeys⟩

/-- A table key of a kind and a key without slashes is that of no other kind and key, whatever names
these have: it holds two slashes only. -/
theorem tableKey_inj {kind kind' : String} {key key' : ObjectKey} (hkind : Free '/' kind)
    (hkey : key.Free '/') (h : tableKey kind' key' = tableKey kind key) :
    kind' = kind ∧ key' = key := by
  have hcount : ∀ k (K : ObjectKey), (tableKey k K).toList.count '/' =
      k.toList.count '/' + K.ns.toList.count '/' + K.name.toList.count '/' + 2 := by
    intro k K
    simp only [tableKey, String.toList_append, List.count_append]
    have : "/".toList.count '/' = 1 := by decide
    omega
  have htwo := (hcount kind' key').symm.trans ((congrArg (·.toList.count '/') h).trans
    (hcount kind key))
  rw [List.count_eq_zero.mpr hkind, List.count_eq_zero.mpr hkey.1,
    List.count_eq_zero.mpr hkey.2] at htwo
  have hkind' : Free '/' kind' := List.count_eq_zero.mp (by omega)
  obtain ⟨hkinds, hdisplay⟩ := kind_eq_of_tableKey_eq hkind' hkind h
  exact ⟨hkinds, (ObjectKey.display_inj hkey hdisplay.symm).symm⟩

theorem Object.eq_of_tableKey_eq {o : Object} {kind : String} {key : ObjectKey} (ho : o.Free '/')
    (hkind : Converge.Free '/' kind) (h : o.tableKey = Converge.tableKey kind key) :
    o.kind = kind ∧ o.key = key := by
  obtain ⟨hk, hkey⟩ := kind_eq_of_tableKey_eq ho.1 hkind h
  exact ⟨hk, ObjectKey.display_inj ho.2 hkey⟩

end Converge

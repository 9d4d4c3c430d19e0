import Converge.Table
import Converge.Text.Digits

/-!
# The order of keys

Tables are scanned in the order of their keys. Keys that begin with the same text lie in a range,
and keys that differ only in a number of fixed width are in the order of these numbers.

## Main definitions

* `Text.codePoints`: the code points of a text.

## Main results

* `Text.padded_lt_padded`: numbers of equal width are ordered like their values.
* `Text.codePoints_lt_iff`: texts are ordered by their code points.
* `Text.between_colon_iff`: the texts from one that ends in a colon to the one that ends in a
  semicolon instead.
* `Table.mem_between_iff`: the entries of a range.
-/

namespace Converge

/-! ### Numbers of fixed width -/

namespace Text

theorem toList_padded (width n : Nat) : (padded width n).toList =
    List.replicate (width - (Nat.toDigits 10 n).length) '0' ++ Nat.toDigits 10 n := by
  simp [padded, ← String.length_toList]

/-- The zeros before a number do not count. -/
theorem ofDigitChars_padded (width n : Nat) :
    Nat.ofDigitChars 10 (padded width n).toList 0 = n := by
  rw [toList_padded, Nat.ofDigitChars_append, Nat.ofDigitChars_replicate_zero, Nat.mul_zero,
    Nat.ofDigitChars_ten_toDigits]

theorem length_padded {width n : Nat} (h : (Nat.toDigits 10 n).length ≤ width) :
    (padded width n).toList.length = width := by
  rw [toList_padded, List.length_append, List.length_replicate]
  omega

/-- The last digit stands for the rest of a division by ten, and the digits before it for the
quotient. -/
theorem toList_padded_succ {width : Nat} (hwidth : 0 < width) (n : Nat) :
    (padded (width + 1) n).toList = (padded width (n / 10)).toList ++ [Nat.digitChar (n % 10)] := by
  rw [toList_padded, toList_padded]
  by_cases h : 10 ≤ n
  · rw [Nat.toDigits_of_base_le (by decide) h, List.length_append, List.length_singleton,
      ← List.append_assoc, Nat.add_sub_add_right]
  · have hn : n < 10 := Nat.lt_of_not_le h
    have hreplicate : List.replicate width '0' = List.replicate (width - 1) '0' ++ ['0'] := by
      rw [← List.replicate_succ', Nat.sub_add_cancel hwidth]
    rw [Nat.toDigits_of_lt_base hn, Nat.div_eq_of_lt hn, Nat.mod_eq_of_lt hn, Nat.toDigits_zero]
    simp [hreplicate]

theorem length_toDigits_div_le {width n : Nat} (hwidth : 0 < width)
    (h : (Nat.toDigits 10 n).length ≤ width + 1) : (Nat.toDigits 10 (n / 10)).length ≤ width := by
  by_cases hn : 10 ≤ n
  · rw [Nat.toDigits_of_base_le (by decide) hn, List.length_append, List.length_singleton] at h
    exact Nat.le_of_succ_le_succ h
  · rw [Nat.div_eq_of_lt (Nat.lt_of_not_le hn), Nat.toDigits_zero]
    exact hwidth

theorem digitChar_lt_digitChar {m n : Nat} (h : m < n) (hn : n < 10) :
    Nat.digitChar m < Nat.digitChar n := by
  have hm : m < 10 := Nat.lt_trans h hn
  rw [Char.lt_def, UInt32.lt_iff_toNat_lt]
  change (Nat.digitChar m).toNat < (Nat.digitChar n).toNat
  rw [Nat.toNat_digitChar_of_lt_ten hm, Nat.toNat_digitChar_of_lt_ten hn]
  omega

/-- Of two lists of one length the smaller stays smaller, whatever follows. -/
theorem append_lt_append_of_length_eq {l l' : List Char} (h : l < l')
    (hlength : l.length = l'.length) (x y : List Char) : l ++ x < l' ++ y := by
  induction l generalizing l' with
  | nil =>
    cases l' with
    | nil => exact absurd h (List.not_lt_nil [])
    | cons => exact nomatch hlength
  | cons a l ih =>
    cases l' with
    | nil => exact nomatch hlength
    | cons a' l' =>
      rw [List.cons_append, List.cons_append, List.cons_lt_cons_iff]
      rcases List.cons_lt_cons_iff.mp h with h | ⟨ha, h⟩
      · exact .inl h
      · exact .inr ⟨ha, ih h (Nat.succ.inj hlength)⟩

/-- Numbers that are written with the same width are ordered like their values, as long as the
width is enough for both. -/
theorem padded_lt_padded {width m n : Nat} (hwidth : 0 < width)
    (hm : (Nat.toDigits 10 m).length ≤ width) (hn : (Nat.toDigits 10 n).length ≤ width)
    (h : m < n) : padded width m < padded width n := by
  rw [String.lt_iff]
  induction hwidth generalizing m n with
  | refl =>
    have hlt : ∀ {k : Nat}, (Nat.toDigits 10 k).length ≤ 1 → k < 10 := by
      intro k hk
      rwa [Nat.length_toDigits_le_iff (by decide) (by decide)] at hk
    rw [toList_padded, toList_padded, Nat.toDigits_of_lt_base (hlt hm),
      Nat.toDigits_of_lt_base (hlt hn)]
    exact List.cons_lt_cons_iff.mpr (.inl (digitChar_lt_digitChar h (hlt hn)))
  | @step width hwidth ih =>
    rw [toList_padded_succ hwidth, toList_padded_succ hwidth]
    have hm' := length_toDigits_div_le hwidth hm
    have hn' := length_toDigits_div_le hwidth hn
    rcases Nat.lt_or_ge (m / 10) (n / 10) with hlt | hge
    · refine append_lt_append_of_length_eq (ih hm' hn' hlt) ?_ _ _
      rw [length_padded hm', length_padded hn']
    · have heq : m / 10 = n / 10 := by omega
      have hlast : m % 10 < n % 10 := by omega
      rw [heq]
      refine List.append_left_lt ?_
      have hdigit := digitChar_lt_digitChar hlast (Nat.mod_lt n (by decide))
      exact List.cons_lt_cons_iff.mpr (.inl hdigit)

/-! ### Code points -/

/-- The code points of a text. -/
def codePoints (text : String) : List Nat := text.toList.map Char.toNat

theorem map_toNat_lt_iff {l l' : List Char} : l.map Char.toNat < l'.map Char.toNat ↔ l < l' := by
  induction l generalizing l' with
  | nil => cases l' <;> simp
  | cons c l ih =>
    cases l' with
    | nil => simp
    | cons c' l' =>
      have hlt : c.toNat < c'.toNat ↔ c < c' := by
        rw [Char.lt_def, UInt32.lt_iff_toNat_lt]
        rfl
      simp only [List.map_cons, List.cons_lt_cons_iff, ih, hlt, Char.toNat_inj]

/-- Texts are ordered by their code points. -/
theorem codePoints_lt_iff {a b : String} : codePoints a < codePoints b ↔ a < b := by
  rw [codePoints, codePoints, map_toNat_lt_iff, String.lt_iff]

/-! ### Ranges -/

theorem between_colon_of_lists {start text : List Char} (hlow : ¬ text < start ++ [':'])
    (hhigh : text < start ++ [';']) : ∃ rest, text = start ++ ':' :: rest := by
  induction start generalizing text with
  | nil =>
    cases text with
    | nil => exact absurd (List.nil_lt_cons ':' []) hlow
    | cons c rest =>
      simp only [List.nil_append, List.cons_lt_cons_iff, List.not_lt_nil, and_false, or_false]
        at hlow hhigh
      have hcolon : c = ':' := by
        rw [Char.lt_def, UInt32.lt_iff_toNat_lt] at hlow hhigh
        refine Char.ext (UInt32.toNat_inj.mp ?_)
        change ¬ c.val.toNat < 58 at hlow
        change c.val.toNat < 59 at hhigh
        change c.val.toNat = 58
        omega
      exact ⟨rest, by rw [hcolon]; rfl⟩
  | cons a start ih =>
    cases text with
    | nil => exact absurd (List.nil_lt_cons a _) hlow
    | cons c text =>
      rw [List.cons_append, List.cons_lt_cons_iff, not_or] at hlow
      rw [List.cons_append, List.cons_lt_cons_iff] at hhigh
      rcases hhigh with hlt | ⟨rfl, hhigh⟩
      · exact absurd hlt hlow.1
      · obtain ⟨rest, rfl⟩ := ih (fun h => hlow.2 ⟨rfl, h⟩) hhigh
        exact ⟨rest, rfl⟩

/-- A text lies between one that ends in a colon and the one that ends in a semicolon instead when
it begins with the former. -/
theorem between_colon_iff {start text : String} :
    ¬ text < start ++ ":" ∧ text < start ++ ";" ↔ ∃ rest, text = start ++ ":" ++ rest := by
  constructor
  · rintro ⟨hlow, hhigh⟩
    rw [String.lt_iff, String.toList_append] at hlow hhigh
    obtain ⟨rest, hrest⟩ := between_colon_of_lists hlow hhigh
    exact ⟨String.ofList rest, String.ext (by simpa using hrest)⟩
  · rintro ⟨rest, rfl⟩
    constructor
    · rw [String.lt_iff]
      simp only [String.toList_append, List.append_assoc]
      exact List.not_lt.mpr (List.append_left_le (List.le_append_left))
    · rw [String.lt_iff]
      simp only [String.toList_append, List.append_assoc]
      exact List.append_left_lt (List.cons_lt_cons_iff.mpr (.inl (by decide)))

end Text

namespace Table

variable {α : Type} {t : Table α} {low high key : String} {value : α}

theorem mem_between_iff :
    (key, value) ∈ t.between low high ↔ t.find? key = some value ∧ ¬ key < low ∧ key < high := by
  simp [between, mem_entries_iff]

end Table

end Converge

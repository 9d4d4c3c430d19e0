import Converge.Duration
import Mathlib.Data.List.DropRight

/-!
# The grammar of durations

The reader of durations trims a text, looks at its last character for a unit, trims what stands
before it, and reads a number. This file says which texts it accepts without the order in which it
takes them apart: blanks, a plus sign or nothing, digits, blanks, a unit or nothing, and blanks. The
duration is the product of the number and the unit, and a text is refused when the product has more
than 64 bits, so nothing wraps around.

## Main definitions

* `Text.Blank`: characters that are all blank.
* `Seconds.IsUnit`, `Seconds.Numeral`: units and numbers as they are written.
* `Seconds.Spells`: the texts of a number of units.

## Main results

* `Text.exists_trim_eq`, `Text.trim_append`: trimming takes off blanks, and all of them.
* `Seconds.number?_eq_some_iff`, `Seconds.exists_splitUnit`: the two parts of a duration.
* `Seconds.splitUnit_of_spells`: a text that is written by the grammar is taken apart as it was
  put together.
* `Seconds.duration_grammar`: the texts that are durations, and what they denote.
-/

namespace Converge

/-! ### Blanks around a text -/

namespace Text

variable {cs before after : List Char}

/-- All characters are blank. -/
def Blank (cs : List Char) : Prop := ∀ c ∈ cs, isBlank c = true

instance (cs : List Char) : Decidable (Blank cs) :=
  decidable_of_iff (cs.all isBlank = true) List.all_eq_true

theorem blank_nil : Blank [] := fun _ h => nomatch h

theorem Blank.append (hbefore : Blank before) (hafter : Blank after) : Blank (before ++ after) :=
  fun c hc => (List.mem_append.mp hc).elim (hbefore c) (hafter c)

theorem trimEnd_eq_rdropWhile (cs : List Char) : trimEnd cs = cs.rdropWhile isBlank := rfl

/-- Trimming takes off nothing but blanks. -/
theorem exists_trim_eq (cs : List Char) :
    ∃ before after, Blank before ∧ Blank after ∧ cs = before ++ trim cs ++ after := by
  refine ⟨cs.takeWhile isBlank, (cs.dropWhile isBlank).rtakeWhile isBlank,
    fun c hc => List.mem_takeWhile_imp hc, fun c hc => List.mem_rtakeWhile_imp hc, ?_⟩
  rw [trim, trimEnd_eq_rdropWhile, List.append_assoc, List.rdropWhile_append_rtakeWhile,
    List.takeWhile_append_dropWhile]

private theorem trimEnd_append (cs : List Char) (hafter : Blank after) :
    trimEnd (cs ++ after) = trimEnd cs := by
  have hreverse : ∀ c ∈ after.reverse, isBlank c = true := fun c hc =>
    hafter c (List.mem_reverse.mp hc)
  rw [trimEnd, List.reverse_append, List.dropWhile_append_of_pos hreverse, trimEnd]

/-- Blanks at the ends make no difference to a trimmed text. -/
theorem trim_append (cs : List Char) (hbefore : Blank before) (hafter : Blank after) :
    trim (before ++ cs ++ after) = trim cs := by
  rw [trim, List.append_assoc, List.dropWhile_append_of_pos hbefore, List.dropWhile_append]
  split
  · rename_i hempty
    rw [trim, List.isEmpty_iff.mp hempty, List.dropWhile_eq_nil_iff.mpr hafter]
  · rw [trimEnd_append _ hafter, trim]

/-- A text without a blank at either end is trimmed. -/
theorem trim_eq_self (hhead : ∀ c ∈ cs.head?, isBlank c = false)
    (hlast : ∀ c ∈ cs.getLast?, isBlank c = false) : trim cs = cs := by
  have hdrop : cs.dropWhile isBlank = cs := by
    cases cs with
    | nil => rfl
    | cons c cs => exact List.dropWhile_cons_of_neg (by simp [hhead c rfl])
  rw [trim, hdrop, trimEnd_eq_rdropWhile, List.rdropWhile_eq_self_iff]
  exact fun hne => by simp [hlast _ (List.getLast?_eq_some_getLast hne)]

private theorem isBlank_of_isDigit {c : Char} (h : c.isDigit = true) : isBlank c = false := by
  obtain ⟨hlow, hhigh⟩ : 48 ≤ c.toNat ∧ c.toNat ≤ 57 := Char.isDigit_iff_toNat.mp h
  have houtside : ∀ r ∈ blankRanges, r.2 < 48 ∨ 57 < r.1 := by decide
  rw [isBlank, List.any_eq_false]
  intro r hr
  have hr := houtside r hr
  simp only [Bool.and_eq_true, decide_eq_true_eq]
  omega

end Text

namespace Seconds

/-! ### The grammar -/

/-- A unit as it is written, and its seconds. -/
inductive IsUnit : String → Nat → Prop
  | unwritten : IsUnit "" 1
  | second : IsUnit "s" 1
  | minute : IsUnit "m" 60
  | hour : IsUnit "h" 3600

/-- A number as it is written: at least one digit, and any number of zeros in front. -/
structure Numeral (digits : List Char) (n : Nat) : Prop where
  ne_nil : digits ≠ []
  isDigit : ∀ c ∈ digits, c.isDigit = true
  value : Nat.ofDigitChars 10 digits 0 = n

/-- The texts of `n` units of `m` seconds. -/
inductive Spells : List Char → Nat → Nat → Prop
  | intro {before sign digits gap after : List Char} {unit : String} {n m : Nat}
      (hbefore : Text.Blank before) (hsign : sign = [] ∨ sign = ['+']) (hdigits : Numeral digits n)
      (hgap : Text.Blank gap) (hunit : IsUnit unit m) (hafter : Text.Blank after) :
      Spells (before ++ (sign ++ digits ++ gap ++ unit.toList) ++ after) n m

/-! ### Numbers and units -/

private theorem natOfDigits_eq_ofDigitChars (digits : List Char) :
    Text.natOfDigits digits = Nat.ofDigitChars 10 digits 0 := by
  simp only [Text.natOfDigits, Nat.ofDigitChars_eq_foldl, Text.digitValue, Nat.mul_comm]

/-- Digits are read as their number when that has at most 64 bits. -/
theorem digits_eq_some_iff {digits : List Char} {n : Nat} :
    (if digits.isEmpty || !digits.all Char.isDigit then none
      else if Text.natOfDigits digits < UInt64.size then some (Text.natOfDigits digits)
      else none) = some n ↔ n < UInt64.size ∧ Numeral digits n := by
  rw [natOfDigits_eq_ofDigitChars]
  constructor
  · intro h
    split at h
    · exact nomatch h
    · rename_i hdigits
      split at h
      · rename_i hlt
        obtain rfl := Option.some.inj h
        simp only [Bool.or_eq_true, not_or, Bool.not_eq_true, List.isEmpty_eq_false_iff,
          Bool.not_eq_false', List.all_eq_true] at hdigits
        exact ⟨hlt, hdigits.1, hdigits.2, rfl⟩
      · exact nomatch h
  · rintro ⟨hlt, hne, hdigits, rfl⟩
    rw [if_neg (by simpa [hne] using hdigits), if_pos hlt]

theorem number?_eq_some_iff {cs : List Char} {n : Nat} : number? cs = some n ↔
    n < UInt64.size ∧ ∃ sign digits, cs = sign ++ digits ∧ (sign = [] ∨ sign = ['+']) ∧
      Numeral digits n := by
  simp only [number?]
  rw [digits_eq_some_iff]
  refine and_congr_right fun _ => ?_
  constructor
  · intro h
    split at h
    · exact ⟨['+'], _, rfl, .inr rfl, h⟩
    · exact ⟨[], _, rfl, .inl rfl, h⟩
  · rintro ⟨sign, digits, rfl, rfl | rfl, hdigits⟩
    · -- A plus sign is no digit.
      split
      · rename_i rest heq
        obtain rfl : digits = '+' :: rest := heq
        exact absurd (hdigits.isDigit '+' List.mem_cons_self) (by decide)
      · exact hdigits
    · exact hdigits

private theorem splitUnit_append {cs : List Char} {c : Char} {m : Nat} (h : unit? c = some m) :
    splitUnit (cs ++ [c]) = (cs, m) := by
  simp [splitUnit, h]

private theorem splitUnit_of_forall {cs : List Char} (h : ∀ c ∈ cs.getLast?, unit? c = none) :
    splitUnit cs = (cs, 1) := by
  simp only [splitUnit, Option.bind_eq_none_iff.mpr h]

private theorem isUnit_of_unit? {c : Char} {m : Nat} (h : unit? c = some m) :
    IsUnit (String.singleton c) m := by
  unfold unit? at h
  split at h
  · exact Option.some.inj h ▸ .second
  · exact Option.some.inj h ▸ .minute
  · exact Option.some.inj h ▸ .hour
  · exact nomatch h

/-- A text is split before its unit. -/
theorem exists_splitUnit (cs : List Char) : ∃ body unit m, splitUnit cs = (body, m) ∧
    IsUnit unit m ∧ cs = body ++ unit.toList := by
  cases hunit : cs.getLast?.bind unit? with
  | none => exact ⟨cs, "", 1, by simp only [splitUnit, hunit], .unwritten, by simp⟩
  | some m =>
    obtain ⟨c, hlast, hc⟩ := Option.bind_eq_some_iff.mp hunit
    obtain ⟨body, rfl⟩ := List.getLast?_eq_some_iff.mp hlast
    exact ⟨body, String.singleton c, m, splitUnit_append hc, isUnit_of_unit? hc, by simp⟩

private theorem IsUnit.eq_or {unit : String} {m : Nat} (h : IsUnit unit m) : unit = "" ∧ m = 1 ∨
    ∃ c, unit.toList = [c] ∧ unit? c = some m ∧ Text.isBlank c = false := by
  cases h with
  | unwritten => exact .inl ⟨rfl, rfl⟩
  | second => exact .inr ⟨'s', rfl, rfl, rfl⟩
  | minute => exact .inr ⟨'m', rfl, rfl, rfl⟩
  | hour => exact .inr ⟨'h', rfl, rfl, rfl⟩

private theorem unit?_of_isDigit {c : Char} (h : c.isDigit = true) : unit? c = none := by
  unfold unit?
  split
  · exact absurd h (by decide)
  · exact absurd h (by decide)
  · exact absurd h (by decide)
  · rfl

/-! ### Durations -/

/-- A duration is the product of its number and its unit, when that has at most 64 bits. -/
theorem parse?_eq_some_iff_split {text : String} {d : Seconds} {body : List Char} {m : Nat}
    (hsplit : splitUnit (Text.trim text.toList) = (body, m)) : parse? text = some d ↔
    ∃ n, number? (Text.trim body) = some n ∧ n * m < UInt64.size ∧ d.toNat = n * m := by
  simp only [parse?, hsplit, Option.bind_eq_bind, Option.bind_eq_some_iff]
  refine exists_congr fun n => and_congr_right fun _ => ?_
  by_cases hlt : n * m < UInt64.size
  · rw [if_pos hlt, Option.some.injEq, ← UInt64.toNat_inj, UInt64.toNat_ofNat_of_lt' hlt,
      and_iff_right hlt, eq_comm]
  · simp [hlt]

/-- The number and the unit of a text that is written as `Spells` says. -/
theorem splitUnit_of_spells {before sign digits gap after : List Char} {unit : String} {n m : Nat}
    (hbefore : Text.Blank before) (hsign : sign = [] ∨ sign = ['+']) (hdigits : Numeral digits n)
    (hgap : Text.Blank gap) (hunit : IsUnit unit m) (hafter : Text.Blank after) :
    ∃ body, splitUnit (Text.trim (before ++ (sign ++ digits ++ gap ++ unit.toList) ++ after)) =
        (body, m) ∧ Text.trim body = sign ++ digits := by
  obtain ⟨last, hlast⟩ : ∃ c, digits.getLast? = some c :=
    ⟨_, List.getLast?_eq_some_getLast hdigits.ne_nil⟩
  have hlastDigit : last.isDigit = true := hdigits.isDigit last (List.mem_of_getLast? hlast)
  have hnumberLast : (sign ++ digits).getLast? = some last := by simp [hlast]
  have hnumberHead : ∃ c, (sign ++ digits).head? = some c ∧ Text.isBlank c = false := by
    rcases hsign with rfl | rfl
    · have hhead := List.head?_eq_some_head hdigits.ne_nil
      exact ⟨_, hhead, Text.isBlank_of_isDigit (hdigits.isDigit _ (List.mem_of_head? hhead))⟩
    · exact ⟨'+', rfl, by decide⟩
  obtain ⟨first, hfirst, hfirstBlank⟩ := hnumberHead
  have hnumber : Text.trim (sign ++ digits) = sign ++ digits := by
    refine Text.trim_eq_self (fun c hc => ?_) fun c hc => ?_
    · rwa [← Option.some.inj (hfirst.symm.trans hc)]
    · rw [← Option.some.inj (hnumberLast.symm.trans hc)]
      exact Text.isBlank_of_isDigit hlastDigit
  rcases hunit.eq_or with ⟨rfl, rfl⟩ | ⟨c, hc, hunit, hblank⟩
  · -- The blanks after the number are blanks around the text.
    refine ⟨sign ++ digits, ?_, hnumber⟩
    have hassoc : before ++ (sign ++ digits ++ gap ++ "".toList) ++ after =
        before ++ (sign ++ digits) ++ (gap ++ after) := by simp
    rw [hassoc, Text.trim_append _ hbefore (hgap.append hafter), hnumber]
    refine splitUnit_of_forall fun c hc => unit?_of_isDigit ?_
    rwa [← Option.some.inj (hnumberLast.symm.trans hc)]
  · refine ⟨sign ++ digits ++ gap, ?_, ?_⟩
    · have hwhole : Text.trim (sign ++ digits ++ gap ++ [c]) = sign ++ digits ++ gap ++ [c] := by
        refine Text.trim_eq_self (fun c' hc' => ?_) fun c' hc' => ?_
        · rw [List.append_assoc, List.head?_append, hfirst] at hc'
          rwa [← Option.some.inj hc']
        · rw [List.getLast?_concat] at hc'
          rwa [← Option.some.inj hc']
      rw [hc, Text.trim_append _ hbefore hafter, hwhole, splitUnit_append hunit]
    · rw [← List.nil_append (sign ++ digits), Text.trim_append _ Text.blank_nil hgap,
        List.nil_append, hnumber]

/-- **The texts of durations.** -/
theorem parse?_eq_some_iff {text : String} {d : Seconds} : parse? text = some d ↔
    ∃ n m, Spells text.toList n m ∧ n < UInt64.size ∧ n * m < UInt64.size ∧ d.toNat = n * m := by
  constructor
  · intro h
    obtain ⟨before, after, hbefore, hafter, htext⟩ := Text.exists_trim_eq text.toList
    obtain ⟨body, unit, m, hsplit, hunit, hbody⟩ := exists_splitUnit (Text.trim text.toList)
    obtain ⟨n, hnumber, hlt, hd⟩ := (parse?_eq_some_iff_split hsplit).mp h
    obtain ⟨before', gap, hbefore', hgap, hbody'⟩ := Text.exists_trim_eq body
    obtain ⟨hn, sign, digits, hsigned, hsign, hdigits⟩ := number?_eq_some_iff.mp hnumber
    have hchars : text.toList =
        (before ++ before') ++ (sign ++ digits ++ gap ++ unit.toList) ++ after := by
      rw [htext, hbody, hbody', hsigned]
      simp only [List.append_assoc]
    exact ⟨n, m, hchars ▸ .intro (hbefore.append hbefore') hsign hdigits hgap hunit hafter, hn, hlt,
      hd⟩
  · rintro ⟨n, m, hspells, hn, hlt, hd⟩
    generalize hchars : text.toList = chars at hspells
    obtain ⟨hbefore, hsign, hdigits, hgap, hunit, hafter⟩ := hspells
    obtain ⟨body, hsplit, hbody⟩ := splitUnit_of_spells hbefore hsign hdigits hgap hunit hafter
    rw [← hchars] at hsplit
    rw [parse?_eq_some_iff_split hsplit, hbody]
    exact ⟨n, number?_eq_some_iff.mpr ⟨hn, _, _, rfl, hsign, hdigits⟩, hlt, hd⟩

private theorem numeral_toDigits (n : Nat) : Numeral (Nat.toDigits 10 n) n where
  ne_nil := Nat.toDigits_ne_nil
  isDigit _ hc := Nat.isDigit_of_mem_toDigits (by decide) (by decide) hc
  value := Nat.ofDigitChars_ten_toDigits

/-- Decimal digits and a unit are the text of a duration. -/
theorem spells_toString (n : Nat) {unit : String} {m : Nat} (hunit : IsUnit unit m) :
    Spells (toString n ++ unit).toList n m := by
  have hchars : (toString n ++ unit).toList =
      [] ++ ([] ++ Nat.toDigits 10 n ++ [] ++ unit.toList) ++ [] := by
    simp
  exact hchars ▸ .intro Text.blank_nil (.inl rfl) (numeral_toDigits n) Text.blank_nil hunit
    Text.blank_nil

private theorem IsUnit.pos {unit : String} {m : Nat} (h : IsUnit unit m) : 0 < m := by
  cases h <;> decide

/-- **The grammar of durations.** A text is a duration of `d` seconds exactly when it spells a
number of units, both the number and the product have at most 64 bits, and `d` is the product; every
other text is refused. The decimal digits of a number followed by a unit are read as the product of
the two whenever that has at most 64 bits. -/
theorem duration_grammar :
    (∀ (text : String) (d : Seconds), parse? text = some d ↔
      ∃ n m, Spells text.toList n m ∧ n < UInt64.size ∧ n * m < UInt64.size ∧ d.toNat = n * m) ∧
    (∀ text : String, parse? text = none ↔
      ¬ ∃ n m, Spells text.toList n m ∧ n < UInt64.size ∧ n * m < UInt64.size) ∧
    ∀ (n : Nat) (unit : String) (m : Nat), IsUnit unit m → n * m < UInt64.size →
      ∃ d, parse? (toString n ++ unit) = some d ∧ d.toNat = n * m := by
  refine ⟨fun _ _ => parse?_eq_some_iff, fun text => ?_, fun n unit m hunit hlt => ?_⟩
  · rw [Option.eq_none_iff_forall_ne_some]
    constructor
    · rintro h ⟨n, m, hspells, hn, hlt⟩
      exact h (UInt64.ofNat (n * m)) (parse?_eq_some_iff.mpr
        ⟨n, m, hspells, hn, hlt, UInt64.toNat_ofNat_of_lt' hlt⟩)
    · intro h d hd
      obtain ⟨n, m, hspells, hn, hlt, -⟩ := parse?_eq_some_iff.mp hd
      exact h ⟨n, m, hspells, hn, hlt⟩
  · have hn : n < UInt64.size := Nat.lt_of_le_of_lt (Nat.le_mul_of_pos_right n hunit.pos) hlt
    exact ⟨UInt64.ofNat (n * m), parse?_eq_some_iff.mpr
      ⟨n, m, spells_toString n hunit, hn, hlt, UInt64.toNat_ofNat_of_lt' hlt⟩,
      UInt64.toNat_ofNat_of_lt' hlt⟩

/-- Ninety minutes with everything that the grammar allows, and the longest duration in hours, which
one more hour would exceed. -/
theorem duration_grammar_longest :
    Spells " +0090\tm\n".toList 90 60 ∧ parse? " +0090\tm\n" = some 5400 ∧
      IsUnit "h" 3600 ∧ 5124095576030431 * 3600 < UInt64.size ∧
      (∃ d, parse? "5124095576030431h" = some d ∧ d.toNat = 5124095576030431 * 3600) ∧
      parse? "5124095576030432h" = none := by
  have hspells : Spells " +0090\tm\n".toList 90 60 :=
    @Spells.intro [' '] ['+'] ['0', '0', '9', '0'] ['\t'] ['\n'] "m" 90 60 (by decide) (.inr rfl)
      ⟨by decide, List.all_eq_true.mp (by decide), by decide⟩ (by decide) .minute (by decide)
  refine ⟨hspells, ?_, .hour, by decide, ?_, by decide +kernel⟩
  · exact (duration_grammar.1 _ _).mpr ⟨90, 60, hspells, by decide, by decide, by decide⟩
  · exact duration_grammar.2.2 5124095576030431 "h" 3600 .hour (by decide)

end Seconds

end Converge

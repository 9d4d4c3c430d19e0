import Converge.Json.Parser
import Converge.Json.Printer
import Converge.Proofs.Reading
import Mathlib

/-!
# Reading printed texts and numbers

Texts come back as they were printed, whatever characters they hold, and so do integers of 64 bits.
The digits of a floating-point number are the shortest that denote it, but the reader rounds twice,
so that it can take them for a neighbour of the number.

## Main definitions

* `Json.Numeral`: the text of a number.
* `Json.Follows`: what can follow a value inside an array or object.
* `Json.numeral?`: the number that digits denote.

## Main results

* `Json.text_quoted`: a text is read back.
* `Json.Numeral.run?`: a number is read up to its last digit.
* `Json.numeral_compact`: a floating-point number is printed as a number.
* `Json.run?_int`: an integer of 64 bits is read back.
-/

namespace Converge.Json

open Reader

variable {c : Char} {cs rest : List Char}

/-! ### Texts -/

private theorem hexValue?_hexDigit : ∀ d < 16, Text.hexValue? (hexDigit d) = some d := by decide

private theorem escape_escaped (h : escaped c ≠ [c]) :
    ∃ e, escaped c = '\\' :: e ∧ ∀ rest, escape (e ++ rest) = some (c, rest) := by
  unfold escaped at h ⊢
  split_ifs at h ⊢ with hq hb hn hr ht hbs hff hc
  · exact ⟨_, rfl, fun rest => by rw [hq]; rfl⟩
  · exact ⟨_, rfl, fun rest => by rw [hb]; rfl⟩
  · exact ⟨_, rfl, fun rest => by rw [hn]; rfl⟩
  · exact ⟨_, rfl, fun rest => by rw [hr]; rfl⟩
  · exact ⟨_, rfl, fun rest => by rw [ht]; rfl⟩
  · exact ⟨_, rfl, fun rest => by rw [hbs]; rfl⟩
  · exact ⟨_, rfl, fun rest => by rw [hff]; rfl⟩
  · have hcode : c.toNat < 32 := hc
    have hzero : Text.hexValue? '0' = some 0 := by decide
    have hhigh := hexValue?_hexDigit (c.toNat / 16) (by omega)
    have hlow := hexValue?_hexDigit (c.toNat % 16) (by omega)
    have hvalue : c.toNat / 16 * 16 + c.toNat % 16 = c.toNat := Nat.div_add_mod' _ _
    have hlead : ¬ 0xD800 ≤ c.toNat := by omega
    have htrail : ¬ 0xDC00 ≤ c.toNat := by omega
    refine ⟨_, rfl, fun rest => ?_⟩
    simp [escape, unicodeEscape, hexNumber, hzero, hhigh, hlow, hvalue, hlead, htrail]
  · exact absurd rfl h

private theorem plain_of_escaped (h : escaped c = [c]) : c ≠ '"' ∧ c ≠ '\\' ∧ ¬ c < ' ' := by
  unfold escaped at h
  split_ifs at h with hq hb hn hr ht hbs hff hc <;> simp_all

/-- **Texts are read back.** -/
theorem text_quoted (s : String) (rest : List Char) :
    text ((quoted s).toList ++ rest) = some (s, rest) := by
  have hchars : (quoted s).toList ++ rest = '"' :: (s.toList.flatMap escaped ++ '"' :: rest) := by
    simp [quoted]
  rw [hchars]
  simp only [text, bind_apply, char_self, Option.bind_some]
  rw [(Rounds.many : Rounds _ _ s.toList rest → _)]
  · simp
  induction s.toList with
  | nil => exact .stop (by simp)
  | cons c cs ih =>
    rw [List.flatMap_cons, List.append_assoc]
    by_cases hplain : escaped c = [c]
    · obtain ⟨hquote, hbackslash, hcontrol⟩ := plain_of_escaped hplain
      rw [hplain]
      exact .step (by simp [hquote, hbackslash, hcontrol]) (by simp) ih
    · obtain ⟨e, he, hread⟩ := escape_escaped hplain
      rw [he]
      exact .step (by simp [hread]) (by simp) ih

/-! ### Numbers -/

/-- Decimal digits. -/
def Digits (cs : List Char) : Prop := cs ≠ [] ∧ ∀ c ∈ cs, c.isDigit = true

/-- The text of a number: a sign, digits, a fraction and an exponent, of which only the digits have
to be there. -/
inductive Numeral : List Char → Prop
  | intro {sign whole fraction exponent : List Char} (hsign : sign = [] ∨ sign = ['-'])
      (hwhole : Digits whole) (hfraction : fraction = [] ∨ ∃ ds, Digits ds ∧ fraction = '.' :: ds)
      (hexponent : exponent = [] ∨
        ∃ ds, Digits ds ∧ (exponent = 'e' :: ds ∨ exponent = 'e' :: '-' :: ds)) :
      Numeral (sign ++ whole ++ fraction ++ exponent)

/-- A text that can follow a value inside an array or object. -/
def Follows (rest : List Char) : Prop := ∀ c ∈ rest.head?, c = ',' ∨ c = ']' ∨ c = '\x7d'

theorem follows_nil : Follows [] := nofun

theorem follows_cons (h : c = ',' ∨ c = ']' ∨ c = '\x7d') : Follows (c :: cs) := by
  rintro _ ⟨⟩
  exact h

theorem Follows.isDigit (h : Follows rest) : ∀ c ∈ rest.head?, c.isDigit = false := by
  intro c hc
  rcases h c hc with rfl | rfl | rfl <;> decide

theorem Follows.ne (h : Follows rest) (hc : ¬ (c = ',' ∨ c = ']' ∨ c = '\x7d')) :
    rest.head? ≠ some c := fun hhead => hc (h c hhead)

theorem Digits.head_ne (h : Digits cs) (hc : c.isDigit = false) (rest : List Char) :
    (cs ++ rest).head? ≠ some c := by
  obtain ⟨d, ds, rfl⟩ := List.exists_cons_of_ne_nil h.1
  rintro ⟨⟩
  rw [h.2 c List.mem_cons_self] at hc
  exact nomatch hc

theorem Digits.takeWhile1 (h : Digits cs) (hrest : ∀ c ∈ rest.head?, c.isDigit = false) :
    takeWhile1 Char.isDigit (cs ++ rest) = some (cs, rest) :=
  takeWhile1_append h.1 h.2 hrest

private theorem exponentPart_of_digits {ds : List Char} (hds : Digits ds)
    (hcs : cs = ds ∨ cs = '-' :: ds) :
    ∃ e, ∀ rest, Follows rest → exponentPart (cs ++ rest) = some (e, rest) := by
  rcases hcs with rfl | rfl
  · refine ⟨Text.natOfDigits cs, fun rest hrest => ?_⟩
    simp [exponentPart, skip?_of_head (hds.head_ne (c := '-') (by decide) rest),
      skip?_of_head (hds.head_ne (c := '+') (by decide) rest), hds.takeWhile1 hrest.isDigit]
  · refine ⟨-Text.natOfDigits ds, fun rest hrest => ?_⟩
    simp [exponentPart, hds.takeWhile1 hrest.isDigit]

/-- The number that digits denote, with a sign, a point and more digits, and an exponent, as far as
they are there. -/
def numeral? (negative : Bool) (whole : List Char) (fraction : Option (List Char))
    (exponent : Option Int) : Option Json :=
  let (m, dropped) := accumulate 0 whole
  let (m, ignored) := accumulate m (fraction.getD [])
  let e : Int := dropped - ((fraction.getD []).length - ignored : Nat)
  if whole.head? = some '0' ∧ whole.length ≠ 1 then none
  else if fraction = none ∧ exponent = none ∧ dropped = 0 ∧
      (negative = false ∨ (0 < m ∧ m ≤ negativeLimit)) then
    some (int (if negative then -m else m))
  else (scaled? m (e + exponent.getD 0)).map fun x => float (if negative then x.neg else x)

variable {s s₀ s₁ s₂ s₃ whole : List Char} {negative : Bool} {fraction : Option (List Char)}
  {exponent : Option Int}

/-- A number is read part by part. -/
theorem number_eq (hsign : skip? '-' s = some (negative, s₀))
    (hwhole : takeWhile1 Char.isDigit s₀ = some (whole, s₁))
    (hfraction : (fraction = none ∧ s₁.head? ≠ some '.' ∧ s₁ = s₂) ∨
      ∃ ds s', fraction = some ds ∧ s₁ = '.' :: s' ∧
        takeWhile1 Char.isDigit s' = some (ds, s₂))
    (hexponent : (exponent = none ∧ s₂.head? ≠ some 'e' ∧ s₂.head? ≠ some 'E' ∧ s₂ = s₃) ∨
      ∃ e s', exponent = some e ∧ s₂ = 'e' :: s' ∧ exponentPart s' = some (e, s₃)) :
    number s = (numeral? negative whole fraction exponent).map (·, s₃) := by
  unfold number numeral?
  -- The rest of the reader stands in every branch, so it is not copied before they are decided.
  simp -zeta -zetaHave only [bind_apply, hsign, hwhole, Option.bind_some, if_apply]
  by_cases hzero : whole.head? = some '0' ∧ whole.length ≠ 1
  · simp -zeta -zetaHave only [Bool.and_eq_true, decide_eq_true_eq, hzero, ne_eq,
      not_false_eq_true, and_self, if_true, fail_apply, Option.bind_none,
      Option.map_none]
  simp -zeta -zetaHave only [Bool.and_eq_true, decide_eq_true_eq, hzero, if_false]
  rcases hfraction with ⟨rfl, hpoint, rfl⟩ | ⟨ds, s', rfl, rfl, hds⟩
  · simp -zeta -zetaHave only [skip?_of_head hpoint, Option.bind_some, Bool.false_eq_true,
      if_false, pure_apply]
    rcases hexponent with ⟨rfl, he, hE, rfl⟩ | ⟨e, s', rfl, rfl, hexp⟩
    · simp [he, hE]
      generalize scaled? _ _ = x
      split_ifs <;> cases x <;> rfl
    · simp [hexp]
      generalize scaled? _ _ = x
      cases x <;> rfl
  · simp -zeta -zetaHave only [skip?_self, Option.bind_some, if_true, hds]
    rcases hexponent with ⟨rfl, he, hE, rfl⟩ | ⟨e, s', rfl, rfl, hexp⟩
    · simp [he, hE]
      generalize scaled? _ _ = x
      cases x <;> rfl
    · simp [hexp]
      generalize scaled? _ _ = x
      cases x <;> rfl

/-- The text of a number is read up to its last digit. -/
theorem Numeral.read (h : Numeral cs) :
    ∃ v : Option Json, ∀ rest, Follows rest → number (cs ++ rest) = v.map (·, rest) := by
  obtain ⟨hsign, hwhole, hfraction, hexponent⟩ := h
  rename_i sign whole fraction exponent
  have hsign' (s : List Char) : skip? '-' (sign ++ (whole ++ s)) =
      some (decide (sign = ['-']), whole ++ s) := by
    rcases hsign with rfl | rfl
    · exact skip?_of_head (hwhole.head_ne (by decide) s)
    · simp
  -- What follows the digits of the number, or of its fraction, is neither a digit nor a point.
  have hend (rest : List Char) (hrest : Follows rest) :
      ∀ c ∈ (exponent ++ rest).head?, c.isDigit = false ∧ c ≠ '.' := by
    rcases hexponent with rfl | ⟨ds, -, rfl | rfl⟩
    · exact fun c hc => ⟨hrest.isDigit c hc, fun h => hrest.ne (by decide) (h ▸ hc)⟩
    · rintro _ ⟨⟩
      decide
    · rintro _ ⟨⟩
      decide
  obtain ⟨e, he⟩ : ∃ e : Option Int, ∀ rest, Follows rest →
      (e = none ∧ (exponent ++ rest).head? ≠ some 'e' ∧ (exponent ++ rest).head? ≠ some 'E' ∧
        exponent ++ rest = rest) ∨
      ∃ v s, e = some v ∧ exponent ++ rest = 'e' :: s ∧ exponentPart s = some (v, rest) := by
    rcases hexponent with rfl | ⟨ds, hds, hexponent⟩
    · exact ⟨none, fun rest hrest => .inl ⟨rfl, hrest.ne (by decide), hrest.ne (by decide), rfl⟩⟩
    · obtain ⟨cs, rfl, hcs⟩ : ∃ cs, exponent = 'e' :: cs ∧ (cs = ds ∨ cs = '-' :: ds) := by
        rcases hexponent with rfl | rfl
        · exact ⟨_, rfl, .inl rfl⟩
        · exact ⟨_, rfl, .inr rfl⟩
      obtain ⟨v, hv⟩ := exponentPart_of_digits hds hcs
      exact ⟨some v, fun rest hrest => .inr ⟨v, cs ++ rest, rfl, rfl, hv rest hrest⟩⟩
  obtain ⟨f, hf⟩ : ∃ f : Option (List Char), ∀ s : List Char,
      (∀ c ∈ s.head?, c.isDigit = false ∧ c ≠ '.') →
      takeWhile1 Char.isDigit (whole ++ (fraction ++ s)) = some (whole, fraction ++ s) ∧
      ((f = none ∧ (fraction ++ s).head? ≠ some '.' ∧ fraction ++ s = s) ∨
        ∃ ds s', f = some ds ∧ fraction ++ s = '.' :: s' ∧
          takeWhile1 Char.isDigit s' = some (ds, s)) := by
    rcases hfraction with rfl | ⟨ds, hds, rfl⟩
    · exact ⟨none, fun s hs => ⟨hwhole.takeWhile1 fun c hc => (hs c hc).1,
        .inl ⟨rfl, fun h => (hs '.' h).2 rfl, rfl⟩⟩⟩
    · exact ⟨some ds, fun s hs => ⟨hwhole.takeWhile1 (by rintro _ ⟨⟩; decide),
        .inr ⟨ds, ds ++ s, rfl, rfl, hds.takeWhile1 fun c hc => (hs c hc).1⟩⟩⟩
  refine ⟨numeral? (decide (sign = ['-'])) whole f e, fun rest hrest => ?_⟩
  obtain ⟨hdigits, hpoint⟩ := hf (exponent ++ rest) (hend rest hrest)
  simp only [List.append_assoc]
  exact number_eq (hsign' _) hdigits hpoint (he rest hrest)

/-- What is read of a number does not depend on what follows it. -/
theorem Numeral.run? {text : String} (h : Numeral text.toList) (hrest : Follows rest) :
    number (text.toList ++ rest) = (run? number text).map (·, rest) := by
  obtain ⟨v, hv⟩ := h.read
  have halone := hv [] follows_nil
  rw [List.append_nil] at halone
  rw [hv rest hrest, Reader.run?, halone]
  cases v <;> rfl

/-- A number begins with a digit or a minus sign. -/
theorem Numeral.head (h : Numeral cs) : ∃ c cs', cs = c :: cs' ∧ (c = '-' ∨ c.isDigit = true) := by
  obtain ⟨hsign, hwhole, -, -⟩ := h
  rename_i sign whole fraction exponent
  obtain ⟨d, ds, rfl⟩ := List.exists_cons_of_ne_nil hwhole.1
  rcases hsign with rfl | rfl
  · exact ⟨d, _, rfl, .inr (hwhole.2 d List.mem_cons_self)⟩
  · exact ⟨'-', _, rfl, .inl rfl⟩

/-! ### Printed numbers -/

theorem digits_toString (n : Nat) : Digits (toString n).toList := by
  rw [Nat.toString_eq_repr, Nat.toList_repr]
  exact ⟨Nat.toDigits_ne_nil, fun _ hc =>
    Nat.isDigit_of_mem_toDigits (by decide) (by decide) hc⟩

private theorem digits_padded (width n : Nat) : Digits (Text.padded width n).toList := by
  have hchars : (Text.padded width n).toList =
      List.replicate (width - (toString n).length) '0' ++ (toString n).toList := by
    simp [Text.padded]
  rw [hchars]
  refine ⟨by simp, fun c hc => ?_⟩
  rcases List.mem_append.mp hc with hc | hc
  · obtain rfl := List.eq_of_mem_replicate hc
    decide
  · exact (digits_toString n).2 c hc

/-- An integer is printed as a number. -/
theorem numeral_int (n : Int) : Numeral (toString n).toList := by
  have hsigned {sign : List Char} (hsign : sign = [] ∨ sign = ['-']) (m : Nat) :
      Numeral (sign ++ (toString m).toList) := by
    simpa using Numeral.intro hsign (digits_toString m) (.inl rfl) (.inl rfl)
  rw [Int.toString_eq_repr, Int.repr_eq_if]
  split
  · exact hsigned (.inl rfl) n.toNat
  · rw [String.toList_append]
    exact hsigned (.inr rfl) (-n).toNat

private theorem exponent_int (n : Int) : ∃ ds, Digits ds ∧
    ('e' :: (toString n).toList = 'e' :: ds ∨ 'e' :: (toString n).toList = 'e' :: '-' :: ds) := by
  rw [Int.toString_eq_repr, Int.repr_eq_if]
  split
  · exact ⟨_, digits_toString n.toNat, .inl rfl⟩
  · exact ⟨_, digits_toString (-n).toNat, .inr (by rw [String.toList_append]; rfl)⟩

/-- Digits around a point are a number. -/
theorem numeral_positionalDigits {sign : List Char} (hsign : sign = [] ∨ sign = ['-']) (d : Nat)
    (k : Int) : Numeral (sign ++ (Binary64.positionalDigits d k).toList) := by
  rw [Binary64.positionalDigits]
  split
  · have hzero : Digits ['0'] := ⟨List.cons_ne_nil _ _, by simp⟩
    simpa using Numeral.intro hsign (digits_toString (d * Nat.pow 10 k.toNat))
      (.inr ⟨_, hzero, rfl⟩) (.inl rfl)
  · simpa using Numeral.intro hsign (digits_toString (d / Nat.pow 10 (-k).toNat))
      (.inr ⟨_, digits_padded _ (d % Nat.pow 10 (-k).toNat), rfl⟩) (.inl rfl)

/-- A floating-point number is printed as a number. -/
theorem numeral_compact (x : Binary64) : Numeral x.compact.toList := by
  have hsign : (if x.isNegative then "-" else "").toList = [] ∨
      (if x.isNegative then "-" else "").toList = ['-'] := by
    cases x.isNegative
    · exact .inl rfl
    · exact .inr rfl
  rw [Binary64.compact]
  dsimp only
  generalize (if x.isNegative then "-" else "") = sign at hsign ⊢
  have hdigits := digits_toString x.decimal.1
  have hfirst : Digits ((toString x.decimal.1).toList.take 1) := by
    refine ⟨?_, fun c hc => hdigits.2 c (List.mem_of_mem_take hc)⟩
    simp
  split_ifs with hzero hshort hone
  · have hdigit : Digits ['0'] := ⟨List.cons_ne_nil _ _, by simp⟩
    simpa using Numeral.intro hsign hdigit (.inr ⟨_, hdigit, rfl⟩) (.inl rfl)
  · rw [String.toList_append]
    exact numeral_positionalDigits hsign _ _
  · simpa using Numeral.intro hsign hfirst (.inl rfl) (.inr (exponent_int _))
  · have hmore : Digits ((toString x.decimal.1).toList.drop 1) :=
      ⟨by simpa using hone, fun c hc => hdigits.2 c (List.mem_of_mem_drop hc)⟩
    simpa using Numeral.intro hsign hfirst (.inr ⟨_, hmore, rfl⟩) (.inr (exponent_int _))

/-! ### Printed integers -/

private theorem le_ofDigitChars (cs : List Char) (m : Nat) : m ≤ Nat.ofDigitChars 10 cs m := by
  rw [Nat.ofDigitChars_eq_ofDigitChars_zero]
  exact Nat.le_add_right_of_le (Nat.le_mul_of_pos_left m (Nat.pow_pos (by decide)))

private theorem accumulate_eq {m : Nat} {cs : List Char}
    (h : Nat.ofDigitChars 10 cs m < UInt64.size) :
    accumulate m cs = (Nat.ofDigitChars 10 cs m, 0) := by
  induction cs generalizing m with
  | nil => rfl
  | cons c cs ih =>
    rw [Nat.ofDigitChars_cons, Nat.mul_comm] at h ⊢
    have hfits : m * 10 + Text.digitValue c < UInt64.size :=
      Nat.lt_of_le_of_lt (le_ofDigitChars cs _) h
    rw [accumulate, if_pos hfits]
    exact ih h

private theorem head?_toDigits {n : Nat} (h : (Nat.toDigits 10 n).head? = some '0') : n = 0 := by
  induction n using Nat.strongRecOn with
  | ind n ih =>
    by_cases hn : n < 10
    · have hdigit : ∀ n < 10, Nat.digitChar n = '0' → n = 0 := by decide
      rw [Nat.toDigits_of_lt_base hn] at h
      exact hdigit n hn (Option.some.inj h)
    · rw [Nat.toDigits_of_base_le (by decide) (by omega),
        List.head?_append_of_ne_nil _ Nat.toDigits_ne_nil] at h
      have hzero := ih (n / 10) (by omega) h
      omega

/-- The digits of a number of 64 bits denote an integer. -/
theorem numeral?_toDigits {m : Nat} {negative : Bool} (hm : m < UInt64.size)
    (hnegative : negative = false ∨ (0 < m ∧ m ≤ negativeLimit)) :
    numeral? negative (Nat.toDigits 10 m) none none = some (int (if negative then -m else m)) := by
  have haccumulate : accumulate 0 (Nat.toDigits 10 m) = (m, 0) := by
    rw [accumulate_eq] <;> rw [Nat.ofDigitChars_ten_toDigits]
    exact hm
  have hlead : ¬ ((Nat.toDigits 10 m).head? = some '0' ∧ (Nat.toDigits 10 m).length ≠ 1) := by
    rintro ⟨hhead, hlength⟩
    rw [head?_toDigits hhead] at hlength
    exact hlength rfl
  simp [numeral?, haccumulate, hlead, accumulate, hnegative]

private theorem number_digits {ds s : List Char} (hds : Digits ds)
    (hsign : skip? '-' s = some (negative, ds)) :
    number s = (numeral? negative ds none none).map (·, []) := by
  have hwhole : takeWhile1 Char.isDigit ds = some (ds, []) := by
    have hend : ∀ c ∈ ([] : List Char).head?, c.isDigit = false := nofun
    simpa using hds.takeWhile1 hend
  exact number_eq hsign hwhole (.inl ⟨rfl, nofun, rfl⟩) (.inl ⟨rfl, nofun, nofun, rfl⟩)

/-- An integer of 64 bits is read from its text. -/
theorem run?_int {n : Int} (hlow : -2 ^ 63 ≤ n) (hhigh : n < 2 ^ 64) :
    run? number (toString n) = some (int n) := by
  have hdigits (m : Nat) : Digits (Nat.toDigits 10 m) := by
    simpa [Nat.toString_eq_repr, Nat.toList_repr] using digits_toString m
  rw [run?, Int.toString_eq_repr, Int.repr_eq_if]
  split_ifs with hsign
  · have hskip : skip? '-' (Nat.toDigits 10 n.toNat) = some (false, Nat.toDigits 10 n.toNat) :=
      skip?_of_head (by simpa using (hdigits n.toNat).head_ne (c := '-') (by decide) [])
    have hsize : n.toNat < UInt64.size := by
      rw [UInt64.size]
      omega
    rw [Nat.toList_repr, number_digits (hdigits _) hskip, numeral?_toDigits hsize (.inl rfl)]
    simp [Int.toNat_of_nonneg hsign]
  · have hsize : (-n).toNat < UInt64.size := by
      rw [UInt64.size]
      omega
    have hlimit : 0 < (-n).toNat ∧ (-n).toNat ≤ negativeLimit := by
      rw [negativeLimit]
      omega
    have hminus : "-".toList = ['-'] := rfl
    rw [String.toList_append, Nat.toList_repr, hminus, List.singleton_append,
      number_digits (hdigits _) (skip?_self _ _), numeral?_toDigits hsize (.inr hlimit)]
    simp
    omega

end Converge.Json

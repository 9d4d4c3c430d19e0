import Converge.Proofs.Reading
import Converge.Toml.Parser
import Converge.Toml.Printer
import Mathlib

/-!
# The spelling of texts

A configuration has four notations for texts: on one line or on several, with escapes or without
them. In each of them a text stands between marks, and `Spells` says which characters between the
marks stand for it. The writer picks a notation that suits the text and spells it there, and the
reader takes every spelling for the text that it stands for. So each text is read as it was written,
whatever characters it holds.

A mark ends a text on one line. A text between three marks may hold marks too, but never three in a
row, because the reader takes the first three that no other follows for the end.

## Main definitions

* `Toml.TextStyle.mark`, `Toml.TextStyle.escapes`, `Toml.TextStyle.isBlock`: the four notations.
* `Toml.Escapes`: what stands for a character after a backslash.
* `Toml.Spells`: what stands for a text between marks.

## Main results

* `Toml.closing?_inside`, `Toml.closing?_end`: where a text between three marks ends.
* `Toml.text_of_spells`: what is spelled is read.
* `Toml.spells_styleFor`: what is written is a spelling.
* `Toml.text_writtenText`: what is written is read.
-/

namespace Converge.Toml

open Reader

variable {c m : Char} {e body cs rest s : List Char} {multiline : Bool} {style : TextStyle}
  {run : Nat}

/-! ### Notations -/

namespace TextStyle

/-- The mark around a text. -/
def mark : TextStyle → Char
  | basic | basicBlock => '"'
  | literal | literalBlock => '\''

/-- Whether a backslash starts an escape. -/
def escapes : TextStyle → Bool
  | basic | basicBlock => true
  | literal | literalBlock => false

/-- Whether there are three marks on either side, and several lines between them. -/
def isBlock : TextStyle → Bool
  | basic | literal => false
  | basicBlock | literalBlock => true

theorem mark_ne (style : TextStyle) :
    style.mark ≠ '\n' ∧ style.mark ≠ '\r' ∧ style.mark ≠ '\\' := by
  cases style <;> decide

theorem mark_eq_of_escapes (h : style.escapes = true) : style.mark = '"' := by
  cases style <;> trivial

/-- What stands before the text `cs`. -/
def opening (style : TextStyle) (cs : List Char) : List Char :=
  if style.isBlock then style.mark :: style.mark :: style.mark :: blockStart cs else [style.mark]

/-- What stands after a text. -/
def closing (style : TextStyle) : List Char :=
  if style.isBlock then [style.mark, style.mark, style.mark] else [style.mark]

/-- How the writer spells the text `cs`. -/
def spelling (style : TextStyle) (cs : List Char) : List Char :=
  if style.escapes then escaped style.isBlock 0 cs else cs

end TextStyle

/-! ### Characters -/

/-- A character that needs no escape can be read as it is, unless it ends the line. -/
theorem isPrintable_of_not_needsEscape (h : needsEscape c = false) (hline : c ≠ '\n') :
    isPrintable c = true := by
  simp only [needsEscape, isPrintable, Bool.or_eq_false_iff, Bool.and_eq_false_iff,
    decide_eq_false_iff_not, bne_eq_false_iff_eq, beq_eq_false_iff_ne, Bool.or_eq_true,
    Bool.and_eq_true, beq_iff_eq, bne_iff_ne, decide_eq_true_eq] at h ⊢
  obtain ⟨(h | rfl) | rfl, hdelete⟩ := h
  · exact .inr ⟨Char.not_lt.mp h, hdelete⟩
  · exact .inl rfl
  · exact absurd rfl hline

theorem toNat_lt_of_needsEscape (h : needsEscape c = true) : c.toNat < 128 := by
  simp only [needsEscape, Bool.or_eq_true, Bool.and_eq_true, decide_eq_true_eq, beq_iff_eq] at h
  rcases h with ⟨⟨h, -⟩, -⟩ | rfl
  · have hspace : c.toNat < ' '.toNat := h
    exact Nat.lt_trans hspace (by decide)
  · decide

theorem ne_of_isPrintable (hc : isPrintable c = true) : c ≠ '\n' ∧ c ≠ '\r' := by
  constructor <;> rintro rfl <;> exact absurd hc (by decide)

@[simp] theorem newline_newline (s : List Char) : newline ('\n' :: s) = some ((), s) := rfl

@[simp] theorem atNewline_newline (s : List Char) :
    atNewline ('\n' :: s) = some (true, '\n' :: s) := by
  simp [atNewline]

theorem atNewline_of_head (h : ∀ c ∈ s.head?, c ≠ '\n' ∧ c ≠ '\r') :
    atNewline s = some (false, s) := by
  have hline : ['\n'].isPrefixOf s = false := isPrefixOf_of_head fun hhead => (h _ hhead).1 rfl
  have hreturn : ['\r', '\n'].isPrefixOf s = false :=
    isPrefixOf_of_head fun hhead => (h _ hhead).2 rfl
  simp [atNewline, hline, hreturn]

/-! ### Escapes -/

/-- The characters `e` after a backslash stand for `c`. They do not begin with a blank, with which a
backslash would join two lines. -/
structure Escapes (e : List Char) (c : Char) : Prop where
  starts : ∃ d, e.head? = some d ∧ (isSpace d || d == '\n' || d == '\r') = false
  read : ∀ rest, escape (e ++ rest) = some (c, rest)

theorem Escapes.letter {d : Char} (hd : (isSpace d || d == '\n' || d == '\r') = false)
    (h : ∀ rest, escape (d :: rest) = some (c, rest)) : Escapes [d] c :=
  ⟨⟨d, rfl, hd⟩, h⟩

theorem hexValue?_digit : ∀ d < 16, Text.hexValue? (Nat.digitChar d).toUpper = some d := by decide

/-- A character is known by its code point. -/
theorem escapes_hexDigits (h : c.toNat < 256) : Escapes ('u' :: hexDigits c.toNat) c where
  starts := ⟨'u', rfl, rfl⟩
  read rest := by
    have hzero : Text.hexValue? '0' = some 0 := by decide
    have hhigh := hexValue?_digit (c.toNat / 16) (by omega)
    have hlow := hexValue?_digit (c.toNat % 16) (by omega)
    have hcode : c.toNat / 16 * 16 + c.toNat % 16 = c.toNat := Nat.div_add_mod' _ _
    have hvalid : c.toNat.isValidChar := c.valid
    simp [escape, hexDigits, codePoint, hzero, hhigh, hlow, hcode, hvalid]
    rfl

/-- A character that is not written as it is follows a backslash. -/
theorem escapes_of_escape? (h : escape? multiline c = some e) :
    ∃ e', e = '\\' :: e' ∧ Escapes e' c := by
  unfold escape? at h
  split_ifs at h with hb ht hn hm hf hr hs hx <;> obtain rfl := Option.some.inj h
  · exact hb ▸ ⟨_, rfl, .letter rfl fun _ => rfl⟩
  · exact ht ▸ ⟨_, rfl, .letter rfl fun _ => rfl⟩
  · exact hn ▸ ⟨_, rfl, .letter rfl fun _ => rfl⟩
  · exact hf ▸ ⟨_, rfl, .letter rfl fun _ => rfl⟩
  · exact hr ▸ ⟨_, rfl, .letter rfl fun _ => rfl⟩
  · subst hs
    exact ⟨_, rfl, .letter rfl fun _ => rfl⟩
  · exact ⟨_, rfl, escapes_hexDigits (Nat.lt_trans (toNat_lt_of_needsEscape hx) (by decide))⟩

/-- A character that is written as it is can be read as it is, or is the end of a line. -/
theorem isPrintable_of_escape? (h : escape? multiline c = none) :
    c ≠ '\\' ∧ (isPrintable c = true ∨ multiline = true ∧ c = '\n') := by
  unfold escape? at h
  split_ifs at h with hb ht hn hm hf hr hs hx
  · exact ⟨by rw [hn]; decide, .inr ⟨hm, hn⟩⟩
  · exact ⟨hs, .inl (isPrintable_of_not_needsEscape (Bool.eq_false_iff.mpr hx) hn)⟩

/-! ### Marks in a row -/

/-- The number of marks at the beginning. -/
def leading (m : Char) (body : List Char) : Nat := (body.takeWhile (· == m)).length

@[simp] theorem leading_nil : leading m [] = 0 := rfl

theorem leading_cons_self (m : Char) (body : List Char) :
    leading m (m :: body) = leading m body + 1 := by
  simp [leading]

theorem leading_cons_of_ne (h : c ≠ m) (body : List Char) : leading m (c :: body) = 0 := by
  simp [leading, h]

theorem leading_eq_zero_iff : leading m s = 0 ↔ s.head? ≠ some m := by
  cases s with
  | nil => simp
  | cons c s => by_cases h : c = m <;> simp [leading, h]

theorem closing?_eq (m : Char) (s : List Char) : closing? m s =
    if leading m s = 3 then some (true, s.drop 3)
    else if leading m s < 6 then some (false, s) else none := rfl

/-- Three marks that no other follows end a text. -/
theorem closing?_end (hrest : leading m rest = 0) :
    closing? m (m :: m :: m :: rest) = some (true, rest) := by
  simp [closing?_eq, leading_cons_self, hrest]

/-- One or two marks before these belong to the text. -/
theorem closing?_inside (hbody : body ≠ []) (hleading : leading m body ≤ 2)
    (hrest : leading m rest = 0) : closing? m (body ++ m :: m :: m :: rest) =
      some (false, body ++ m :: m :: m :: rest) := by
  have hmarks : leading m (body ++ m :: m :: m :: rest) ≠ 3 ∧
      leading m (body ++ m :: m :: m :: rest) < 6 := by
    have hpos : 0 < body.length := List.length_pos_iff.mpr hbody
    have hthree : leading m (m :: m :: m :: rest) = 3 := by simp [leading_cons_self, hrest]
    rw [leading] at hleading hthree ⊢
    rw [List.takeWhile_append]
    split
    · -- The text is over, and its marks and the closing ones are more than three.
      rw [List.length_append, hthree]
      omega
    · omega
  rw [closing?_eq, if_neg hmarks.1, if_pos hmarks.2]

/-! ### Spellings -/

/-- The characters `body` between marks stand for the text `cs`. -/
inductive Spells (style : TextStyle) : List Char → List Char → Prop
  | nil : Spells style [] []
  /-- A character stands for itself. A mark does so between three marks only, where it is not the
  first of three. -/
  | plain {c : Char} {body cs : List Char} (hc : isPrintable c = true)
      (hbackslash : style.escapes = true → c ≠ '\\')
      (hmark : c = style.mark → style.isBlock = true ∧ leading style.mark body < 2)
      (h : Spells style body cs) : Spells style (c :: body) (c :: cs)
  | newline {body cs : List Char} (hblock : style.isBlock = true) (h : Spells style body cs) :
      Spells style ('\n' :: body) ('\n' :: cs)
  | escape {e : List Char} {c : Char} {body cs : List Char} (hescapes : style.escapes = true)
      (he : Escapes e c) (h : Spells style body cs) : Spells style ('\\' :: (e ++ body)) (c :: cs)

namespace Spells

/-- A spelling never begins with three marks. -/
theorem leading_le (h : Spells style body cs) : leading style.mark body ≤ 2 := by
  obtain ⟨hline, -, hbackslash⟩ := style.mark_ne
  cases h with
  | nil => exact Nat.zero_le 2
  | @plain c body cs _ _ hmark _ =>
    by_cases heq : c = style.mark
    · rw [heq, leading_cons_self]
      exact (hmark heq).2
    · rw [leading_cons_of_ne heq]
      exact Nat.zero_le 2
  | newline =>
    rw [leading_cons_of_ne hline.symm]
    exact Nat.zero_le 2
  | escape =>
    rw [leading_cons_of_ne hbackslash.symm]
    exact Nat.zero_le 2

/-- A text without line ends is spelled without one at the beginning. -/
theorem head_ne (h : Spells style body cs) (hline : '\n' ∉ cs) :
    ∀ c ∈ body.head?, c ≠ '\n' ∧ c ≠ '\r' := by
  cases h with
  | nil => simp
  | plain hc => simpa using ne_of_isPrintable hc
  | newline => simp at hline
  | escape => simp

/-- A text on one line is not taken for one between three marks. -/
theorem isPrefixOf_eq_false (h : Spells style body cs) (hblock : style.isBlock = false)
    (hrest : leading style.mark rest = 0) : [style.mark, style.mark, style.mark].isPrefixOf
      (style.mark :: (body ++ style.mark :: rest)) = false := by
  cases h with
  | nil =>
    have hempty : [style.mark].isPrefixOf rest = false :=
      isPrefixOf_of_head (leading_eq_zero_iff.mp hrest)
    simp [hempty]
  | @plain c _ _ _ _ hmark =>
    have hne : style.mark ≠ c := fun heq => by simp [(hmark heq.symm).1] at hblock
    simp [List.isPrefixOf_cons_cons, hne]
  | newline hblock' => simp [hblock'] at hblock
  | escape => simp [List.isPrefixOf_cons_cons, style.mark_ne.2.2]

end Spells

/-! ### Reading what is spelled -/

theorem basicText_of_spells (h : Spells .basic body cs) (rest : List Char) :
    basicText ('"' :: (body ++ '"' :: rest)) = some (String.ofList cs, rest) := by
  simp only [basicText, bind_apply, char_self, Option.bind_some]
  rw [(Rounds.many : Rounds _ _ cs rest → _)]
  · rfl
  induction h with
  | nil => exact .stop (by simp)
  | @plain c body cs hc hbackslash hmark _ ih =>
    have hquote : c ≠ '"' := fun heq => nomatch (hmark heq).1
    exact .step (by simp [hquote, hbackslash rfl, hc]) (by simp) ih
  | newline hblock => exact nomatch hblock
  | escape _ he _ ih => exact .step (by simp [he.read]) (by simp) ih

theorem literalText_of_spells (h : Spells .literal body cs) (rest : List Char) :
    literalText ('\'' :: (body ++ '\'' :: rest)) = some (String.ofList cs, rest) := by
  simp only [literalText, bind_apply, char_self, Option.bind_some]
  rw [(Rounds.many : Rounds _ _ cs rest → _)]
  · rfl
  induction h with
  | nil => exact .stop (by simp)
  | @plain c body cs hc _ hmark _ ih =>
    have hapostrophe : c ≠ '\'' := fun heq => nomatch (hmark heq).1
    exact .step (by simp [hapostrophe, hc]) (by simp) ih
  | newline hblock => exact nomatch hblock
  | escape hescapes => exact nomatch hescapes

/-- The characters of a text between three marks are read one by one, up to the closing marks. -/
theorem rounds_of_spells (h : Spells style body cs) (hrest : leading style.mark rest = 0) :
    Rounds (blockPiece? style.mark style.escapes)
      (body ++ style.mark :: style.mark :: style.mark :: rest) (cs.map fun c => [c]) rest := by
  induction h with
  | nil => exact .stop (by simp [blockPiece?, closing?_end hrest])
  | @plain c body cs hc hbackslash hmark h ih =>
    have hinside := closing?_inside (List.cons_ne_nil c body)
      (Spells.plain hc hbackslash hmark h).leading_le hrest
    have hline : atNewline (c :: (body ++ style.mark :: style.mark :: style.mark :: rest)) = _ :=
      atNewline_of_head (by simpa using ne_of_isPrintable hc)
    have hescape : ¬ (c = '\\' ∧ style.escapes = true) := fun h => hbackslash h.2 h.1
    rw [List.cons_append] at hinside ⊢
    exact .step (by simp [blockPiece?, hinside, hline, hescape, hc]) (by simp) ih
  | @newline body cs hblock h ih =>
    have hinside := closing?_inside (List.cons_ne_nil '\n' body)
      (Spells.newline hblock h).leading_le hrest
    rw [List.cons_append] at hinside ⊢
    exact .step (by simp [blockPiece?, hinside]) (by simp) ih
  | @escape e c body cs hescapes he h ih =>
    have hinside := closing?_inside (List.cons_ne_nil '\\' (e ++ body))
      (Spells.escape hescapes he h).leading_le hrest
    have hline : atNewline ('\\' :: (e ++
        (body ++ style.mark :: style.mark :: style.mark :: rest))) = _ :=
      atNewline_of_head (by simp)
    have hread := he.read (body ++ style.mark :: style.mark :: style.mark :: rest)
    obtain ⟨d, hd, hblank⟩ := he.starts
    obtain ⟨e', rfl⟩ := List.head?_eq_some_iff.mp hd
    rw [List.cons_append, List.append_assoc] at hinside ⊢
    rw [List.cons_append] at hinside hline hread ⊢
    exact .step (by simp [blockPiece?, hinside, hline, hescapes, hblank, hread])
      (by simp; omega) ih

/-- A line end just after the opening marks is not part of the text. -/
theorem textBlock_of_spells (h : Spells style body cs) (hrest : leading style.mark rest = 0) :
    textBlock style.mark style.escapes (style.mark :: style.mark :: style.mark ::
      (blockStart cs ++ (body ++ style.mark :: style.mark :: style.mark :: rest))) =
        some (String.ofList cs, rest) := by
  have hrounds := (rounds_of_spells h hrest).many
  have hflat : (cs.map fun c => [c]).flatten = cs := by
    rw [← List.flatMap_def, List.flatMap_singleton']
  by_cases hline : '\n' ∈ cs
  · simp [textBlock, word, blockStart, hline, hrounds, hflat]
  · have hstart : atNewline (body ++ style.mark :: style.mark :: style.mark :: rest) =
        some (false, body ++ style.mark :: style.mark :: style.mark :: rest) := by
      refine atNewline_of_head fun c hc => ?_
      rw [List.head?_append] at hc
      rcases Option.or_eq_some_iff.mp hc with hc | ⟨-, hc⟩
      · exact h.head_ne hline c hc
      · obtain rfl := Option.some.inj hc
        exact ⟨style.mark_ne.1, style.mark_ne.2.1⟩
    simp [textBlock, word, blockStart, hline, hstart, hrounds, hflat]

theorem text_apply (s : List Char) : text s =
    if ['"', '"', '"'].isPrefixOf s then textBlock '"' true s
    else if ['\'', '\'', '\''].isPrefixOf s then textBlock '\'' false s
    else if ['"'].isPrefixOf s then basicText s else literalText s := by
  simp only [text, bind_apply, ahead_apply, Option.bind_some, if_apply]

/-- **What is spelled is read.** -/
theorem text_of_spells (h : Spells style body cs) (hrest : leading style.mark rest = 0) :
    text (style.opening cs ++ body ++ style.closing ++ rest) = some (String.ofList cs, rest) := by
  simp only [TextStyle.opening, TextStyle.closing, List.append_assoc]
  rw [text_apply]
  cases style with
  | basic =>
    rw [if_neg, if_neg]
    · exact basicText_of_spells h rest
    · exact Bool.eq_false_iff.mp rfl
    · exact Bool.eq_false_iff.mp (h.isPrefixOf_eq_false rfl hrest)
  | literal =>
    rw [if_neg, if_neg, if_neg]
    · exact literalText_of_spells h rest
    · exact Bool.eq_false_iff.mp rfl
    · exact Bool.eq_false_iff.mp (h.isPrefixOf_eq_false rfl hrest)
    · exact Bool.eq_false_iff.mp rfl
  | basicBlock => exact textBlock_of_spells h hrest
  | literalBlock => exact textBlock_of_spells h hrest

/-! ### Spelling what is written -/

/-- Escapes keep quotation marks apart: with those before them there are never three in a row. -/
theorem add_leading_escaped_le (hrun : run ≤ 2) (cs : List Char) :
    run + leading '"' (escaped true run cs) ≤ 2 := by
  induction cs generalizing run with
  | nil => simpa [escaped] using hrun
  | cons c cs ih =>
    unfold escaped
    by_cases hquote : c = '"'
    · rw [if_pos hquote]
      by_cases htwo : 2 ≤ run
      · simpa [htwo, leading_cons_of_ne] using hrun
      · have hrest := @ih (run + 1) (by omega)
        simp only [if_true, if_neg htwo, leading_cons_self]
        omega
    · rw [if_neg hquote]
      cases hescape : escape? true c with
      | none => simpa [leading_cons_of_ne hquote] using hrun
      | some e =>
        obtain ⟨e', rfl, -⟩ := escapes_of_escape? hescape
        simpa [leading_cons_of_ne] using hrun

/-- Every text can be spelled with escapes. -/
theorem spells_escaped (hescapes : style.escapes = true) (hrun : run ≤ 2) (cs : List Char) :
    Spells style (escaped style.isBlock run cs) cs := by
  have hmark : style.mark = '"' := TextStyle.mark_eq_of_escapes hescapes
  induction cs generalizing run with
  | nil => exact .nil
  | cons c cs ih =>
    unfold escaped
    by_cases hquote : c = '"'
    · subst hquote
      rw [if_pos rfl]
      by_cases hmany : (if style.isBlock = true then 2 else 0) ≤ run
      · rw [if_pos hmany]
        exact .escape hescapes (.letter rfl fun _ => rfl) (ih (Nat.zero_le 2))
      · -- The mark is left as it is only between three marks, with less than two before it.
        have hblock : style.isBlock = true := by
          by_contra hblock
          simp [hblock] at hmany
        rw [if_neg hmany]
        rw [if_pos hblock] at hmany
        have hleading : run + 1 + leading '"' (escaped true (run + 1) cs) ≤ 2 :=
          add_leading_escaped_le (Nat.lt_of_not_le hmany) cs
        refine .plain rfl (fun _ => by decide) (fun _ => ⟨hblock, ?_⟩) (ih (by omega))
        rw [hmark, hblock]
        omega
    · rw [if_neg hquote]
      cases hescape : escape? style.isBlock c with
      | some e =>
        obtain ⟨e', rfl, he⟩ := escapes_of_escape? hescape
        exact .escape hescapes he (ih (Nat.zero_le 2))
      | none =>
        obtain ⟨hbackslash, hc | ⟨hblock, rfl⟩⟩ := isPrintable_of_escape? hescape
        · exact .plain hc (fun _ => hbackslash) (fun heq => absurd (hmark ▸ heq) hquote)
            (ih (Nat.zero_le 2))
        · exact .newline hblock (ih (Nat.zero_le 2))

theorem longestRun_mono (m : Char) {run run' : Nat} (h : run ≤ run') (cs : List Char) :
    longestRun m run cs ≤ longestRun m run' cs := by
  induction cs generalizing run run' with
  | nil => exact h
  | cons c cs ih =>
    unfold longestRun
    split
    · exact ih (Nat.succ_le_succ h)
    · omega

theorem longestRun_le_cons (m c : Char) (cs : List Char) :
    longestRun m 0 cs ≤ longestRun m 0 (c :: cs) := by
  rw [longestRun]
  split
  · exact longestRun_mono m (Nat.zero_le 1) cs
  · exact Nat.le_max_right _ _

/-- The marks at the beginning are a run. -/
theorem add_leading_le_longestRun (m : Char) (run : Nat) (cs : List Char) :
    run + leading m cs ≤ longestRun m run cs := by
  induction cs generalizing run with
  | nil => simp [longestRun]
  | cons c cs ih =>
    unfold longestRun
    by_cases h : c = m
    · have hrest := ih (run + 1)
      rw [if_pos h, h, leading_cons_self]
      omega
    · rw [if_neg h, leading_cons_of_ne h]
      exact Nat.le_max_left _ _

/-- A text that holds neither controls nor too many marks in a row is spelled without escapes. -/
theorem spells_self (hescapes : style.escapes = false) (hcontrols : ∀ c ∈ cs, needsEscape c = false)
    (hlines : style.isBlock = true ∨ '\n' ∉ cs)
    (hmarks : longestRun style.mark 0 cs ≤ if style.isBlock then 2 else 0) :
    Spells style cs cs := by
  induction cs with
  | nil => exact .nil
  | cons c cs ih =>
    obtain ⟨hc, hcs⟩ := List.forall_mem_cons.mp hcontrols
    have hrest : Spells style cs cs :=
      ih hcs (hlines.imp_right fun h hmem => h (List.mem_cons_of_mem c hmem))
        (Nat.le_trans (longestRun_le_cons style.mark c cs) hmarks)
    by_cases hline : c = '\n'
    · subst hline
      exact .newline (hlines.resolve_right fun h => h List.mem_cons_self) hrest
    · refine .plain (isPrintable_of_not_needsEscape hc hline) (fun h => ?_) (fun heq => ?_) hrest
      · simp [hescapes] at h
      · have hrun := add_leading_le_longestRun style.mark 0 (c :: cs)
        rw [heq, leading_cons_self] at hrun
        rw [heq] at hmarks
        cases hblock : style.isBlock with
        | true => exact ⟨rfl, by simp [hblock] at hmarks; omega⟩
        | false => simp [hblock] at hmarks; omega

/-- The writer leaves a text on one line as it is only if it holds no apostrophe. -/
theorem styleFor_eq_literal (h : styleFor cs = .literal) :
    (∀ c ∈ cs, needsEscape c = false) ∧ longestRun '\'' 0 cs = 0 ∧ '\n' ∉ cs := by
  simp only [styleFor] at h
  split_ifs at h with _ hliteral
  simpa [and_assoc] using hliteral

theorem styleFor_eq_literalBlock (h : styleFor cs = .literalBlock) :
    (∀ c ∈ cs, needsEscape c = false) ∧ longestRun '\'' 0 cs ≤ 2 := by
  simp only [styleFor] at h
  split_ifs at h with _ _ _ hliteral
  simpa using hliteral

/-- **What is written is a spelling.** -/
theorem spells_styleFor (cs : List Char) :
    Spells (styleFor cs) ((styleFor cs).spelling cs) cs := by
  cases hstyle : styleFor cs with
  | basic => exact spells_escaped rfl (Nat.zero_le 2) cs
  | basicBlock => exact spells_escaped rfl (Nat.zero_le 2) cs
  | literal =>
    obtain ⟨hcontrols, hmarks, hlines⟩ := styleFor_eq_literal hstyle
    exact spells_self rfl hcontrols (.inr hlines) (Nat.le_of_eq hmarks)
  | literalBlock =>
    obtain ⟨hcontrols, hmarks⟩ := styleFor_eq_literalBlock hstyle
    exact spells_self rfl hcontrols (.inl rfl) hmarks

theorem toList_writtenText (t : String) : (writtenText t).toList =
    (styleFor t.toList).opening t.toList ++ (styleFor t.toList).spelling t.toList ++
      (styleFor t.toList).closing := by
  rw [writtenText, String.toList_ofList]
  cases styleFor t.toList <;> rfl

/-- **What is written is read**, whatever follows that is no mark. -/
theorem text_writtenText (t : String) (hrest : ∀ c ∈ rest.head?, c ≠ '"' ∧ c ≠ '\'') :
    text ((writtenText t).toList ++ rest) = some (t, rest) := by
  have hmarks : leading (styleFor t.toList).mark rest = 0 := by
    refine leading_eq_zero_iff.mpr fun hhead => ?_
    obtain ⟨hquote, hapostrophe⟩ := hrest _ hhead
    cases hstyle : styleFor t.toList <;> simp_all [TextStyle.mark]
  rw [toList_writtenText, text_of_spells (spells_styleFor t.toList) hmarks, String.ofList_toList]

/-- A text of two lines with all marks and a control character. -/
example : writtenText "\"\"\"\"'\x07\n" = "\"\"\"\n\"\"\\\"\"'\\u0007\n\"\"\"" := by decide +kernel

end Converge.Toml

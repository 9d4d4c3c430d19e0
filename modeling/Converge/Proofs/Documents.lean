import Converge.Proofs.Spelling

/-!
# Documents that are written

A document of sections is written as one line for each header and each entry, and blank lines
between the sections. The reader takes it line by line for the statements of the sections, and the
statements make a table with a table for each section. So a document is read as it was written,
whatever its texts hold, if its names and keys need no quotes and none occurs twice in its place.

## Main definitions

* `Toml.Bare`: keys that need no quotes.
* `Toml.lines`: the statements of a section.
* `Toml.content`, `Toml.contents`: the tables of a section and of a document.
* `Toml.Plain`: documents that can be written.

## Main results

* `Toml.statement_header`, `Toml.statement_entry`: a line is read as its statement.
* `Toml.rounds_section`: a section is read as its statements.
* `Toml.foldlM_lines`: the statements of a section add its table.
* `Toml.parse?_writtenSections`: what is written is read.
-/

namespace Converge.Toml

open Reader

variable {c : Char} {s s' rest : List Char} {name key t : String} {statements : List Statement}
  {entries : List (String × String)} {sections : List (String × List (String × String))}
  {root inner : Entries}

/-! ### Between lines -/

/-- A line that is neither blank nor a comment begins here, or the text is over. -/
def LineStart (s : List Char) : Prop :=
  ∀ c ∈ s.head?, isSpace c = false ∧ c ≠ '\n' ∧ c ≠ '\r' ∧ c ≠ '#'

theorem space_apply (s : List Char) : space s = some ((), s.dropWhile isSpace) := rfl

@[simp] theorem blankLines_newline (s : List Char) : blankLines ('\n' :: s) = blankLines s := by
  rw [blankLines, bind_apply, bind_apply, many.eq_def _ ('\n' :: s)]
  simp [space_apply, isSpace, Option.map_eq_bind, Option.bind_assoc]

/-- Nothing is skipped at the beginning of a line. -/
theorem gap_of_lineStart (h : LineStart s) : gap s = some ((), s) := by
  have hspace : s.dropWhile isSpace = s := dropWhile_of_head fun c hc => (h c hc).1
  have hline : atNewline s = some (false, s) :=
    atNewline_of_head fun c hc => ⟨(h c hc).2.1, (h c hc).2.2.1⟩
  have hcomment : ['#'].isPrefixOf s = false :=
    isPrefixOf_of_head fun hhead => (h _ hhead).2.2.2 rfl
  have hblank : blankLines s = some ((), s) := by
    rw [blankLines, bind_apply,
      Rounds.many (.stop (by simp [space_apply, hspace, hline]) : Rounds _ _ [] s)]
    rfl
  simp only [gap, bind_apply, hblank, Option.bind_some]
  rw [Rounds.many (.stop (by simp [hcomment]) : Rounds _ _ [] s)]
  rfl

/-- A blank line before a statement does not count. -/
theorem nextStatement?_newline (s : List Char) :
    nextStatement? ('\n' :: s) = nextStatement? s := by
  simp only [nextStatement?, gap, bind_apply, blankLines_newline]

theorem nextStatement?_of_lineStart {statement : Statement} (hne : s ≠ [])
    (hstart : LineStart s) (h : Toml.statement s = some (statement, s')) :
    nextStatement? s = some (some statement, s') := by
  simp [nextStatement?, gap_of_lineStart hstart, hne, h]

/-! ### Lines -/

/-- A key that needs no quotes. -/
def Bare (key : String) : Prop := key ≠ "" ∧ ∀ c ∈ key.toList, isBareKey c = true

instance (key : String) : Decidable (Bare key) :=
  decidable_of_iff (key ≠ "" ∧ key.toList.all isBareKey = true)
    (and_congr_right fun _ => List.all_eq_true)

theorem isBareKey_ne (h : isBareKey c = true) : isSpace c = false ∧ c ≠ '\n' ∧ c ≠ '\r' ∧ c ≠ '#' ∧
    c ≠ '[' ∧ c ≠ '"' ∧ c ≠ '\'' := by
  refine ⟨Bool.eq_false_iff.mpr fun hspace => ?_, ?_, ?_, ?_, ?_, ?_, ?_⟩
  · simp only [isSpace, Bool.or_eq_true, beq_iff_eq] at hspace
    rcases hspace with rfl | rfl <;> exact absurd h (by decide)
  all_goals rintro rfl; exact absurd h (by decide)

/-- A line with a key begins with one of its characters. -/
theorem Bare.head? (h : Bare key) (s : List Char) :
    ∃ c, (key.toList ++ s).head? = some c ∧ isBareKey c = true := by
  obtain ⟨c, cs, hkey⟩ := List.exists_cons_of_ne_nil (mt String.toList_eq_nil_iff.mp h.1)
  exact ⟨c, by simp [hkey], h.2 c (by simp [hkey])⟩

theorem Bare.lineStart (h : Bare key) (s : List Char) : LineStart (key.toList ++ s) := by
  intro c hc
  obtain ⟨d, hd, hbare⟩ := h.head? s
  obtain rfl := Option.some.inj (hd.symm.trans hc)
  obtain ⟨hspace, hline, hreturn, hcomment, -⟩ := isBareKey_ne hbare
  exact ⟨hspace, hline, hreturn, hcomment⟩

theorem Bare.head?_ne (h : Bare key) (s : List Char) : (key.toList ++ s).head? ≠ some '[' := by
  obtain ⟨c, hc, hbare⟩ := h.head? s
  rw [hc]
  exact fun heq => (isBareKey_ne hbare).2.2.2.2.1 (Option.some.inj heq)

theorem simpleKey_of_bare (h : Bare key) (hrest : ∀ c ∈ rest.head?, isBareKey c = false) :
    simpleKey (key.toList ++ rest) = some (key, rest) := by
  have hread : takeWhile1 isBareKey (key.toList ++ rest) = some (key.toList, rest) :=
    takeWhile1_append (mt String.toList_eq_nil_iff.mp h.1) h.2 hrest
  obtain ⟨c, hc, hbare⟩ := h.head? rest
  obtain ⟨-, -, -, -, -, hquote, hapostrophe⟩ := isBareKey_ne hbare
  simp [simpleKey, hc, hquote, hapostrophe, hread]

/-- A key without quotes is read up to the next token. -/
theorem dottedKey_of_bare (h : Bare key) (hrest : ∀ c ∈ rest.head?, isBareKey c = false)
    (hdot : (rest.dropWhile isSpace).head? ≠ some '.') :
    dottedKey (key.toList ++ rest) = some ([key], rest.dropWhile isSpace) := by
  have hspace : (key.toList ++ rest).dropWhile isSpace = key.toList ++ rest :=
    dropWhile_of_head fun c hc => (h.lineStart rest c hc).1
  rw [dottedKey]
  simp only [bind_apply, space_apply, Option.bind_some, hspace, simpleKey_of_bare h hrest]
  rw [Rounds.many
    (.stop (by simp [skip?_of_head hdot]) : Rounds _ _ [] (rest.dropWhile isSpace))]
  rfl

theorem head?_writtenText (t : String) (rest : List Char) :
    ((writtenText t).toList ++ rest).head? = some (styleFor t.toList).mark := by
  rw [toList_writtenText, TextStyle.opening]
  split <;> rfl

theorem value_writtenText (depth : Nat) (t : String)
    (hrest : ∀ c ∈ rest.head?, c ≠ '"' ∧ c ≠ '\'') :
    value depth ((writtenText t).toList ++ rest) = some (.string t, rest) := by
  have hread := text_writtenText t hrest
  have hmark := head?_writtenText t rest
  rw [value.eq_def]
  simp only [bind_apply, peek?_apply, Option.bind_some, hmark]
  cases styleFor t.toList <;> simp [TextStyle.mark, hread]

@[simp] theorem lineEnd_newline (s : List Char) : lineEnd ('\n' :: s) = some ((), s) := rfl

/-- The line of a header. -/
def headerLine (name : String) : List Char := '[' :: (name.toList ++ [']', '\n'])

/-- The line of an entry. -/
def entryLine (e : String × String) : List Char :=
  e.1.toList ++ [' ', '=', ' '] ++ (writtenText e.2).toList ++ ['\n']

/-- A header is read. -/
theorem statement_header (h : Bare name) (rest : List Char) :
    statement (headerLine name ++ rest) = some (.header [name], rest) := by
  have hchars : headerLine name ++ rest = '[' :: (name.toList ++ ']' :: '\n' :: rest) := by
    simp [headerLine]
  have hkey : dottedKey (name.toList ++ ']' :: '\n' :: rest) = some ([name], ']' :: '\n' :: rest) :=
    dottedKey_of_bare h (by simp; decide) (by simp [isSpace])
  have hsingle : ['['].isPrefixOf (name.toList ++ ']' :: '\n' :: rest) = false :=
    isPrefixOf_of_head (h.head?_ne _)
  rw [hchars]
  simp [statement, skipWord?, hsingle, hkey]

/-- A line that begins with no bracket is an entry. -/
theorem statement_of_head (h : s.head? ≠ some '[') : statement s = (do
    let path ← dottedKey
    char '='
    space
    let v ← value nestingLimit
    lineEnd
    return Statement.assign path v : Reader Statement) s := by
  have hdouble : ['[', '['].isPrefixOf s = false := isPrefixOf_of_head h
  simp [statement, skipWord?, hdouble, skip?_of_head h, Option.map_eq_bind]

/-- An entry is read. -/
theorem statement_entry (h : Bare key) (t : String) (rest : List Char) :
    statement (entryLine (key, t) ++ rest) = some (.assign [key] (.string t), rest) := by
  let written := (writtenText t).toList ++ '\n' :: rest
  have hchars : entryLine (key, t) ++ rest = key.toList ++ ' ' :: '=' :: ' ' :: written := by
    simp [entryLine, written]
  have hkey : dottedKey (key.toList ++ ' ' :: '=' :: ' ' :: written) =
      some ([key], '=' :: ' ' :: written) :=
    dottedKey_of_bare h (by simp; decide) (by simp [isSpace])
  have hspace : written.dropWhile isSpace = written := by
    refine dropWhile_of_head fun c hc => ?_
    obtain rfl := Option.some.inj ((head?_writtenText t _).symm.trans hc)
    cases styleFor t.toList <;> rfl
  have hvalue : value nestingLimit written = some (.string t, '\n' :: rest) :=
    value_writtenText nestingLimit t (by simp)
  rw [hchars, statement_of_head (h.head?_ne _)]
  simp [hkey, space_apply, isSpace, hspace, hvalue]

/-! ### Sections -/

/-- The statements of the entries of a section. -/
def assignments (entries : List (String × String)) : List Statement :=
  entries.map fun e => .assign [e.1] (.string e.2)

/-- The statements of a section. -/
def lines (name : String) (entries : List (String × String)) : List Statement :=
  .header [name] :: assignments entries

theorem toList_writtenSection (name : String) (entries : List (String × String)) :
    (writtenSection name entries).toList = headerLine name ++ entries.flatMap entryLine := by
  have hentries (l : List (String × String)) :
      (String.join (l.map fun e => e.1 ++ " = " ++ writtenText e.2 ++ "\n")).toList =
        l.flatMap entryLine := by
    rw [String.toList_join, List.flatMap_map]
    exact congrArg l.flatMap (funext fun e => by simp [entryLine])
  simp [writtenSection, headerLine, hentries]

theorem rounds_entries (hkeys : ∀ e ∈ entries, Bare e.1)
    (h : Rounds nextStatement? rest statements s') :
    Rounds nextStatement? (entries.flatMap entryLine ++ rest)
      (assignments entries ++ statements) s' := by
  induction entries with
  | nil => exact h
  | cons e entries ih =>
    obtain ⟨hkey, hkeys⟩ := List.forall_mem_cons.mp hkeys
    have hline := statement_entry hkey e.2 (entries.flatMap entryLine ++ rest)
    have hstart : LineStart (entryLine e ++ (entries.flatMap entryLine ++ rest)) := by
      simpa [entryLine] using hkey.lineStart _
    rw [List.flatMap_cons, List.append_assoc]
    exact .append (nextStatement?_of_lineStart (by simp [entryLine]) hstart hline)
      (by simp [entryLine]) (ih hkeys)

/-- A section is read as its statements, whatever statements follow. -/
theorem rounds_section (hname : Bare name) (hkeys : ∀ e ∈ entries, Bare e.1)
    (h : Rounds nextStatement? rest statements s') :
    Rounds nextStatement? ((writtenSection name entries).toList ++ rest)
      (lines name entries ++ statements) s' := by
  have hline := statement_header hname (entries.flatMap entryLine ++ rest)
  have hstart : LineStart (headerLine name ++ (entries.flatMap entryLine ++ rest)) := by
    rintro c ⟨⟩
    decide
  rw [toList_writtenSection, List.append_assoc]
  exact .append (nextStatement?_of_lineStart (by simp [headerLine]) hstart hline)
    (by simp [headerLine]) (rounds_entries hkeys h)

theorem rounds_nil : Rounds nextStatement? [] [] [] := by
  have hgap : gap [] = some ((), []) := gap_of_lineStart fun c hc => nomatch hc
  exact .stop (by simp [nextStatement?, hgap])

/-- A document is read as the statements of its sections. -/
theorem rounds_sections (hbare : ∀ e ∈ sections, Bare e.1 ∧ ∀ e' ∈ e.2, Bare e'.1) :
    Rounds nextStatement? (writtenSections sections).toList
      (sections.flatMap fun e => lines e.1 e.2) [] := by
  induction sections with
  | nil => simpa [writtenSections] using rounds_nil
  | cons e sections ih =>
    obtain ⟨⟨hname, hkeys⟩, hsections⟩ := List.forall_mem_cons.mp hbare
    cases sections with
    | nil => simpa [writtenSections] using rounds_section hname hkeys rounds_nil
    | cons e' sections =>
      have hnext := (ih hsections).of_eq (nextStatement?_newline _) (Nat.le_succ _)
      have hchars : (writtenSections (e :: e' :: sections)).toList =
          (writtenSection e.1 e.2).toList ++ '\n' :: (writtenSections (e' :: sections)).toList := by
        simp [writtenSections]
      rw [hchars, List.flatMap_cons]
      exact rounds_section hname hkeys hnext

/-! ### Tables -/

/-- The entries of a section as values. -/
def content (entries : List (String × String)) : Entries := entries.map fun e => (e.1, .string e.2)

/-- The table of a document. -/
def contents (sections : List (String × List (String × String))) : Entries :=
  sections.map fun e => (e.1, .table .header (content e.2))

theorem set_append_singleton (h : ∀ e ∈ root, e.1 ≠ key) (v v' : Toml) :
    Entries.set key v' (root ++ [(key, v)]) = root ++ [(key, v')] := by
  induction root with
  | nil => simp [Entries.set]
  | cons e root ih =>
    obtain ⟨hne, hroot⟩ := List.forall_mem_cons.mp h
    simp [Entries.set, hne, ih hroot]

/-- A header adds an empty table and makes it the current one. -/
theorem step_header (h : ∀ e ∈ root, e.1 ≠ name) (current : List String) :
    Document.step ⟨root, current⟩ (.header [name]) =
      some ⟨root ++ [(name, .table .header [])], [name]⟩ := by
  have hnone : root.lookup name = none :=
    List.lookup_eq_none_iff.mpr fun e he => bne_iff_ne.mpr (h e he).symm
  simp [Document.step, openTable, descend, hnone]

/-- An entry is added to the current table. -/
theorem step_assign (h : ∀ e ∈ root, e.1 ≠ name) (hkey : ∀ e ∈ inner, e.1 ≠ key) (v : Toml) :
    Document.step ⟨root ++ [(name, .table .header inner)], [name]⟩ (.assign [key] v) =
      some ⟨root ++ [(name, .table .header (inner ++ [(key, v)]))], [name]⟩ := by
  have hnone : root.lookup name = none :=
    List.lookup_eq_none_iff.mpr fun e he => bne_iff_ne.mpr (h e he).symm
  have hlookup : (root ++ [(name, Toml.table .header inner)]).lookup name =
      some (.table .header inner) := by
    rw [List.lookup_append, hnone, Option.none_or, List.lookup_cons_self]
  have hfree : inner.lookup key = none :=
    List.lookup_eq_none_iff.mpr fun e he => bne_iff_ne.mpr (hkey e he).symm
  simp [Document.step, descend, hlookup, assign, hfree, set_append_singleton h]

theorem foldlM_assignments (h : ∀ e ∈ root, e.1 ≠ name)
    (hkeys : ((inner ++ content entries).map (·.1)).Nodup) :
    (assignments entries).foldlM Document.step ⟨root ++ [(name, .table .header inner)], [name]⟩ =
      some ⟨root ++ [(name, .table .header (inner ++ content entries))], [name]⟩ := by
  induction entries generalizing inner with
  | nil => simp [assignments, content]
  | cons e entries ih =>
    have hfresh : ∀ e' ∈ inner, e'.1 ≠ e.1 := by
      rw [List.map_append, List.nodup_append] at hkeys
      exact fun e' he' => hkeys.2.2 _ (List.mem_map_of_mem he') _ List.mem_cons_self
    have happend : inner ++ content (e :: entries) =
        inner ++ [(e.1, .string e.2)] ++ content entries := by
      simp [content]
    rw [happend] at hkeys ⊢
    have hrest := ih hkeys
    rw [assignments] at hrest
    simp [assignments, step_assign h hfresh, hrest]

/-- The statements of a section add its table. -/
theorem foldlM_lines (h : ∀ e ∈ root, e.1 ≠ name) (hkeys : (entries.map (·.1)).Nodup)
    (current : List String) : (lines name entries).foldlM Document.step ⟨root, current⟩ =
      some ⟨root ++ [(name, .table .header (content entries))], [name]⟩ := by
  have hnodup : ((([] : Entries) ++ content entries).map (·.1)).Nodup := by
    simpa [content, Function.comp_def] using hkeys
  have hentries := foldlM_assignments h hnodup
  simpa [lines, step_header h] using hentries

theorem foldlM_sections (hnames : ((root ++ contents sections).map (·.1)).Nodup)
    (hkeys : ∀ e ∈ sections, (e.2.map (·.1)).Nodup) (current : List String) :
    ∃ current', (sections.flatMap fun e => lines e.1 e.2).foldlM Document.step ⟨root, current⟩ =
      some ⟨root ++ contents sections, current'⟩ := by
  induction sections generalizing root current with
  | nil => exact ⟨current, by simp [contents]⟩
  | cons e sections ih =>
    have hfresh : ∀ e' ∈ root, e'.1 ≠ e.1 := by
      rw [List.map_append, List.nodup_append] at hnames
      exact fun e' he' => hnames.2.2 _ (List.mem_map_of_mem he') _ List.mem_cons_self
    have happend : root ++ contents (e :: sections) =
        root ++ [(e.1, .table .header (content e.2))] ++ contents sections := by
      simp [contents]
    rw [happend] at hnames ⊢
    obtain ⟨hentries, hrest⟩ := List.forall_mem_cons.mp hkeys
    obtain ⟨current', hsections⟩ := ih hnames hrest [e.1]
    exact ⟨current', by simp [foldlM_lines hfresh hentries, hsections]⟩

/-! ### Documents -/

/-- Keys of one table, as they can be written: none needs quotes, and none occurs twice. -/
structure PlainKeys (keys : List String) : Prop where
  bare : ∀ key ∈ keys, Bare key
  nodup : keys.Nodup

instance (keys : List String) : Decidable (PlainKeys keys) :=
  decidable_of_iff ((∀ key ∈ keys, Bare key) ∧ keys.Nodup)
    ⟨fun h => ⟨h.1, h.2⟩, fun h => ⟨h.1, h.2⟩⟩

theorem PlainKeys.of_sublist {keys keys' : List String} (h : PlainKeys keys')
    (hsub : keys.Sublist keys') : PlainKeys keys where
  bare key hkey := h.bare key (hsub.subset hkey)
  nodup := h.nodup.sublist hsub

/-- A document that can be written. -/
structure Plain (sections : List (String × List (String × String))) : Prop where
  names : PlainKeys (sections.map (·.1))
  keys : ∀ e ∈ sections, PlainKeys (e.2.map (·.1))

theorem head?_writtenSections (sections : List (String × List (String × String))) :
    ∀ c ∈ (writtenSections sections).toList.head?, c = '[' := by
  intro c hc
  match sections with
  | [] => simp [writtenSections] at hc
  | [e] => simpa [writtenSections, toList_writtenSection, headerLine, eq_comm] using hc
  | e :: e' :: sections =>
    simpa [writtenSections, toList_writtenSection, headerLine, eq_comm] using hc

/-- **What is written is read.** -/
theorem parse?_writtenSections (h : Plain sections) :
    parse? (writtenSections sections) = some (.table .header (contents sections)) := by
  have hmark : skip? '\uFEFF' (writtenSections sections).toList =
      some (false, (writtenSections sections).toList) := by
    refine skip?_of_head fun hhead => ?_
    exact absurd (head?_writtenSections sections _ hhead) (by decide)
  have hbare : ∀ e ∈ sections, Bare e.1 ∧ ∀ e' ∈ e.2, Bare e'.1 := fun e he =>
    ⟨h.names.bare _ (List.mem_map_of_mem he), fun e' he' =>
      (h.keys e he).bare _ (List.mem_map_of_mem he')⟩
  have hstatements := (rounds_sections hbare).many
  have hnodup : ((([] : Entries) ++ contents sections).map (·.1)).Nodup := by
    simpa [contents, Function.comp_def] using h.names.nodup
  obtain ⟨current, hdocument⟩ :=
    foldlM_sections hnodup (fun e he => (h.keys e he).nodup) []
  simp only [parse?, run?, bind_apply, hmark, Option.bind_some, Toml.statements, hstatements,
    ofStatements]
  rw [hdocument]
  rfl

end Converge.Toml

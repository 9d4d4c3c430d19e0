import Converge.Proofs.JsonTokens
import Converge.Proofs.Tables

/-!
# Reading printed values

A value that was printed on one line is read back member by member and element by element, and every
number by itself. A floating-point number can become a neighbour of the number that was printed, and
nothing is read of a value with more levels than the reader allows. `Json.reread` says what becomes
of a value in this way.

## Main definitions

* `Json.reread`: what is read from the text of a value.
* `Json.Plain`: values that are read as they are: without floating-point numbers, without integers
  of more than 64 bits, and with few levels.
* `Json.Sorted`: values whose objects have sorted members, as all that are read.
* `Json.drifting`, `Json.drifted`: two numbers each of which is read as the other.

## Main results

* `Json.listUntil_items`: a list is read element by element.
* `Json.parse?_compact`: what is read from the text of a value.
* `Json.Plain.reread`: a plain value is read back.
* `Json.sorted_of_parse?`: what is read has sorted members.
-/

namespace Converge.Json

open Reader

variable {c : Char} {cs rest : List Char}

/-! ### Values -/

mutual

/-- What is read from the text of a value, with at most `depth` levels of arrays and objects. -/
def reread : Json → Nat → Option Json
  | null, _ => some null
  | bool b, _ => some (bool b)
  | int n, _ => run? number (toString n)
  | float x, _ => run? number x.compact
  | str s, _ => some (str s)
  | arr elements, depth + 1 => (rereadElements elements depth).map arr
  | obj members, depth + 1 => (rereadMembers members depth).map ofMembers
  | arr _, 0 | obj _, 0 => none

/-- What is read from the elements of an array. -/
def rereadElements : List Json → Nat → Option (List Json)
  | [], _ => some []
  | a :: as, depth => do return (← reread a depth) :: (← rereadElements as depth)

/-- What is read from the members of an object. -/
def rereadMembers : List (String × Json) → Nat → Option (List (String × Json))
  | [], _ => some []
  | (name, a) :: as, depth => do
    return (name, ← reread a depth) :: (← rereadMembers as depth)

end

/-- Members that are sorted stay in their places. -/
theorem ofMembers_eq_obj {members : List (String × Json)}
    (h : (members.map (·.1)).Pairwise (· < ·)) : ofMembers members = obj members :=
  congrArg (fun t : Table Json => obj t.entries)
    (Table.ofList_entries ⟨members, List.pairwise_map.mp h⟩)

/-! ### Readers of values -/

/-- A number begins with a digit or a minus sign. -/
theorem value_number (hc : c = '-' ∨ c.isDigit = true) (s : List Char) (depth : Nat) :
    value depth (c :: s) = number (c :: s) := by
  have hne : c ≠ 'n' ∧ c ≠ 't' ∧ c ≠ 'f' ∧ c ≠ '"' ∧ c ≠ '[' ∧ c ≠ '\x7b' := by
    refine ⟨?_, ?_, ?_, ?_, ?_, ?_⟩ <;> rintro rfl <;> revert hc <;> decide
  obtain ⟨hn, ht, hf, hq, hb, hbrace⟩ := hne
  unfold value
  simp only [bind_apply, peek?_apply, List.head?_cons, Option.bind_some]

theorem value_arr (depth : Nat) (s : List Char) : value (depth + 1) ('[' :: s) =
    (listUntil ']' false gap (value depth) s).map fun (as, s') => (arr as, s') := by
  rw [value]
  simp only [bind_apply, peek?_apply, List.head?_cons, Option.bind_some, char_self, pure_apply]
  exact (Option.map_eq_bind ..).symm

/-- A reader of the members of objects. -/
def memberReader (depth : Nat) : Reader (String × Json) := do
  let name ← text
  gap
  char ':'
  gap
  return (name, ← value depth)

theorem value_obj (depth : Nat) (s : List Char) : value (depth + 1) ('\x7b' :: s) =
    (listUntil '\x7d' false gap (memberReader depth) s).map fun (ms, s') => (ofMembers ms, s') := by
  rw [value]
  simp only [bind_apply, peek?_apply, List.head?_cons, Option.bind_some, char_self, pure_apply]
  exact (Option.map_eq_bind ..).symm

/-! ### Lists -/

section Lists

variable {α : Type} {element : Reader α} {close : Char} {v : Option α}

theorem gap_of_not_isGap (h : isGap c = false) (s : List Char) :
    gap (c :: s) = some ((), c :: s) := by
  simp [gap, skipWhile, h]

/-- A printed value begins with a character that neither is blank nor ends a list. -/
def Starts (cs : List Char) : Prop :=
  ∃ c cs', cs = c :: cs' ∧ isGap c = false ∧ c ≠ ']' ∧ c ≠ '\x7d'

theorem Starts.of_cons (h : isGap c = false ∧ c ≠ ']' ∧ c ≠ '\x7d') (cs : List Char) :
    Starts (c :: cs) := ⟨c, cs, rfl, h⟩

/-- What is read from the characters `cs` of an element, whatever follows them. -/
structure Element (element : Reader α) (cs : List Char) (v : Option α) : Prop where
  starts : Starts cs
  read : ∀ rest, Follows rest → element (cs ++ rest) = v.map (·, rest)

/-- A list can only be ended by a bracket or brace. -/
def Closes (close : Char) : Prop := close = ']' ∨ close = '\x7d'

theorem Closes.ne_comma (h : Closes close) : ',' ≠ close := by
  rcases h with rfl | rfl <;> decide

theorem Closes.ne (h : Closes close) (hc : c ≠ ']' ∧ c ≠ '\x7d') : c ≠ close := by
  rcases h with rfl | rfl
  · exact hc.1
  · exact hc.2

/-- One more element of a list, or the end of the list. -/
def another (close : Char) (element : Reader α) : Reader (Option α) := do
  if ← skip? close then return none
  char ','
  gap
  let a ← element
  gap
  return some a

theorem joined_cons (cs : List Char) (items : List (List Char)) :
    [','].intercalate (cs :: items) = cs ++ items.flatMap (',' :: ·) := by
  induction items generalizing cs with
  | nil => simp
  | cons cs' items ih =>
    rw [List.intercalate_cons_cons, ih]
    simp

theorem listUntil_apply (s : List Char) : listUntil close false gap element s =
    (gap s).bind fun (_, s) => (skip? close s).bind fun (closed, s) =>
      if closed then some ([], s)
      else (element s).bind fun (a, s) => (gap s).bind fun (_, s) =>
        (many (another close element) s).bind fun (as, s) => some (a :: as, s) := by
  rw [listUntil]
  simp only [bind_apply, if_apply, pure_apply, Bool.false_eq_true, if_false]
  rfl

/-- The items of a list, after the first, up to the end of the list. -/
def tail (close : Char) (items : List (List Char)) (rest : List Char) : List Char :=
  items.flatMap (',' :: ·) ++ close :: rest

theorem gap_tail (h : Closes close) (items : List (List Char)) (rest : List Char) :
    gap (tail close items rest) = some ((), tail close items rest) := by
  cases items with
  | nil => exact gap_of_not_isGap (by rcases h with rfl | rfl <;> decide) rest
  | cons cs items => exact gap_of_not_isGap (by decide) _

theorem follows_tail (h : Closes close) (items : List (List Char)) (rest : List Char) :
    Follows (tail close items rest) := by
  cases items with
  | nil => exact follows_cons (.inr h)
  | cons cs items => exact follows_cons (.inl rfl)

/-- One element more is read from the front of the items that are left. -/
theorem another_tail (hclose : Closes close) (h : Element element cs v)
    (items : List (List Char)) (rest : List Char) :
    another close element (tail close (cs :: items) rest) =
      v.map fun a => (some a, tail close items rest) := by
  obtain ⟨c, cs', rfl, hgap, -⟩ := h.starts
  have hcomma : (tail close ((c :: cs') :: items) rest).head? ≠ some close := fun heq =>
    hclose.ne_comma (Option.some.inj heq)
  have hread := h.read _ (follows_tail hclose items rest)
  have hchars : tail close ((c :: cs') :: items) rest =
      ',' :: c :: (cs' ++ tail close items rest) := by simp [tail]
  simp only [another, bind_apply, skip?_of_head hcomma, Option.bind_some, if_apply,
    Bool.false_eq_true, if_false]
  simp only [hchars, char_self, Option.bind_some, gap_of_not_isGap hgap]
  rw [← List.cons_append, hread]
  cases v with
  | none => rfl
  | some a => simp [gap_tail hclose]

/-- The elements of a list are read one after the other. -/
theorem many_another (hclose : Closes close) {items : List (List Char × Option α)}
    (h : ∀ i ∈ items, Element element i.1 i.2) (rest : List Char) :
    many (another close element) (tail close (items.map (·.1)) rest) =
      (items.mapM Prod.snd).map (·, rest) := by
  induction items with
  | nil =>
    rw [many]
    simp [tail, another]
  | cons i items ih =>
    obtain ⟨cs, v⟩ := i
    obtain ⟨hi, hitems⟩ := List.forall_mem_cons.mp h
    rw [many, List.map_cons, another_tail hclose hi, List.mapM_cons]
    cases v with
    | none => rfl
    | some a =>
      have hlt : (tail close (items.map (·.1)) rest).length <
          (tail close (cs :: items.map (·.1)) rest).length := by
        simp [tail]
      simp only [Option.map_some, hlt, if_true, ih hitems]
      cases items.mapM Prod.snd <;> rfl

/-- **A list is read element by element.** -/
theorem listUntil_items (hclose : Closes close) {items : List (List Char × Option α)}
    (h : ∀ i ∈ items, Element element i.1 i.2) (rest : List Char) :
    listUntil close false gap element
        ([','].intercalate (items.map (·.1)) ++ close :: rest) =
      (items.mapM Prod.snd).map (·, rest) := by
  rw [listUntil_apply]
  cases items with
  | nil =>
    have hgap : gap (close :: rest) = some ((), close :: rest) := gap_tail hclose [] rest
    simp [hgap]
  | cons i items =>
    obtain ⟨cs, v⟩ := i
    obtain ⟨hi, hitems⟩ := List.forall_mem_cons.mp h
    obtain ⟨c, cs', rfl, hgap, hne⟩ := hi.starts
    have hchars : [','].intercalate ((c :: cs') :: items.map (·.1)) ++ close :: rest =
        c :: cs' ++ tail close (items.map (·.1)) rest := by
      rw [joined_cons, List.append_assoc]
      rfl
    have hstart (s : List Char) : skip? close (c :: s) = some (false, c :: s) :=
      skip?_of_head fun heq => hclose.ne hne (Option.some.inj heq)
    rw [List.map_cons, hchars, List.mapM_cons, List.cons_append]
    simp only [gap_of_not_isGap hgap, Option.bind_some, hstart, Bool.false_eq_true, if_false]
    rw [← List.cons_append, hi.read _ (follows_tail hclose _ rest)]
    cases v with
    | none => rfl
    | some a =>
      simp only [Option.map_some, Option.bind_some, gap_tail hclose, many_another hclose hitems]
      cases items.mapM Prod.snd <;> rfl

end Lists

/-! ### Texts of values -/

theorem Numeral.starts (h : Numeral cs) : Starts cs := by
  obtain ⟨c, cs', rfl, hc⟩ := h.head
  refine .of_cons ?_ cs'
  rcases hc with rfl | hc
  · decide
  · refine ⟨Bool.eq_false_iff.mpr fun hgap => ?_, ?_, ?_⟩
    · simp only [isGap, Bool.or_eq_true, beq_iff_eq] at hgap
      rcases hgap with ((rfl | rfl) | rfl) | rfl <;> exact absurd hc (by decide)
    · rintro rfl
      exact absurd hc (by decide)
    · rintro rfl
      exact absurd hc (by decide)

theorem starts_quoted (s : String) (rest : List Char) : Starts ((quoted s).toList ++ rest) := by
  have hchars : (quoted s).toList ++ rest = '"' :: (s.toList.flatMap escaped ++ '"' :: rest) := by
    simp [quoted]
  rw [hchars]
  exact .of_cons (by decide) _

theorem starts_compact (j : Json) : Starts j.compact.toList := by
  cases j with
  | null => exact .of_cons (by decide) _
  | bool b => cases b <;> exact .of_cons (by decide) _
  | int n => exact (numeral_int n).starts
  | float x => exact (numeral_compact x).starts
  | str s => simpa [compact] using starts_quoted s []
  | arr elements =>
    simp only [compact, String.toList_append]
    exact .of_cons (by decide) _
  | obj members =>
    simp only [compact, String.toList_append]
    exact .of_cons (by decide) _

/-- A value is read from its text, whatever may follow it. -/
def Rereads (j : Json) : Prop := ∀ depth rest, Follows rest →
  value depth (j.compact.toList ++ rest) = (j.reread depth).map (·, rest)

theorem rereadElements_eq (as : List Json) (depth : Nat) : rereadElements as depth =
    (as.map fun a => (a.compact.toList, a.reread depth)).mapM Prod.snd := by
  induction as with
  | nil => rfl
  | cons a as ih => rw [rereadElements, ih, List.map_cons, List.mapM_cons]

theorem compactElements_eq (as : List Json) : compactElements as = as.map compact := by
  induction as with
  | nil => rfl
  | cons a as ih => rw [compactElements, ih, List.map_cons]

theorem rereads_number {text : String} (h : Numeral text.toList) (depth : Nat)
    (hrest : Follows rest) :
    value depth (text.toList ++ rest) = (run? number text).map (·, rest) := by
  obtain ⟨c, cs', heq, hc⟩ := h.head
  rw [← h.run? hrest, heq]
  exact value_number hc _ depth

theorem rereads_arr {as : List Json} (h : ∀ a ∈ as, Rereads a) : Rereads (arr as) := by
  intro depth rest _
  have hchars : (arr as).compact.toList ++ rest =
      '[' :: ([','].intercalate (as.map fun a => a.compact.toList) ++ ']' :: rest) := by
    simp [compact, compactElements_eq, String.toList_intercalate, Function.comp_def]
  rw [hchars]
  cases depth with
  | zero => rw [value]; rfl
  | succ depth =>
    have hitems : ∀ i ∈ as.map (fun a => (a.compact.toList, a.reread depth)),
        Element (value depth) i.1 i.2 := by
      intro i hi
      obtain ⟨a, ha, rfl⟩ := List.mem_map.mp hi
      exact ⟨starts_compact a, h a ha depth⟩
    have hlist := listUntil_items (.inl rfl) hitems rest
    rw [List.map_map] at hlist
    rw [value_arr, reread, rereadElements_eq]
    refine (congrArg _ hlist).trans ?_
    cases List.mapM Prod.snd (as.map fun a => (a.compact.toList, a.reread depth)) <;> rfl

/-- The text of a member of an object. -/
def memberText (m : String × Json) : List Char :=
  (quoted m.1).toList ++ ':' :: m.2.compact.toList

theorem compactMembers_eq (ms : List (String × Json)) :
    (compactMembers ms).map String.toList = ms.map memberText := by
  induction ms with
  | nil => rfl
  | cons m ms ih => simp [compactMembers, memberText, ih]

theorem rereadMembers_eq (ms : List (String × Json)) (depth : Nat) : rereadMembers ms depth =
    (ms.map fun m => (memberText m, (m.2.reread depth).map (m.1, ·))).mapM Prod.snd := by
  induction ms with
  | nil => rfl
  | cons m ms ih =>
    rw [rereadMembers, ih, List.map_cons, List.mapM_cons]
    cases m.2.reread depth <;> rfl

theorem element_member {m : String × Json} (h : Rereads m.2) (depth : Nat) :
    Element (memberReader depth) (memberText m) ((m.2.reread depth).map (m.1, ·)) where
  starts := starts_quoted m.1 _
  read rest hrest := by
    obtain ⟨c, cs', heq, hgap, -⟩ := starts_compact m.2
    have hvalue := h depth rest hrest
    rw [heq, List.cons_append] at hvalue
    simp only [memberReader, memberText, List.append_assoc, bind_apply, text_quoted,
      Option.bind_some, List.cons_append, gap_of_not_isGap (c := ':') (by decide), char_self, heq,
      gap_of_not_isGap hgap, hvalue]
    cases m.2.reread depth <;> rfl

theorem rereads_obj {ms : List (String × Json)} (h : ∀ m ∈ ms, Rereads m.2) :
    Rereads (obj ms) := by
  intro depth rest _
  have hchars : (obj ms).compact.toList ++ rest =
      '\x7b' :: ([','].intercalate (ms.map memberText) ++ '\x7d' :: rest) := by
    simp [compact, String.toList_intercalate, compactMembers_eq]
  rw [hchars]
  cases depth with
  | zero => rw [value]; rfl
  | succ depth =>
    have hitems : ∀ i ∈ ms.map (fun m => (memberText m, (m.2.reread depth).map (m.1, ·))),
        Element (memberReader depth) i.1 i.2 := by
      intro i hi
      obtain ⟨m, hm, rfl⟩ := List.mem_map.mp hi
      exact element_member (h m hm) depth
    have hlist := listUntil_items (.inr rfl) hitems rest
    rw [List.map_map] at hlist
    rw [value_obj, reread, rereadMembers_eq]
    refine (congrArg _ hlist).trans ?_
    cases List.mapM Prod.snd
      (ms.map fun m => (memberText m, (m.2.reread depth).map (m.1, ·))) <;> rfl

mutual

/-- **What is read from the text of a value**, inside any other text. -/
theorem value_compact : ∀ j : Json, Rereads j
  | null => fun depth rest _ => by
    unfold value
    rfl
  | bool b => fun depth rest _ => by
    unfold value
    cases b <;> rfl
  | int n => fun depth rest hrest => rereads_number (numeral_int n) depth hrest
  | float x => fun depth rest hrest => rereads_number (numeral_compact x) depth hrest
  | str s => fun depth rest _ => by
    have hhead : ((quoted s).toList ++ rest).head? = some '"' := by simp [quoted]
    rw [compact]
    unfold value
    simp only [bind_apply, peek?_apply, hhead, Option.bind_some, text_quoted]
    rfl
  | arr as => rereads_arr (elements_compact as)
  | obj ms => rereads_obj (members_compact ms)

theorem elements_compact : ∀ as : List Json, ∀ a ∈ as, Rereads a
  | [] => List.forall_mem_nil _
  | a :: as => List.forall_mem_cons.mpr ⟨value_compact a, elements_compact as⟩

theorem members_compact : ∀ ms : List (String × Json), ∀ m ∈ ms, Rereads m.2
  | [] => List.forall_mem_nil _
  | (_, a) :: ms => List.forall_mem_cons.mpr ⟨value_compact a, members_compact ms⟩

end

/-- **What is read from the text of a value.** -/
theorem parse?_compact (j : Json) (depth : Nat) : parse? j.compact depth = j.reread depth := by
  obtain ⟨c, cs', heq, hgap, -⟩ := starts_compact j
  have hvalue := value_compact j depth [] follows_nil
  rw [List.append_nil, heq] at hvalue
  rw [parse?, run?, heq]
  simp only [bind_apply, gap_of_not_isGap hgap, Option.bind_some, hvalue]
  cases j.reread depth <;> rfl

/-! ### Plain values -/

/-- A value that is read as it is: it has no floating-point numbers and no integers of more than 64
bits, its objects have sorted members, and it has at most the given number of levels. -/
inductive Plain : Nat → Json → Prop
  | null {depth : Nat} : Plain depth null
  | bool {depth : Nat} (b : Bool) : Plain depth (bool b)
  | int {depth : Nat} {n : Int} (hlow : -2 ^ 63 ≤ n) (hhigh : n < 2 ^ 64) : Plain depth (int n)
  | str {depth : Nat} (s : String) : Plain depth (str s)
  | arr {depth : Nat} {as : List Json} (h : ∀ a ∈ as, Plain depth a) : Plain (depth + 1) (arr as)
  | obj {depth : Nat} {ms : Table Json} (h : ∀ m ∈ ms.entries, Plain depth m.2) :
      Plain (depth + 1) (obj ms.entries)

variable {j : Json} {depth depth' : Nat}

theorem Plain.ofMembers {ms : List (String × Json)} (h : ∀ m ∈ ms, Plain depth m.2) :
    Plain (depth + 1) (ofMembers ms) :=
  .obj fun m hm => h m (Table.mem_of_mem_ofList hm)

theorem Plain.mono (h : Plain depth j) (hle : depth ≤ depth') : Plain depth' j := by
  induction h generalizing depth' with
  | null => exact .null
  | bool b => exact .bool b
  | int hlow hhigh => exact .int hlow hhigh
  | str s => exact .str s
  | arr _ ih =>
    obtain ⟨depth', rfl⟩ := Nat.exists_eq_add_one_of_ne_zero (by omega : depth' ≠ 0)
    exact .arr fun a ha => ih a ha (by omega)
  | obj _ ih =>
    obtain ⟨depth', rfl⟩ := Nat.exists_eq_add_one_of_ne_zero (by omega : depth' ≠ 0)
    exact .obj fun m hm => ih m hm (by omega)

/-- **A plain value is read back.** -/
theorem Plain.reread (h : Plain depth j) : j.reread depth = some j := by
  induction h with
  | null | bool | str => rw [Json.reread]
  | int hlow hhigh => rw [Json.reread, run?_int hlow hhigh]
  | @arr depth as _ ih =>
    have hall : rereadElements as depth = some as := by
      induction as with
      | nil => rfl
      | cons a as iha =>
        obtain ⟨ha, has⟩ := List.forall_mem_cons.mp ih
        rw [rereadElements, ha, iha (by simp_all) has]
        rfl
    rw [Json.reread, hall, Option.map_some]
  | @obj depth ms _ ih =>
    have hall : ∀ l : List (String × Json), (∀ m ∈ l, m.2.reread depth = some m.2) →
        rereadMembers l depth = some l := by
      intro l hl
      induction l with
      | nil => rfl
      | cons m l ihl =>
        obtain ⟨hm, hl⟩ := List.forall_mem_cons.mp hl
        rw [rereadMembers, hm, ihl hl]
        rfl
    rw [Json.reread, hall _ ih, Option.map_some, Json.ofMembers, Table.ofList_entries]

/-! ### Sorted members -/

/-- The objects in a value have sorted members, no name twice. -/
inductive Sorted : Json → Prop
  | null : Sorted null
  | bool (b : Bool) : Sorted (bool b)
  | int (n : Int) : Sorted (int n)
  | float (x : Binary64) : Sorted (float x)
  | str (s : String) : Sorted (str s)
  | arr {as : List Json} (h : ∀ a ∈ as, Sorted a) : Sorted (arr as)
  | obj {ms : Table Json} (h : ∀ m ∈ ms.entries, Sorted m.2) : Sorted (obj ms.entries)

theorem yields_number : Yields Sorted number := by
  unfold number
  refine .after fun negative => .after fun whole => ?_
  extract_lets afterWhole
  have hwhole (r : Unit) : Yields Sorted (afterWhole r) := by
    refine .after fun point => ?_
    extract_lets afterFraction
    have hfraction (fraction : List Char) : Yields Sorted (afterFraction fraction) := by
      refine .after fun mark => ?_
      extract_lets scientific finish
      have hfinish (e : Int) : Yields Sorted (finish e) := by
        refine .ite (.pure (.int _)) ?_
        split
        · exact .pure (.float _)
        · exact .fail
      exact .ite (.after fun _ => .after fun _ => .after hfinish) (.after hfinish)
    exact .ite (.after hfraction) (.after hfraction)
  exact .ite (.after hwhole) (hwhole ())

theorem yields_value (depth : Nat) : Yields Sorted (value depth) := by
  induction depth with
  | zero =>
    unfold value
    refine .after fun next => ?_
    split
    · exact .after fun _ => .pure .null
    · exact .after fun _ => .pure (.bool _)
    · exact .after fun _ => .pure (.bool _)
    · exact .after fun _ => .pure (.str _)
    · exact .fail
    · exact .fail
    · exact yields_number
    · exact .fail
  | succ depth ih =>
    unfold value
    refine .after fun next => ?_
    split
    · exact .after fun _ => .pure .null
    · exact .after fun _ => .pure (.bool _)
    · exact .after fun _ => .pure (.bool _)
    · exact .after fun _ => .pure (.str _)
    · exact .after fun _ => .bind (.listUntil ih) fun as has => .pure (.arr has)
    · have hmember : Yields (fun m : String × Json => m.2.Sorted) (memberReader depth) :=
        .after fun _ => .after fun _ => .after fun _ => .after fun _ =>
          .bind ih fun _ hvalue => .pure hvalue
      exact .after fun _ => .bind (.listUntil hmember) fun ms hms =>
        .pure (.obj fun m hm => hms m (Table.mem_of_mem_ofList hm))
    · exact yields_number
    · exact .fail

/-- **What is read has sorted members.** -/
theorem sorted_of_parse? {text : String} (h : parse? text depth = some j) : j.Sorted :=
  Yields.run? (.after fun _ => .bind (yields_value depth) fun _ hv => .after fun _ => .pure hv) h

/-! ### A number that is read as its neighbour -/

/-- An object with one member is read as what is read of the member. -/
theorem reread_singleton {j j' : Json} {depth : Nat} (name : String)
    (h : j.reread depth = some j') :
    (obj [(name, j)]).reread (depth + 1) = some (obj [(name, j')]) := by
  rw [reread, rereadMembers, h]
  rfl

/-- A number that is read as its neighbour. -/
def drifting : Json := .float ⟨4479229369086447035⟩

/-- The neighbour, which is read as that number. -/
def drifted : Json := .float ⟨4479229369086447034⟩

/-- Of a small number first the digits are rounded, and then their quotient by a power of ten. -/
private theorem run?_quotient {text : String} {whole fraction : List Char} {exponent : Int}
    {n m k : Nat} {x : Binary64} (hparts : number text.toList =
      (numeral? false whole (some fraction) (some exponent)).map (·, []))
    (hlength : whole.length = 1) (hwhole : accumulate 0 whole = (n, 0))
    (hfraction : accumulate n fraction = (m, 0)) (hexponent : exponent - fraction.length = -k)
    (hk : 0 < k ∧ k ≤ 308) (hx : (Binary64.ofNat m).divNat (Binary64.roundedPower k) = x) :
    run? number text = some (.float x) := by
  have hscaled : scaled? m (-k) = some x := by
    rw [scaled?, if_pos (by omega), neg_neg, Int.toNat_natCast, shrink, if_pos hk.2, hx]
  have hsum : ((0 : Nat) : Int) - ((fraction.length - 0 : Nat) : Int) + exponent = -k := by omega
  have hnumeral : numeral? false whole (some fraction) (some exponent) = some (.float x) := by
    simp only [numeral?, hwhole, hfraction, Option.getD_some]
    rw [if_neg (by simp [hlength]), if_neg (by simp), hsum, hscaled]
    rfl
  rw [run?, hparts, hnumeral]
  rfl

theorem reread_drifting (depth : Nat) : drifting.reread depth = some drifted := by
  have hcompact : (⟨4479229369086447035⟩ : Binary64).compact = "2.9592134568791392e-9" := by
    decide +kernel
  have hfraction : accumulate 2 "9592134568791392".toList = (29592134568791392, 0) := by
    decide +kernel
  have hquotient : (Binary64.ofNat 29592134568791392).divNat (Binary64.roundedPower 25) =
      ⟨4479229369086447034⟩ := by decide +kernel
  rw [drifting, reread, hcompact]
  exact run?_quotient (number_eq rfl rfl (.inr ⟨_, "9592134568791392e-9".toList, rfl, rfl, rfl⟩)
    (.inr ⟨_, "-9".toList, rfl, rfl, rfl⟩)) rfl rfl hfraction rfl (by decide) hquotient

theorem reread_drifted (depth : Nat) : drifted.reread depth = some drifting := by
  have hcompact : (⟨4479229369086447034⟩ : Binary64).compact = "2.959213456879139e-9" := by
    decide +kernel
  have hfraction : accumulate 2 "959213456879139".toList = (2959213456879139, 0) := by
    decide +kernel
  have hquotient : (Binary64.ofNat 2959213456879139).divNat (Binary64.roundedPower 24) =
      ⟨4479229369086447035⟩ := by decide +kernel
  rw [drifted, reread, hcompact]
  exact run?_quotient (number_eq rfl rfl (.inr ⟨_, "959213456879139e-9".toList, rfl, rfl, rfl⟩)
    (.inr ⟨_, "-9".toList, rfl, rfl, rfl⟩)) rfl rfl hfraction rfl (by decide) hquotient

theorem drifting_not_same : ¬ drifting.same drifted = true := by
  have hzero : (⟨4479229369086447035⟩ : Binary64).isZero = false := by decide
  simp [drifting, drifted, same, Binary64.same, hzero]

end Converge.Json

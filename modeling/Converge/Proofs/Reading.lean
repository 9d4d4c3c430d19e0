import Converge.Text.Reader

/-!
# Readers at work

What the basic readers do to a text that begins as they expect, and the rounds of a repeated
reading. With the equations below simp follows a reader through a text.

## Main definitions

* `Reader.Rounds`: the rounds of a repeated reading.
* `Reader.Yields`: a property of all values that a reader gives.

## Main results

* `Reader.bind_apply`: readers in sequence.
* `Reader.Rounds.many`: a repeated reading gives the values of its rounds.
* `Reader.Yields.bind`, `Reader.Yields.many`, `Reader.Yields.listUntil`: properties of values,
  reader by reader.
-/

namespace Converge.Reader

variable {α β : Type} {round : Reader (Option α)} {s s' cs : List Char} {as : List α} {c : Char}
  {p : Char → Bool}

/-! ### Single readers -/

@[simp] theorem bind_apply (r : Reader α) (f : α → Reader β) (s : List Char) :
    (r >>= f) s = (r s).bind fun (a, s') => f a s' := by
  simp [bind, StateT.bind]

@[simp] theorem map_apply (f : α → β) (r : Reader α) (s : List Char) :
    (f <$> r) s = (r s).map fun (a, s') => (f a, s') := by
  cases h : r s <;> simp [Functor.map, StateT.map, h]

@[simp] theorem pure_apply (a : α) (s : List Char) : (pure a : Reader α) s = some (a, s) := rfl

@[simp] theorem if_apply (p : Prop) [Decidable p] (r r' : Reader α) (s : List Char) :
    (if p then r else r') s = if p then r s else r' s := by
  split <;> rfl

@[simp] theorem fail_apply (s : List Char) : (fail : Reader α) s = none := rfl

@[simp] theorem peek?_apply (s : List Char) : peek? s = some (s.head?, s) := rfl

@[simp] theorem rest_apply (s : List Char) : rest s = some (s, s) := rfl

@[simp] theorem next_cons (c : Char) (s : List Char) : next (c :: s) = some (c, s) := rfl

@[simp] theorem char_self (c : Char) (s : List Char) : char c (c :: s) = some ((), s) :=
  if_pos rfl

theorem dropWhile_of_head (h : ∀ c ∈ s.head?, p c = false) : s.dropWhile p = s := by
  cases s with
  | nil => rfl
  | cons c s => exact List.dropWhile_cons_of_neg (Bool.eq_false_iff.mp (h c rfl))

/-- A run of characters ends before the first that does not belong to it. -/
theorem takeWhile1_append (hne : cs ≠ []) (hcs : ∀ c ∈ cs, p c = true)
    (hs : ∀ c ∈ s.head?, p c = false) : takeWhile1 p (cs ++ s) = some (cs, s) := by
  have htake : (cs ++ s).takeWhile p = cs := by
    rw [List.takeWhile_append_of_pos hcs]
    cases s with
    | nil => exact List.append_nil cs
    | cons c s =>
      rw [List.takeWhile_cons_of_neg (Bool.eq_false_iff.mp (hs c rfl)), List.append_nil]
  have hdrop : (cs ++ s).dropWhile p = s := by
    rw [List.dropWhile_append_of_pos hcs, dropWhile_of_head hs]
  simp [takeWhile1, takeWhile, htake, hdrop, hne]

@[simp] theorem skip?_self (c : Char) (s : List Char) : skip? c (c :: s) = some (true, s) :=
  if_pos rfl

theorem skip?_of_head (h : s.head? ≠ some c) : skip? c s = some (false, s) := by
  cases s with
  | nil => rfl
  | cons d s => exact if_neg fun heq => h (congrArg some heq)

theorem isPrefixOf_of_head {word : List Char} (h : s.head? ≠ some c) :
    (c :: word).isPrefixOf s = false := by
  cases s with
  | nil => rfl
  | cons d s =>
    have hne : c ≠ d := fun heq => h (congrArg some heq.symm)
    simp [List.isPrefixOf_cons_cons, hne]

@[simp] theorem ahead_apply (word s : List Char) : ahead word s = some (word.isPrefixOf s, s) := rfl

/-! ### Repeated reading -/

/-- Round after round of a repeated reading takes values from the front of `s`, and leaves `s'`. -/
inductive Rounds (round : Reader (Option α)) : List Char → List α → List Char → Prop
  | stop {s s' : List Char} (h : round s = some (none, s')) : Rounds round s [] s'
  | step {s s' s'' : List Char} {a : α} {as : List α} (h : round s = some (some a, s'))
      (hlt : s'.length < s.length) (hrest : Rounds round s' as s'') : Rounds round s (a :: as) s''

/-- A round takes the characters `cs` from the front. -/
theorem Rounds.append {a : α} (h : round (cs ++ s) = some (some a, s)) (hne : cs ≠ [])
    (hrest : Rounds round s as s') : Rounds round (cs ++ s) (a :: as) s' := by
  refine .step h ?_ hrest
  rw [List.length_append]
  exact Nat.lt_add_of_pos_left (List.length_pos_iff.mpr hne)

/-- What makes no difference to the first round makes none to all. -/
theorem Rounds.of_eq (hround : round s = round s') (hle : s'.length ≤ s.length)
    {s'' : List Char} (h : Rounds round s' as s'') : Rounds round s as s'' := by
  cases h with
  | stop h => exact .stop (hround.trans h)
  | step h hlt hrest => exact .step (hround.trans h) (Nat.lt_of_lt_of_le hlt hle) hrest

/-- A repeated reading gives the values of its rounds. -/
theorem Rounds.many (h : Rounds round s as s') : many round s = some (as, s') := by
  induction h with
  | stop h => rw [Reader.many, h]
  | step h hlt _ ih =>
    rw [Reader.many, h]
    simp [hlt, ih]

/-! ### What readers give -/

variable {P : α → Prop} {Q : β → Prop} {r : Reader β} {f : β → Reader α}

/-- Every value that the reader gives has the property. -/
def Yields (P : α → Prop) (r : Reader α) : Prop := ∀ s a s', r s = some (a, s') → P a

theorem Yields.pure {a : α} (h : P a) : Yields P (pure a : Reader α) := by
  rintro s _ _ ⟨⟩
  exact h

theorem Yields.fail : Yields P (fail : Reader α) := nofun

theorem Yields.bind (hr : Yields Q r) (hf : ∀ b, Q b → Yields P (f b)) : Yields P (r >>= f) := by
  intro s a s' h
  rw [bind_apply, Option.bind_eq_some_iff] at h
  obtain ⟨⟨b, s₁⟩, hb, ha⟩ := h
  exact hf b (hr s b s₁ hb) s₁ a s' ha

/-- What a reader has given need not matter for what comes after it. -/
theorem Yields.after (hf : ∀ b, Yields P (f b)) : Yields P (r >>= f) :=
  .bind (Q := fun _ => True) (fun _ _ _ _ => trivial) fun b _ => hf b

theorem Yields.ite {p : Prop} [Decidable p] {r r' : Reader α} (h : Yields P r) (h' : Yields P r') :
    Yields P (if p then r else r') := by
  split
  · exact h
  · exact h'

theorem Yields.many {round : Reader (Option α)} (h : Yields (fun a? => ∀ a ∈ a?, P a) round) :
    Yields (fun as => ∀ a ∈ as, P a) (many round) := by
  intro s
  induction s using many.induct round with
  | case1 s hround =>
    intro as s' h
    rw [Reader.many, hround] at h
    exact nomatch h
  | case2 s s₁ hround =>
    intro as s' h
    rw [Reader.many, hround] at h
    obtain ⟨rfl, -⟩ := Prod.mk.inj (Option.some.inj h)
    exact List.forall_mem_nil _
  | case3 s b s₁ hround hlt ih =>
    intro as s' hmany
    rw [Reader.many, hround] at hmany
    simp only [hlt, if_true, Option.map_eq_some_iff] at hmany
    obtain ⟨⟨bs, s₂⟩, hrest, heq⟩ := hmany
    obtain ⟨rfl, -⟩ := Prod.mk.inj heq
    exact List.forall_mem_cons.mpr ⟨h _ _ _ hround b rfl, ih _ _ hrest⟩
  | case4 s b s₁ hround hlt =>
    intro as s' h
    rw [Reader.many, hround] at h
    simp [hlt] at h

theorem Yields.listUntil {close : Char} {trailing : Bool} {gap : Reader Unit} {element : Reader α}
    (h : Yields P element) :
    Yields (fun as => ∀ a ∈ as, P a) (listUntil close trailing gap element) := by
  refine .after fun _ => .after fun _ => .ite (.pure (List.forall_mem_nil _)) ?_
  refine .bind h fun first hfirst => .after fun _ => .bind (.many ?_) fun others hothers =>
    .pure (List.forall_mem_cons.mpr ⟨hfirst, hothers⟩)
  have hone : Yields (fun a? => ∀ a ∈ a?, P a)
      (element >>= fun a => gap >>= fun _ => Pure.pure (some a)) :=
    .bind h fun a ha => .after fun _ => .pure (by rintro _ ⟨⟩; exact ha)
  refine .after fun _ => .ite (.pure nofun) (.after fun _ => .after fun _ => .ite ?_ hone)
  exact .after fun _ => .ite (.pure nofun) hone

theorem Yields.run? {reader : Reader α} (h : Yields P reader) {text : String} {a : α}
    (hrun : run? reader text = some a) : P a := by
  rw [Reader.run?] at hrun
  split at hrun
  · obtain rfl := Option.some.inj hrun
    exact h _ _ _ ‹_›
  · exact nomatch hrun

end Converge.Reader

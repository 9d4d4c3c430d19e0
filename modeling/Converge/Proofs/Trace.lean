import Converge.Program

/-!
# Traces of programs

A program says nothing about the answers that it gets. What it can do is therefore a set of
traces: lists of calls together with the answers to them. This file says which traces are those of
a program (`Program.Ends`), and which call a program makes after a trace that is not yet complete
(`Program.Makes`), for any answers at all. Both are read off a sequence of programs part by part,
so that a property of a whole pass is put together from its steps.

A run against given collaborators has one trace (`Program.trace`), and a run can be cut into
single calls (`Program.step`), each of which may meet other collaborators than the one before.

## Main definitions

* `Program.Invocation`, `Program.Exchange`: a call, and a call with its answer.
* `Program.Ends`: a program ends with a value after a trace.
* `Program.Makes`: a program makes a call after a trace.
* `Program.trace`: the trace of a run.
* `Program.step`: the first call of a program, answered.

## Main results

* `Program.ends_bind`, `Program.makes_bind`: traces of a program after a program.
* `Program.ends_trace`: the trace of a run is a trace of the program.
* `Program.Ends.makes`, `Program.Makes.of_append`: what a trace says about its calls.
* `Program.run_step`: a run is its first call and the run of the rest.
* `Program.run_induct`: what every call preserves holds at the end of a run.
-/

namespace Converge.Program

/-! ### Calls and answers -/

/-- A call of a program on its collaborators. -/
inductive Invocation where
  | get (kind : String) (key : ObjectKey)
  | upsert (placeholder : Object) (change : Change)
  | writeStatus (object : Object)
  | record (notice : Notice)
  | provision (request : TenantRequest)

/-- A call together with its answer. -/
inductive Exchange where
  | get (kind : String) (key : ObjectKey) (answer : Except StoreError (Option Object))
  | upsert (placeholder : Object) (change : Change) (answer : Except StoreError Store.Upserted)
  | writeStatus (object : Object) (answer : Except StoreError Unit)
  | record (notice : Notice)
  | provision (request : TenantRequest) (answer : Except ProvisionError Unit)

namespace Exchange

/-- The call of an exchange. -/
def call : Exchange → Invocation
  | get kind key _ => .get kind key
  | upsert placeholder change _ => .upsert placeholder change
  | writeStatus object _ => .writeStatus object
  | record notice => .record notice
  | provision request _ => .provision request

/-- Whether an exchange is a call on the creator of tenants. -/
def isProvision : Exchange → Bool
  | provision .. => true
  | _ => false

/-- Whether an exchange is a call on the writer of statuses. -/
def isWrite : Exchange → Bool
  | writeStatus .. => true
  | _ => false

/-- Whether an exchange concerns neither tenants nor statuses. -/
def prepares (x : Exchange) : Bool := !x.isProvision && !x.isWrite

theorem isProvision_of_prepares {x : Exchange} (h : x.prepares = true) : x.isProvision = false := by
  simpa using (Bool.and_eq_true_iff.mp h).1

theorem isWrite_of_prepares {x : Exchange} (h : x.prepares = true) : x.isWrite = false := by
  simpa using (Bool.and_eq_true_iff.mp h).2

end Exchange

/-! ### Traces -/

variable {α β σ : Type}

/-- A program ends with the value `a` after the exchanges `t`. -/
def Ends : Program α → List Exchange → α → Prop
  | done b, t, a => t = [] ∧ b = a
  | get kind key next, t, a => ∃ answer t', t = .get kind key answer :: t' ∧ (next answer).Ends t' a
  | upsert placeholder change next, t, a =>
    ∃ answer t', t = .upsert placeholder change answer :: t' ∧ (next answer).Ends t' a
  | writeStatus object next, t, a =>
    ∃ answer t', t = .writeStatus object answer :: t' ∧ (next answer).Ends t' a
  | record notice next, t, a => ∃ t', t = .record notice :: t' ∧ next.Ends t' a
  | provision request next, t, a =>
    ∃ answer t', t = .provision request answer :: t' ∧ (next answer).Ends t' a

/-- A program makes the call `c` after the exchanges `t`. -/
def Makes : Program α → List Exchange → Invocation → Prop
  | done _, _, _ => False
  | get kind key next, t, c => (t = [] ∧ c = .get kind key) ∨
    ∃ answer t', t = .get kind key answer :: t' ∧ (next answer).Makes t' c
  | upsert placeholder change next, t, c => (t = [] ∧ c = .upsert placeholder change) ∨
    ∃ answer t', t = .upsert placeholder change answer :: t' ∧ (next answer).Makes t' c
  | writeStatus object next, t, c => (t = [] ∧ c = .writeStatus object) ∨
    ∃ answer t', t = .writeStatus object answer :: t' ∧ (next answer).Makes t' c
  | record notice next, t, c => (t = [] ∧ c = .record notice) ∨
    ∃ t', t = .record notice :: t' ∧ next.Makes t' c
  | provision request next, t, c => (t = [] ∧ c = .provision request) ∨
    ∃ answer t', t = .provision request answer :: t' ∧ (next answer).Makes t' c

@[simp] theorem ends_pure {a b : α} {t : List Exchange} :
    (pure a : Program α).Ends t b ↔ t = [] ∧ a = b :=
  Iff.rfl

@[simp] theorem makes_pure {a : α} {t : List Exchange} {c : Invocation} :
    (pure a : Program α).Makes t c ↔ False :=
  Iff.rfl

/-- A program after a program ends after a trace of each. -/
theorem ends_bind {p : Program α} {f : α → Program β} {t : List Exchange} {b : β} :
    (p >>= f).Ends t b ↔ ∃ t₁ t₂ a, t = t₁ ++ t₂ ∧ p.Ends t₁ a ∧ (f a).Ends t₂ b := by
  change (p.bind f).Ends t b ↔ _
  induction p generalizing t with
  | done a =>
    constructor
    · exact fun h => ⟨[], t, a, rfl, ⟨rfl, rfl⟩, h⟩
    · rintro ⟨_, t₂, _, rfl, ⟨rfl, rfl⟩, h⟩
      exact h
  | record notice next ih =>
    constructor
    · rintro ⟨t', rfl, h⟩
      obtain ⟨t₁, t₂, a, rfl, h₁, h₂⟩ := ih.mp h
      exact ⟨_ :: t₁, t₂, a, rfl, ⟨t₁, rfl, h₁⟩, h₂⟩
    · rintro ⟨_, t₂, a, rfl, ⟨t', rfl, h₁⟩, h₂⟩
      exact ⟨t' ++ t₂, rfl, ih.mpr ⟨t', t₂, a, rfl, h₁, h₂⟩⟩
  | get _ _ next ih | upsert _ _ next ih | writeStatus _ next ih | provision _ next ih =>
    constructor
    · rintro ⟨answer, t', rfl, h⟩
      obtain ⟨t₁, t₂, a, rfl, h₁, h₂⟩ := (ih answer).mp h
      exact ⟨_ :: t₁, t₂, a, rfl, ⟨answer, t₁, rfl, h₁⟩, h₂⟩
    · rintro ⟨_, t₂, a, rfl, ⟨answer, t', rfl, h₁⟩, h₂⟩
      exact ⟨answer, t' ++ t₂, rfl, (ih answer).mpr ⟨t', t₂, a, rfl, h₁, h₂⟩⟩

/-- A call of a program after a program is a call of the first, or one of the second after a trace
of the first. -/
theorem makes_bind {p : Program α} {f : α → Program β} {t : List Exchange} {c : Invocation} :
    (p >>= f).Makes t c ↔
      p.Makes t c ∨ ∃ t₁ t₂ a, t = t₁ ++ t₂ ∧ p.Ends t₁ a ∧ (f a).Makes t₂ c := by
  change (p.bind f).Makes t c ↔ _
  induction p generalizing t with
  | done a =>
    constructor
    · exact fun h => .inr ⟨[], t, a, rfl, ⟨rfl, rfl⟩, h⟩
    · rintro (h | ⟨_, t₂, _, rfl, ⟨rfl, rfl⟩, h⟩)
      · exact h.elim
      · exact h
  | record notice next ih =>
    constructor
    · rintro (h | ⟨t', rfl, h⟩)
      · exact .inl (.inl h)
      · rcases ih.mp h with h | ⟨t₁, t₂, a, rfl, h₁, h₂⟩
        · exact .inl (.inr ⟨t', rfl, h⟩)
        · exact .inr ⟨_ :: t₁, t₂, a, rfl, ⟨t₁, rfl, h₁⟩, h₂⟩
    · rintro ((h | ⟨t', rfl, h⟩) | ⟨_, t₂, a, rfl, ⟨t', rfl, h₁⟩, h₂⟩)
      · exact .inl h
      · exact .inr ⟨t', rfl, ih.mpr (.inl h)⟩
      · exact .inr ⟨t' ++ t₂, rfl, ih.mpr (.inr ⟨t', t₂, a, rfl, h₁, h₂⟩)⟩
  | get _ _ next ih | upsert _ _ next ih | writeStatus _ next ih | provision _ next ih =>
    constructor
    · rintro (h | ⟨answer, t', rfl, h⟩)
      · exact .inl (.inl h)
      · rcases (ih answer).mp h with h | ⟨t₁, t₂, a, rfl, h₁, h₂⟩
        · exact .inl (.inr ⟨answer, t', rfl, h⟩)
        · exact .inr ⟨_ :: t₁, t₂, a, rfl, ⟨answer, t₁, rfl, h₁⟩, h₂⟩
    · rintro ((h | ⟨answer, t', rfl, h⟩) | ⟨_, t₂, a, rfl, ⟨answer, t', rfl, h₁⟩, h₂⟩)
      · exact .inl h
      · exact .inr ⟨answer, t', rfl, (ih answer).mpr (.inl h)⟩
      · exact .inr ⟨answer, t' ++ t₂, rfl, (ih answer).mpr (.inr ⟨t', t₂, a, rfl, h₁, h₂⟩)⟩

/-- In a complete trace every call is made after what stands before it. -/
theorem Ends.makes {p : Program α} {t₁ t₂ : List Exchange} {x : Exchange} {a : α}
    (h : p.Ends (t₁ ++ x :: t₂) a) : p.Makes t₁ x.call := by
  induction p generalizing t₁ with
  | done b => exact absurd h.1 (by simp)
  | record notice next ih =>
    obtain ⟨t', ht, h⟩ := h
    rcases List.append_eq_cons_iff.mp ht with ⟨rfl, hx⟩ | ⟨u, rfl, rfl⟩
    · rw [List.cons.injEq] at hx
      exact .inl ⟨rfl, by rw [hx.1]; rfl⟩
    · exact .inr ⟨u, rfl, ih h⟩
  | get _ _ next ih | upsert _ _ next ih | writeStatus _ next ih | provision _ next ih =>
    obtain ⟨answer, t', ht, h⟩ := h
    rcases List.append_eq_cons_iff.mp ht with ⟨rfl, hx⟩ | ⟨u, rfl, rfl⟩
    · rw [List.cons.injEq] at hx
      exact .inl ⟨rfl, by rw [hx.1]; rfl⟩
    · exact .inr ⟨answer, u, rfl, ih answer h⟩

/-- Before a call every call is made after what stands before it. -/
theorem Makes.of_append {p : Program α} {t₁ t₂ : List Exchange} {x : Exchange} {c : Invocation}
    (h : p.Makes (t₁ ++ x :: t₂) c) : p.Makes t₁ x.call := by
  induction p generalizing t₁ with
  | done b => exact h.elim
  | record notice next ih =>
    rcases h with ⟨ht, -⟩ | ⟨t', ht, h⟩
    · exact absurd ht (by simp)
    rcases List.append_eq_cons_iff.mp ht with ⟨rfl, hx⟩ | ⟨u, rfl, rfl⟩
    · rw [List.cons.injEq] at hx
      exact .inl ⟨rfl, by rw [hx.1]; rfl⟩
    · exact .inr ⟨u, rfl, ih h⟩
  | get _ _ next ih | upsert _ _ next ih | writeStatus _ next ih | provision _ next ih =>
    rcases h with ⟨ht, -⟩ | ⟨answer, t', ht, h⟩
    · exact absurd ht (by simp)
    rcases List.append_eq_cons_iff.mp ht with ⟨rfl, hx⟩ | ⟨u, rfl, rfl⟩
    · rw [List.cons.injEq] at hx
      exact .inl ⟨rfl, by rw [hx.1]; rfl⟩
    · exact .inr ⟨answer, u, rfl, ih answer h⟩

/-! ### Runs -/

/-- The trace of a run. -/
def trace (c : Collaborators σ) : Program α → σ → List Exchange
  | done _, _ => []
  | get kind key next, s =>
    let (r, s) := c.get kind key s
    .get kind key r :: (next r).trace c s
  | upsert placeholder change next, s =>
    let (r, s) := c.upsert placeholder change s
    .upsert placeholder change r :: (next r).trace c s
  | writeStatus object next, s =>
    let (r, s) := c.writeStatus object s
    .writeStatus object r :: (next r).trace c s
  | record notice next, s => .record notice :: next.trace c (c.record notice s)
  | provision request next, s =>
    let (r, s) := c.provision request s
    .provision request r :: (next r).trace c s

/-- A run ends with its value after its trace. -/
theorem ends_trace (c : Collaborators σ) (p : Program α) (s : σ) :
    p.Ends (p.trace c s) (p.run c s).1 := by
  induction p generalizing s with
  | done a => exact ⟨rfl, rfl⟩
  | record notice next ih => exact ⟨_, rfl, ih _⟩
  | get _ _ next ih | upsert _ _ next ih | writeStatus _ next ih | provision _ next ih =>
    exact ⟨_, _, rfl, ih _ _⟩

/-- The program that is left after its first call, and the state of the world then. -/
def step (c : Collaborators σ) : Program α → σ → Program α × σ
  | done a, s => (done a, s)
  | get kind key next, s => (next (c.get kind key s).1, (c.get kind key s).2)
  | upsert placeholder change next, s =>
    (next (c.upsert placeholder change s).1, (c.upsert placeholder change s).2)
  | writeStatus object next, s =>
    (next (c.writeStatus object s).1, (c.writeStatus object s).2)
  | record notice next, s => (next, c.record notice s)
  | provision request next, s => (next (c.provision request s).1, (c.provision request s).2)

/-- The first call of a run can be taken by itself. -/
theorem run_step (c : Collaborators σ) (p : Program α) (s : σ) :
    (p.step c s).1.run c (p.step c s).2 = p.run c s := by
  cases p <;> rfl

/-- An exchange takes the world from one state to another. -/
def Exchange.Served (c : Collaborators σ) (s s' : σ) : Exchange → Prop
  | get kind key answer => c.get kind key s = (answer, s')
  | upsert placeholder change answer => c.upsert placeholder change s = (answer, s')
  | writeStatus object answer => c.writeStatus object s = (answer, s')
  | record notice => c.record notice s = s'
  | provision request answer => c.provision request s = (answer, s')

/-- A step either finds the program at its end, or serves its first call; what is left then makes
the calls that the program makes after that. -/
theorem step_cases (c : Collaborators σ) (p : Program α) (s : σ) :
    (p.step c s = (p, s) ∧ ∃ a, p = done a) ∨
      ∃ x : Exchange, x.Served c s (p.step c s).2 ∧ p.Makes [] x.call ∧
        ∀ t call, (p.step c s).1.Makes t call → p.Makes (x :: t) call := by
  cases p with
  | done a => exact .inl ⟨rfl, a, rfl⟩
  | record notice next =>
    exact .inr ⟨.record notice, rfl, .inl ⟨rfl, rfl⟩, fun t _ h => .inr ⟨t, rfl, h⟩⟩
  | get kind key next =>
    exact .inr ⟨.get kind key _, rfl, .inl ⟨rfl, rfl⟩, fun t _ h => .inr ⟨_, t, rfl, h⟩⟩
  | upsert placeholder change next =>
    exact .inr ⟨.upsert placeholder change _, rfl, .inl ⟨rfl, rfl⟩,
      fun t _ h => .inr ⟨_, t, rfl, h⟩⟩
  | writeStatus object next =>
    exact .inr ⟨.writeStatus object _, rfl, .inl ⟨rfl, rfl⟩, fun t _ h => .inr ⟨_, t, rfl, h⟩⟩
  | provision request next =>
    exact .inr ⟨.provision request _, rfl, .inl ⟨rfl, rfl⟩, fun t _ h => .inr ⟨_, t, rfl, h⟩⟩

/-- **The induction over a run.** What every call of a program preserves, whoever answers it, holds
at the end of a run and of its whole trace. -/
theorem run_induct {p : Program α} {c : Collaborators σ} {I : σ → List Exchange → Prop}
    (hserve : ∀ {w w' : σ} {t : List Exchange} {e : Exchange},
      p.Makes t e.call → e.Served c w w' → I w t → I w' (t ++ [e]))
    (w : σ) (h : I w []) : I (p.run c w).2 (p.trace c w) := by
  suffices hrest : ∀ (q : Program α) (w : σ) (t : List Exchange),
      (∀ t' call, q.Makes t' call → p.Makes (t ++ t') call) → I w t →
        I (q.run c w).2 (t ++ q.trace c w) by
    exact hrest p w [] (fun _ _ h => h) h
  intro q
  -- The first call of what is left comes after the exchanges that have been.
  have hfirst : ∀ {q : Program α} {w w' : σ} {t : List Exchange} {e : Exchange},
      (∀ t' call, q.Makes t' call → p.Makes (t ++ t') call) → q.Makes [] e.call →
        e.Served c w w' → I w t → I w' (t ++ [e]) := fun hleft hmakes hserved h =>
    hserve (by simpa using hleft [] _ hmakes) hserved h
  have hleft_append : ∀ {q q' : Program α} {t : List Exchange} {e : Exchange},
      (∀ t' call, q.Makes t' call → p.Makes (t ++ t') call) →
        (∀ t' call, q'.Makes t' call → q.Makes (e :: t') call) →
        ∀ t' call, q'.Makes t' call → p.Makes (t ++ [e] ++ t') call := by
    intro q q' t e hleft hrest t' call hcall
    rw [List.append_assoc]
    exact hleft (e :: t') call (hrest t' call hcall)
  induction q with
  | done d => exact fun w t _ h => by rwa [trace, List.append_nil]
  | record notice next ih =>
    intro w t hleft h
    rw [trace, List.append_cons]
    exact ih _ _ (hleft_append hleft fun t' _ h => .inr ⟨t', rfl, h⟩)
      (hfirst hleft (.inl ⟨rfl, rfl⟩) rfl h)
  | get _ _ next ih | upsert _ _ next ih | writeStatus _ next ih | provision _ next ih =>
    intro w t hleft h
    rw [trace, List.append_cons]
    exact ih _ _ _ (hleft_append hleft fun t' _ h => .inr ⟨_, t', rfl, h⟩)
      (hfirst hleft (.inl ⟨rfl, rfl⟩) rfl h)

end Converge.Program

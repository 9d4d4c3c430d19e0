import Converge.Store.Objects
import Converge.Pass.Error

/-!
# Programs over collaborators

A pass reaches the world through four collaborators: a store of objects, a writer of statuses, a
recorder of notices and a creator of tenants. A program is what a pass does: it ends with a value,
or makes one call and goes on with the answer, whatever that is.

## Main definitions

* `Program`: a tree of calls and answers.
* `Collaborators`: answers to all calls, given a state of the world.
* `Program.run`: a program with given collaborators.
* `fetch`: reading an object as a resource of its kind.
-/

namespace Converge

/-- What a pass does. -/
inductive Program (α : Type) where
  /-- End with a value. -/
  | done (value : α)
  /-- Read an object. -/
  | get (kind : String) (key : ObjectKey)
      (next : Except StoreError (Option Object) → Program α)
  /-- Create an object or change the one that is there. -/
  | upsert (placeholder : Object) (change : Change)
      (next : Except StoreError Store.Upserted → Program α)
  /-- Replace the status of an object. -/
  | writeStatus (object : Object) (next : Except StoreError Unit → Program α)
  /-- Record a notice. -/
  | record (notice : Notice) (next : Program α)
  /-- Create a tenant, unless it exists. -/
  | provision (request : TenantRequest) (next : Except ProvisionError Unit → Program α)

namespace Program

variable {α β : Type}

/-- A program that goes on with the value of another. -/
protected def bind : Program α → (α → Program β) → Program β
  | done a, f => f a
  | get kind key next, f => get kind key fun r => (next r).bind f
  | upsert placeholder change next, f => upsert placeholder change fun r => (next r).bind f
  | writeStatus object next, f => writeStatus object fun r => (next r).bind f
  | record notice next, f => record notice (next.bind f)
  | provision request next, f => provision request fun r => (next r).bind f

instance : Monad Program where
  pure := done
  bind := Program.bind

theorem bind_done (x : Program α) : x.bind done = x := by
  induction x with
  | done a => rfl
  | get kind key next ih => simp [Program.bind, ih]
  | upsert placeholder change next ih => simp [Program.bind, ih]
  | writeStatus object next ih => simp [Program.bind, ih]
  | record notice next ih => simp [Program.bind, ih]
  | provision request next ih => simp [Program.bind, ih]

theorem bind_bind {γ : Type} (x : Program α) (f : α → Program β) (g : β → Program γ) :
    (x.bind f).bind g = x.bind fun a => (f a).bind g := by
  induction x with
  | done a => rfl
  | get kind key next ih => simp [Program.bind, ih]
  | upsert placeholder change next ih => simp [Program.bind, ih]
  | writeStatus object next ih => simp [Program.bind, ih]
  | record notice next ih => simp [Program.bind, ih]
  | provision request next ih => simp [Program.bind, ih]

instance : LawfulMonad Program := .mk' Program bind_done (fun _ _ => rfl) bind_bind

end Program

/-- Answers to the calls of programs, in a world with states of type `σ`. -/
structure Collaborators (σ : Type) where
  get : String → ObjectKey → σ → Except StoreError (Option Object) × σ
  upsert : Object → Change → σ → Except StoreError Store.Upserted × σ
  writeStatus : Object → σ → Except StoreError Unit × σ
  record : Notice → σ → σ
  provision : TenantRequest → σ → Except ProvisionError Unit × σ

/-- The value of a program, and the state of the world afterwards. -/
def Program.run {σ α : Type} (c : Collaborators σ) : Program α → σ → α × σ
  | .done a, s => (a, s)
  | .get kind key next, s =>
    let (r, s) := c.get kind key s
    (next r).run c s
  | .upsert placeholder change next, s =>
    let (r, s) := c.upsert placeholder change s
    (next r).run c s
  | .writeStatus object next, s =>
    let (r, s) := c.writeStatus object s
    (next r).run c s
  | .record notice next, s => next.run c (c.record notice s)
  | .provision request next, s =>
    let (r, s) := c.provision request s
    (next r).run c s

namespace Program

/-! ### Single calls -/

/-- Read an object of a kind as a resource. An object that is not one of its kind is an error. -/
def fetch {σ τ : Type} (kind : ResourceKind σ τ) (key : ObjectKey) :
    Program (Except StoreError (Option (Resource σ τ))) :=
  .get kind.name key fun
    | .error e => .done (.error e)
    | .ok none => .done (.ok none)
    | .ok (some o) => .done ((kind.ofObject o).map some)

/-- Record a notice about an object. -/
def notify (subject : ObjectKey) (severity : Severity) (reason message : String) :
    Program Unit :=
  .record { subject, severity, reason, message } (.done ())

end Program

end Converge

import Converge.Catalog
import Converge.Pass.Directive
import Converge.Program

/-!
# Steps of a pass

A pass over a database is a sequence of steps. Each of them either proceeds with what it has
learned, or halts the pass with a wish for another one.

## Main definitions

* `Reconciler`: what is fixed for all passes.
* `Flow`: how a step ends.
* `Program.andThen`: a step after a step.
-/

namespace Converge

/-- What is fixed for all passes. -/
structure Reconciler where
  delays : Delays := {}
  /-- The end of the names under which storage clusters are reached. -/
  clusterDomain : String := "cluster.local"
  catalog : Catalog := Catalog.standard

/-- How a step ends. -/
inductive Flow where
  | proceed (aggregate : Aggregate)
  | halt (wish : Requeue) (aggregate : Aggregate)

namespace Flow

/-- Halt for an expected wait. -/
def wait (after : Seconds) (a : Aggregate) : Flow := halt { after } a

/-- Halt because of an error. -/
def fail (after : Seconds) (error : PassError) (a : Aggregate) : Flow :=
  halt { after, error := some error } a

end Flow

/-- A step after a step that may have halted the pass. -/
def Program.andThen (step : Program Flow) (next : Aggregate → Program Flow) : Program Flow := do
  match ← step with
  | .proceed a => next a
  | .halt wish a => return .halt wish a

namespace Aggregate

/-- Record a normal notice about the database. -/
def inform (a : Aggregate) (reason message : String) : Program Unit :=
  .notify a.key .normal reason message

/-- Record a warning about the database. -/
def warn (a : Aggregate) (reason message : String) : Program Unit :=
  .notify a.key .warning reason message

end Aggregate

end Converge

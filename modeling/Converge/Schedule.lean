import Converge.Pass.Reconcile

/-!
# The schedule of passes

The controller runs a pass over every database that is due, one after the other. After a pass the
database becomes due when the directive says so, or after the resync interval when it converged.
Databases that are no longer listed are forgotten.

Instants count seconds and fit in 63 bits. To schedule a pass at a later instant is an error.

## Main definitions

* `Schedule`: when databases are due.
* `Controller`: a reconciler and the resync interval.
* `Controller.runDue`: the passes that are due at an instant.
-/

namespace Converge

/-- A point in time, in seconds. -/
abbrev Instant := Nat

/-- The first instant that is too late to be scheduled. -/
def Instant.limit : Nat := 0x8000000000000000

/-- When the databases that had a pass are due for the next. -/
structure Schedule where
  entries : List (ObjectKey × Instant) := []

namespace Schedule

/-- When a database is due, if it had a pass. -/
def due? (s : Schedule) (key : ObjectKey) : Option Instant :=
  (s.entries.find? (·.1 == key)).map (·.2)

/-- The schedule with a database due at an instant. -/
def insert (s : Schedule) (key : ObjectKey) (instant : Instant) : Schedule :=
  ⟨(key, instant) :: s.entries.filter (·.1 != key)⟩

/-- The schedule without the databases that are not listed. -/
def retain (s : Schedule) (keys : List ObjectKey) : Schedule :=
  ⟨s.entries.filter fun e => keys.contains e.1⟩

/-- Whether a database can have a pass: it had none yet, or it is due. -/
def isDue (s : Schedule) (key : ObjectKey) (now : Instant) : Bool :=
  (s.due? key).all (· ≤ now)

end Schedule

/-- A pass would have to be scheduled at an instant that is too late. -/
structure ClockOverflow where
  deriving DecidableEq

/-- What runs the passes. -/
structure Controller where
  reconciler : Reconciler := {}
  /-- How long a converged database rests. -/
  resync : Seconds := 300

namespace Controller

variable {σ : Type}

/-- Run a pass over a database, and schedule the next. -/
def runPass (c : Controller) (world : Collaborators σ) (clock : UInt64) (now : Instant)
    (key : ObjectKey) (schedule : Schedule) (s : σ) : Except ClockOverflow (Schedule × σ) :=
  let (directive, s) := (c.reconciler.reconcile clock key).run world s
  let next := now + (directive.after?.getD c.resync).toNat
  if next < Instant.limit then .ok (schedule.insert key next, s) else .error {}

/-- Run a pass over each of the given databases that is due, and count the passes. -/
def runEach (c : Controller) (world : Collaborators σ) (clock : UInt64) (now : Instant) :
    List ObjectKey → Schedule → σ → Except ClockOverflow (Nat × Schedule × σ)
  | [], schedule, s => .ok (0, schedule, s)
  | key :: keys, schedule, s =>
    if schedule.isDue key now then do
      let (schedule, s) ← c.runPass world clock now key schedule s
      let (passes, schedule, s) ← c.runEach world clock now keys schedule s
      return (passes + 1, schedule, s)
    else c.runEach world clock now keys schedule s

/-- Run the passes that are due at an instant, when the databases with the given keys are listed
and the clock on the wall shows `clock`. -/
def runDue (c : Controller) (world : Collaborators σ) (clock : UInt64) (now : Instant)
    (listed : List ObjectKey) (schedule : Schedule) (s : σ) :
    Except ClockOverflow (Nat × Schedule × σ) :=
  c.runEach world clock now listed (schedule.retain listed) s

end Controller

end Converge

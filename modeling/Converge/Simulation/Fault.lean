import Converge.Store.Text

/-!
# Scripted faults

To see how passes behave when their collaborators fail, a list of faults stands between a pass and
the store. Each call goes through the list: a fault that matches counts the call, and when its
turn has come it changes the store, answers the call itself, or both. All calls are noted down.

## Main definitions

* `Fault`: a scripted fault.
* `Call`, `Call.describe`: a call that a pass has made.
* `FaultyStore`: a store behind faults, with the calls that were made.
* `FaultyStore.collaborators`: its answers.
-/

namespace Converge

/-! ### Calls -/

/-- A call that a pass has made on its collaborators. -/
inductive Call where
  | get (kind : String) (key : ObjectKey)
  /-- The outcome is missing when the call failed. -/
  | upsert (kind : String) (key : ObjectKey) (outcome : Option Store.Upserted)
  | status (kind : String) (key : ObjectKey) (version : UInt64)
  | event (key : ObjectKey) (severity : Severity) (reason : String)
  | provision (path : String)
  deriving DecidableEq

/-- A call as one line of text. -/
def Call.describe : Call → String
  | get kind key => s!"get {kind} {key}"
  | upsert kind key outcome =>
    s!"upsert {kind} {key} " ++ (outcome.map Store.Upserted.name).getD "failed"
  | status kind key version => s!"status {kind} {key} version {version}"
  | event key severity reason => s!"event {key} {severity} {reason}"
  | provision path => s!"provision {path}"

/-! ### Faults -/

/-- The calls that can be made to fail. -/
inductive CallSort where
  | get
  | upsert
  | status
  | provision
  deriving DecidableEq

/-- What a fault does to a call, beside changing the store. -/
inductive FaultEffect where
  /-- The call runs normally. -/
  | none
  /-- The store fails the call. -/
  | storeError (error : StoreError)
  /-- The creator of tenants fails the call. -/
  | provisionError (error : ProvisionError)
  /-- The object that is read is this one. -/
  | answer (object : Option Object)

/-- A scripted fault. -/
structure Fault where
  sort : CallSort
  /-- The kind of object that is concerned, if only one is. -/
  kind : Option String := none
  /-- The display form of the key that is concerned, or the path of the tenant. -/
  key : Option String := none
  /-- The number of matching calls that pass before the fault has its turn. -/
  skip : Nat := 0
  /-- How many times it has its turn. -/
  times : Option Nat := none
  /-- An object that is stored just before the call. -/
  put : Option Object := none
  /-- An object that is deleted just before the call. -/
  delete : Option (String × ObjectKey) := none
  effect : FaultEffect := .none
  /-- The number of matching calls so far. -/
  seen : Nat := 0

namespace Fault

/-- Whether a fault is about a call. -/
def isAbout (f : Fault) (sort : CallSort) (kind key : String) : Bool :=
  f.sort == sort && f.kind.all (· == kind) && f.key.all (· == key)

/-- Whether the next matching call is one at which the fault has its turn. -/
def hasTurn (f : Fault) : Bool :=
  f.skip ≤ f.seen && f.times.all (f.seen < f.skip + ·)

/-- The fault after one more matching call. -/
def count (f : Fault) : Fault := { f with seen := f.seen + 1 }

/-- The first fault in a list that matches a call and has its turn, and the list with the call
counted by every matching fault up to that one. -/
def select (sort : CallSort) (kind key : String) : List Fault → Option Fault × List Fault
  | [] => (none, [])
  | f :: rest =>
    if f.isAbout sort kind key then
      if f.hasTurn then (some f, f.count :: rest)
      else
        let (chosen, rest) := select sort kind key rest
        (chosen, f.count :: rest)
    else
      let (chosen, rest) := select sort kind key rest
      (chosen, f :: rest)

/-- The store as a fault leaves it just before the call. -/
def disturb (f : Fault) (t : TextStore) : TextStore :=
  let t := match f.put with
    | some o => (t.put o).2
    | none => t
  match f.delete with
  | some (kind, key) => (t.delete kind key).2
  | none => t

end Fault

/-! ### The store behind the faults -/

/-- A store behind faults, with the calls that passes have made on it, the latest first. -/
structure FaultyStore where
  store : TextStore := ∅
  faults : List Fault := []
  calls : List Call := []

namespace FaultyStore

/-- Note a call down. -/
def log (w : FaultyStore) (call : Call) : FaultyStore := { w with calls := call :: w.calls }

/-- Let a call go through the faults: its effect, and the world in which it then runs. -/
def meet (w : FaultyStore) (sort : CallSort) (kind key : String) : FaultEffect × FaultyStore :=
  match Fault.select sort kind key w.faults with
  | (none, faults) => (.none, { w with faults })
  | (some f, faults) => (f.effect, { w with faults, store := f.disturb w.store })

/-- Run an operation of the store. -/
def onStore {α : Type} (w : FaultyStore) (action : TextStore → α × TextStore) :
    α × FaultyStore :=
  let (a, store) := action w.store
  (a, { w with store })

/-- The answers of a store behind faults, whose clock shows `now`. -/
def collaborators (now : UInt64) : Collaborators FaultyStore where
  get kind key w :=
    let (effect, w) := w.meet .get kind key.display
    let w := w.log (.get kind key)
    match effect with
    | .storeError e => (.error e, w)
    | .answer o => (.ok o, w)
    | _ => w.onStore ((TextStore.collaborators now).get kind key)
  upsert placeholder change w :=
    let kind := placeholder.kind
    let key := placeholder.key
    let (effect, w) := w.meet .upsert kind key.display
    let (result, w) : Except StoreError Store.Upserted × FaultyStore := match effect with
      | .storeError e => (.error e, w)
      | _ => w.onStore ((TextStore.collaborators now).upsert placeholder change)
    (result, w.log (.upsert kind key result.toOption))
  writeStatus o w :=
    let (effect, w) := w.meet .status o.kind o.key.display
    let w := w.log (.status o.kind o.key o.metadata.version)
    match effect with
    | .storeError e => (.error e, w)
    | _ => w.onStore ((TextStore.collaborators now).writeStatus o)
  record notice w :=
    let w := w.log (.event notice.subject notice.severity notice.reason)
    { w with store := (TextStore.collaborators now).record notice w.store }
  provision request w :=
    let (effect, w) := w.meet .provision "" request.path
    let w := w.log (.provision request.path)
    match effect with
    | .provisionError e => (.error e, w)
    | _ => w.onStore ((TextStore.collaborators now).provision request)

end FaultyStore

end Converge

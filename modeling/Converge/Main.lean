import Converge.CommandLine
import Std.Time.DateTime.Timestamp

/-!
# The program

The commands on the files of the machine. The store of a directory is kept in one file, as the
text of its image, which is replaced as a whole.

## Main definitions

* `main`: executes the command that the arguments ask for.
-/

namespace Converge.Machine

/-- The file in which the store of a directory is kept. -/
def storeFile (dataDir : String) : String := dataDir ++ "/store.json"

/-- The levels of nested arrays and objects that the image of a store may have. -/
def imageNesting : Nat := 1024

/-- What the system says about a file. -/
def fileError : IO.Error → FileError
  | .noFileOrDirectory .. => .notFound
  | .alreadyExists .. => .alreadyExists
  | .inappropriateType .. => .notDirectory
  | e => .other (toString e)

/-- The answer of an action on a file. -/
def onFile {α : Type} (action : IO α) : IO (Except FileError α) := do
  match ← action.toBaseIO with
  | .ok a => return .ok a
  | .error e => return .error (fileError e)

/-- The store with a given image. -/
def storeOfImage (image : String) : Except FileError TextStore :=
  match Json.parse? image imageNesting with
  | none => .error (.other "the image of the store is damaged")
  | some value => (TextStore.codec.decode value).mapError fun e => .other e.message

/-- Open the store in a directory, which is created when it is not there. -/
def openStore (dataDir : String) : IO (Except FileError TextStore) := do
  match ← onFile (IO.FS.createDirAll dataDir) with
  | .error e => return .error e
  | .ok () =>
    match ← onFile (IO.FS.readFile (storeFile dataDir)) with
    | .ok image => return storeOfImage image
    | .error .notFound => return .ok ∅
    | .error e => return .error e

/-- Keep a store in a directory. -/
def saveStore (dataDir : String) (t : TextStore) : IO Unit := do
  let file := storeFile dataDir
  IO.FS.writeFile (file ++ ".new") (TextStore.codec.encode t).compact
  IO.FS.rename (file ++ ".new") file

/-- The time in seconds since 1970. -/
def wallClock : IO UInt64 := do
  let now ← Std.Time.Timestamp.now
  return UInt64.ofNat now.toSecondsSinceUnixEpoch.val.toNat

/-- Sleep for a number of seconds. -/
def sleep : Nat → IO Unit
  | 0 => return ()
  | n + 1 => do
    IO.sleep 1000
    sleep n

/-- Run due passes on every tick, until interrupted. There are none while some database cannot be
read. -/
partial def serve (dataDir : String) (controller : Controller) (tick : Seconds)
    (schedule : Schedule) (t : TextStore) : IO Unit := do
  sleep tick.toNat
  let now := (← IO.monoMsNow) / 1000
  let clock ← wallClock
  match t.list Database.kind.name with
  | .error _ => serve dataDir controller tick schedule t
  | .ok databases =>
    let listed := databases.map Object.key
    match controller.runDue (TextStore.collaborators clock) clock now listed schedule t with
    | .error _ => throw (.userError "a pass is due too late")
    | .ok (passes, schedule, t) =>
      if passes ≠ 0 then saveStore dataDir t
      serve dataDir controller tick schedule t

/-- The machine as commands see it. -/
def host : Host IO where
  readFile path := onFile (IO.FS.readFile path)
  openStore := openStore
  saveStore := saveStore
  serve dataDir controller tick := do
    match ← openStore dataDir with
    | .ok t => serve dataDir controller tick {} t
    | .error e => throw (.userError e.message)

/-- How the program is used. -/
def usage : String := "Usage: converge [--json-logs] COMMAND\n\n" ++
  "  run [--data-dir DIR] [--config FILE]      keep databases converging until interrupted\n" ++
  "  apply [--data-dir DIR] MANIFEST           store the objects of a manifest\n" ++
  "  status [--data-dir DIR] NAMESPACE/NAME    print a database's status and events\n"

end Converge.Machine

open Converge in
/-- Execute the command that the arguments ask for. -/
def main (arguments : List String) : IO UInt32 := do
  match Invocation.parse arguments with
  | .misuse =>
    IO.eprint Machine.usage
    return 2
  | .help =>
    IO.print Machine.usage
    return 0
  | .command c =>
    match ← (c.execute Machine.host).run with
    | .ok printed =>
      IO.print printed
      return 0
    | .error e =>
      IO.print e.printed
      IO.eprintln ("Error: " ++ e.message)
      return 1

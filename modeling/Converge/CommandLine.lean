import Converge.Json.Printer
import Converge.Manifest
import Converge.Schedule
import Converge.Settings
import Converge.Store.Text

/-!
# The command line

Three commands work on a store in a directory: `run` keeps its databases converging until it is
interrupted, `apply` stores the objects of a manifest, and `status` reports on a database.

## Main definitions

* `Command`, `Invocation.parse`: what the arguments ask for.
* `CommandError`, `CommandError.message`: why a command failed.
* `Host`: files and stores as commands see them.
* `Command.execute`: a command with its outcome.
-/

namespace Converge

/-! ### Arguments -/

/-- A command. -/
inductive Command where
  | run (dataDir : String) (config : Option String)
  | apply (dataDir manifest : String)
  | status (dataDir database : String)
  deriving DecidableEq

/-- What the arguments ask for. -/
inductive Invocation where
  | command (command : Command)
  | help
  | misuse
  deriving DecidableEq

namespace Invocation

/-- Where stores are kept unless the arguments say otherwise. -/
def defaultDataDir : String := "/var/lib/dbgrid"

/-- The arguments of a command, as far as they were read. -/
structure Arguments where
  jsonLogs : Bool := false
  dataDir : Option String := none
  config : Option String := none
  positional : Option String := none

/-- Whether an argument is an option and not a value. -/
def isOption (argument : String) : Bool := argument.startsWith "-" && argument != "-"

/-- Whether an argument asks for help. The letter of the short form may be followed by others. -/
def asksHelp (argument : String) : Bool := argument == "--help" || argument.startsWith "-h"

/-- The arguments with one that is not an option, of which a command has at most one. -/
def Arguments.addValue (acceptsValue : Bool) (value : String) (a : Arguments) : Option Arguments :=
  if acceptsValue && a.positional.isNone then some { a with positional := some value } else none

/-- Set the option of a given name, once and to a text that is not empty. -/
def setOption (acceptsConfig : Bool) (name value : String) (a : Arguments) : Option Arguments :=
  if value.isEmpty then none
  else if name == "--data-dir" && a.dataDir.isNone then some { a with dataDir := some value }
  else if name == "--config" && acceptsConfig && a.config.isNone then
    some { a with config := some value }
  else none

/-- Read the arguments that follow the name of a command. `acceptsConfig` and `acceptsValue` tell
whether the command has a configuration and a positional argument. After two hyphens no argument is
an option. The answer is `none` on misuse and `some none` when help is asked for. -/
def readArguments (acceptsConfig acceptsValue : Bool) :
    List String → Arguments → Option (Option Arguments)
  | [], a => some (some a)
  | argument :: rest, a =>
    let name := String.ofList (argument.toList.takeWhile (· != '='))
    if asksHelp argument then some none
    else if argument == "--" then
      (rest.foldlM (fun a value => Arguments.addValue acceptsValue value a) a).map some
    else if argument == "--json-logs" then
      if a.jsonLogs then none
      else readArguments acceptsConfig acceptsValue rest { a with jsonLogs := true }
    else if argument == "--data-dir" || argument == "--config" then
      match rest with
      | [] => none
      | value :: rest =>
        if isOption value then none
        else (setOption acceptsConfig argument value a).bind
          (readArguments acceptsConfig acceptsValue rest)
    else if name == "--data-dir" || name == "--config" then
      (setOption acceptsConfig name (String.ofList (argument.toList.drop (name.length + 1))) a).bind
        (readArguments acceptsConfig acceptsValue rest)
    else if isOption argument then none
    else (a.addValue acceptsValue argument).bind (readArguments acceptsConfig acceptsValue rest)

/-- The command of a given name with given arguments. -/
def commandOf (name : String) (a : Arguments) : Option Command :=
  let dataDir := a.dataDir.getD defaultDataDir
  match name, a.positional with
  | "run", none => some (.run dataDir a.config)
  | "apply", some manifest => if manifest.isEmpty then none else some (.apply dataDir manifest)
  | "status", some database => some (.status dataDir database)
  | _, _ => none

/-- The names of the commands. -/
def commandNames : List String := ["run", "apply", "status"]

/-- What the arguments ask for. -/
def parse : List String → Invocation
  | "--json-logs" :: name :: rest | name :: rest =>
    if asksHelp name then .help
    else if name == "help" then
      if rest.isEmpty || rest == ["help"] || commandNames.any fun c => rest == [c] then .help
      else .misuse
    else if commandNames.contains name then
      match readArguments (name == "run") (name != "run") rest {} with
      | none => .misuse
      | some none => .help
      | some (some a) => ((commandOf name a).map .command).getD .misuse
    else .misuse
  | [] => .misuse

end Invocation

/-! ### Errors -/

/-- Why a file or directory cannot be used. -/
inductive FileError where
  | notFound
  | alreadyExists
  | notDirectory
  | isDirectory
  | other (text : String)
  deriving DecidableEq

/-- The text of a file error. -/
def FileError.message : FileError → String
  | notFound => "No such file or directory (os error 2)"
  | alreadyExists => "File exists (os error 17)"
  | notDirectory => "Not a directory (os error 20)"
  | isDirectory => "Is a directory (os error 21)"
  | other text => text

/-- Why a command failed. -/
inductive CommandError where
  | unreadable (path : String) (cause : FileError)
  | noDirectory (path : String) (cause : FileError)
  | manifest (error : ManifestError)
  | settings (error : SettingsError)
  | badKey (text : String)
  | notFound (key : ObjectKey)
  | store (error : StoreError)
  /-- An object of a manifest could not be stored, after those before it were. -/
  | halted (printed : String) (error : StoreError)
  deriving DecidableEq

/-- The text of a command error. What was tried and why it failed are on lines of their own. -/
def CommandError.message : CommandError → String
  | unreadable path cause => s!"reading {path}\n\nCaused by:\n    {cause.message}"
  | noDirectory path cause => s!"creating {path}\n\nCaused by:\n    {cause.message}"
  | manifest error => error.message
  | settings error => error.message
  | badKey text => s!"expected namespace/name, got {Text.quoted text}"
  | notFound key => s!"database {key} not found"
  | store error | halted _ error => error.message

/-- What a command has printed before it failed. -/
def CommandError.printed : CommandError → String
  | halted printed _ => printed
  | _ => ""

/-! ### Commands -/

/-- The line that tells of a stored object. -/
def storedLine (o : Object) (version : UInt64) : String :=
  s!"{o.kind} {o.key} stored (version {version})\n"

/-- Store the objects of a manifest; what is printed, and the store afterwards. -/
def applyObjects (objects : List Object) (s : Store) : String × Store :=
  let (versions, s) := s.putAll objects
  (String.join (List.zipWith storedLine objects versions), s)

/-- Store the objects of a manifest as text, up to the first that cannot be stored: what is printed,
the error if there is one, and the store afterwards. -/
def TextStore.applyObjects : List Object → TextStore → String × Except StoreError Unit × TextStore
  | [], t => ("", .ok (), t)
  | o :: rest, t =>
    match t.put o with
    | (.ok version, t) =>
      let (printed, result, t) := applyObjects rest t
      (storedLine o version ++ printed, result, t)
    | (.error e, t) => ("", .error e, t)

/-- The report on a database: its status and its events. -/
def statusReport (key : ObjectKey) (t : TextStore) : Except CommandError Json := do
  match ← (t.find? Database.kind.name key).mapError .store with
  | none => throw (.notFound key)
  | some o =>
    let database ← (Database.kind.ofObject o).mapError .store
    return .ofMembers [
      ("database", .str key.display),
      ("status", DatabaseStatus.codec.encode database.status),
      ("events", Event.codec.list.encode (t.listEvents key))]

/-- A controller as settings describe it, with the standard catalog, and its tick interval. -/
def Controller.ofSettings (s : Settings) (catalog : Catalog) :
    Except SettingsError (Controller × Seconds) := do
  let reconciler : Reconciler :=
    { delays := ← s.delays, clusterDomain := s.clusterDomain, catalog }
  return ({ reconciler, resync := ← s.resync }, ← s.tick)

/-- Files and stores as commands see them. -/
structure Host (m : Type → Type) where
  readFile : String → m (Except FileError String)
  /-- The store in a directory, which is created when it is not there. -/
  openStore : String → m (Except FileError TextStore)
  saveStore : String → TextStore → m Unit
  /-- Keep the databases of the store in a directory converging, until interrupted. -/
  serve : String → Controller → Seconds → m Unit

namespace Command

variable {m : Type → Type} [Monad m]

/-- Read a file. -/
def read (host : Host m) (path : String) : ExceptT CommandError m String := do
  match ← host.readFile path with
  | .ok content => return content
  | .error e => throw (.unreadable path e)

/-- Open the store in a directory. -/
def openStore (host : Host m) (dataDir : String) : ExceptT CommandError m TextStore := do
  match ← host.openStore dataDir with
  | .ok t => return t
  | .error e => throw (.noDirectory dataDir e)

/-- Execute a command; the answer is what it prints. -/
def execute (host : Host m) : Command → ExceptT CommandError m String
  | run dataDir config => do
    let settings ← match config with
      | none => pure ({} : Settings)
      | some path => do
        let content ← read host path
        (Settings.parse content).mapError .settings |> MonadExcept.ofExcept
    let _ ← openStore host dataDir
    let (controller, tick) ←
      (Controller.ofSettings settings .standard).mapError .settings |> MonadExcept.ofExcept
    host.serve dataDir controller tick
    return ""
  | apply dataDir manifest => do
    let content ← read host manifest
    let objects ← (Manifest.parse content).mapError .manifest |> MonadExcept.ofExcept
    let t ← openStore host dataDir
    let (printed, result, t) := t.applyObjects objects
    host.saveStore dataDir t
    match result with
    | .ok () => return printed
    | .error e => throw (.halted printed e)
  | status dataDir database => do
    let some key := ObjectKey.parse? database | throw (.badKey database)
    let t ← openStore host dataDir
    let report ← MonadExcept.ofExcept (statusReport key t)
    return report.pretty ++ "\n"

end Command

end Converge

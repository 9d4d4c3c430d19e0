import Converge.Pass.Directive
import Converge.Text.Quoted
import Converge.Toml.Parser
import Converge.Toml.Printer

/-!
# Settings of the controller

The settings name the delays between passes, the end of the names of storage clusters, how long a
converged database rests, and how often the controller looks for due passes. Every entry may be
left out. Durations are kept as they are written; a text with a bad one is refused.

## Main definitions

* `Settings`, with its sections `RequeueSettings`, `ClusterSettings`, `DaemonSettings`.
* `Settings.delays`, `Settings.clusterDomain`, `Settings.resync`, `Settings.tick`: what they say.
* `Settings.parse`, `Settings.written`: settings from and to a configuration text.
-/

namespace Converge

/-- Delays between passes. -/
structure RequeueSettings where
  default : Option String := none
  statusUpdate : Option String := none
  tenantCreation : Option String := none
  storageAwait : Option String := none
  sharedDatabaseAwait : Option String := none
  deriving DecidableEq

/-- How storage clusters are reached. -/
structure ClusterSettings where
  domain : Option String := none
  deriving DecidableEq

/-- The rhythm of the controller. -/
structure DaemonSettings where
  resync : Option String := none
  tick : Option String := none
  deriving DecidableEq

/-- Settings of the controller. -/
structure Settings where
  requeue : Option RequeueSettings := none
  cluster : Option ClusterSettings := none
  daemon : Option DaemonSettings := none
  deriving DecidableEq

/-! ### Structured form -/

/-- An optional text that is written as null when it is not set. -/
def optionalText {ρ : Type} (name : String) (get : ρ → Option String) :
    Fields ρ (Option String) :=
  .field name get Codec.string.nullable (.optional none)

/-- The delays, each of which may be null. -/
def RequeueSettings.codec : Codec RequeueSettings := .record "RequeueConfig" <|
  pure mk
    <*> optionalText "default" default
    <*> optionalText "status_update" statusUpdate
    <*> optionalText "tenant_creation" tenantCreation
    <*> optionalText "storage_await" storageAwait
    <*> optionalText "shared_database_await" sharedDatabaseAwait

/-- The end of names, which may be null. -/
def ClusterSettings.codec : Codec ClusterSettings := .record "ClusterConfig" <|
  pure mk <*> optionalText "domain" domain

/-- The rhythm, each part of which may be null. -/
def DaemonSettings.codec : Codec DaemonSettings := .record "DaemonConfig" <|
  pure mk <*> optionalText "resync" resync <*> optionalText "tick" tick

/-- The sections, each of which may be null. -/
def Settings.codec : Codec Settings := .record "ControllerConfig" <|
  pure mk
    <*> .field "requeue" requeue RequeueSettings.codec.nullable (.optional none)
    <*> .field "cluster" cluster ClusterSettings.codec.nullable (.optional none)
    <*> .field "daemon" daemon DaemonSettings.codec.nullable (.optional none)

/-! ### What the settings say -/

/-- Why settings are refused. -/
inductive SettingsError where
  /-- The text does not denote settings. -/
  | malformed
  /-- The entry is no duration. -/
  | badDuration (entry text : String)
  deriving DecidableEq

/-- The text of a settings error. -/
def SettingsError.message : SettingsError → String
  | malformed => "malformed configuration"
  | badDuration entry text => s!"invalid duration for {entry}: {Text.quoted text}"

namespace Settings

/-- The duration of an entry, or the one that holds when it is not set. -/
def durationOr (entry : String) (text : Option String) (unset : Seconds) :
    Except SettingsError Seconds :=
  match text with
  | none => .ok unset
  | some text =>
    match Seconds.parse? text with
    | some duration => .ok duration
    | none => .error (.badDuration entry text)

/-- The delays between passes. -/
def delays (s : Settings) : Except SettingsError Delays :=
  let r := s.requeue.getD {}
  let unset : Delays := {}
  return {
    default := ← durationOr "requeue.default" r.default unset.default
    statusUpdate := ← durationOr "requeue.status_update" r.statusUpdate unset.statusUpdate
    tenantCreation := ← durationOr "requeue.tenant_creation" r.tenantCreation unset.tenantCreation
    storageAwait := ← durationOr "requeue.storage_await" r.storageAwait unset.storageAwait
    sharedDatabaseAwait :=
      ← durationOr "requeue.shared_database_await" r.sharedDatabaseAwait unset.sharedDatabaseAwait }

/-- The end of the names of storage clusters. -/
def clusterDomain (s : Settings) : String := (s.cluster.bind (·.domain)).getD "cluster.local"

/-- How long a converged database rests. -/
def resync (s : Settings) : Except SettingsError Seconds :=
  durationOr "daemon.resync" (s.daemon.bind (·.resync)) 300

/-- How often the controller looks for due passes. -/
def tick (s : Settings) : Except SettingsError Seconds :=
  durationOr "daemon.tick" (s.daemon.bind (·.tick)) 1

/-- Check that all durations are such: the delays, then the rest, then the tick. -/
def validate (s : Settings) : Except SettingsError Unit := do
  let _ ← s.delays
  let _ ← s.resync
  let _ ← s.tick

/-! ### Configuration texts -/

/-- The optional texts of a section under the given keys. A section is a table, or an array of
texts for all the keys in order; a date in place of a section sets nothing. -/
def sectionTexts (keys : List String) : Toml → Option (List (Option String))
  | .table _ entries => keys.mapM fun key =>
    match entries.lookup key with
    | none => some none
    | some (.string text) => some (some text)
    | some _ => none
  | .array elements =>
    if elements.length < keys.length then none
    else (elements.take keys.length).mapM fun
      | .string text => some (some text)
      | _ => none
  | .datetime _ => some (keys.map fun _ => none)
  | _ => none

/-- The keys of the delays. -/
def requeueKeys : List String :=
  ["default", "status_update", "tenant_creation", "storage_await", "shared_database_await"]

/-- The delays in a section. -/
def requeueOfToml (value : Toml) : Option RequeueSettings := do
  match ← sectionTexts requeueKeys value with
  | [a, b, c, d, e] => some ⟨a, b, c, d, e⟩
  | _ => none

/-- How storage clusters are reached, in a section. -/
def clusterOfToml (value : Toml) : Option ClusterSettings := do
  match ← sectionTexts ["domain"] value with
  | [domain] => some { domain }
  | _ => none

/-- The rhythm of the controller in a section. -/
def daemonOfToml (value : Toml) : Option DaemonSettings := do
  match ← sectionTexts ["resync", "tick"] value with
  | [resync, tick] => some { resync, tick }
  | _ => none

/-- The settings in a document. Unknown keys do not matter. -/
def ofToml (document : Toml) : Option Settings := do
  return {
    requeue := ← (document.member? "requeue").mapM requeueOfToml
    cluster := ← (document.member? "cluster").mapM clusterOfToml
    daemon := ← (document.member? "daemon").mapM daemonOfToml }

/-- The settings in a configuration text, in which all durations have to be such. -/
def parse (text : String) : Except SettingsError Settings := do
  match (Toml.parse? text).bind ofToml with
  | none => throw .malformed
  | some s =>
    s.validate
    return s

/-- The sections that are set, with the entries that are set. -/
def sections (s : Settings) : List (String × List (String × String)) :=
  let entry (key : String) (text : Option String) := (text.map (key, ·)).toList
  (s.requeue.map fun r => ("requeue",
      entry "default" r.default ++ entry "status_update" r.statusUpdate
        ++ entry "tenant_creation" r.tenantCreation ++ entry "storage_await" r.storageAwait
        ++ entry "shared_database_await" r.sharedDatabaseAwait)).toList
    ++ (s.cluster.map fun c => ("cluster", entry "domain" c.domain)).toList
    ++ (s.daemon.map fun d => ("daemon", entry "resync" d.resync ++ entry "tick" d.tick)).toList

/-- The settings as a configuration text. -/
def written (s : Settings) : String := Toml.writtenSections s.sections

end Settings

end Converge

import Converge.Condition
import Converge.Reference
import Converge.Resource

/-!
# Databases

A database lives in a storage cluster. Its specification says where, how many compute nodes it
runs on, and, by exactly one of three optional fields, what storage it gets: units of its own,
units that it shares with others, or a place inside another, shared database. Its status is a
state and a list of conditions.

## Main definitions

* `DatabaseSpec`, `DatabaseSpec.resolve`: the specification and the storage it asks for.
* `DatabaseStatus`, `DatabaseStatus.setCondition`: the status and how observations enter it.
* `Database`, `Database.kind`: databases as resources.
-/

namespace Converge

/-! ### Storage -/

/-- A number of storage units of one kind. -/
structure StorageUnit where
  unitKind : String
  count : UInt64
  deriving DecidableEq

/-- Storage units need both their kind and their number. -/
def StorageUnit.codec : Codec StorageUnit := .record "StorageUnit" <|
  pure mk <*> .field "unitKind" unitKind .string <*> .field "count" count .uint64

/-- Storage units for a database. -/
structure StorageResources where
  units : List StorageUnit := []
  deriving DecidableEq

/-- Storage resources without units have none. -/
def StorageResources.codec : Codec StorageResources := .record "StorageResources" <|
  pure mk <*> .field "storageUnits" units StorageUnit.codec.list (.defaulted [])

/-- A place inside a shared database. -/
structure ServerlessResources where
  sharedDatabase : Reference
  deriving DecidableEq

/-- A place inside a shared database needs the reference to that database. -/
def ServerlessResources.codec : Codec ServerlessResources := .record "ServerlessResources" <|
  pure mk <*> .field "sharedDatabaseRef" sharedDatabase Reference.codec

/-- The storage that a database asks for. -/
inductive Resources where
  /-- Units of its own. -/
  | dedicated (units : List StorageUnit)
  /-- Units that other databases can share. -/
  | shared (units : List StorageUnit)
  /-- A place inside a shared database. -/
  | serverless (sharedDatabase : Reference)
  deriving DecidableEq

/-- Whether a database runs inside another one and has no compute nodes of its own. -/
def Resources.isServerless : Resources → Bool
  | serverless _ => true
  | _ => false

/-- Why a specification does not say what storage it asks for. -/
inductive ResourcesError where
  | missing
  | ambiguous (fields : List String)
  deriving DecidableEq

/-- The text of a resources error. -/
def ResourcesError.message : ResourcesError → String
  | missing => "incorrect database resources configuration, must be one of: " ++
      "resources, sharedResources, serverlessResources"
  | ambiguous fields => "incorrect database resources configuration, only one of resources, " ++
      "sharedResources, serverlessResources may be set (found: " ++ ", ".intercalate fields ++ ")"

/-! ### Specification -/

/-- What is wanted of a database. -/
structure DatabaseSpec where
  storageCluster : Reference
  /-- The number of compute nodes. -/
  nodes : UInt32 := 0
  /-- The first part of the path of the tenant that holds the database. -/
  domain : String := "root"
  resources : Option StorageResources := none
  sharedResources : Option StorageResources := none
  serverlessResources : Option ServerlessResources := none
  deriving DecidableEq

namespace DatabaseSpec

/-- A specification needs only the reference to its storage cluster; the resources that are not set
are left out. -/
def codec : Codec DatabaseSpec := .record "DatabaseSpec" <|
  pure mk
    <*> .field "storageClusterRef" storageCluster Reference.codec
    <*> .field "nodes" nodes .uint32 (.defaulted 0)
    <*> .field "domain" domain .string (.defaulted "root")
    <*> .field "resources" resources StorageResources.codec.nullable
      (.omitted none Option.isNone)
    <*> .field "sharedResources" sharedResources StorageResources.codec.nullable
      (.omitted none Option.isNone)
    <*> .field "serverlessResources" serverlessResources ServerlessResources.codec.nullable
      (.omitted none Option.isNone)

/-- The storage fields that are set, by name, with what they ask for. -/
def requested (spec : DatabaseSpec) : List (String × Resources) :=
  (spec.resources.map fun r => ("resources", .dedicated r.units)).toList
    ++ (spec.sharedResources.map fun r => ("sharedResources", .shared r.units)).toList
    ++ (spec.serverlessResources.map fun r =>
        ("serverlessResources", .serverless r.sharedDatabase)).toList

/-- The storage that a specification asks for: exactly one field has to be set. -/
def resolve (spec : DatabaseSpec) : Except ResourcesError Resources :=
  match spec.requested with
  | [] => .error .missing
  | [(_, resources)] => .ok resources
  | fields => .error (.ambiguous (fields.map (·.1)))

end DatabaseSpec

/-! ### Status -/

/-- How far a database has come. -/
inductive DatabaseState where
  | provisioning
  | initializing
  | ready
  deriving DecidableEq

namespace DatabaseState

/-- The name of a state. -/
def name : DatabaseState → String
  | provisioning => "Provisioning"
  | initializing => "Initializing"
  | ready => "Ready"

instance : ToString DatabaseState := ⟨name⟩

/-- A state is written as its name. -/
def codec : Codec DatabaseState := .oneOf name [provisioning, initializing, ready]

end DatabaseState

/-- What is observed of a database. -/
structure DatabaseStatus where
  state : DatabaseState := .provisioning
  conditions : List Condition := []
  deriving DecidableEq

namespace DatabaseStatus

/-- A status that says nothing is that of a database at its beginning. -/
def codec : Codec DatabaseStatus := .record "DatabaseStatus" <|
  pure mk
    <*> .field "state" state DatabaseState.codec (.defaulted .provisioning)
    <*> .field "conditions" conditions Condition.codec.list (.defaulted [])

/-- The current condition of a type: the first in the list. -/
def condition? (status : DatabaseStatus) (type : String) : Option Condition :=
  status.conditions.find? (·.type == type)

/-- Whether the current condition of a type holds. -/
def isTrue (status : DatabaseStatus) (type : String) : Bool :=
  (status.condition? type).any (·.status == .holds)

/-- Revise the first condition of the type of `c`, or append `c`. -/
def insertCondition (c : Condition) : List Condition → List Condition
  | [] => [c]
  | old :: rest =>
    if old.type == c.type then old.revise c :: rest else old :: insertCondition c rest

/-- Let an observation made at time `now` enter the status, and tell whether anything changed. An
observation that carries its own time keeps it. -/
def setCondition (status : DatabaseStatus) (c : Condition) (now : UInt64) :
    DatabaseStatus × Bool :=
  let c := c.stamped now
  ({ status with conditions := insertCondition c status.conditions },
    (status.condition? c.type).all (·.differs c))

end DatabaseStatus

/-! ### Resource -/

/-- A database. -/
abbrev Database := Resource DatabaseSpec DatabaseStatus

/-- The kind of databases. -/
def Database.kind : ResourceKind DatabaseSpec DatabaseStatus where
  name := "Database"
  spec := DatabaseSpec.codec
  specPresence := .required
  status := DatabaseStatus.codec
  statusPresence := .defaulted {}

end Converge

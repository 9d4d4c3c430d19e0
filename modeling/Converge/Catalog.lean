import Converge.Aggregate
import Converge.Workload

/-!
# Objects that a database owns

A builder brings one object that a database owns to its desired shape. It runs on the object that
is stored, or on a placeholder where there is none, and overwrites what it wants to have. A
catalog lists the builders of a database in the order in which they run.

In the standard catalog every database has a service for its endpoint, and a database that is not
serverless has a workload with as many nodes as its specification asks for.

## Main definitions

* `Builder`, `Catalog`.
* `Catalog.standard`.
-/

namespace Converge

/-- Brings one object to its desired shape. -/
structure Builder where
  /-- An object with the kind and key of the one that is built. -/
  placeholder : Object
  build : Change

/-- The builders for a database, in the order in which they run. -/
abbrev Catalog := Aggregate → List Builder

namespace Catalog

/-- The label that names the database an object belongs to. -/
def databaseLabel : String := "dbgrid.io/database"

/-- The label that names the part an object plays. -/
def componentLabel : String := "dbgrid.io/component"

/-- The labels of everything that belongs to a database. -/
def selector (database : String) : Table String :=
  .ofList [(databaseLabel, database), (componentLabel, "database")]

/-- An object with a given specification, and labels beside those it has. -/
def shape (o : Object) (labels : Table String) (spec : Json) : Object :=
  { o with metadata := { o.metadata with labels := o.metadata.labels.union labels }, spec }

/-- The specification of a service: its port, and the labels of the nodes behind it. -/
def serviceSpec (port : UInt16) (selector : Table String) : Json :=
  .ofMembers [
    ("ports", .arr [.ofMembers [("name", .str "grpc"), ("port", .int port.toNat)]]),
    ("selector", Codec.texts.encode selector)]

/-- The endpoint of a database. -/
def service (a : Aggregate) : Builder where
  placeholder := .empty "Service" ⟨a.ns, a.name ++ "-grpc"⟩
  build o :=
    let labels := selector a.name
    .ok (shape o labels (serviceSpec ({} : GrpcService).port labels))

/-- The compute nodes of a database, of which there has to be one at least. -/
def workload (a : Aggregate) : Builder where
  placeholder := .empty Workload.kind.name a.key
  build o :=
    if a.spec.nodes = 0 then .error { cause := s!"database {a.key} requests zero nodes" }
    else
      let labels := selector a.name
      .ok (shape o labels (WorkloadSpec.codec.encode ⟨a.spec.nodes, labels⟩))

/-- A service for every database, and a workload for every one that is not serverless. -/
def standard : Catalog := fun a =>
  if a.resources.isServerless then [service a] else [service a, workload a]

end Catalog

end Converge

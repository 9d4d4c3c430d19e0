import Converge.Resource

/-!
# Workloads

A workload runs the compute nodes of a database. Its own controller reports how many of them are
running.

## Main definitions

* `Workload`, `Workload.kind`: workloads as resources.
-/

namespace Converge

/-- What is wanted of a workload. -/
structure WorkloadSpec where
  replicas : UInt32 := 0
  /-- Labels of the nodes that belong to the workload. -/
  selector : Table String := ∅
  deriving DecidableEq

/-- A workload without a number of nodes has none; an empty selector is left out. -/
def WorkloadSpec.codec : Codec WorkloadSpec := .record "WorkloadSpec" <|
  pure mk
    <*> .field "replicas" replicas .uint32 (.defaulted 0)
    <*> .field "selector" selector .texts (.omitted ∅ Table.isEmpty)

/-- What is observed of a workload. -/
structure WorkloadStatus where
  /-- The number of running nodes. -/
  replicas : UInt32 := 0
  deriving DecidableEq

/-- A workload that reports no nodes runs none. -/
def WorkloadStatus.codec : Codec WorkloadStatus := .record "WorkloadStatus" <|
  pure mk <*> .field "replicas" replicas .uint32 (.defaulted 0)

/-- A workload. -/
abbrev Workload := Resource WorkloadSpec WorkloadStatus

/-- The kind of workloads. -/
def Workload.kind : ResourceKind WorkloadSpec WorkloadStatus where
  name := "Workload"
  spec := WorkloadSpec.codec
  specPresence := .defaulted {}
  status := WorkloadStatus.codec
  statusPresence := .defaulted {}

end Converge

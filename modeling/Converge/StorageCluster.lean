import Converge.Resource

/-!
# Storage clusters

A storage cluster holds the tenants of databases. Its own controller reports its state; databases
wait until it is ready, and reach it at an endpoint that its name, namespace and port determine.

## Main definitions

* `StorageCluster`, `StorageCluster.kind`: storage clusters as resources.
* `StorageCluster.isReady`, `StorageCluster.endpoint`.
-/

namespace Converge

/-- How a storage cluster is reached. -/
structure GrpcService where
  port : UInt16 := 2135
  /-- Whether the connection is encrypted. -/
  tlsEnabled : Bool := false
  deriving DecidableEq

/-- A service without settings has the usual port and no encryption. -/
def GrpcService.codec : Codec GrpcService := .record "GrpcService" <|
  pure mk
    <*> .field "port" port .uint16 (.defaulted 2135)
    <*> .field "tlsEnabled" tlsEnabled .boolean (.defaulted false)

/-- What is wanted of a storage cluster. -/
structure StorageClusterSpec where
  grpc : GrpcService := {}
  deriving DecidableEq

/-- A specification may leave the service as it usually is. -/
def StorageClusterSpec.codec : Codec StorageClusterSpec := .record "StorageClusterSpec" <|
  pure mk <*> .field "grpc" grpc GrpcService.codec (.defaulted {})

/-- What is observed of a storage cluster. -/
structure StorageClusterStatus where
  state : String := ""
  deriving DecidableEq

/-- A cluster that reports no state has the empty one. -/
def StorageClusterStatus.codec : Codec StorageClusterStatus := .record "StorageClusterStatus" <|
  pure mk <*> .field "state" state .string (.defaulted "")

/-- A storage cluster. -/
abbrev StorageCluster := Resource StorageClusterSpec StorageClusterStatus

namespace StorageCluster

/-- The kind of storage clusters. -/
def kind : ResourceKind StorageClusterSpec StorageClusterStatus where
  name := "StorageCluster"
  spec := StorageClusterSpec.codec
  specPresence := .defaulted {}
  status := StorageClusterStatus.codec
  statusPresence := .defaulted {}

/-- The state in which databases can use a storage cluster. -/
def readyState : String := "Ready"

/-- Whether databases can use a storage cluster. -/
def isReady (cluster : StorageCluster) : Bool := cluster.status.state == readyState

/-- Where a storage cluster is reached when names end in `domain`. -/
def endpoint (cluster : StorageCluster) (domain : String) : String :=
  let scheme := if cluster.spec.grpc.tlsEnabled then "grpcs" else "grpc"
  let m := cluster.metadata
  s!"{scheme}://{m.name}-grpc.{m.ns}.svc.{domain}:{cluster.spec.grpc.port}"

end StorageCluster

end Converge

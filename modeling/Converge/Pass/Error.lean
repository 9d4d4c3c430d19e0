import Converge.Tenant

/-!
# Errors of a pass

What can go wrong in a pass over a database, and what kind of trouble it is.

## Main definitions

* `PassError`, `PassError.message`.
* `PassError.category`: the kind of trouble.
-/

namespace Converge

/-- Why a pass failed. -/
inductive PassError where
  /-- An object could not be read. -/
  | fetch (kind : String) (key : ObjectKey) (source : StoreError)
  /-- An object that the database owns could not be brought to its shape. -/
  | sync (kind : String) (key : ObjectKey) (source : StoreError)
  /-- The database does not say what storage it asks for. -/
  | configuration (source : ResourcesError)
  /-- The tenant was not created. -/
  | provisioning (path : String) (source : ProvisionError)
  /-- The status could not be written. -/
  | statusUpdate (key : ObjectKey) (source : StoreError)
  /-- The database was gone when its status was to be written. -/
  | statusTargetMissing (key : ObjectKey)
  deriving DecidableEq

/-- A kind of trouble. -/
inductive PassError.Category where
  | fetch
  | configuration
  | build
  | provisioning
  | conflict
  deriving DecidableEq

namespace PassError

/-- The name of a kind of trouble. -/
def Category.name : Category → String
  | fetch => "fetch"
  | configuration => "configuration"
  | build => "build"
  | provisioning => "provisioning"
  | conflict => "conflict"

/-- The text of an error. -/
def message : PassError → String
  | fetch kind key source => s!"failed to get {kind} {key}: {source.message}"
  | sync kind key source => s!"failed to sync {kind} {key}: {source.message}"
  | configuration source => source.message
  | provisioning path source => s!"failed to create tenant {path}: {source.message}"
  | statusUpdate key source => s!"failed to update status of {key}: {source.message}"
  | statusTargetMissing key => s!"database {key} disappeared before its status could be written"

/-- What kind of trouble an error is. -/
def category : PassError → Category
  | fetch .. | statusTargetMissing _ => .fetch
  | sync _ _ (.mutate _) => .build
  | sync _ _ source | statusUpdate _ source => if source.isConflict then .conflict else .fetch
  | configuration _ => .configuration
  | provisioning .. => .provisioning

end PassError

end Converge

import Converge.Binary64
import Converge.Table

/-!
# Values of configuration texts

The values of TOML 1.0. A table remembers how it came into being, because that decides whether
later parts of the text may add to it.

## Main definitions

* `Toml`: a value.
* `Toml.Origin`: how a table came into being.
* `Toml.member?`: an entry of a table.
-/

namespace Converge

/-- How a table came into being. -/
inductive Toml.Origin where
  /-- Written between braces. -/
  | braces
  /-- Named by a header. -/
  | header
  /-- Named by a header only as the parent of another table. -/
  | implied
  /-- Named by a dotted key. -/
  | dotted
  deriving DecidableEq

/-- A value of a configuration text. -/
inductive Toml where
  | string (value : String)
  | integer (value : Int)
  | float (value : Binary64)
  | boolean (value : Bool)
  /-- A date, a time of day, or both, as written. -/
  | datetime (text : String)
  | array (elements : List Toml)
  | table (origin : Toml.Origin) (entries : List (String × Toml))
  /-- Tables named by the same header in double brackets. -/
  | tables (elements : List (List (String × Toml)))

namespace Toml

instance : Inhabited Toml := ⟨array []⟩

/-- The entries of a table, in the order in which they were written. -/
abbrev Entries := List (String × Toml)

/-- The entry of a table with the given key. -/
def member? (key : String) : Toml → Option Toml
  | table _ entries => entries.lookup key
  | _ => none

end Toml

end Converge

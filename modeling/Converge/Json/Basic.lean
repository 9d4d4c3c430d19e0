import Converge.Binary64
import Converge.Table

/-!
# Structured values

The values of JSON. Integers and floating-point numbers are different values, and the members of
an object are listed in increasing order of their names, each name once, wherever this library
builds an object.

## Main definitions

* `Json`: a structured value.
* `Json.ofMembers`: the object with given members.
* `Json.member?`: a member of an object.
* `Json.same`: equality of values, where the two floating-point zeros count as one.

## Main results

* `Json.same_self`: every value is the same as itself.
-/

namespace Converge

/-- A structured value. -/
inductive Json where
  | null
  | bool (value : Bool)
  | int (value : Int)
  | float (value : Binary64)
  | str (value : String)
  | arr (elements : List Json)
  | obj (members : List (String × Json))

namespace Json

instance : Inhabited Json := ⟨null⟩

/-- Whether a value is null. -/
def isNull : Json → Bool
  | null => true
  | _ => false

/-- The object with the given members, sorted by name; of two with one name the later counts. -/
def ofMembers (members : List (String × Json)) : Json := obj (Table.ofList members).entries

/-- The member of an object with the given name; other values have no members. -/
def member? (name : String) : Json → Option Json
  | obj members => members.lookup name
  | _ => none

/-- The member of an object with the given name, and null where there is none. -/
def member (name : String) (value : Json) : Json := (value.member? name).getD null

/-! ### Equality -/

mutual

/-- Equality of values. Numbers are compared as numbers of their own kind, so `2` and `2.0`
differ and the two floating-point zeros are equal. -/
def same : Json → Json → Bool
  | null, null => true
  | bool a, bool b => a == b
  | int a, int b => a == b
  | float a, float b => a.same b
  | str a, str b => a == b
  | arr a, arr b => sameElements a b
  | obj a, obj b => sameMembers a b
  | _, _ => false

/-- Equality of lists of values. -/
def sameElements : List Json → List Json → Bool
  | [], [] => true
  | a :: as, b :: bs => a.same b && sameElements as bs
  | _, _ => false

/-- Equality of lists of named values. -/
def sameMembers : List (String × Json) → List (String × Json) → Bool
  | [], [] => true
  | (k, a) :: as, (l, b) :: bs => k == l && a.same b && sameMembers as bs
  | _, _ => false

end

mutual

/-- Every value is the same as itself. -/
theorem same_self : ∀ a : Json, a.same a = true
  | null => rfl
  | bool _ | int _ | str _ => by simp [same]
  | float x => by simp [same, x.same_self]
  | arr as => by simp [same, sameElements_self as]
  | obj as => by simp [same, sameMembers_self as]

theorem sameElements_self : ∀ as : List Json, sameElements as as = true
  | [] => rfl
  | a :: as => by simp [sameElements, same_self a, sameElements_self as]

theorem sameMembers_self : ∀ as : List (String × Json), sameMembers as as = true
  | [] => rfl
  | (_, a) :: as => by simp [sameMembers, same_self a, sameMembers_self as]

end

end Json

end Converge

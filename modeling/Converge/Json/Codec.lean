import Converge.Json.Basic
import Converge.Text.Quoted

/-!
# Typed values in structured form

A codec writes the values of a type as structured values and reads them back. Reading is strict:
an integer is not a floating-point number, a number has to fit its type, and what does not decode
is an error that says what was found and what was expected.

## Main definitions

* `DecodeError`, `DecodeError.message`: why a structured value does not decode.
* `Codec`: a pair of an encoder and a decoder.
* `Codec.Lawful`: decoding an encoded value gives it back.
* `Codec.string`, `Codec.boolean`, `Codec.uint16`, `Codec.uint32`, `Codec.uint64`, `Codec.json`:
  codecs of simple types.
* `Codec.list`, `Codec.nullable`, `Codec.table`, `Codec.oneOf`: codecs built from others.

## Main results

* `Codec.list_lawful`, `Codec.nullable_lawful`: lawful codecs give lawful codecs.
-/

namespace Converge

/-! ### Errors -/

/-- What kind of value was found where another was expected. -/
inductive Found where
  | null
  | boolean (value : Bool)
  | integer (value : Int)
  | float (value : Binary64)
  | string (value : String)
  | sequence
  | map
  deriving DecidableEq

/-- The kind of a structured value. -/
def Json.found : Json → Found
  | .null => .null
  | .bool b => .boolean b
  | .int n => .integer n
  | .float x => .float x
  | .str s => .string s
  | .arr _ => .sequence
  | .obj _ => .map

/-- A found value as error texts name it. -/
def Found.describe : Found → String
  | null => "null"
  | boolean b => s!"boolean `{b}`"
  | integer n => s!"integer `{n}`"
  | float x => s!"floating point `{x.positional}`"
  | string s => s!"string {Text.quoted s}"
  | sequence => "sequence"
  | map => "map"

/-- Why a structured value does not decode. -/
inductive DecodeError where
  /-- The value is of another kind. -/
  | wrongType (found : Found) (expected : String)
  /-- The value is of the right kind but not allowed. -/
  | wrongValue (found : Found) (expected : String)
  /-- An array has another number of elements. -/
  | wrongLength (length : Nat) (expected : String)
  /-- A member that is not optional is absent. -/
  | missingField (name : String)
  /-- A text names none of the alternatives. -/
  | unknownVariant (name : String) (alternatives : List String)
  deriving DecidableEq

/-- The alternatives that a text could have named. -/
def DecodeError.choices : List String → String
  | [] => "there are no variants"
  | [a] => s!"expected `{a}`"
  | [a, b] => s!"expected `{a}` or `{b}`"
  | names => "expected one of " ++ ", ".intercalate (names.map fun n => s!"`{n}`")

/-- The text of a decoding error. -/
def DecodeError.message : DecodeError → String
  | wrongType found expected => s!"invalid type: {found.describe}, expected {expected}"
  | wrongValue found expected => s!"invalid value: {found.describe}, expected {expected}"
  | wrongLength length expected => s!"invalid length {length}, expected {expected}"
  | missingField name => s!"missing field `{name}`"
  | unknownVariant name alternatives => s!"unknown variant `{name}`, {choices alternatives}"

/-! ### Codecs -/

/-- An encoder of a type into structured values and a decoder from them. -/
structure Codec (α : Type) where
  encode : α → Json
  decode : Json → Except DecodeError α

namespace Codec

variable {α : Type}

/-- Decoding an encoded value gives it back. -/
def Lawful (c : Codec α) : Prop := ∀ a, c.decode (c.encode a) = .ok a

/-- Any structured value, as it is. -/
def json : Codec Json := ⟨id, .ok⟩

/-- Texts. -/
def string : Codec String where
  encode := .str
  decode
    | .str s => .ok s
    | j => .error (.wrongType j.found "a string")

/-- Truth values. -/
def boolean : Codec Bool where
  encode := .bool
  decode
    | .bool b => .ok b
    | j => .error (.wrongType j.found "a boolean")

/-- The natural number below `bound` that a structured value stands for. -/
def natBelow (bound : Nat) (expected : String) : Json → Except DecodeError Nat
  | .int n =>
    if 0 ≤ n ∧ n < bound then .ok n.toNat
    else .error (.wrongValue (.integer n) expected)
  | j => .error (.wrongType j.found expected)

/-- A type of numbers below `bound`. -/
def word (bound : Nat) (expected : String) (toNat : α → Nat) (ofNat : Nat → α) : Codec α where
  encode a := .int (toNat a)
  decode j := (natBelow bound expected j).map ofNat

/-- Numbers of sixteen bits. -/
def uint16 : Codec UInt16 := word UInt16.size "u16" UInt16.toNat UInt16.ofNat

/-- Numbers of 32 bits. -/
def uint32 : Codec UInt32 := word UInt32.size "u32" UInt32.toNat UInt32.ofNat

/-- Numbers of 64 bits. -/
def uint64 : Codec UInt64 := word UInt64.size "u64" UInt64.toNat UInt64.ofNat

/-- Natural numbers of any size. -/
def nat : Codec Nat where
  encode n := .int n
  decode
    | .int n => if 0 ≤ n then .ok n.toNat else .error (.wrongValue (.integer n) "a natural number")
    | j => .error (.wrongType j.found "a natural number")

/-- A value, or null for none. -/
def nullable (c : Codec α) : Codec (Option α) where
  encode
    | none => .null
    | some a => c.encode a
  decode
    | .null => .ok none
    | j => (c.decode j).map some

/-- Lists, as arrays whose elements are decoded from the front. -/
def list (c : Codec α) : Codec (List α) where
  encode as := .arr (as.map c.encode)
  decode
    | .arr elements => elements.mapM c.decode
    | j => .error (.wrongType j.found "a sequence")

/-- Tables, as objects whose members are decoded in the order of their names. -/
def table (c : Codec α) : Codec (Table α) where
  encode t := .obj (t.map c.encode).entries
  decode
    | .obj members => do
      let entries ← members.mapM fun m => (c.decode m.2).map (m.1, ·)
      return Table.ofList entries
    | j => .error (.wrongType j.found "a map")

/-- Tables of texts. -/
def texts : Codec (Table String) := string.table

/-- Finitely many values, each under a name: the name as a text, or an object that has the name
as its only member, with the value null. -/
def oneOf (name : α → String) (values : List α) : Codec α where
  encode a := .str (name a)
  decode j :=
    let find (s : String) : Except DecodeError α :=
      match values.find? fun a => name a == s with
      | some a => .ok a
      | none => .error (.unknownVariant s (values.map name))
    match j with
    | .str s => find s
    | .obj [(s, content)] => do
      let a ← find s
      match content with
      | .null => return a
      | content => .error (.wrongType content.found "unit")
    | .obj _ => .error (.wrongValue .map "map with a single key")
    | j => .error (.wrongType j.found "string or map")

/-! ### Laws -/

theorem json_lawful : json.Lawful := fun _ => rfl

theorem string_lawful : string.Lawful := fun _ => rfl

theorem boolean_lawful : boolean.Lawful := fun _ => rfl

/-- A number in range decodes to itself. -/
theorem natBelow_int {n bound : Nat} (h : n < bound) (expected : String) :
    natBelow bound expected (.int n) = .ok n := by
  have hn : 0 ≤ (n : Int) ∧ (n : Int) < (bound : Int) := ⟨Int.natCast_nonneg n, by exact_mod_cast h⟩
  rw [natBelow, if_pos hn, Int.toNat_natCast]

/-- Numbers below a bound decode to themselves. -/
theorem word_lawful {bound : Nat} {toNat : α → Nat} {ofNat : Nat → α} (expected : String)
    (hlt : ∀ a, toNat a < bound) (hinv : ∀ a, ofNat (toNat a) = a) :
    (word bound expected toNat ofNat).Lawful := fun a => by
  simp only [word, natBelow_int (hlt a), Except.map, hinv]

theorem uint16_lawful : uint16.Lawful :=
  word_lawful "u16" (fun n => n.toNat_lt_size) fun _ => UInt16.ofNat_toNat

theorem uint32_lawful : uint32.Lawful :=
  word_lawful "u32" (fun n => n.toNat_lt_size) fun _ => UInt32.ofNat_toNat

theorem uint64_lawful : uint64.Lawful :=
  word_lawful "u64" (fun n => n.toNat_lt_size) fun _ => UInt64.ofNat_toNat

/-- A lawful codec that never writes null stays lawful when null stands for none. -/
theorem nullable_lawful {c : Codec α} (h : c.Lawful) (hne : ∀ a, c.encode a ≠ .null) :
    c.nullable.Lawful := fun o => by
  cases o with
  | none => rfl
  | some a =>
    have hd := h a
    have hn := hne a
    simp only [nullable]
    rw [hd, Except.map]

theorem nat_lawful : nat.Lawful := fun n => by simp [nat]

theorem list_lawful {c : Codec α} (h : c.Lawful) : c.list.Lawful := fun as => by
  change (as.map c.encode).mapM c.decode = .ok as
  induction as with
  | nil => rfl
  | cons a as ih =>
    rw [List.map_cons, List.mapM_cons, h a, ih]
    rfl

end Codec

end Converge

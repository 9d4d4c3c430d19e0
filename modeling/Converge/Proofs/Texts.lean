import Converge.Proofs.Codecs
import Converge.Proofs.JsonText
import Converge.Store.Text

/-!
# What is read from the texts of a store

Metadata, events, tenants, specifications and statuses of known types hold texts, truth values and
numbers of 64 bits at most, in few levels, so that they are read as they were written. Of an object
the same is true but for its specification and status, which can be any values. What is read of them
is what is read of their own texts.

## Main definitions

* `Codec.WritesPlain`: codecs that write plain values.
* `Object.reread`: an object as it is read from its text.
* `Object.Steady`: an object that is read as it is.

## Main results

* `Event.ofText_toText`, `TenantRequest.ofText_toText`: events and tenants are read back.
* `Object.ofText_toText`: what is read from the text of an object.
-/

namespace Converge

/-! ### Plain values -/

/-- The fields are written as plain values. -/
def Fields.WritePlain {ρ α : Type} (f : Fields ρ α) (depth : Nat) : Prop :=
  ∀ r, ∀ m ∈ f.write r, m.2.Plain depth

namespace Codec

variable {α ρ : Type} {c : Codec α} {depth depth' : Nat}

/-- The codec writes plain values with at most `depth` levels. -/
def WritesPlain (c : Codec α) (depth : Nat) : Prop := ∀ a, (c.encode a).Plain depth

theorem WritesPlain.mono (h : c.WritesPlain depth) (hle : depth ≤ depth') : c.WritesPlain depth' :=
  fun a => (h a).mono hle

theorem string_writesPlain : string.WritesPlain 0 := fun s => .str s

theorem boolean_writesPlain : boolean.WritesPlain 0 := fun b => .bool b

theorem word_writesPlain {bound : Nat} {expected : String} {toNat : α → Nat} {ofNat : Nat → α}
    (hlt : ∀ a, toNat a < bound) (hbound : bound ≤ 2 ^ 64) :
    (word bound expected toNat ofNat).WritesPlain 0 := fun a =>
  .int (by omega) (by have := hlt a; omega)

theorem uint32_writesPlain : uint32.WritesPlain 0 :=
  word_writesPlain (fun n => n.toNat_lt_size) (by decide)

theorem uint64_writesPlain : uint64.WritesPlain 0 :=
  word_writesPlain (fun n => n.toNat_lt_size) (by decide)

theorem oneOf_writesPlain {name : α → String} {values : List α} :
    (oneOf name values).WritesPlain 0 := fun a => .str (name a)

theorem nullable_writesPlain (h : c.WritesPlain depth) : c.nullable.WritesPlain depth
  | none => .null
  | some a => h a

theorem list_writesPlain (h : c.WritesPlain depth) : c.list.WritesPlain (depth + 1) := fun _ =>
  .arr (List.forall_mem_map.mpr fun a _ => h a)

theorem table_writesPlain (h : c.WritesPlain depth) : c.table.WritesPlain (depth + 1) := fun _ =>
  .obj (List.forall_mem_map.mpr fun m _ => h m.2)

theorem record_writesPlain {name : String} {fields : Fields ρ ρ} (h : fields.WritePlain depth) :
    (record name fields).WritesPlain (depth + 1) := fun r => .ofMembers (h r)

end Codec

namespace Fields

variable {ρ α β : Type} {depth : Nat}

theorem writePlain_pure (a : α) : (pure a : Fields ρ α).WritePlain depth :=
  fun _ => List.forall_mem_nil _

/-- A field of a codec that writes plain values can be added. -/
theorem WritePlain.field {f : Fields ρ (α → β)} (hf : f.WritePlain depth) {name : String}
    {get : ρ → α} {codec : Codec α} {presence : Presence α} {depth' : Nat}
    (hcodec : codec.WritesPlain depth') (hle : depth' ≤ depth) :
    (f <*> .field name get codec presence).WritePlain depth := by
  intro r m hm
  rcases List.mem_append.mp hm with hm | hm
  · exact hf r m hm
  · simp only [Fields.field] at hm
    split at hm
    · exact absurd hm List.not_mem_nil
    · obtain rfl := List.mem_singleton.mp hm
      exact (hcodec (get r)).mono hle

end Fields

open Codec Fields

theorem OwnerReference.codec_writesPlain : OwnerReference.codec.WritesPlain 1 :=
  record_writesPlain <| (((writePlain_pure mk).field
    string_writesPlain (by decide)).field
    string_writesPlain (by decide)).field
    boolean_writesPlain (by decide)

theorem Metadata.codec_writesPlain : Metadata.codec.WritesPlain 2 :=
  record_writesPlain <| (((((writePlain_pure mk).field
    string_writesPlain (by decide)).field
    string_writesPlain (by decide)).field
    uint64_writesPlain (by decide)).field
    (table_writesPlain string_writesPlain) (by decide)).field
    (nullable_writesPlain OwnerReference.codec_writesPlain) (by decide)

theorem Condition.codec_writesPlain : Condition.codec.WritesPlain 1 :=
  record_writesPlain <| (((((writePlain_pure mk).field
    string_writesPlain (by decide)).field
    oneOf_writesPlain (by decide)).field
    string_writesPlain (by decide)).field
    string_writesPlain (by decide)).field
    uint64_writesPlain (by decide)

theorem DatabaseStatus.codec_writesPlain : DatabaseStatus.codec.WritesPlain 3 :=
  record_writesPlain <| ((writePlain_pure mk).field
    oneOf_writesPlain (by decide)).field
    (list_writesPlain Condition.codec_writesPlain) (by decide)

theorem WorkloadSpec.codec_writesPlain : WorkloadSpec.codec.WritesPlain 2 :=
  record_writesPlain <| ((writePlain_pure mk).field
    uint32_writesPlain (by decide)).field
    (table_writesPlain string_writesPlain) (by decide)

theorem ObjectKey.codec_writesPlain : ObjectKey.codec.WritesPlain 1 :=
  record_writesPlain <| ((writePlain_pure mk).field
    string_writesPlain (by decide)).field
    string_writesPlain (by decide)

theorem StorageUnit.codec_writesPlain : StorageUnit.codec.WritesPlain 1 :=
  record_writesPlain <| ((writePlain_pure mk).field
    string_writesPlain (by decide)).field
    uint64_writesPlain (by decide)

theorem Event.codec_writesPlain : Event.codec.WritesPlain 2 :=
  record_writesPlain <| ((((((writePlain_pure ofParts).field
    ObjectKey.codec_writesPlain (by decide)).field
    oneOf_writesPlain (by decide)).field
    string_writesPlain (by decide)).field
    string_writesPlain (by decide)).field
    uint64_writesPlain (by decide)).field
    uint32_writesPlain (by decide)

theorem TenantRequest.codec_writesPlain : TenantRequest.codec.WritesPlain 3 :=
  record_writesPlain <| ((((((writePlain_pure mk).field
    string_writesPlain (by decide)).field
    string_writesPlain (by decide)).field
    (list_writesPlain StorageUnit.codec_writesPlain) (by decide)).field
    boolean_writesPlain (by decide)).field
    (nullable_writesPlain string_writesPlain) (by decide)).field
    boolean_writesPlain (by decide)

/-! ### Texts -/

/-- A plain value of a lawful codec is read from its text. -/
theorem Codec.ofText_toText {α : Type} {c : Codec α} (hlawful : c.Lawful) {a : α} {depth : Nat}
    (hplain : (c.encode a).Plain depth) (hdepth : depth ≤ nestingLimit) :
    c.ofText (c.toText a) = .ok a := by
  rw [ofText, toText, Json.parse?_compact, (hplain.mono hdepth).reread]
  dsimp only
  rw [hlawful a]
  rfl

/-- **Events are read back.** -/
theorem Event.ofText_toText (e : Event) : Event.codec.ofText (Event.codec.toText e) = .ok e :=
  Codec.ofText_toText codec_lawful (codec_writesPlain e) (by decide)

/-- **Tenants are read back.** -/
theorem TenantRequest.ofText_toText (request : TenantRequest) :
    TenantRequest.codec.ofText (TenantRequest.codec.toText request) = .ok request :=
  Codec.ofText_toText codec_lawful (codec_writesPlain request) (by decide)

/-- The levels that the specification and status of an object may have in its text. -/
def Object.nestingLimit : Nat := Codec.nestingLimit - 1

namespace Object

/-- The object as it is read from its text. -/
def reread (o : Object) : Option Object := do
  let spec ← o.spec.reread nestingLimit
  let status ← o.status.reread nestingLimit
  return { o with spec, status }

/-- The object is read as it is. -/
def Steady (o : Object) : Prop := o.reread = some o

theorem encode_eq (o : Object) : codec.encode o = .obj [("kind", .str o.kind),
    ("metadata", Metadata.codec.encode o.metadata), ("spec", o.spec), ("status", o.status)] := by
  have hkeys : ["kind", "metadata", "spec", "status"].Pairwise (· < ·) := by decide
  exact Json.ofMembers_eq_obj hkeys

theorem reread_encode (o : Object) :
    (codec.encode o).reread Codec.nestingLimit = o.reread.map codec.encode := by
  have hmetadata := ((Metadata.codec_writesPlain o.metadata).mono (by decide :
    2 ≤ nestingLimit)).reread
  have hlimit : Codec.nestingLimit = nestingLimit + 1 := rfl
  rw [encode_eq, hlimit, Json.reread, reread]
  simp only [Json.rereadMembers, hmetadata, Json.reread]
  cases o.spec.reread nestingLimit with
  | none => rfl
  | some spec => cases o.status.reread nestingLimit <;> rfl

/-- **What is read from the text of an object.** -/
theorem ofText_toText (o : Object) : codec.ofText (codec.toText o) =
    match o.reread with
    | some o' => .ok o'
    | none => .error (.reported .deserialization "malformed text") := by
  rw [Codec.ofText, Codec.toText, Json.parse?_compact, reread_encode]
  cases o.reread with
  | none => rfl
  | some o' =>
    simp only [Option.map_some, codec_lawful o']
    rfl

end Object

end Converge

import Converge.Proofs.Resources
import Converge.Store.Text

/-!
# Lawful codecs

What is written is read back: the codecs of specifications and statuses, of whatever a store keeps,
and of the store as a whole are lawful. Every record is its fields in a row, under different names,
and a field that is left out has the value that its absence means.

## Main results

* `DatabaseSpec.codec_lawful`, `StorageClusterSpec.codec_lawful`: specifications.
* `Object.codec_lawful`, `TenantRequest.codec_lawful`, `Event.codec_lawful`: what a store keeps.
* `Store.codec_lawful`, `TextStore.codec_lawful`: the image of a store.
-/

namespace Converge

open Codec Presence

/-! ### Specifications and statuses -/

theorem Reference.codec_lawful : Reference.codec.Lawful :=
  record_lawful (fun r => ((Fields.faithful_pure r mk).field
    string_lawful sound_required (by decide)).field
    (nullable_lawful string_lawful fun _ => nofun) sound_omitted_none (by decide)) (by decide)

theorem StorageUnit.codec_lawful : StorageUnit.codec.Lawful :=
  record_lawful (fun r => ((Fields.faithful_pure r mk).field
    string_lawful sound_required (by decide)).field
    uint64_lawful sound_required (by decide)) (by decide)

theorem StorageResources.codec_lawful : StorageResources.codec.Lawful :=
  record_lawful (fun r => (Fields.faithful_pure r mk).field
    (list_lawful StorageUnit.codec_lawful) (sound_defaulted _) (by decide)) (by decide)

theorem ServerlessResources.codec_lawful : ServerlessResources.codec.Lawful :=
  record_lawful (fun r => (Fields.faithful_pure r mk).field
    Reference.codec_lawful sound_required (by decide)) (by decide)

/-- The specification of a database is read back as it was written. -/
theorem DatabaseSpec.codec_lawful : DatabaseSpec.codec.Lawful :=
  record_lawful (fun r => ((((((Fields.faithful_pure r mk).field
    Reference.codec_lawful sound_required (by decide)).field
    uint32_lawful (sound_defaulted _) (by decide)).field
    string_lawful (sound_defaulted _) (by decide)).field
    (nullable_lawful StorageResources.codec_lawful fun _ => record_encode_ne_null _ _ _)
    sound_omitted_none (by decide)).field
    (nullable_lawful StorageResources.codec_lawful fun _ => record_encode_ne_null _ _ _)
    sound_omitted_none (by decide)).field
    (nullable_lawful ServerlessResources.codec_lawful fun _ => record_encode_ne_null _ _ _)
    sound_omitted_none (by decide)) (by decide)

theorem GrpcService.codec_lawful : GrpcService.codec.Lawful :=
  record_lawful (fun r => ((Fields.faithful_pure r mk).field
    uint16_lawful (sound_defaulted _) (by decide)).field
    boolean_lawful (sound_defaulted _) (by decide)) (by decide)

theorem StorageClusterSpec.codec_lawful : StorageClusterSpec.codec.Lawful :=
  record_lawful (fun r => (Fields.faithful_pure r mk).field
    GrpcService.codec_lawful (sound_defaulted _) (by decide)) (by decide)

theorem StorageClusterStatus.codec_lawful : StorageClusterStatus.codec.Lawful :=
  record_lawful (fun r => (Fields.faithful_pure r mk).field
    string_lawful (sound_defaulted _) (by decide)) (by decide)

theorem WorkloadStatus.codec_lawful : WorkloadStatus.codec.Lawful :=
  record_lawful (fun r => (Fields.faithful_pure r mk).field
    uint32_lawful (sound_defaulted _) (by decide)) (by decide)

/-! ### What a store keeps -/

/-- An object is read back as it was written, whatever its specification and status are. -/
theorem Object.codec_lawful : Object.codec.Lawful :=
  record_lawful (fun r => ((((Fields.faithful_pure r mk).field
    string_lawful sound_required (by decide)).field
    Metadata.codec_lawful sound_required (by decide)).field
    json_lawful (sound_defaulted _) (by decide)).field
    json_lawful (sound_defaulted _) (by decide)) (by decide)

theorem TenantRequest.codec_lawful : TenantRequest.codec.Lawful :=
  record_lawful (fun r => ((((((Fields.faithful_pure r mk).field
    string_lawful sound_required (by decide)).field
    string_lawful sound_required (by decide)).field
    (list_lawful StorageUnit.codec_lawful) sound_required (by decide)).field
    boolean_lawful sound_required (by decide)).field
    (nullable_lawful string_lawful fun _ => nofun) sound_omitted_none (by decide)).field
    boolean_lawful sound_required (by decide)) (by decide)

theorem ObjectKey.codec_lawful : ObjectKey.codec.Lawful :=
  record_lawful (fun r => ((Fields.faithful_pure r mk).field
    string_lawful sound_required (by decide)).field
    string_lawful sound_required (by decide)) (by decide)

theorem Severity.codec_lawful : Severity.codec.Lawful := fun severity => by
  cases severity <;> rfl

theorem Event.codec_lawful : Event.codec.Lawful :=
  record_lawful (fun e => ((((((Fields.faithful_pure e ofParts).field
    ObjectKey.codec_lawful sound_required (by decide)).field
    Severity.codec_lawful sound_required (by decide)).field
    string_lawful sound_required (by decide)).field
    string_lawful sound_required (by decide)).field
    uint64_lawful sound_required (by decide)).field
    uint32_lawful (sound_defaulted _) (by decide)) (by decide)

/-- A store is read back from its image. -/
theorem Store.codec_lawful : Store.codec.Lawful :=
  record_lawful (fun s => ((((Fields.faithful_pure s mk).field
    (table_lawful Object.codec_lawful) sound_required (by decide)).field
    (table_lawful TenantRequest.codec_lawful) sound_required (by decide)).field
    (table_lawful Event.codec_lawful) sound_required (by decide)).field
    nat_lawful sound_required (by decide)) (by decide)

/-- A store of texts is read back from its image. -/
theorem TextStore.codec_lawful : TextStore.codec.Lawful :=
  record_lawful (fun t => ((((Fields.faithful_pure t mk).field
    (table_lawful string_lawful) sound_required (by decide)).field
    (table_lawful TenantRequest.codec_lawful) sound_required (by decide)).field
    (table_lawful Event.codec_lawful) sound_required (by decide)).field
    nat_lawful sound_required (by decide)) (by decide)

end Converge

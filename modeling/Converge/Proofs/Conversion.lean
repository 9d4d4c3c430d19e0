import Converge.Proofs.Codecs
import Mathlib

/-!
# Typed resources and objects

A resource is written as an object of its kind and read back from it. An object that is read as a
resource need not be the one that the resource is written as: it may hold members that are not
known, leave out what has a default, or have null in the place of a whole section. Writing what was
read brings it into a normal form, which is read as the same resource and written again as it is.

A section that is null is read as if the default of its type had been written there. The
specification of a database is the only section without a default.

## Main definitions

* `Presence.readSection`: what is read from one section.
* `ResourceKind.Lawful`: kinds whose sections are read back as they were written.
* `ResourceKind.normalize`: an object as the resource that it is would be written.
* `ResourceKind.RoundTrips`: resources and objects are converted into each other without loss.

## Main results

* `ResourceKind.decode_sections`: an object is put together from its sections.
* `ResourceKind.Lawful.roundTrips`: the conversions of every kind with lawful sections.
* `Object.decode_absent`: an absent section of an object is null.
* `resources_round_trip`: the conversions of the three kinds, and their defaults.
-/

namespace Converge

/-! ### Reading sections -/

namespace Presence

variable {α : Type} {presence : Presence α} {codec : Codec α} {a : α}

/-- What is read from a section of an object, known by its name: a section that is null counts as
absent. -/
def readSection (presence : Presence α) (codec : Codec α) (name : String) (section_ : Json) :
    Except MemberFault α :=
  if section_.isNull then
    match presence.absent? with
    | some a => .ok a
    | none => .error (.missing name)
  else (codec.decode section_).mapError (.bad name)

/-- A section that is null is read like one in which the default was written. -/
theorem readSection_null (h : presence.absent? = some a) (hcodec : codec.Lawful)
    (hne : codec.encode a ≠ .null) (name : String) :
    presence.readSection codec name .null = presence.readSection codec name (codec.encode a) := by
  have hself : Json.null.isNull = true := rfl
  have hnull : ¬ (codec.encode a).isNull = true := fun h => hne (Json.isNull_eq_true_iff.mp h)
  have hdecode : (codec.decode (codec.encode a)).mapError (MemberFault.bad name) = .ok a := by
    rw [hcodec a]
    rfl
  rw [readSection, if_pos hself, readSection, if_neg hnull, hdecode, h]

/-- A section that is null stands for nothing where there is no default. -/
theorem read?_null (h : presence.absent? = none) (codec : Codec α) :
    presence.read? codec .null = none := by
  have hself : Json.null.isNull = true := rfl
  rw [read?, if_pos hself, h]

end Presence

namespace Fields

variable {ρ α : Type} {name : String} {get : ρ → α} {codec : Codec α} {presence : Presence α}
  {members : List (String × Json)}

theorem ofMembers_field {section_ : Json}
    (h : members.lookup name = if section_.isNull then none else some section_) :
    (field name get codec presence).ofMembers (members.lookup ·) =
      presence.readSection codec name section_ := by
  simp only [field, Presence.readSection, h]
  cases section_.isNull <;> rfl

theorem ofMembers_field_of_absent {a : α} (ha : presence.absent? = some a)
    (h : members.lookup name = none) :
    (field name get codec presence).ofMembers (members.lookup ·) = .ok a := by
  simp only [field, h, ha]

end Fields

namespace ResourceKind

variable {σ τ : Type} {kind : ResourceKind σ τ} {o o' : Object}

/-- The resource of two sections that were read, or the first of their faults. -/
def assemble (metadata : Metadata) :
    Except MemberFault σ → Except MemberFault τ → Except DecodeError (Resource σ τ)
  | .ok spec, .ok status => .ok ⟨metadata, spec, status⟩
  | .error e, .ok _ => .error e.error
  | .ok _, .error e => .error e.error
  | .error e, .error e' => .error (e.first e').error

/-- **An object is put together from its sections.** The metadata can always be read. -/
theorem decode_sections (kind : ResourceKind σ τ) (o : Object) :
    kind.codec.decode (sections o) =
      assemble o.metadata (kind.specPresence.readSection kind.spec "spec" o.spec)
        (kind.statusPresence.readSection kind.status "status" o.status) := by
  obtain ⟨members, hsections, hmetadata, hspec, hstatus⟩ := sections_lookup o
  let fields : Fields (Resource σ τ) (Resource σ τ) :=
    pure Resource.mk
      <*> .field "metadata" Resource.metadata Metadata.codec
      <*> .field "spec" Resource.spec kind.spec kind.specPresence
      <*> .field "status" Resource.status kind.status kind.statusPresence
  have hdecode : kind.codec.decode (.obj members) =
      (fields.ofMembers (members.lookup ·)).mapError MemberFault.error := rfl
  have hread : (Fields.field "metadata" Resource.metadata Metadata.codec :
      Fields (Resource σ τ) Metadata).ofMembers (members.lookup ·) = .ok o.metadata := by
    simp only [Fields.field, hmetadata, Metadata.codec_lawful o.metadata]
    rfl
  rw [hsections, hdecode]
  change (Fields.ofMembers ((((Fields.pure Resource.mk).seq _).seq _).seq _) _).mapError _ = _
  simp only [Fields.seq, Fields.pure, hread, Fields.ofMembers_field hspec,
    Fields.ofMembers_field hstatus]
  cases kind.specPresence.readSection kind.spec "spec" o.spec <;>
    cases kind.statusPresence.readSection kind.status "status" o.status <;> rfl

/-- Objects of one kind with the same metadata are read alike when their sections are. -/
theorem ofObject_congr (hkind : o'.kind = o.kind) (hmetadata : o'.metadata = o.metadata)
    (hspec : kind.specPresence.readSection kind.spec "spec" o'.spec =
      kind.specPresence.readSection kind.spec "spec" o.spec)
    (hstatus : kind.statusPresence.readSection kind.status "status" o'.status =
      kind.statusPresence.readSection kind.status "status" o.status) :
    kind.ofObject o' = kind.ofObject o := by
  simp only [ofObject, decode_sections, hkind, hmetadata, hspec, hstatus]

theorem exists_error_of_forall_ne (h : ∀ r, kind.ofObject o ≠ .ok r) :
    ∃ e, kind.ofObject o = .error e := by
  cases hread : kind.ofObject o with
  | error e => exact ⟨e, rfl⟩
  | ok r => exact absurd hread (h r)

/-! ### Kinds with lawful sections -/

/-- Specification and status of the kind are read back as they were written, and neither is ever
left out or written as null. -/
structure Lawful (kind : ResourceKind σ τ) : Prop where
  spec : kind.spec.Lawful
  spec_ne_null : ∀ a, kind.spec.encode a ≠ .null
  spec_written : ∀ a, kind.specPresence.isOmitted a = false
  status : kind.status.Lawful
  status_ne_null : ∀ a, kind.status.encode a ≠ .null
  status_written : ∀ a, kind.statusPresence.isOmitted a = false

/-- A resource is read back from the object that it is written as. -/
theorem Lawful.ofObject_toObject (hkind : kind.Lawful) (r : Resource σ τ) :
    kind.ofObject (kind.toObject r) = .ok r :=
  ofObject_eq_ok_iff.mpr ⟨rfl, rfl, Presence.read?_encode hkind.spec (hkind.spec_ne_null _),
    Presence.read?_encode hkind.status (hkind.status_ne_null _)⟩

/-- The structured form of a resource is put together from the sections of its object. -/
theorem Lawful.sections_toObject (hkind : kind.Lawful) (r : Resource σ τ) :
    sections (kind.toObject r) = kind.codec.encode r := by
  have hspec : (kind.spec.encode r.spec).isNull = false := by
    rw [Bool.eq_false_iff, Ne, Json.isNull_eq_true_iff]
    exact hkind.spec_ne_null r.spec
  have hstatus : (kind.status.encode r.status).isNull = false := by
    rw [Bool.eq_false_iff, Ne, Json.isNull_eq_true_iff]
    exact hkind.status_ne_null r.status
  have hwrite : kind.codec.encode r = Json.ofMembers
      ((([] ++ [("metadata", Metadata.codec.encode r.metadata)]) ++
        if kind.specPresence.isOmitted r.spec then [] else [("spec", kind.spec.encode r.spec)]) ++
        if kind.statusPresence.isOmitted r.status then []
        else [("status", kind.status.encode r.status)]) := rfl
  rw [hwrite, hkind.spec_written, hkind.status_written]
  simp only [sections, toObject, hspec, hstatus, Bool.false_eq_true, if_false, List.nil_append]

/-- An object as the resource that it is would be written. -/
def normalize (kind : ResourceKind σ τ) (o : Object) : Except StoreError Object :=
  (kind.ofObject o).map kind.toObject

theorem normalize_eq_ok_iff {n : Object} :
    kind.normalize o = .ok n ↔ ∃ r, kind.ofObject o = .ok r ∧ kind.toObject r = n := by
  rw [normalize]
  cases kind.ofObject o <;> simp [Except.map]

/-! ### Conversions without loss -/

/-- The resources of a kind and objects are converted into each other without loss. -/
structure RoundTrips (kind : ResourceKind σ τ) : Prop where
  /-- A resource is read back from the object that it is written as. -/
  ofObject_toObject : ∀ r, kind.ofObject (kind.toObject r) = .ok r
  /-- The object holds the structured form of the resource, section by section, -/
  sections_toObject : ∀ r, sections (kind.toObject r) = kind.codec.encode r
  /-- and is known under the key of the resource. -/
  key_toObject : ∀ r, (kind.toObject r).key = r.key
  tableKey_toObject : ∀ r, (kind.toObject r).tableKey = tableKey kind.name r.key
  /-- What was read is written with the same metadata, read as the same resource, and written again
  as it is. -/
  normal : ∀ o n, kind.normalize o = .ok n → n.kind = o.kind ∧ n.metadata = o.metadata ∧
    kind.ofObject n = kind.ofObject o ∧ kind.normalize n = .ok n
  /-- A specification that is null is read as if the default had been written, -/
  null_spec : ∀ a, kind.specPresence.absent? = some a → ∀ o : Object,
    kind.ofObject { o with spec := .null } = kind.ofObject { o with spec := kind.spec.encode a }
  /-- and is an error if there is no default. -/
  no_spec : kind.specPresence.absent? = none → ∀ o : Object,
    ∃ e, kind.ofObject { o with spec := .null } = .error e
  /-- So is a status. -/
  null_status : ∀ a, kind.statusPresence.absent? = some a → ∀ o : Object,
    kind.ofObject { o with status := .null } =
      kind.ofObject { o with status := kind.status.encode a }
  no_status : kind.statusPresence.absent? = none → ∀ o : Object,
    ∃ e, kind.ofObject { o with status := .null } = .error e

/-- The resources of a kind with lawful sections and objects are converted into each other without
loss. -/
theorem Lawful.roundTrips (hkind : kind.Lawful) : kind.RoundTrips where
  ofObject_toObject := hkind.ofObject_toObject
  sections_toObject := hkind.sections_toObject
  key_toObject _ := rfl
  tableKey_toObject _ := rfl
  normal o n h := by
    obtain ⟨r, hread, rfl⟩ := normalize_eq_ok_iff.mp h
    have hagain := hkind.ofObject_toObject r
    obtain ⟨hname, hmetadata, -⟩ := ofObject_eq_ok_iff.mp hread
    exact ⟨hname.symm, hmetadata, hagain.trans hread.symm,
      normalize_eq_ok_iff.mpr ⟨r, hagain, rfl⟩⟩
  null_spec a ha o := ofObject_congr rfl rfl
    (Presence.readSection_null ha hkind.spec (hkind.spec_ne_null a) _) rfl
  no_spec hnone o := exists_error_of_forall_ne fun r hread => by
    have hspec := (ofObject_eq_ok_iff.mp hread).2.2.1
    rw [Presence.read?_null hnone] at hspec
    exact nomatch hspec
  null_status a ha o := ofObject_congr rfl rfl rfl
    (Presence.readSection_null ha hkind.status (hkind.status_ne_null a) _)
  no_status hnone o := exists_error_of_forall_ne fun r hread => by
    have hstatus := (ofObject_eq_ok_iff.mp hread).2.2.2
    rw [Presence.read?_null hnone] at hstatus
    exact nomatch hstatus

end ResourceKind

/-! ### The three kinds -/

theorem Database.kind_lawful : Database.kind.Lawful where
  spec := DatabaseSpec.codec_lawful
  spec_ne_null := Codec.record_encode_ne_null _ _
  spec_written _ := rfl
  status := DatabaseStatus.codec_lawful
  status_ne_null := Codec.record_encode_ne_null _ _
  status_written _ := rfl

theorem StorageCluster.kind_lawful : StorageCluster.kind.Lawful where
  spec := StorageClusterSpec.codec_lawful
  spec_ne_null := Codec.record_encode_ne_null _ _
  spec_written _ := rfl
  status := StorageClusterStatus.codec_lawful
  status_ne_null := Codec.record_encode_ne_null _ _
  status_written _ := rfl

theorem Workload.kind_lawful : Workload.kind.Lawful where
  spec := WorkloadSpec.codec_lawful
  spec_ne_null := Codec.record_encode_ne_null _ _
  spec_written _ := rfl
  status := WorkloadStatus.codec_lawful
  status_ne_null := Codec.record_encode_ne_null _ _
  status_written _ := rfl

/-- A section that is not among the members of an object is null. -/
theorem Object.decode_absent {members : List (String × Json)} {o : Object}
    (h : codec.decode (.obj members) = .ok o) :
    (members.lookup "spec" = none → o.spec = .null) ∧
      (members.lookup "status" = none → o.status = .null) := by
  -- The fields of an object are read from the last to the first.
  obtain ⟨_, status, hthree, hstatus, rfl⟩ :=
    ResourceKind.ofMembers_seq_iff.mp (mapError_eq_ok_iff.mp h)
  obtain ⟨_, spec, htwo, hspec, rfl⟩ := ResourceKind.ofMembers_seq_iff.mp hthree
  obtain ⟨_, metadata, hone, -, rfl⟩ := ResourceKind.ofMembers_seq_iff.mp htwo
  obtain ⟨_, kind, hnone, -, rfl⟩ := ResourceKind.ofMembers_seq_iff.mp hone
  obtain rfl := ResourceKind.ofMembers_pure_iff.mp hnone
  constructor
  · intro habsent
    exact Except.ok.inj (hspec.symm.trans (Fields.ofMembers_field_of_absent rfl habsent))
  · intro habsent
    exact Except.ok.inj (hstatus.symm.trans (Fields.ofMembers_field_of_absent rfl habsent))

/-- **Typed resources and objects.** Databases, storage clusters and workloads and their objects are
converted into each other without loss. Only the specification of a database has no default: a
database begins as one that is being provisioned, a storage cluster is reached at the usual port
without encryption and reports no state, and a workload has no nodes. A section that is absent from
the structured form of an object is null. -/
theorem resources_round_trip :
    Database.kind.RoundTrips ∧ StorageCluster.kind.RoundTrips ∧ Workload.kind.RoundTrips ∧
    Database.kind.specPresence.absent? = none ∧
    Database.kind.statusPresence.absent? = some { state := .provisioning, conditions := [] } ∧
    StorageCluster.kind.specPresence.absent? =
      some { grpc := { port := 2135, tlsEnabled := false } } ∧
    StorageCluster.kind.statusPresence.absent? = some { state := "" } ∧
    Workload.kind.specPresence.absent? = some { replicas := 0, selector := ∅ } ∧
    Workload.kind.statusPresence.absent? = some { replicas := 0 } ∧
    ∀ members o, Object.codec.decode (.obj members) = .ok o →
      (members.lookup "spec" = none → o.spec = .null) ∧
        (members.lookup "status" = none → o.status = .null) :=
  ⟨Database.kind_lawful.roundTrips, StorageCluster.kind_lawful.roundTrips,
    Workload.kind_lawful.roundTrips, rfl, rfl, rfl, rfl, rfl, rfl, fun _ _ => Object.decode_absent⟩

/-- A database of which only the storage cluster is given, and a member that is not known; and the
same without a specification. -/
theorem resources_round_trip_sparse :
    let cluster : Json := .obj [("name", .str "main")]
    let metadata : Metadata := { Metadata.ofKey ⟨"prod", "orders"⟩ with version := 3 }
    let o : Object :=
      { kind := "Database", metadata := metadata
        spec := .obj [("storageClusterRef", cluster), ("unknown", .int 1)] }
    let n : Object :=
      { kind := "Database", metadata := metadata
        spec := .obj [("domain", .str "root"), ("nodes", .int 0), ("storageClusterRef", cluster)]
        status := .obj [("conditions", .arr []), ("state", .str "Provisioning")] }
    Database.kind.normalize o = .ok n ∧ Database.kind.ofObject n = Database.kind.ofObject o ∧
      Database.kind.normalize n = .ok n ∧
      ∃ e, Database.kind.ofObject { o with spec := .null } = .error e := by
  intro cluster metadata o n
  obtain ⟨hdatabase, -, -, hnone, -⟩ := resources_round_trip
  have hn : Database.kind.normalize o = .ok n := by cbv
  obtain ⟨-, -, hsame, hagain⟩ := hdatabase.normal o n hn
  exact ⟨hn, hsame, hagain, hdatabase.no_spec hnone o⟩

end Converge

import Converge.Database
import Converge.Proofs.Tables
import Converge.StorageCluster
import Converge.Workload

/-!
# Reading and writing resources

What it takes for an object to be a resource of a kind is a statement about its sections: the
metadata always decode, and each of the other two sections decodes or stands for a default. This
file says so (`ResourceKind.ofObject_eq_ok_iff`), from the laws of the codecs of metadata. The
status of a database that is written into an object is read back from it, whatever else the object
holds.

## Main definitions

* `Presence.read?`: the value that a section of an object stands for.
* `ResourceKind.read`: what is read of a resource when an object was asked for.
* `Object.databaseStatus?`: the status of a database that an object carries.

## Main results

* `Codec.table_lawful`: tables of values that are read back.
* `Metadata.codec_lawful`, `DatabaseStatus.codec_lawful`, `WorkloadSpec.codec_lawful`.
* `ResourceKind.ofObject_eq_ok_iff`: when an object is a given resource.
* `Object.databaseStatus?_of_encode`: a written status is read back.
-/

namespace Converge

/-! ### Lawful codecs -/

namespace Codec

variable {α : Type}

/-- Entries whose values were encoded are decoded as they were. -/
theorem mapM_decode_encode {c : Codec α} (h : c.Lawful) (l : List (String × α)) :
    ((l.map fun e => (e.1, c.encode e.2)).mapM fun m => (c.decode m.2).map (m.1, ·)) =
      Except.ok l := by
  induction l with
  | nil => rfl
  | cons e l ih =>
    rw [List.map_cons, List.mapM_cons, ih, h e.2]
    rfl

theorem table_lawful {c : Codec α} (h : c.Lawful) : c.table.Lawful := fun t => by
  change (do
    let entries ← (t.entries.map fun e => (e.1, c.encode e.2)).mapM
      fun m => (c.decode m.2).map (m.1, ·)
    return Table.ofList entries) = Except.ok t
  rw [mapM_decode_encode h]
  exact congrArg Except.ok (Table.ofList_entries t)

theorem texts_lawful : texts.Lawful := table_lawful string_lawful

end Codec

namespace Presence

variable {α : Type}

theorem sound_required : (required : Presence α).Sound := fun _ h => by cases h

theorem sound_defaulted (value : α) : (defaulted value).Sound := fun _ h => by cases h

theorem sound_omitted {value : α} {isValue : α → Bool} (h : ∀ a, isValue a = true → a = value) :
    (omitted value isValue).Sound := fun a ha => congrArg some (h a ha).symm

/-- The option that is left out is the one that holds nothing. -/
theorem sound_omitted_none : (omitted none Option.isNone : Presence (Option α)).Sound :=
  sound_omitted fun _ h => Option.isNone_iff_eq_none.mp h

/-- The table that is left out is the one without entries. -/
theorem sound_omitted_empty : (omitted ∅ Table.isEmpty : Presence (Table α)).Sound :=
  sound_omitted fun _ h => Table.ext (List.isEmpty_iff.mp h)

end Presence

/-- Faithful fields stay faithful when a field of a lawful codec is declared after them. -/
theorem Fields.Faithful.field {ρ α β : Type} {f : Fields ρ (α → β)} {r : ρ} {g : α → β}
    (hf : f.Faithful r g) {name : String} {get : ρ → α} {codec : Codec α} {presence : Presence α}
    (hc : codec.Lawful) (hp : presence.Sound) (hn : name ∉ f.names) :
    (f <*> .field name get codec presence).Faithful r (g (get r)) :=
  hf.seq (Fields.faithful_field (hc _) hp) fun _ hn' h => hn (List.mem_singleton.mp h ▸ hn')

theorem OwnerReference.codec_lawful : OwnerReference.codec.Lawful :=
  Codec.record_lawful (fun r => (((Fields.faithful_pure r mk).field
    Codec.string_lawful Presence.sound_required (by decide)).field
    Codec.string_lawful Presence.sound_required (by decide)).field
    Codec.boolean_lawful (Presence.sound_defaulted _) (by decide)) (by decide)

/-- Metadata are read back as they were written. -/
theorem Metadata.codec_lawful : Metadata.codec.Lawful :=
  Codec.record_lawful (fun r => (((((Fields.faithful_pure r mk).field
    Codec.string_lawful Presence.sound_required (by decide)).field
    Codec.string_lawful Presence.sound_required (by decide)).field
    Codec.uint64_lawful (Presence.sound_defaulted _) (by decide)).field
    Codec.texts_lawful Presence.sound_omitted_empty (by decide)).field
    (Codec.nullable_lawful OwnerReference.codec_lawful fun _ => Codec.record_encode_ne_null _ _ _)
    Presence.sound_omitted_none (by decide)) (by decide)

theorem ConditionStatus.codec_lawful : ConditionStatus.codec.Lawful := fun c => by
  cases c <;> rfl

theorem Condition.codec_lawful : Condition.codec.Lawful :=
  Codec.record_lawful (fun r => (((((Fields.faithful_pure r mk).field
    Codec.string_lawful Presence.sound_required (by decide)).field
    ConditionStatus.codec_lawful Presence.sound_required (by decide)).field
    Codec.string_lawful Presence.sound_required (by decide)).field
    Codec.string_lawful (Presence.sound_defaulted _) (by decide)).field
    Codec.uint64_lawful (Presence.sound_defaulted _) (by decide)) (by decide)

theorem DatabaseState.codec_lawful : DatabaseState.codec.Lawful := fun c => by
  cases c <;> rfl

/-- The status of a database is read back as it was written. -/
theorem DatabaseStatus.codec_lawful : DatabaseStatus.codec.Lawful :=
  Codec.record_lawful (fun r => ((Fields.faithful_pure r mk).field
    DatabaseState.codec_lawful (Presence.sound_defaulted _) (by decide)).field
    (Codec.list_lawful Condition.codec_lawful) (Presence.sound_defaulted _) (by decide))
    (by decide)

/-- The specification of a workload is read back as it was written. -/
theorem WorkloadSpec.codec_lawful : WorkloadSpec.codec.Lawful :=
  Codec.record_lawful (fun r => ((Fields.faithful_pure r mk).field
    Codec.uint32_lawful (Presence.sound_defaulted _) (by decide)).field
    Codec.texts_lawful Presence.sound_omitted_empty (by decide)) (by decide)

/-! ### Computations that may fail -/

theorem mapError_eq_ok_iff {ε ε' α : Type} {f : ε → ε'} {x : Except ε α} {a : α} :
    x.mapError f = .ok a ↔ x = .ok a := by
  cases x with
  | ok b => exact ⟨fun h => congrArg _ (Except.ok.inj h), fun h => congrArg _ (Except.ok.inj h)⟩
  | error e => exact ⟨nofun, nofun⟩

/-- A computation after another succeeds when both do. -/
theorem except_bind_eq_ok_iff {ε α β : Type} {x : Except ε α} {f : α → Except ε β} {b : β} :
    (x >>= f) = .ok b ↔ ∃ a, x = .ok a ∧ f a = .ok b := by
  cases x with
  | ok a => exact ⟨fun h => ⟨a, rfl, h⟩, fun ⟨_, ha, h⟩ => Except.ok.inj ha ▸ h⟩
  | error e => exact ⟨nofun, fun ⟨_, ha, _⟩ => nomatch ha⟩

/-! ### Sections -/

theorem Json.isNull_eq_true_iff {j : Json} : j.isNull = true ↔ j = .null := by
  cases j <;> simp [Json.isNull]

/-- The value that a section of an object stands for: a section that is null counts as absent. -/
def Presence.read? {α : Type} (presence : Presence α) (codec : Codec α) (section_ : Json) :
    Option α :=
  if section_.isNull then presence.absent? else (codec.decode section_).toOption

/-- A section that was written by a lawful codec stands for what was written, unless it is null. -/
theorem Presence.read?_encode {α : Type} {presence : Presence α} {codec : Codec α} {a : α}
    (hcodec : codec.Lawful) (hne : codec.encode a ≠ .null) :
    presence.read? codec (codec.encode a) = some a := by
  have hnull : ¬ (codec.encode a).isNull = true := fun h => hne (Json.isNull_eq_true_iff.mp h)
  rw [read?, if_neg hnull, hcodec a]
  rfl

namespace ResourceKind

variable {σ τ : Type} {kind : ResourceKind σ τ}

/-- The sections under their names: the metadata are always there, and the other two are unless
they are null. -/
theorem sections_lookup (o : Object) : ∃ members, sections o = .obj members ∧
    members.lookup "metadata" = some (Metadata.codec.encode o.metadata) ∧
    members.lookup "spec" = (if o.spec.isNull then none else some o.spec) ∧
    members.lookup "status" = (if o.status.isNull then none else some o.status) := by
  refine ⟨_, rfl, ?_⟩
  cases hs : o.spec.isNull <;> cases ht : o.status.isNull <;>
    refine ⟨?_, ?_, ?_⟩ <;>
    exact (Table.find?_ofList (by simp [hs, ht]) _).trans (by simp [Table.lookup_cons, hs, ht])

theorem ofMembers_pure_iff {ρ α : Type} {members : String → Option Json} {a b : α} :
    (pure a : Fields ρ α).ofMembers members = .ok b ↔ a = b :=
  ⟨Except.ok.inj, congrArg _⟩

/-- Groups of fields are read together when both can be read. -/
theorem ofMembers_seq_iff {ρ α β : Type} {f : Fields ρ (α → β)} {x : Fields ρ α}
    {members : String → Option Json} {b : β} :
    (f <*> x).ofMembers members = .ok b ↔
      ∃ g a, f.ofMembers members = .ok g ∧ x.ofMembers members = .ok a ∧ g a = b := by
  change (f.seq x).ofMembers members = .ok b ↔ _
  simp only [Fields.seq]
  cases f.ofMembers members <;> cases x.ofMembers members <;> simp

/-- Reading the field of a section from the members of an object. -/
private theorem ofMembers_field_iff {ρ α : Type} {name : String} {get : ρ → α} {codec : Codec α}
    {presence : Presence α} {members : String → Option Json} {j : Json} {a : α}
    (h : members name = if j.isNull then none else some j) :
    (Fields.field name get codec presence).ofMembers members = .ok a ↔
      presence.read? codec j = some a := by
  cases hj : j.isNull
  · rw [hj] at h
    simp only [Fields.field, h, Presence.read?, hj, Bool.false_eq_true, if_false]
    rw [mapError_eq_ok_iff]
    cases codec.decode j <;> simp [Except.toOption]
  · rw [hj] at h
    simp only [Fields.field, h, Presence.read?, hj, if_true]
    cases presence.absent? <;> simp

/-- **When an object is a given resource.** It has the kind, the metadata are those of the object,
and the other two sections stand for the specification and the status. -/
theorem ofObject_eq_ok_iff {o : Object} {r : Resource σ τ} :
    kind.ofObject o = .ok r ↔ o.kind = kind.name ∧ r.metadata = o.metadata ∧
      kind.specPresence.read? kind.spec o.spec = some r.spec ∧
      kind.statusPresence.read? kind.status o.status = some r.status := by
  obtain ⟨members, hsec, hm, hspec, hstatus⟩ := sections_lookup o
  have hmeta : (Fields.field "metadata" Resource.metadata Metadata.codec :
      Fields (Resource σ τ) Metadata).ofMembers (members.lookup ·) = .ok o.metadata := by
    simp only [Fields.field, hm, Metadata.codec_lawful o.metadata]
    rfl
  have hs := @ofMembers_field_iff (Resource σ τ) σ "spec" Resource.spec kind.spec
    kind.specPresence (members.lookup ·) o.spec r.spec hspec
  have ht := @ofMembers_field_iff (Resource σ τ) τ "status" Resource.status kind.status
    kind.statusPresence (members.lookup ·) o.status r.status hstatus
  by_cases hk : o.kind = kind.name
  · simp only [ofObject, hk, ne_eq, not_true_eq_false, if_false, hsec, codec, Codec.record,
      true_and, mapError_eq_ok_iff, ofMembers_seq_iff, ofMembers_pure_iff, hmeta,
      Except.ok.injEq, ← hs, ← ht]
    constructor
    · rintro ⟨_, status, ⟨_, spec, ⟨_, _, rfl, rfl, rfl⟩, hspec, rfl⟩, hstatus, rfl⟩
      exact ⟨rfl, hspec, hstatus⟩
    · rintro ⟨hm, hspec, hstatus⟩
      exact ⟨_, r.status, ⟨_, r.spec, ⟨_, _, rfl, rfl, rfl⟩, hspec, rfl⟩, hstatus, by rw [← hm]⟩
  · simp [ofObject, hk]

/-- What is read of a resource when an object was asked for. -/
def read (kind : ResourceKind σ τ) :
    Except StoreError (Option Object) → Except StoreError (Option (Resource σ τ))
  | .error e => .error e
  | .ok none => .ok none
  | .ok (some o) => (kind.ofObject o).map some

/-- No resource is read, without an error, when no object was answered. -/
theorem read_eq_ok_none_iff {answer : Except StoreError (Option Object)} :
    kind.read answer = .ok none ↔ answer = .ok none := by
  match answer with
  | .error e => simp [read]
  | .ok none => simp [read]
  | .ok (some o) => cases h : kind.ofObject o <;> simp [read, h, Except.map]

/-- A resource is read when an object was answered that is that resource. -/
theorem read_eq_ok_some_iff {answer : Except StoreError (Option Object)} {r : Resource σ τ} :
    kind.read answer = .ok (some r) ↔
      ∃ o, answer = .ok (some o) ∧ kind.ofObject o = .ok r := by
  match answer with
  | .error e => simp [read]
  | .ok none => simp [read]
  | .ok (some o) => cases h : kind.ofObject o <;> simp [read, h, Except.map]

end ResourceKind

/-! ### The status of a database -/

/-- The status of a database that an object carries, whatever else it holds. -/
def Object.databaseStatus? (o : Object) : Option DatabaseStatus :=
  Database.kind.statusPresence.read? Database.kind.status o.status

/-- A database that was read from an object has the status that the object carries. -/
theorem Database.databaseStatus?_of_ofObject {o : Object} {database : Database}
    (h : Database.kind.ofObject o = .ok database) : o.databaseStatus? = some database.status :=
  (ResourceKind.ofObject_eq_ok_iff.mp h).2.2.2

/-- An object without a status carries that of a database at its beginning. -/
theorem Object.databaseStatus?_of_isNull {o : Object} (h : o.status.isNull = true) :
    o.databaseStatus? = some {} := by
  simp only [Object.databaseStatus?, Presence.read?, h, if_true]
  rfl

/-- A status that was written into an object is read back. -/
theorem Object.databaseStatus?_of_encode {o : Object} {status : DatabaseStatus}
    (h : o.status = DatabaseStatus.codec.encode status) : o.databaseStatus? = some status := by
  rw [Object.databaseStatus?, h]
  exact Presence.read?_encode DatabaseStatus.codec_lawful (Codec.record_encode_ne_null _ _ _)

end Converge

import Converge.Pass.Sync
import Converge.Proofs.Names
import Converge.Proofs.Resources

/-!
# The standard catalog

The objects that the standard catalog builds are services and workloads, never databases. A
builder leaves alone what an object is called, and what is observed of it.

## Main results

* `Metadata.setController_eq_ok`: what becomes of the metadata of an owned object.
* `Catalog.standard_tableKey_ne`: no object of the standard catalog takes the place of one of
  another kind.
* `Catalog.standard_owned`: what a builder of the standard catalog leaves alone.
* `Catalog.standard_owned_again`: a builder changes nothing about what it has made.
-/

namespace Converge

theorem Table.find?_union {α : Type} (t other : Table α) (k : String) :
    (t.union other).find? k = (other.find? k).or (t.find? k) := by
  rw [union, find?_foldl_insert, lookup_reverse other.nodup_keys]
  rfl

private theorem Table.union_union {α : Type} (t other : Table α) :
    (t.union other).union other = t.union other := by
  refine ext_find? fun k => ?_
  simp only [find?_union]
  cases other.find? k <;> rfl

/-- An object that gets a controlling owner is in the namespace of that owner, and only its
reference to the owner changes. -/
theorem Metadata.setController_eq_ok {m m' owner : Metadata} {kind : String}
    (h : m.setController kind owner = .ok m') :
    owner.ns = m.ns ∧ m' = { m with owner := some ⟨kind, owner.name, true⟩ } := by
  simp only [setController, ne_eq, ite_not] at h
  split at h
  · rename_i hns
    refine ⟨hns, ?_⟩
    split at h
    · exact (Except.ok.inj h).symm
    · split at h
      · exact nomatch h
      · exact (Except.ok.inj h).symm
  · exact nomatch h

/-- An object in the same namespace can be claimed unless it is controlled by another owner. -/
theorem Metadata.setController_of_uncontrolled {m owner : Metadata} {kind : String}
    (hns : owner.ns = m.ns) (h : ∀ current, m.owner = some current → current.controller = true →
      current.kind = kind ∧ current.name = owner.name) :
    m.setController kind owner = .ok { m with owner := some ⟨kind, owner.name, true⟩ } := by
  rw [setController, if_neg (not_not_intro hns)]
  cases hcurrent : m.owner with
  | none => rfl
  | some current =>
    refine if_neg fun hother => ?_
    rw [Bool.and_eq_true, Bool.or_eq_true, bne_iff_ne, bne_iff_ne] at hother
    obtain ⟨hkind, hname⟩ := h current hcurrent hother.1
    exact hother.2.elim (· hkind) (· hname)

theorem Metadata.setController_again {m owner : Metadata} {kind : String} (hns : owner.ns = m.ns)
    (howner : m.owner = some ⟨kind, owner.name, true⟩) : m.setController kind owner = .ok m := by
  rw [setController_of_uncontrolled hns, ← howner]
  intro current hcurrent _
  obtain rfl := Option.some.inj (howner.symm.trans hcurrent)
  exact ⟨rfl, rfl⟩

theorem Builder.owned_eq_ok_iff {b : Builder} {owner : Metadata} {o o' : Object} :
    b.owned owner o = .ok o' ↔ ∃ built metadata, b.build o = .ok built ∧
      built.metadata.setController Database.kind.name owner = .ok metadata ∧
      o' = { built with metadata } := by
  rw [owned, except_bind_eq_ok_iff]
  refine exists_congr fun built => ?_
  rw [mapError_eq_ok_iff]
  cases hcontroller : built.metadata.setController Database.kind.name owner with
  | error e =>
    constructor
    · exact fun ⟨_, h⟩ => nomatch h
    · exact fun ⟨_, _, h, _⟩ => nomatch h
  | ok metadata =>
    constructor
    · exact fun ⟨hbuild, h⟩ => ⟨metadata, hbuild, rfl, (Except.ok.inj h).symm⟩
    · rintro ⟨_, hbuild, hmetadata, rfl⟩
      obtain rfl := Except.ok.inj hmetadata
      exact ⟨hbuild, rfl⟩

namespace Catalog

variable {a : Aggregate} {b : Builder}

theorem mem_standard_iff :
    b ∈ standard a ↔ b = service a ∨ (a.resources.isServerless = false ∧ b = workload a) := by
  rw [standard]
  cases a.resources.isServerless <;> simp

theorem mem_standard (hb : b ∈ standard a) : b = service a ∨ b = workload a :=
  (mem_standard_iff.mp hb).imp_right And.right

theorem standard_kind (hb : b ∈ standard a) :
    b.placeholder.kind = "Service" ∨ b.placeholder.kind = "Workload" := by
  rcases mem_standard hb with rfl | rfl
  · exact .inl rfl
  · exact .inr rfl

theorem standard_tableKey_ne (hb : b ∈ standard a) (kind : String) (hkind : Free '/' kind)
    (hother : kind ≠ "Service" ∧ kind ≠ "Workload") (key : ObjectKey) :
    b.placeholder.tableKey ≠ tableKey kind key := by
  intro h
  rcases standard_kind hb with hkind' | hkind' <;> rw [Object.tableKey, hkind'] at h
  · exact absurd (kind_eq_of_tableKey_eq (by decide) hkind h).1.symm hother.1
  · exact absurd (kind_eq_of_tableKey_eq (by decide) hkind h).1.symm hother.2

theorem standard_nodup (a : Aggregate) :
    ((standard a).map (·.placeholder.tableKey)).Nodup := by
  have hne : (service a).placeholder.tableKey ≠ (workload a).placeholder.tableKey := by
    intro h
    have hservice : Free '/' "Service" := by decide
    have hworkload : Free '/' "Workload" := by decide
    exact absurd (kind_eq_of_tableKey_eq hservice hworkload h).1 (by decide)
  rw [standard]
  split
  · exact List.pairwise_singleton _ _
  · simpa using hne

/-- The objects of the standard catalog have names without a character when the database does. -/
theorem standard_free {c : Char} (hb : b ∈ standard a) (ha : a.key.Free c)
    (hgrpc : Free c "-grpc") (hservice : Free c "Service") (hworkload : Free c "Workload") :
    b.placeholder.Free c := by
  rcases mem_standard hb with rfl | rfl
  · exact ⟨hservice, ha.1, ha.2.append hgrpc⟩
  · exact ⟨hworkload, ha⟩

/-- A builder of the standard catalog that succeeds at all gives every object the same labels and
the same specification. -/
theorem standard_build {o o' : Object} (hb : b ∈ standard a) (h : b.build o = .ok o') :
    ∃ labels spec, ∀ o, b.build o = .ok (shape o labels spec) := by
  rcases mem_standard hb with rfl | rfl
  · exact ⟨_, _, fun _ => rfl⟩
  · simp only [workload] at h ⊢
    split at h
    · exact nomatch h
    · rename_i hnodes
      exact ⟨_, _, fun o => if_neg hnodes⟩

/-- What a builder of the standard catalog makes of an object, together with its claim: the labels,
the specification and the owner may be others. -/
theorem standard_owned_cases {owner : Metadata} {o o' : Object} (hb : b ∈ standard a)
    (h : b.owned owner o = .ok o') : ∃ labels spec,
      (∀ o, b.build o = .ok (shape o labels spec)) ∧ owner.ns = o.metadata.ns ∧
      o' = { shape o labels spec with metadata :=
        { (shape o labels spec).metadata with
          owner := some ⟨Database.kind.name, owner.name, true⟩ } } := by
  obtain ⟨built, metadata, hbuild, hcontroller, rfl⟩ := Builder.owned_eq_ok_iff.mp h
  obtain ⟨labels, spec, hshape⟩ := standard_build hb hbuild
  obtain rfl := Except.ok.inj ((hshape o).symm.trans hbuild)
  obtain ⟨hns, rfl⟩ := Metadata.setController_eq_ok hcontroller
  exact ⟨labels, spec, hshape, hns, rfl⟩

/-- A builder of the standard catalog leaves the kind, the key and the status of an object as they
are. -/
theorem standard_owned {owner : Metadata} {o o' : Object} (hb : b ∈ standard a)
    (h : b.owned owner o = .ok o') : o'.kind = o.kind ∧ o'.key = o.key ∧ o'.status = o.status := by
  obtain ⟨labels, spec, -, -, rfl⟩ := standard_owned_cases hb h
  exact ⟨rfl, rfl, rfl⟩

/-- **Idempotence of the builders.** A builder of the standard catalog changes nothing about what
it has made, whatever version and status that has got since. -/
theorem standard_owned_again {owner : Metadata} {o o' : Object} (hb : b ∈ standard a)
    (h : b.owned owner o = .ok o') (status : Json) (version : UInt64) :
    b.owned owner ({ o' with status }.withVersion version) =
      .ok ({ o' with status }.withVersion version) := by
  obtain ⟨labels, spec, hshape, hns, rfl⟩ := standard_owned_cases hb h
  refine Builder.owned_eq_ok_iff.mpr ⟨_, _, hshape _, Metadata.setController_again hns rfl, ?_⟩
  simp only [shape, Object.withVersion, Table.union_union]

end Catalog

end Converge

import Converge.Proofs.Syncing

/-!
# The objects of the standard catalog

A builder of the standard catalog can make its object of whatever is in the place of it, unless that
is controlled by another owner, or no nodes are wanted. An object that it finds built has exactly
the specification that the catalog gives it: there are no floating-point numbers in it, and other
values are the same only as themselves.

## Main definitions

* `Json.Exact`: a value that is the same as no other.
* `Object.BelongsTo`: an object that is controlled by a database and has its labels.
* `Store.Claimable`: an object is not there, or not controlled by another owner.

## Main results

* `Store.Built.shaped`: what an object has that a builder has made or found built.
* `Store.Built.service`, `Store.Built.workload`: what the built objects of a database are.
* `Store.accepts_standard`: when the builders of the standard catalog can make their objects.
-/

namespace Converge

/-! ### Values that are the same as no other -/

/-- A field is written as a member of its name, or left out. -/
theorem Fields.eq_of_mem_write {ρ α : Type} {name : String} {get : ρ → α} {codec : Codec α}
    {presence : Presence α} {r : ρ} {m : String × Json}
    (h : m ∈ (Fields.field name get codec presence).write r) :
    m = (name, codec.encode (get r)) := by
  simp only [Fields.field] at h
  split at h
  · exact absurd h List.not_mem_nil
  · exact List.mem_singleton.mp h

namespace Json

/-- No other value is the same as this one. -/
def Exact (a : Json) : Prop := ∀ b, a.same b = true → b = a

theorem exact_int (n : Int) : (int n).Exact := by
  intro b h
  cases b <;> simp_all [same]

theorem exact_str (s : String) : (str s).Exact := by
  intro b h
  cases b <;> simp_all [same]

theorem exact_arr {as : List Json} (h : ∀ a ∈ as, a.Exact) : (arr as).Exact := by
  have helements : ∀ bs, sameElements as bs = true → bs = as := by
    induction as with
    | nil => intro bs hbs; cases bs <;> simp_all [sameElements]
    | cons a as ih =>
      intro bs hbs
      cases bs with
      | nil => simp [sameElements] at hbs
      | cons b bs =>
        rw [sameElements, Bool.and_eq_true] at hbs
        rw [h a List.mem_cons_self b hbs.1,
          ih (fun a' ha' => h a' (List.mem_cons_of_mem a ha')) bs hbs.2]
  intro b hsame
  cases b with
  | arr bs => rw [helements bs (by rwa [same] at hsame)]
  | _ => simp [same] at hsame

theorem exact_obj {members : List (String × Json)} (h : ∀ m ∈ members, m.2.Exact) :
    (obj members).Exact := by
  have hmembers : ∀ others, sameMembers members others = true → others = members := by
    induction members with
    | nil => intro others hothers; cases others <;> simp_all [sameMembers]
    | cons m members ih =>
      intro others hothers
      cases others with
      | nil => simp [sameMembers] at hothers
      | cons m' others =>
        rw [sameMembers, Bool.and_eq_true, Bool.and_eq_true, beq_iff_eq] at hothers
        obtain ⟨⟨hname, hvalue⟩, hrest⟩ := hothers
        rw [ih (fun m' hm' => h m' (List.mem_cons_of_mem m hm')) others hrest]
        exact congrArg (· :: members) (Prod.ext hname.symm (h m List.mem_cons_self _ hvalue))
  intro b hsame
  cases b with
  | obj others => rw [hmembers others (by rwa [same] at hsame)]
  | _ => simp [same] at hsame

theorem exact_ofMembers {members : List (String × Json)} (h : ∀ m ∈ members, m.2.Exact) :
    (ofMembers members).Exact :=
  exact_obj fun m hm => h m (Table.mem_of_mem_ofList hm)

theorem exact_texts (t : Table String) : (Codec.texts.encode t).Exact := by
  refine exact_obj fun m hm => ?_
  obtain ⟨entry, -, rfl⟩ := List.mem_map.mp hm
  exact exact_str entry.2

end Json

namespace Catalog

theorem exact_serviceSpec (port : UInt16) (selector : Table String) :
    (serviceSpec port selector).Exact := by
  refine Json.exact_ofMembers (List.forall_mem_cons.mpr ⟨?_, List.forall_mem_singleton.mpr ?_⟩)
  · refine Json.exact_arr (List.forall_mem_singleton.mpr (Json.exact_ofMembers ?_))
    exact List.forall_mem_cons.mpr ⟨Json.exact_str _,
      List.forall_mem_singleton.mpr (Json.exact_int _)⟩
  · exact Json.exact_texts selector

theorem exact_workloadSpec (spec : WorkloadSpec) : (WorkloadSpec.codec.encode spec).Exact := by
  refine Json.exact_ofMembers fun m hm => ?_
  rcases List.mem_append.mp hm with hm | hm
  · rcases List.mem_append.mp hm with hm | hm
    · exact absurd hm List.not_mem_nil
    · rw [Fields.eq_of_mem_write hm]
      exact Json.exact_int _
  · rw [Fields.eq_of_mem_write hm]
    exact Json.exact_texts _

/-- The labels of what belongs to a database. -/
theorem find?_selector (name : String) : (selector name).find? databaseLabel = some name ∧
    (selector name).find? componentLabel = some "database" := by
  have hne : databaseLabel ≠ componentLabel := by decide
  have hnodup : ([(databaseLabel, name), (componentLabel, "database")].map (·.1)).Nodup := by
    simpa using hne
  rw [selector, Table.find?_ofList hnodup, Table.find?_ofList hnodup]
  simp [Table.lookup_cons, hne]

end Catalog

/-! ### Objects that are built -/

/-- The object is controlled by the database called `name`, and has the labels of what belongs to
that. -/
structure Object.BelongsTo (o : Object) (name : String) : Prop where
  owner : o.metadata.owner = some ⟨Database.kind.name, name, true⟩
  database : o.metadata.labels.find? Catalog.databaseLabel = some name
  component : o.metadata.labels.find? Catalog.componentLabel = some "database"

namespace Store

variable {s : Store} {owner : Metadata} {b : Builder} {a : Aggregate} {spec : Json}

/-- A builder whose object is built has given it its specification, its owner and its labels. -/
theorem Built.shaped (h : s.Built owner b) (hspec : spec.Exact)
    (hbuild : ∀ o, b.build o = .ok (Catalog.shape o (Catalog.selector owner.name) spec)) :
    ∃ stored, s.objects.find? b.placeholder.tableKey = some stored ∧
      stored.tableKey = b.placeholder.tableKey ∧ stored.spec = spec ∧
      stored.BelongsTo owner.name := by
  obtain ⟨stored, o, hfind, hchange, hsame⟩ := h
  obtain ⟨hchange, hplace⟩ := applyChange_eq_ok_iff.mp hchange
  obtain ⟨built, metadata, hbuilt, hcontroller, rfl⟩ := Builder.owned_eq_ok_iff.mp hchange
  obtain rfl := Except.ok.inj ((hbuild stored).symm.trans hbuilt)
  obtain ⟨-, rfl⟩ := Metadata.setController_eq_ok hcontroller
  simp only [Object.same, Bool.and_eq_true, beq_iff_eq] at hsame
  obtain ⟨⟨⟨-, hmetadata⟩, hspecs⟩, -⟩ := hsame
  have hlabels : ∀ k v, (Catalog.selector owner.name).find? k = some v →
      stored.metadata.labels.find? k = some v := by
    intro k v hv
    rw [← hmetadata]
    exact (Table.find?_union _ _ k).trans (by rw [hv]; rfl)
  obtain ⟨hdatabase, hcomponent⟩ := Catalog.find?_selector owner.name
  refine ⟨stored, hfind, hplace, hspec _ hspecs, ?_, hlabels _ _ hdatabase, hlabels _ _ hcomponent⟩
  rw [← hmetadata]
  rfl

/-- **The service of a database.** When it is built it has the port and the selector of the catalog,
and belongs to the database. -/
theorem Built.service (h : s.Built a.database.metadata (Catalog.service a)) :
    ∃ o, s.find? "Service" ⟨a.ns, a.name ++ "-grpc"⟩ = some o ∧
      o.spec = Catalog.serviceSpec 2135 (Catalog.selector a.name) ∧ o.BelongsTo a.name := by
  obtain ⟨o, hfind, -, hspec, hbelongs⟩ :=
    h.shaped (Catalog.exact_serviceSpec _ _) fun _ => rfl
  exact ⟨o, hfind, hspec, hbelongs⟩

/-- **The workload of a database.** When it is built it has the number of nodes and the selector of
the catalog, and belongs to the database; and some node is wanted. -/
theorem Built.workload (h : s.Built a.database.metadata (Catalog.workload a)) :
    a.spec.nodes ≠ 0 ∧ ∃ o, s.find? Workload.kind.name a.key = some o ∧
      o.tableKey = tableKey Workload.kind.name a.key ∧
      o.spec = WorkloadSpec.codec.encode ⟨a.spec.nodes, Catalog.selector a.name⟩ ∧
      o.BelongsTo a.name := by
  have hnodes : a.spec.nodes ≠ 0 := by
    obtain ⟨stored, o, -, hchange, -⟩ := h
    obtain ⟨built, _, hbuilt, -⟩ :=
      Builder.owned_eq_ok_iff.mp (applyChange_eq_ok_iff.mp hchange).1
    intro hzero
    dsimp only [Catalog.workload] at hbuilt
    rw [if_pos hzero] at hbuilt
    exact nomatch hbuilt
  exact ⟨hnodes, h.shaped (Catalog.exact_workloadSpec _) fun _ => if_neg hnodes⟩

/-- What a built workload wants can be read from it. -/
theorem spec_read?_workload {o : Object} {spec : WorkloadSpec}
    (h : o.spec = WorkloadSpec.codec.encode spec) :
    Workload.kind.specPresence.read? Workload.kind.spec o.spec = some spec := by
  rw [h]
  exact Presence.read?_encode WorkloadSpec.codec_lawful (Codec.record_encode_ne_null _ _ _)

/-! ### Objects that can be built -/

/-- Nothing is stored at the key of a kind, or it is not controlled by another owner than the
database called `name`. -/
def Claimable (s : Store) (kind : String) (key : ObjectKey) (name : String) : Prop :=
  ∀ o owner, s.find? kind key = some o → o.metadata.owner = some owner → owner.controller = true →
    owner.kind = Database.kind.name ∧ owner.name = name

theorem claimable_iff {kind : String} {key : ObjectKey} {name : String} :
    s.Claimable kind key name ↔ ((s.find? kind key).all fun o => o.metadata.owner.all fun owner =>
      !owner.controller || (owner.kind = Database.kind.name && owner.name = name)) = true := by
  simp only [Claimable, Option.all_eq_true, Bool.or_eq_true, Bool.not_eq_true', Bool.and_eq_true,
    decide_eq_true_eq]
  constructor
  · intro h o hfind owner howner
    cases hcontroller : owner.controller with
    | false => exact .inl rfl
    | true => exact .inr (h o owner hfind howner hcontroller)
  · intro h o owner hfind howner hcontroller
    exact (h o hfind owner howner).resolve_left (by simp [hcontroller])

instance {kind : String} {key : ObjectKey} {name : String} :
    Decidable (s.Claimable kind key name) :=
  decidable_of_iff _ claimable_iff.symm

/-- A builder that gives every object a shape can make its object of what can be claimed. -/
theorem accepts_of_claimable {labels : Table String} (hs : s.Placed) {kind : String}
    {key : ObjectKey} (hkind : Free '/' kind) (hkey : key.Free '/')
    (hplaceholder : b.placeholder = .empty kind key)
    (hbuild : ∀ o, b.build o = .ok (Catalog.shape o labels spec)) (hns : owner.ns = key.ns)
    (hclaim : s.Claimable kind key owner.name) : s.Accepts owner b := by
  unfold Accepts
  rw [hplaceholder]
  change ∃ o, applyChange (tableKey kind key) _
    ((s.objects.find? (tableKey kind key)).getD (.empty kind key)) = .ok o
  obtain ⟨original, horiginal, hplace, huncontrolled⟩ : ∃ original,
      (s.objects.find? (tableKey kind key)).getD (.empty kind key) = original ∧
      original.tableKey = tableKey kind key ∧ ∀ current, original.metadata.owner = some current →
        current.controller = true →
          current.kind = Database.kind.name ∧ current.name = owner.name := by
    cases hfind : s.objects.find? (tableKey kind key) with
    | none => exact ⟨_, rfl, rfl, fun _ howner => nomatch howner⟩
    | some stored => exact ⟨_, rfl, hs _ stored hfind, fun current => hclaim stored current hfind⟩
  rw [horiginal]
  have hns' : owner.ns = original.metadata.ns := by
    rw [hns, ← (tableKey_inj hkind hkey hplace).2]
    rfl
  refine ⟨_, applyChange_eq_ok_iff.mpr ⟨Builder.owned_eq_ok_iff.mpr ⟨_, _, hbuild original,
    Metadata.setController_of_uncontrolled hns' huncontrolled, rfl⟩, hplace⟩⟩

/-- **When the builders can make their objects.** The service and, for a database that is not
serverless, the workload are not controlled by another owner, and some node is wanted. -/
theorem accepts_standard (hs : s.Placed) (hkey : a.key.Free '/')
    (hservice : s.Claimable "Service" ⟨a.ns, a.name ++ "-grpc"⟩ a.name)
    (hworkload : a.resources.isServerless = false →
      s.Claimable Workload.kind.name a.key a.name ∧ a.spec.nodes ≠ 0) :
    ∀ b ∈ Catalog.standard a, s.Accepts a.database.metadata b := by
  intro b hb
  rcases Catalog.mem_standard_iff.mp hb with rfl | ⟨hserverless, rfl⟩
  · have hplace : (⟨a.ns, a.name ++ "-grpc"⟩ : ObjectKey).Free '/' :=
      ⟨hkey.1, hkey.2.append (by decide)⟩
    exact accepts_of_claimable hs (by decide) hplace rfl (fun _ => rfl) rfl hservice
  · obtain ⟨hclaim, hnodes⟩ := hworkload hserverless
    exact accepts_of_claimable hs (by decide) hkey rfl (fun _ => if_neg hnodes) rfl hclaim

end Store

end Converge

import Converge.Proofs.Texts

/-!
# Decoding what was read again

A specification that was read from a text, and is read again from the text that is written of it,
can only have changed in its floating-point numbers. A codec that does not ask for such numbers
finds the same in both. So a database stays the same when its object is written and read, whatever
numbers it holds in members that a database does not have.

## Main definitions

* `Json.Kept`: a value and what is read of it again.
* `Codec.Keeps`: codecs that find the same in both.

## Main results

* `Json.Kept.of_arr`, `Json.Kept.of_obj`: the elements and members of values that are kept.
* `Codec.record_keeps`: a record with fields that find the same in both.
* `DatabaseSpec.codec_keeps`: the specification of a database.
-/

namespace Converge

namespace Json

/-- The value `j` has sorted members, and `j'` is read from its text. -/
structure Kept (depth : Nat) (j j' : Json) : Prop where
  sorted : j.Sorted
  reread : j.reread depth = some j'

variable {depth : Nat} {j j' : Json}

/-- Values that are not read in parts stay as they are. -/
theorem Kept.eq_of_plain (h : Kept depth j j') (hplain : j.Plain depth) : j' = j :=
  Option.some.inj (h.reread.symm.trans hplain.reread)

private theorem forall₂_of_rereadElements {as as' : List Json} (h : ∀ a ∈ as, a.Sorted)
    (hreread : rereadElements as depth = some as') : List.Forall₂ (Kept depth) as as' := by
  induction as generalizing as' with
  | nil =>
    obtain rfl := Option.some.inj hreread
    exact .nil
  | cons a as ih =>
    obtain ⟨ha, has⟩ := List.forall_mem_cons.mp h
    simp only [rereadElements, Option.bind_eq_bind, Option.bind_eq_some_iff,
      Option.pure_def, Option.some.injEq] at hreread
    obtain ⟨b, hb, bs, hbs, rfl⟩ := hreread
    exact .cons ⟨ha, hb⟩ (ih has hbs)

private theorem forall₂_of_rereadMembers {ms ms' : List (String × Json)} (h : ∀ m ∈ ms, m.2.Sorted)
    (hreread : rereadMembers ms depth = some ms') :
    List.Forall₂ (fun m m' => m'.1 = m.1 ∧ Kept depth m.2 m'.2) ms ms' := by
  induction ms generalizing ms' with
  | nil =>
    obtain rfl := Option.some.inj hreread
    exact .nil
  | cons m ms ih =>
    obtain ⟨hm, hms⟩ := List.forall_mem_cons.mp h
    simp only [rereadMembers, Option.bind_eq_bind, Option.bind_eq_some_iff,
      Option.pure_def, Option.some.injEq] at hreread
    obtain ⟨b, hb, bs, hbs, rfl⟩ := hreread
    exact .cons ⟨rfl, hm, hb⟩ (ih hms hbs)

/-- The elements of an array are kept one by one. -/
theorem Kept.of_arr {as : List Json} (h : Kept depth (arr as) j') :
    ∃ depth' as', j' = arr as' ∧ List.Forall₂ (Kept depth') as as' := by
  obtain ⟨hsorted, hreread⟩ := h
  cases hsorted with | arr hsorted =>
  cases depth with
  | zero => exact nomatch hreread
  | succ depth =>
    simp only [Json.reread, Option.map_eq_some_iff] at hreread
    obtain ⟨as', has, rfl⟩ := hreread
    exact ⟨depth, as', rfl, forall₂_of_rereadElements hsorted has⟩

private theorem rel_lookup {R : Json → Json → Prop} {ms ms' : List (String × Json)}
    (h : List.Forall₂ (fun m m' => m'.1 = m.1 ∧ R m.2 m'.2) ms ms') (name : String) :
    Option.Rel R (ms.lookup name) (ms'.lookup name) := by
  induction h with
  | nil => exact .none
  | @cons m m' ms ms' hm _ ih =>
    obtain ⟨k, v⟩ := m
    obtain ⟨k', v'⟩ := m'
    obtain ⟨rfl, hv⟩ := hm
    rw [Table.lookup_cons, Table.lookup_cons]
    split
    · exact .some hv
    · exact ih

private theorem map_name_eq {R : Json → Json → Prop} {ms ms' : List (String × Json)}
    (h : List.Forall₂ (fun m m' => m'.1 = m.1 ∧ R m.2 m'.2) ms ms') :
    ms'.map (·.1) = ms.map (·.1) := by
  induction h with
  | nil => rfl
  | cons hm _ ih => rw [List.map_cons, List.map_cons, hm.1, ih]

/-- The members of an object are kept one by one. -/
theorem Kept.of_obj {ms : List (String × Json)} (h : Kept depth (obj ms) j') :
    ∃ depth' ms', j' = obj ms' ∧
      List.Forall₂ (fun m m' => m'.1 = m.1 ∧ Kept depth' m.2 m'.2) ms ms' := by
  obtain ⟨hsorted, hreread⟩ := h
  cases hsorted with | @obj ms hsorted =>
  cases depth with
  | zero => exact nomatch hreread
  | succ depth =>
    simp only [Json.reread, Option.map_eq_some_iff] at hreread
    obtain ⟨ms', hms, rfl⟩ := hreread
    have hkept := forall₂_of_rereadMembers hsorted hms
    -- Members that keep their places and names are still sorted.
    have hnames : (ms'.map (·.1)).Pairwise (· < ·) := by
      rw [map_name_eq hkept]
      exact List.pairwise_map.mpr ms.sorted
    exact ⟨depth, ms', ofMembers_eq_obj hnames, hkept⟩

end Json

/-! ### Codecs -/

/-- What the fields find in members and elements is found again in what is read of them. -/
structure Fields.Keep {ρ α : Type} (f : Fields ρ α) : Prop where
  members : ∀ {depth : Nat} {get get' : String → Option Json} {a : α},
    (∀ name, Option.Rel (Json.Kept depth) (get name) (get' name)) →
    f.ofMembers get = .ok a → f.ofMembers get' = .ok a
  elements : ∀ {depth : Nat} {short : Nat → DecodeError} {position : Nat} {as as' rest : List Json}
    {a : α}, List.Forall₂ (Json.Kept depth) as as' →
    f.ofElements short position as = .ok (a, rest) →
    ∃ rest', f.ofElements short position as' = .ok (a, rest') ∧
      List.Forall₂ (Json.Kept depth) rest rest'

namespace Codec

variable {α : Type} {c : Codec α}

/-- What the codec finds in a value is found again in what is read of it. -/
def Keeps (c : Codec α) : Prop :=
  ∀ {depth : Nat} {j j' : Json} {a : α}, j.Kept depth j' → c.decode j = .ok a → c.decode j' = .ok a

theorem string_keeps : string.Keeps := by
  intro depth j j' a h hdecode
  cases j with
  | str s => rwa [h.eq_of_plain (.str s)]
  | _ => exact nomatch hdecode

theorem word_keeps {bound : Nat} {expected : String} {toNat : α → Nat} {ofNat : Nat → α}
    (hbound : bound ≤ 2 ^ 64) : (word bound expected toNat ofNat).Keeps := by
  intro depth j j' a h hdecode
  cases j with
  | int n =>
    by_cases hn : 0 ≤ n ∧ n < bound
    · rwa [h.eq_of_plain (.int (by omega) (by omega))]
    · simp only [word, natBelow, if_neg hn] at hdecode
      cases hdecode
  | _ => cases hdecode

theorem nullable_keeps (hc : c.Keeps) (hnull : ∀ a, c.decode .null ≠ .ok a) :
    c.nullable.Keeps := by
  have hsome : ∀ j o, j ≠ .null → (c.nullable.decode j = .ok o ↔ ∃ a, c.decode j = .ok a ∧
      o = some a) := by
    intro j o hj
    have hdecode : c.nullable.decode j = (c.decode j).map some := by
      cases j with
      | null => exact absurd rfl hj
      | _ => rfl
    rw [hdecode]
    cases c.decode j <;> simp [Except.map, eq_comm]
  intro depth j j' o h hdecode
  by_cases hj : j = .null
  · rwa [h.eq_of_plain (hj ▸ .null)]
  · obtain ⟨a, ha, rfl⟩ := (hsome j o hj).mp hdecode
    have ha' : c.decode j' = .ok a := hc h ha
    exact (hsome j' _ fun hj' => hnull a (hj' ▸ ha')).mpr ⟨a, ha', rfl⟩

theorem list_keeps (hc : c.Keeps) : c.list.Keeps := by
  intro depth j j' l h hdecode
  cases j with
  | arr as =>
    obtain ⟨depth', as', rfl, has⟩ := h.of_arr
    simp only [list] at hdecode ⊢
    clear h
    induction has generalizing l with
    | nil => exact hdecode
    | cons ha _ ih =>
      rw [List.mapM_cons] at hdecode ⊢
      obtain ⟨b, hb, hdecode⟩ := except_bind_eq_ok_iff.mp hdecode
      obtain ⟨bs, hbs, hdecode⟩ := except_bind_eq_ok_iff.mp hdecode
      rw [hc ha hb, ih hbs]
      exact hdecode
  | _ => exact nomatch hdecode

theorem record_keeps {ρ : Type} {name : String} {fields : Fields ρ ρ} (h : fields.Keep) :
    (record name fields).Keeps := by
  intro depth j j' r hkept hdecode
  cases j with
  | obj ms =>
    obtain ⟨depth', ms', rfl, hms⟩ := hkept.of_obj
    simp only [record, mapError_eq_ok_iff] at hdecode ⊢
    exact h.members (Json.rel_lookup hms) hdecode
  | arr as =>
    obtain ⟨depth', as', rfl, has⟩ := hkept.of_arr
    simp only [record] at hdecode ⊢
    split at hdecode
    · rename_i r' hread
      obtain ⟨rest', hread', hrest⟩ := h.elements has hread
      obtain rfl := List.forall₂_nil_left_iff.mp hrest
      rwa [hread']
    · cases hdecode
    · cases hdecode
  | _ => cases hdecode

end Codec

namespace Fields

variable {ρ α β : Type} {name : String} {get : ρ → α} {codec : Codec α} {presence : Presence α}

/-- A field is read from its member, or from its absence. -/
private theorem ofMembers_field_cases {found : String → Option Json} {a : α} :
    (field name get codec presence).ofMembers found = .ok a ↔
      (found name = none ∧ presence.absent? = some a) ∨
        ∃ j, found name = some j ∧ codec.decode j = .ok a := by
  simp only [field]
  cases found name with
  | some j => simp [mapError_eq_ok_iff]
  | none => cases presence.absent? <;> simp

/-- Likewise from the elements of an array. -/
private theorem ofElements_field_cases {short : Nat → DecodeError} {position : Nat}
    {as rest : List Json} {a : α} :
    (field name get codec presence).ofElements short position as = .ok (a, rest) ↔
      (as = [] ∧ rest = [] ∧ presence.ended? = some a) ∨
        ∃ j, as = j :: rest ∧ codec.decode j = .ok a := by
  simp only [field]
  cases as with
  | nil => cases presence.ended? <;> simp [eq_comm, and_comm]
  | cons j as =>
    cases hdecode : codec.decode j with
    | error e => simp [Except.map, hdecode]
    | ok a' => simp [Except.map, hdecode, and_comm]

theorem keep_pure (a : α) : (pure a : Fields ρ α).Keep where
  members _ h := h
  elements has h := by
    obtain ⟨rfl, rfl⟩ := Prod.mk.inj (Except.ok.inj h)
    exact ⟨_, rfl, has⟩

/-- A field of a codec that finds the same can be added. -/
theorem Keep.field {f : Fields ρ (α → β)} (hf : f.Keep) (hcodec : codec.Keeps) :
    (f <*> .field name get codec presence).Keep where
  members {_ _ found' _} hget h := by
    obtain ⟨g, a, hg, ha, rfl⟩ := ResourceKind.ofMembers_seq_iff.mp h
    refine ResourceKind.ofMembers_seq_iff.mpr ⟨g, a, hf.members hget hg, ?_, rfl⟩
    have hmember := hget name
    generalize hfound : found' name = value? at hmember
    rcases ofMembers_field_cases.mp ha with ⟨hnone, habsent⟩ | ⟨j, hj, hdecode⟩
    · rw [hnone] at hmember
      cases hmember
      exact ofMembers_field_cases.mpr (.inl ⟨hfound, habsent⟩)
    · rw [hj] at hmember
      cases hmember with | some hkept =>
      exact ofMembers_field_cases.mpr (.inr ⟨_, hfound, hcodec hkept hdecode⟩)
  elements has h := by
    obtain ⟨⟨g, as₁⟩, hg, h⟩ := except_bind_eq_ok_iff.mp h
    obtain ⟨⟨a, as₂⟩, ha, h⟩ := except_bind_eq_ok_iff.mp h
    obtain ⟨rfl, rfl⟩ := Prod.mk.inj (Except.ok.inj h)
    obtain ⟨as₁', hg', has₁⟩ := hf.elements has hg
    obtain ⟨as₂', ha', has₂⟩ : ∃ as₂', (Fields.field name get codec presence).ofElements _ _
        as₁' = .ok (a, as₂') ∧ List.Forall₂ (Json.Kept _) as₂ as₂' := by
      rcases ofElements_field_cases.mp ha with ⟨rfl, rfl, hended⟩ | ⟨j, rfl, hdecode⟩
      · obtain rfl := List.forall₂_nil_left_iff.mp has₁
        exact ⟨[], ofElements_field_cases.mpr (.inl ⟨rfl, rfl, hended⟩), .nil⟩
      · obtain ⟨j', as₂', hkept, has₂, rfl⟩ := List.forall₂_cons_left_iff.mp has₁
        exact ⟨as₂', ofElements_field_cases.mpr (.inr ⟨j', rfl, hcodec hkept hdecode⟩), has₂⟩
    refine ⟨as₂', ?_, has₂⟩
    exact except_bind_eq_ok_iff.mpr ⟨_, hg', except_bind_eq_ok_iff.mpr ⟨_, ha', rfl⟩⟩

end Fields

open Codec Fields

theorem Reference.codec_keeps : Reference.codec.Keeps :=
  record_keeps (((keep_pure mk).field string_keeps).field (nullable_keeps string_keeps nofun))

theorem StorageUnit.codec_keeps : StorageUnit.codec.Keeps :=
  record_keeps (((keep_pure mk).field string_keeps).field (word_keeps (by decide)))

theorem StorageResources.codec_keeps : StorageResources.codec.Keeps :=
  record_keeps ((keep_pure mk).field (list_keeps StorageUnit.codec_keeps))

theorem ServerlessResources.codec_keeps : ServerlessResources.codec.Keeps :=
  record_keeps ((keep_pure mk).field Reference.codec_keeps)

/-- The specification of a database does not ask for floating-point numbers. -/
theorem DatabaseSpec.codec_keeps : DatabaseSpec.codec.Keeps :=
  record_keeps (((((((keep_pure mk).field Reference.codec_keeps).field
    (word_keeps (by decide))).field string_keeps).field
    (nullable_keeps StorageResources.codec_keeps nofun)).field
    (nullable_keeps StorageResources.codec_keeps nofun)).field
    (nullable_keeps ServerlessResources.codec_keeps nofun))

/-! ### Objects -/

/-- What the fields find in sorted members and elements has the property `Q`. -/
structure Fields.Give {ρ α : Type} (f : Fields ρ α) (Q : α → Prop) : Prop where
  members : ∀ {get : String → Option Json} {a : α}, (∀ name j, get name = some j → j.Sorted) →
    f.ofMembers get = .ok a → Q a
  elements : ∀ {short : Nat → DecodeError} {position : Nat} {as rest : List Json} {a : α},
    (∀ j ∈ as, j.Sorted) → f.ofElements short position as = .ok (a, rest) →
    Q a ∧ ∀ j ∈ rest, j.Sorted

/-- What the codec finds in a sorted value has the property `Q`. -/
def Codec.Gives {α : Type} (c : Codec α) (Q : α → Prop) : Prop :=
  ∀ j a, j.Sorted → c.decode j = .ok a → Q a

theorem Codec.gives_true {α : Type} (c : Codec α) : c.Gives fun _ => True := fun _ _ _ _ => trivial

theorem Codec.json_gives : Codec.json.Gives Json.Sorted :=
  fun _ _ h hdecode => Except.ok.inj hdecode ▸ h

namespace Fields

variable {ρ α β : Type} {name : String} {get : ρ → α} {codec : Codec α} {presence : Presence α}
  {Q : α → Prop} {R : (α → β) → Prop} {S : β → Prop}

theorem give_pure {a : α} (h : Q a) : (pure a : Fields ρ α).Give Q where
  members _ hread := Except.ok.inj hread ▸ h
  elements has hread := by
    obtain ⟨rfl, rfl⟩ := Prod.mk.inj (Except.ok.inj hread)
    exact ⟨h, has⟩

/-- A field can be added whose absence means something with the property as well. -/
theorem Give.field {f : Fields ρ (α → β)} (hf : f.Give R) (hcodec : codec.Gives Q)
    (habsent : ∀ a, presence.absent? = some a → Q a) (hended : ∀ a, presence.ended? = some a → Q a)
    (happly : ∀ g a, R g → Q a → S (g a)) :
    (f <*> .field name get codec presence).Give S where
  members hget h := by
    obtain ⟨g, a, hg, ha, rfl⟩ := ResourceKind.ofMembers_seq_iff.mp h
    refine happly g a (hf.members hget hg) ?_
    rcases ofMembers_field_cases.mp ha with ⟨-, ha⟩ | ⟨j, hj, hdecode⟩
    · exact habsent a ha
    · exact hcodec j a (hget name j hj) hdecode
  elements has h := by
    obtain ⟨⟨g, as₁⟩, hg, h⟩ := except_bind_eq_ok_iff.mp h
    obtain ⟨⟨a, as₂⟩, ha, h⟩ := except_bind_eq_ok_iff.mp h
    obtain ⟨rfl, rfl⟩ := Prod.mk.inj (Except.ok.inj h)
    obtain ⟨hR, has₁⟩ := hf.elements has hg
    rcases ofElements_field_cases.mp ha with ⟨rfl, rfl, hend⟩ | ⟨j, rfl, hdecode⟩
    · exact ⟨happly g a hR (hended a hend), List.forall_mem_nil _⟩
    · obtain ⟨hj, has₂⟩ := List.forall_mem_cons.mp has₁
      exact ⟨happly g a hR (hcodec j a hj hdecode), has₂⟩

end Fields

theorem Codec.record_gives {ρ : Type} {name : String} {fields : Fields ρ ρ} {Q : ρ → Prop}
    (h : fields.Give Q) : (record name fields).Gives Q := by
  intro j r hsorted hdecode
  cases hsorted with
  | @obj ms hms =>
    simp only [record, mapError_eq_ok_iff] at hdecode
    refine h.members (fun name j hj => ?_) hdecode
    exact hms _ (Table.mem_of_lookup hj)
  | arr has =>
    simp only [record] at hdecode
    split at hdecode
    · rename_i r' hread
      exact Except.ok.inj hdecode ▸ (h.elements has hread).1
    · cases hdecode
    · cases hdecode
  | _ => cases hdecode

/-- The specification of an object that was read from a sorted value is sorted. -/
theorem Object.codec_gives : Object.codec.Gives fun o => o.spec.Sorted := by
  have hnull : ∀ a, (Presence.defaulted Json.null).absent? = some a → a.Sorted :=
    fun _ h => Option.some.inj h ▸ .null
  have hnamed : (pure mk <*> .field "kind" kind .string
      <*> .field "metadata" metadata Metadata.codec : Fields Object (Json → Json → Object)).Give
        fun g => ∀ spec status, (g spec status).spec = spec := by
    refine .field (R := fun g => ∀ m spec status, (g m spec status).spec = spec)
      (.field (R := fun g => ∀ k m spec status, (g k m spec status).spec = spec)
        (give_pure fun _ _ _ _ => rfl) (gives_true _) ?_ ?_ fun g k h _ => h k)
      (gives_true _) ?_ ?_ fun g m h _ => h m
    all_goals exact fun _ _ => trivial
  exact record_gives (Q := fun o : Object => o.spec.Sorted) (.field
    (R := fun g => ∀ status, (g status).spec.Sorted)
    (hnamed.field json_gives hnull hnull fun g spec hg hspec status =>
      (hg spec status).symm ▸ hspec)
    (gives_true _) (fun _ _ => trivial) (fun _ _ => trivial) fun g status h _ => h status)

/-- The specification of an object that was read is sorted. -/
theorem Object.spec_sorted_of_ofText {text : String} {o : Object}
    (h : Object.codec.ofText text = .ok o) : o.spec.Sorted := by
  rw [ofText] at h
  split at h
  · rename_i value hparse
    exact codec_gives value o (Json.sorted_of_parse? hparse) (mapError_eq_ok_iff.mp h)
  · cases h

/-- A database is the same database when its specification was written and read. -/
theorem Database.ofObject_of_reread {o : Object} {database : Database} {spec : Json}
    (hsorted : o.spec.Sorted) (hreread : o.spec.reread Object.nestingLimit = some spec)
    (h : Database.kind.ofObject o = .ok database) :
    Database.kind.ofObject { o with spec } = .ok database := by
  obtain ⟨hkind, hmetadata, hspec, hstatus⟩ := ResourceKind.ofObject_eq_ok_iff.mp h
  refine ResourceKind.ofObject_eq_ok_iff.mpr ⟨hkind, hmetadata, ?_, hstatus⟩
  -- Nothing that is null is the specification of a database.
  have hread : ∀ j, Presence.required.read? DatabaseSpec.codec j = some database.spec ↔
      DatabaseSpec.codec.decode j = .ok database.spec := by
    intro j
    rw [Presence.read?]
    split
    · rename_i hnull
      rw [Json.isNull_eq_true_iff.mp hnull]
      constructor <;> rintro ⟨⟩
    · cases DatabaseSpec.codec.decode j <;> simp [Except.toOption]
  exact (hread spec).mpr (DatabaseSpec.codec_keeps ⟨hsorted, hreread⟩ ((hread o.spec).mp hspec))

end Converge

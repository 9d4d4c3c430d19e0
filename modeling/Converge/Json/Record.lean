import Converge.Json.Codec

/-!
# Records in structured form

A record is written as an object with one member for each field. It is read from such an object,
whose other members do not matter, or from an array of the fields in their order. A field can be
required, or have a value that stands for its absence.

## Main definitions

* `Presence`: what the absence of a field means.
* `Fields`: named fields of a record, with what is read from them.
* `Codec.record`: the codec of a record with given fields.

## Main results

* `Fields.Faithful`: reading the written fields gives back the record.
* `Codec.record_lawful`: a record with faithful fields has a lawful codec.
-/

namespace Converge

/-! ### Absent fields -/

/-- What it means that a field is absent. -/
inductive Presence (α : Type) where
  /-- The field has to be there. -/
  | required
  /-- Absence from an object means `absent`; an array has to hold the field. -/
  | optional (absent : α)
  /-- Absence means `value`. -/
  | defaulted (value : α)
  /-- Absence means `value`, and the field is left out when `isValue` says that it has it. -/
  | omitted (value : α) (isValue : α → Bool)

namespace Presence

variable {α : Type}

/-- What absence from an object means. -/
def absent? : Presence α → Option α
  | required => none
  | optional a | defaulted a | omitted a _ => some a

/-- What it means that an array ends before the field. -/
def ended? : Presence α → Option α
  | required | optional _ => none
  | defaulted a | omitted a _ => some a

/-- Whether a field is left out when written. -/
def isOmitted : Presence α → α → Bool
  | omitted _ isValue, a => isValue a
  | _, _ => false

/-- Leaving a field out does not change what is read. -/
def Sound (p : Presence α) : Prop := ∀ a, p.isOmitted a = true → p.absent? = some a

end Presence

/-! ### Faults of an object -/

/-- Why the members of an object do not make a record. -/
inductive MemberFault where
  /-- The member of that name does not decode. -/
  | bad (name : String) (error : DecodeError)
  /-- No member has the name of a required field. -/
  | missing (name : String)

namespace MemberFault

/-- Of two faults the one to report, given that the fields of the first are declared before those
of the second: members are read in the order of their names, and only then are absent fields
looked for, in the order of their declaration. -/
def first : MemberFault → MemberFault → MemberFault
  | bad a e, bad b f => if b < a then bad b f else bad a e
  | bad a e, missing _ => bad a e
  | missing _, bad b f => bad b f
  | missing a, missing _ => missing a

/-- A fault as a decoding error. -/
def error : MemberFault → DecodeError
  | bad _ e => e
  | missing name => .missingField name

end MemberFault

/-! ### Fields -/

/-- Fields of a record of type `ρ`, from which a value of type `α` is read. -/
structure Fields (ρ α : Type) where
  /-- The names, in the order of declaration. -/
  names : List String
  /-- The members that are written for a record. -/
  write : ρ → List (String × Json)
  /-- The value read from an object, given by its members. -/
  ofMembers : (String → Option Json) → Except MemberFault α
  /-- The value read from the front of an array, and the elements left. The first two arguments
  are the error for a missing element, by its position, and the position of the first field. -/
  ofElements : (Nat → DecodeError) → Nat → List Json → Except DecodeError (α × List Json)

namespace Fields

variable {ρ α β : Type}

/-- No fields, and a value that is not read from any. -/
protected def pure (a : α) : Fields ρ α where
  names := []
  write _ := []
  ofMembers _ := .ok a
  ofElements _ _ elements := .ok (a, elements)

/-- The fields of `f` followed by those of `x`, and the value of one applied to the other's. -/
protected def seq (f : Fields ρ (α → β)) (x : Fields ρ α) : Fields ρ β where
  names := f.names ++ x.names
  write r := f.write r ++ x.write r
  ofMembers get :=
    match f.ofMembers get, x.ofMembers get with
    | .ok g, .ok a => .ok (g a)
    | .error e, .ok _ => .error e
    | .ok _, .error e => .error e
    | .error e, .error e' => .error (e.first e')
  ofElements short position elements := do
    let (g, elements) ← f.ofElements short position elements
    let (a, elements) ← x.ofElements short (position + f.names.length) elements
    return (g a, elements)

instance : Pure (Fields ρ) := ⟨Fields.pure⟩
instance : Seq (Fields ρ) := ⟨fun f x => f.seq (x ())⟩

/-- One field: its name, its value in a record, its codec and what its absence means. -/
def field (name : String) (get : ρ → α) (codec : Codec α) (presence : Presence α := .required) :
    Fields ρ α where
  names := [name]
  write r :=
    if presence.isOmitted (get r) then [] else [(name, codec.encode (get r))]
  ofMembers member :=
    match member name with
    | some value => (codec.decode value).mapError (.bad name)
    | none =>
      match presence.absent? with
      | some a => .ok a
      | none => .error (.missing name)
  ofElements short position
    | value :: elements => (codec.decode value).map (·, elements)
    | [] =>
      match presence.ended? with
      | some a => .ok (a, [])
      | none => .error (short position)

/-- Reading the members written for `r` gives `a`. -/
structure Faithful (f : Fields ρ α) (r : ρ) (a : α) : Prop where
  names_sublist : ((f.write r).map (·.1)).Sublist f.names
  ofMembers_eq : ∀ get : String → Option Json,
    (∀ n ∈ f.names, get n = (f.write r).lookup n) → f.ofMembers get = .ok a

/-- What is written has names of the fields. -/
theorem Faithful.name_mem {f : Fields ρ α} {r : ρ} {a : α} (h : f.Faithful r a) :
    ∀ m ∈ f.write r, m.1 ∈ f.names := fun _ hm =>
  h.names_sublist.subset (List.mem_map_of_mem hm)

theorem faithful_pure (r : ρ) (a : α) : Faithful (pure a : Fields ρ α) r a where
  names_sublist := List.Sublist.refl []
  ofMembers_eq _ _ := rfl

/-- Two groups of faithful fields without a common name are faithful together. -/
theorem Faithful.seq {f : Fields ρ (α → β)} {x : Fields ρ α} {r : ρ} {g : α → β} {a : α}
    (hf : f.Faithful r g) (hx : x.Faithful r a)
    (hd : ∀ n ∈ f.names, n ∉ x.names) : (f <*> x).Faithful r (g a) where
  names_sublist := by
    change ((f.write r ++ x.write r).map (·.1)).Sublist (f.names ++ x.names)
    rw [List.map_append]
    exact hf.names_sublist.append hx.names_sublist
  ofMembers_eq get h := by
    have hlook : ∀ n, ((f <*> x).write r).lookup n
        = ((f.write r).lookup n).or ((x.write r).lookup n) :=
      fun n => List.lookup_append
    have h₁ : f.ofMembers get = .ok g := hf.ofMembers_eq get fun n hn => by
      have hnone : (x.write r).lookup n = none := List.lookup_eq_none_iff.mpr fun m hm =>
        bne_iff_ne.mpr fun heq => hd n hn (heq ▸ hx.name_mem m hm)
      rw [h n (List.mem_append_left _ hn), hlook, hnone, Option.or_none]
    have h₂ : x.ofMembers get = .ok a := hx.ofMembers_eq get fun n hn => by
      have hnone : (f.write r).lookup n = none := List.lookup_eq_none_iff.mpr fun m hm =>
        bne_iff_ne.mpr fun heq => hd n (heq ▸ hf.name_mem m hm) hn
      rw [h n (List.mem_append_right _ hn), hlook, hnone, Option.none_or]
    change (match f.ofMembers get, x.ofMembers get with
      | .ok g, .ok a => .ok (g a)
      | .error e, .ok _ => .error e
      | .ok _, .error e => .error e
      | .error e, .error e' => .error (e.first e')) = Except.ok (g a)
    rw [h₁, h₂]

/-- A field whose value decodes, and whose absence means what is left out, is faithful. -/
theorem faithful_field {name : String} {get : ρ → α} {codec : Codec α} {presence : Presence α}
    {r : ρ} (hc : codec.decode (codec.encode (get r)) = .ok (get r)) (hp : presence.Sound) :
    (field name get codec presence).Faithful r (get r) where
  names_sublist := by
    simp only [field]
    split <;> simp
  ofMembers_eq member h := by
    have hok : ∀ f : DecodeError → MemberFault, (Except.ok (get r)).mapError f = .ok (get r) :=
      fun _ => rfl
    have hm := h name (by simp [field])
    by_cases ho : presence.isOmitted (get r) = true
    · simp [field, ho] at hm
      simp [field, hm, hp _ ho]
    · simp [field, ho] at hm
      simp [field, hm, hc, hok]

end Fields

/-! ### Records -/

namespace Codec

variable {ρ : Type}

/-- The codec of a record type. An error calls the record by `name`. -/
def record (name : String) (fields : Fields ρ ρ) : Codec ρ where
  encode r := Json.ofMembers (fields.write r)
  decode
    | .obj members => (fields.ofMembers (members.lookup ·)).mapError MemberFault.error
    | .arr elements =>
      let count := fields.names.length
      let plural := if count = 1 then "element" else "elements"
      let short (n : Nat) : DecodeError := .wrongLength n s!"struct {name} with {count} {plural}"
      match fields.ofElements short 0 elements with
      | .ok (r, []) => .ok r
      | .ok (_, _ :: _) => .error (.wrongLength elements.length "fewer elements in array")
      | .error e => .error e
    | j => .error (.wrongType j.found s!"struct {name}")

/-- A record is never written as null. -/
theorem record_encode_ne_null (name : String) (fields : Fields ρ ρ) (r : ρ) :
    (record name fields).encode r ≠ .null := by simp [record, Json.ofMembers]

/-- A record whose fields are faithful, under different names, has a lawful codec. -/
theorem record_lawful {name : String} {fields : Fields ρ ρ}
    (hf : ∀ r, fields.Faithful r r) (hn : fields.names.Nodup) :
    (record name fields).Lawful := fun r => by
  have hw : ((fields.write r).map (·.1)).Nodup := hn.sublist (hf r).names_sublist
  have hlook : ∀ n, (Table.ofList (fields.write r)).entries.lookup n
      = (fields.write r).lookup n := fun n => Table.find?_ofList hw n
  change ((fields.ofMembers
    ((Table.ofList (fields.write r)).entries.lookup ·)).mapError MemberFault.error) = .ok r
  rw [(hf r).ofMembers_eq _ fun n _ => hlook n]
  rfl

end Codec

end Converge

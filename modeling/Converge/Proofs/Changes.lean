import Converge.Proofs.Operations

/-!
# Creating or changing an object

A change is applied to the object that is stored, or to the placeholder. It fails, or moves the
object elsewhere, and then the store stays as it is; or what it has made is stored in the place of
the placeholder, with the status that was stored and the next version, unless apart from these two
nothing is new.

## Main definitions

* `Object.Agrees`: two objects are equal apart from their statuses and versions.
* `Object.Restated`: an object with another status and another version.
* `Change.Idempotent`, `Change.Blind`: a change that does nothing about what it has made, and one
  that does not ask for the status and the version.

## Main results

* `Change.Idempotent.restated`: a change that does nothing about what it has made does nothing about
  that with another status and another version.
* `Store.upsert_eq_ok_iff`: what becomes of the object when the change succeeds.
-/

namespace Converge

/-! ### Objects that differ in status and version -/

namespace Object

/-- The objects are equal apart from their statuses and versions. -/
structure Agrees (a b : Object) : Prop where
  kind : a.kind = b.kind
  key : a.key = b.key
  labels : a.metadata.labels = b.metadata.labels
  owner : a.metadata.owner = b.metadata.owner
  spec : a.spec.same b.spec = true

/-- The object `o'` is `o` but for the status and the version. -/
def Restated (o o' : Object) : Prop :=
  ∃ status version, o' = { o with status }.withVersion version

variable {a b o o₁ o₂ : Object}

theorem Agrees.refl (o : Object) : o.Agrees o := ⟨rfl, rfl, rfl, rfl, o.spec.same_self⟩

theorem Agrees.tableKey (h : a.Agrees b) : a.tableKey = b.tableKey := by
  rw [Object.tableKey, Object.tableKey, h.kind, h.key]

theorem Restated.refl (o : Object) : o.Restated o := ⟨o.status, o.metadata.version, rfl⟩

theorem Restated.tableKey (h : o.Restated o₁) : o₁.tableKey = o.tableKey := by
  obtain ⟨_, _, rfl⟩ := h
  rfl

theorem Restated.trans (h₁ : o.Restated o₁) (h₂ : o₁.Restated o₂) : o.Restated o₂ := by
  obtain ⟨_, _, rfl⟩ := h₁
  obtain ⟨status, version, rfl⟩ := h₂
  exact ⟨status, version, rfl⟩

/-- Agreement does not depend on statuses and versions. -/
theorem Agrees.restated {a' b' : Object} (h : a.Agrees b) (ha : a.Restated a')
    (hb : b.Restated b') : a'.Agrees b' := by
  obtain ⟨_, _, rfl⟩ := ha
  obtain ⟨_, _, rfl⟩ := hb
  exact ⟨h.kind, h.key, h.labels, h.owner, h.spec⟩

/-- Metadata with the same version are equal exactly when they agree in the rest. -/
theorem withVersion_metadata_eq_iff {m m' : Metadata} :
    { m with version := m'.version } = m' ↔
      m.key = m'.key ∧ m.labels = m'.labels ∧ m.owner = m'.owner := by
  cases m
  cases m'
  simp [Metadata.key, and_comm, and_assoc]

/-- With the status and the version of the stored object the changed one is the same as that exactly
when they agree. -/
theorem updated_same_iff {stored changed : Object} :
    (Store.updated stored changed).same stored = true ↔ changed.Agrees stored := by
  simp only [same, Store.updated, withVersion, Bool.and_eq_true, beq_iff_eq,
    withVersion_metadata_eq_iff]
  constructor
  · rintro ⟨⟨⟨hkind, hkey, hlabels, howner⟩, hspec⟩, -⟩
    exact ⟨hkind, hkey, hlabels, howner, hspec⟩
  · rintro ⟨hkind, hkey, hlabels, howner, hspec⟩
    exact ⟨⟨⟨hkind, hkey, hlabels, howner⟩, hspec⟩, stored.status.same_self⟩

end Object

/-! ### Changes -/

namespace Change

variable {change : Change}

/-- The change has nothing more to do about what it has made. -/
def Idempotent (change : Change) : Prop :=
  ∀ o o', change o = .ok o' → ∃ o'', change o' = .ok o'' ∧ o''.Agrees o'

/-- The change does not ask for the status and the version: whatever they are, it succeeds, and
makes the same of the rest. -/
def Blind (change : Change) : Prop :=
  ∀ o₁ o₂ o', o₁.Restated o₂ → change o₁ = .ok o' → ∃ o'', change o₂ = .ok o'' ∧ o'.Restated o''

/-- It has nothing more to do about what it has made when that has got another status and another
version. -/
theorem Idempotent.restated (hidem : change.Idempotent) (hblind : change.Blind) {o o' p : Object}
    (hchange : change o = .ok o') (hp : o'.Restated p) : ∃ r, change p = .ok r ∧ r.Agrees p := by
  obtain ⟨o'', hagain, hagrees⟩ := hidem o o' hchange
  obtain ⟨r, hr, hrestated⟩ := hblind o' p o'' hp hagain
  exact ⟨r, hr, hagrees.restated hrestated hp⟩

end Change

/-! ### Creating or changing -/

namespace Store

variable {s s' : Store} {key : String} {placeholder o stored : Object} {change : Change}
  {e : StoreError} {outcome : Upserted}

/-- The object that a change is applied to: the stored one, or else the placeholder. -/
def subject (s : Store) (placeholder : Object) : Object :=
  (s.objects.find? placeholder.tableKey).getD placeholder

theorem applyChange_eq_error_iff : applyChange key change o = .error e ↔
    (∃ failure, change o = .error failure ∧ e = .mutate failure) ∨
      ∃ o', change o = .ok o' ∧ o'.tableKey ≠ key ∧ e = .moved key o'.tableKey := by
  cases hchange : change o with
  | error failure =>
    have happly : applyChange key change o = .error (.mutate failure) := by
      rw [applyChange, hchange]
      rfl
    simp [happly, eq_comm]
  | ok o' =>
    by_cases hkey : o'.tableKey = key
    · simp [applyChange_eq_ok_iff.mpr ⟨hchange, hkey⟩, hkey]
    · have happly : applyChange key change o = .error (.moved key o'.tableKey) := by
        rw [applyChange, hchange]
        exact if_pos hkey
      rw [happly, Except.error.injEq, eq_comm]
      simp [hkey]

/-- A write that fails leaves the store as it was. -/
theorem upsert_eq_error (h : (s.upsert placeholder change).1 = .error e) :
    s.upsert placeholder change = (.error e, s) :=
  Prod.ext h (transact_error h)

/-- What becomes of an object that a change was applied to with success. -/
theorem upsert_eq_ok_iff : s.upsert placeholder change = (.ok outcome, s') ↔
    ∃ o, change (s.subject placeholder) = .ok o ∧ o.tableKey = placeholder.tableKey ∧
      match s.objects.find? placeholder.tableKey with
      | none => outcome = .created ∧ s' = s.withObject placeholder.tableKey (o.withVersion 1)
      | some stored =>
        (o.Agrees stored ∧ outcome = .unchanged ∧ s' = s) ∨
        (¬ o.Agrees stored ∧ outcome = .updated ∧ s' = s.withObject placeholder.tableKey
          ({ o with status := stored.status }.withVersion (stored.metadata.version + 1))) := by
  have hpair {a : Upserted} {t : Store} :
      ((.ok a, t) : Except StoreError Upserted × Store) = (.ok outcome, s') ↔
        outcome = a ∧ s' = t := by
    rw [Prod.mk.injEq, Except.ok.injEq, eq_comm, @eq_comm _ t]
  rw [upsert_eq, ← subject]
  cases happly : applyChange placeholder.tableKey change (s.subject placeholder) with
  | error e =>
    have hnot : ¬ ∃ o, change (s.subject placeholder) = .ok o ∧
        o.tableKey = placeholder.tableKey := by
      rintro ⟨o, ho⟩
      exact nomatch happly.symm.trans (applyChange_eq_ok_iff.mpr ho)
    constructor
    · exact fun h => nomatch congrArg Prod.fst h
    · rintro ⟨o, hchange, hkey, -⟩
      exact absurd ⟨o, hchange, hkey⟩ hnot
  | ok o =>
    obtain ⟨hchange, hkey⟩ := applyChange_eq_ok_iff.mp happly
    simp only [hchange, Except.ok.injEq, exists_eq_left', hkey, true_and]
    cases s.objects.find? placeholder.tableKey with
    | none => exact hpair
    | some stored =>
      by_cases hagrees : o.Agrees stored
      · simp only [Object.updated_same_iff.mpr hagrees, if_true, hagrees, not_true_eq_false,
          true_and, false_and, or_false]
        exact hpair
      · simp only [mt Object.updated_same_iff.mp hagrees, hagrees, not_false_eq_true,
          true_and, false_and, false_or]
        exact hpair

theorem upsert_of_none (hfind : s.objects.find? placeholder.tableKey = none)
    (hchange : change placeholder = .ok o) (hkey : o.tableKey = placeholder.tableKey) :
    s.upsert placeholder change =
      (.ok .created, s.withObject placeholder.tableKey (o.withVersion 1)) := by
  refine upsert_eq_ok_iff.mpr ⟨o, ?_, hkey, ?_⟩
  · rw [subject, hfind]
    exact hchange
  · rw [hfind]
    exact ⟨rfl, rfl⟩

theorem upsert_of_agrees (hfind : s.objects.find? placeholder.tableKey = some stored)
    (hchange : change stored = .ok o) (hkey : o.tableKey = placeholder.tableKey)
    (hagrees : o.Agrees stored) : s.upsert placeholder change = (.ok .unchanged, s) := by
  refine upsert_eq_ok_iff.mpr ⟨o, ?_, hkey, ?_⟩
  · rw [subject, hfind]
    exact hchange
  · rw [hfind]
    exact .inl ⟨hagrees, rfl, rfl⟩

theorem upsert_of_not_agrees (hfind : s.objects.find? placeholder.tableKey = some stored)
    (hchange : change stored = .ok o) (hkey : o.tableKey = placeholder.tableKey)
    (hagrees : ¬ o.Agrees stored) : s.upsert placeholder change =
      (.ok .updated, s.withObject placeholder.tableKey
        ({ o with status := stored.status }.withVersion (stored.metadata.version + 1))) := by
  refine upsert_eq_ok_iff.mpr ⟨o, ?_, hkey, ?_⟩
  · rw [subject, hfind]
    exact hchange
  · rw [hfind]
    exact .inr ⟨hagrees, rfl, rfl⟩

end Store

end Converge

import Converge.Proofs.TextOperations

/-!
# Creating or changing an object over texts

A change is applied to what is read of the text that is kept, and what it has made is compared with
that. So a change that has no more to do about what it has made finds that unchanged when it is
applied again, provided that what was written is read as it was written. With a number in it that is
read as its neighbour, the same change writes the object once more.

## Main results

* `TextStore.upsert_of_none`, `TextStore.upsert_of_agrees`, `TextStore.upsert_of_not_agrees`: the
  three outcomes.
* `TextStore.upsert_spec`: what it means to create an object or change it.
* `TextStore.upsert_not_idempotent`: a change that is written twice.
-/

namespace Converge.TextStore

open Store (Upserted)

variable {t t' : TextStore} {placeholder o stored : Object} {change : Change} {e : StoreError}
  {outcome : Upserted} {stored? written? : Option Object}

private theorem upsert_of_read (hread : t.objectAt placeholder.tableKey = .ok stored?)
    (hupsert : upserting placeholder change stored? = .ok (outcome, written?)) :
    t.upsert placeholder change =
      (.ok outcome, (written?.map (t.withObject placeholder.tableKey)).getD t) := by
  rw [upsert, revise_of_ok hread, hupsert]
  cases written? <;> rfl

theorem upsert_of_none (hread : t.objectAt placeholder.tableKey = .ok none)
    (hchange : change placeholder = .ok o) (hkey : o.tableKey = placeholder.tableKey) :
    t.upsert placeholder change =
      (.ok .created, t.withObject placeholder.tableKey (o.withVersion 1)) :=
  upsert_of_read hread (upserting_eq_ok_iff.mpr ⟨o, hchange, hkey, rfl, rfl⟩)

theorem upsert_of_agrees (hread : t.objectAt placeholder.tableKey = .ok (some stored))
    (hchange : change stored = .ok o) (hkey : o.tableKey = placeholder.tableKey)
    (hagrees : o.Agrees stored) : t.upsert placeholder change = (.ok .unchanged, t) :=
  upsert_of_read hread (upserting_eq_ok_iff.mpr ⟨o, hchange, hkey, .inl ⟨hagrees, rfl, rfl⟩⟩)

theorem upsert_of_not_agrees (hread : t.objectAt placeholder.tableKey = .ok (some stored))
    (hchange : change stored = .ok o) (hkey : o.tableKey = placeholder.tableKey)
    (hagrees : ¬ o.Agrees stored) : t.upsert placeholder change =
      (.ok .updated, t.withObject placeholder.tableKey
        ({ o with status := stored.status }.withVersion (stored.metadata.version + 1))) :=
  upsert_of_read hread (upserting_eq_ok_iff.mpr ⟨o, hchange, hkey, .inr ⟨hagrees, rfl, rfl⟩⟩)

/-- What an idempotent and blind change has made is found unchanged where it is read with the same
specification. -/
private theorem upsert_of_restated (hidem : change.Idempotent) (hblind : change.Blind)
    {original p : Object}
    (hchange : change original = .ok o) (hkey : o.tableKey = placeholder.tableKey)
    (hread : t.objectAt placeholder.tableKey = .ok (some p)) (hp : o.Restated p) :
    t.upsert placeholder change = (.ok .unchanged, t) := by
  obtain ⟨r, hr, hagrees⟩ := hidem.restated hblind hchange hp
  exact upsert_of_agrees hread hr (hagrees.tableKey.trans (hp.tableKey.trans hkey)) hagrees

/-- **Creating or changing an object over texts.** It fails exactly when the text that is kept
cannot be read, or the change fails about what is read, or would move the object elsewhere; and then
nothing is written. Otherwise the object is created exactly if there was none, and then has version
1. A stored object keeps the status that is read; it is unchanged exactly if the changed one agrees
with what is read, and then not written, and otherwise it gets the next version. An idempotent and
blind change that has succeeded changes nothing when it is applied again, if it has written nothing,
or if what is read now has the specification that it has made. -/
theorem upsert_spec (t : TextStore) (placeholder : Object) (change : Change) :
    (∀ e, ((t.upsert placeholder change).1 = .error e ↔
        t.objectAt placeholder.tableKey = .error e ∨
        ∃ stored?, t.objectAt placeholder.tableKey = .ok stored? ∧
          ((∃ failure, change (stored?.getD placeholder) = .error failure ∧ e = .mutate failure) ∨
            ∃ o, change (stored?.getD placeholder) = .ok o ∧ o.tableKey ≠ placeholder.tableKey ∧
              e = .moved placeholder.tableKey o.tableKey)) ∧
      ((t.upsert placeholder change).1 = .error e → (t.upsert placeholder change).2 = t)) ∧
    (∀ stored? o, t.objectAt placeholder.tableKey = .ok stored? →
      change (stored?.getD placeholder) = .ok o → o.tableKey = placeholder.tableKey →
      ∃ outcome t', t.upsert placeholder change = (.ok outcome, t') ∧
        (outcome = .created ↔ stored? = none) ∧
        (outcome = .created → t' = t.withObject placeholder.tableKey (o.withVersion 1)) ∧
        (∀ stored, stored? = some stored →
          (outcome = .unchanged ↔ o.Agrees stored) ∧ (outcome = .unchanged → t' = t) ∧
          (outcome = .updated ↔ ¬ o.Agrees stored) ∧
          (outcome = .updated → t' = t.withObject placeholder.tableKey
            ({ o with status := stored.status }.withVersion (stored.metadata.version + 1)))) ∧
        (change.Idempotent → change.Blind →
          (outcome = .unchanged ∨
            ∃ p, t'.objectAt placeholder.tableKey = .ok (some p) ∧ o.Restated p) →
          t'.upsert placeholder change = (.ok .unchanged, t'))) := by
  refine ⟨fun e => ⟨?_, fun he => congrArg Prod.snd (revise_eq_error he)⟩, ?_⟩
  · refine revise_eq_error_iff.trans (or_congr_right (exists_congr fun stored? => ?_))
    rw [upserting_eq_error_iff, Store.applyChange_eq_error_iff]
  intro stored? o hread hchange hkey
  have hagain : ∀ {t' : TextStore}, change.Idempotent → change.Blind →
      (∃ p, t'.objectAt placeholder.tableKey = .ok (some p) ∧ o.Restated p) →
      t'.upsert placeholder change = (.ok .unchanged, t') := by
    rintro t' hidem hblind ⟨p, hp, hrestated⟩
    exact upsert_of_restated hidem hblind hchange hkey hp hrestated
  cases stored? with
  | none =>
    refine ⟨.created, _, upsert_of_none hread hchange hkey, by simp, fun _ => rfl, nofun,
      fun hidem hblind h => hagain hidem hblind (h.resolve_left nofun)⟩
  | some stored =>
    by_cases hagrees : o.Agrees stored
    · have hunchanged := upsert_of_agrees hread hchange hkey hagrees
      refine ⟨.unchanged, t, hunchanged, by simp, nofun, ?_, fun _ _ _ => hunchanged⟩
      rintro _ ⟨⟩
      simp [hagrees]
    · refine ⟨.updated, _, upsert_of_not_agrees hread hchange hkey hagrees, by simp, nofun, ?_,
        fun hidem hblind h => hagain hidem hblind (h.resolve_left nofun)⟩
      rintro _ ⟨⟩
      simp [hagrees]

/-- A change of the specification, and of the status, which is dropped: the object keeps its status,
gets the next version, and stays as it is when the change is applied again. -/
theorem upsert_spec_of_respecified :
    let change : Change := fun o => .ok { o with spec := .bool true, status := .null }
    let stored : Object :=
      { kind := "Service", metadata := ⟨"db", "prod", 4, ∅, none⟩, status := .str "up" }
    let t := (∅ : TextStore).withObject stored.tableKey stored
    let t' := t.withObject stored.tableKey ({ stored with spec := .bool true }.withVersion 5)
    t.upsert stored change = (.ok .updated, t') ∧
      t'.upsert stored change = (.ok .unchanged, t') := by
  intro change stored t t'
  have hread : t.objectAt stored.tableKey = .ok (some stored) :=
    (objectAt_withObject_self _ _ _).trans (Object.restored_eq_ok_some_iff.mpr rfl)
  have hread' : t'.objectAt stored.tableKey =
      .ok (some ({ stored with spec := .bool true }.withVersion 5)) :=
    (objectAt_withObject_self _ _ _).trans (Object.restored_eq_ok_some_iff.mpr rfl)
  have hidem : change.Idempotent := by
    rintro o o' ⟨⟩
    exact ⟨_, rfl, .refl _⟩
  have hblind : change.Blind := by
    rintro o₁ o₂ o' ⟨status, version, rfl⟩ ⟨⟩
    exact ⟨_, rfl, .null, version, rfl⟩
  have hdiffers : ¬ Object.Agrees { stored with spec := .bool true, status := .null } stored := by
    rintro ⟨-, -, -, -, hspec⟩
    simp [stored, Json.same] at hspec
  obtain ⟨outcome, t'', hupsert, -, -, hstored, hagain⟩ :=
    (upsert_spec t stored change).2 (some stored) _ hread rfl rfl
  obtain ⟨-, -, hupdated, hwritten⟩ := hstored stored rfl
  obtain rfl : outcome = .updated := hupdated.mpr hdiffers
  obtain rfl : t'' = t' := hwritten rfl
  exact ⟨hupsert, hagain hidem hblind (.inr ⟨_, hread', _, _, rfl⟩)⟩

/-- **A change that is written twice.** Of a specification with a number that is read as its
neighbour the same change writes the object again, although it does not depend on what is stored. -/
theorem upsert_not_idempotent :
    let change : Change := fun o => .ok { o with spec := .obj [("ratio", .drifting)] }
    let service : Object := .empty "Service" ⟨"prod", "orders-grpc"⟩
    let t := (upsert service change ∅).2
    change.Idempotent ∧ change.Blind ∧
      (upsert service change ∅).1 = .ok .created ∧ (t.upsert service change).1 = .ok .updated ∧
      (t.upsert service change).2.find? "Service" ⟨"prod", "orders-grpc"⟩ =
        .ok (some ({ service with spec := .obj [("ratio", .drifted)] }.withVersion 2)) := by
  intro change service t
  let made : Object := { service with spec := .obj [("ratio", .drifting)] }
  let found : Object := { service with spec := .obj [("ratio", .drifted)] }
  have hcreated : upsert service change ∅ =
      (.ok .created, (∅ : TextStore).withObject service.tableKey (made.withVersion 1)) :=
    upsert_of_none rfl rfl rfl
  have hspec : made.spec.reread Object.nestingLimit = some found.spec :=
    Json.reread_singleton "ratio" (Json.reread_drifting 125)
  have hread : ∀ (t : TextStore) version,
      (t.withObject service.tableKey (made.withVersion version)).objectAt service.tableKey =
        .ok (some (found.withVersion version)) := fun t version =>
    (objectAt_withObject_self _ _ _).trans (Object.restored_eq_ok_some_iff.mpr
      (Object.reread_eq_some_iff.mpr ⟨_, _, hspec, rfl, rfl⟩))
  have hdiffers : ¬ (made.withVersion 1).Agrees (found.withVersion 1) := by
    rintro ⟨-, -, -, -, hspec⟩
    have hratio : (Json.drifting.same .drifted && true) = true := hspec
    exact Json.drifting_not_same (Bool.and_eq_true_iff.mp hratio).1
  have hupdated : t.upsert service change =
      (.ok .updated, t.withObject service.tableKey (made.withVersion 2)) := by
    have hstored : t.objectAt service.tableKey = .ok (some (found.withVersion 1)) := by
      rw [show t = _ from congrArg Prod.snd hcreated]
      exact hread ∅ 1
    have hversion : (found.withVersion 1).metadata.version + 1 = 2 := by decide
    have hchange : change (found.withVersion 1) = .ok (made.withVersion 1) := rfl
    have hwritten := upsert_of_not_agrees hstored hchange rfl hdiffers
    rwa [hversion] at hwritten
  refine ⟨?_, ?_, congrArg Prod.fst hcreated, congrArg Prod.fst hupdated, ?_⟩
  · rintro o o' ⟨⟩
    exact ⟨_, rfl, .refl _⟩
  · rintro o₁ o₂ o' ⟨status, version, rfl⟩ ⟨⟩
    exact ⟨_, rfl, status, version, rfl⟩
  · rw [hupdated, find?]
    exact hread _ 2

end Converge.TextStore

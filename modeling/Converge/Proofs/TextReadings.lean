import Converge.Proofs.TextOperations
import Converge.Proofs.Trace

/-!
# What is read from texts

Of the texts of a store only matters what is read from them. A call of a program does to that what
it does to the texts, if every object that is written is read again at once. So the texts themselves
need not be looked at to see what becomes of a store.

## Main definitions

* `TextStore.Reading`, `TextStore.reading`: what is read from the texts of a store.
* `TextStore.Reading.collaborators`: the answers to calls over that.
* `Collaborators.Mirrors`: collaborators that answer over a part of the world as over all of it.

## Main results

* `Collaborators.Mirrors.run`: programs do the same over both.
* `TextStore.mirrors_reading`: calls do the same to the texts and to what is read from them.
-/

namespace Converge

namespace TextStore

/-- What is read from the texts of a store: under every key an object, or why there is none. -/
structure Reading where
  objects : Table (Except StoreError Object) := ∅
  /-- Tenants and events. -/
  registry : Store := ∅

/-- What is read from the texts. -/
def reading (t : TextStore) : Reading := ⟨t.objects.map Object.codec.ofText, t.registry⟩

namespace Reading

/-- What is found under a table key. -/
def objectAt (v : Reading) (key : String) : Except StoreError (Option Object) :=
  match v.objects.find? key with
  | some found => found.map some
  | none => .ok none

/-- The object `o` is written under `key`, and read again. -/
def withObject (v : Reading) (key : String) (o : Object) : Reading :=
  let found := match o.reread with
    | some o' => .ok o'
    | none => .error (.reported .deserialization "malformed text")
  { v with objects := v.objects.insert key found }

/-- What a revision makes of the object under a table key is written. -/
def revise {α : Type} (key : String) (revision : Revision α) (v : Reading) :
    Except StoreError α × Reading :=
  match v.objectAt key >>= revision with
  | .ok (a, some o) => (.ok a, v.withObject key o)
  | .ok (a, none) => (.ok a, v)
  | .error e => (.error e, v)

/-- The answers to calls. -/
def collaborators (now : UInt64) : Collaborators Reading where
  get kind key v := (v.objectAt (tableKey kind key), v)
  upsert placeholder change v := v.revise placeholder.tableKey (upserting placeholder change)
  writeStatus o v :=
    let (result, v) := v.revise o.tableKey (restating o)
    (result.map fun _ => (), v)
  record notice v := { v with registry := v.registry.record notice now }
  provision request v := (.ok (), { v with registry := (v.registry.putTenant request).2 })

end Reading

variable {α : Type} {t : TextStore}

@[simp] theorem objectAt_reading (t : TextStore) (key : String) :
    t.reading.objectAt key = t.objectAt key := by
  rw [Reading.objectAt, reading, Table.find?_map, objectAt]
  cases t.objects.find? key <;> rfl

@[simp] theorem reading_withObject (t : TextStore) (key : String) (o : Object) :
    (t.withObject key o).reading = t.reading.withObject key o := by
  rw [reading, withObject, Table.map_insert, Object.ofText_toText]
  rfl

private theorem reading_revise (t : TextStore) (key : String) (revision : Revision α) :
    t.reading.revise key revision =
      ((t.revise key revision).1, (t.revise key revision).2.reading) := by
  rw [Reading.revise, objectAt_reading, revise]
  rcases t.objectAt key >>= revision with e | ⟨a, _ | o⟩
  · rfl
  · rfl
  · exact Prod.ext rfl (reading_withObject t key o).symm

private theorem reading_withRegistry {s : Store} (h : s.objects = ∅) :
    (t.withRegistry s).reading = { t.reading with registry := s } := by
  have hregistry : (t.withRegistry s).registry = s := by
    obtain ⟨_, _, _, _⟩ := s
    obtain rfl := h
    rfl
  rw [reading, hregistry]
  rfl

private theorem reading_putTenant (t : TextStore) (request : TenantRequest) :
    (t.putTenant request).2.reading =
      { t.reading with registry := (t.registry.putTenant request).2 } :=
  reading_withRegistry (congrArg Store.objects (Store.putTenant_eq request t.registry))

private theorem reading_putEvent (t : TextStore) (e : Event) :
    (t.putEvent e).reading = { t.reading with registry := t.registry.putEvent e } :=
  reading_withRegistry (by rw [Store.putEvent_eq]; rfl)

/-! ### Programs -/

end TextStore

variable {σ τ α : Type}

/-- The collaborators `c'` answer over what is seen through `f` as `c` answer over all of it. -/
structure Collaborators.Mirrors (f : σ → τ) (c : Collaborators σ) (c' : Collaborators τ) :
    Prop where
  get : ∀ kind key s, c'.get kind key (f s) = (c.get kind key s).map id f
  upsert : ∀ placeholder change s,
    c'.upsert placeholder change (f s) = (c.upsert placeholder change s).map id f
  writeStatus : ∀ o s, c'.writeStatus o (f s) = (c.writeStatus o s).map id f
  record : ∀ notice s, c'.record notice (f s) = f (c.record notice s)
  provision : ∀ request s, c'.provision request (f s) = (c.provision request s).map id f

/-- Then a program does the same over both. -/
theorem Collaborators.Mirrors.run {f : σ → τ} {c : Collaborators σ} {c' : Collaborators τ}
    (h : Mirrors f c c') (p : Program α) (s : σ) : p.run c' (f s) = (p.run c s).map id f := by
  induction p generalizing s with
  | done a => rfl
  | get kind key next ih =>
    simp only [Program.run, h.get]
    exact ih _ _
  | upsert placeholder change next ih =>
    simp only [Program.run, h.upsert]
    exact ih _ _
  | writeStatus o next ih =>
    simp only [Program.run, h.writeStatus]
    exact ih _ _
  | record notice next ih =>
    simp only [Program.run, h.record]
    exact ih _
  | provision request next ih =>
    simp only [Program.run, h.provision]
    exact ih _ _

theorem Collaborators.Mirrors.state {f : σ → τ} {c : Collaborators σ} {c' : Collaborators τ}
    (h : Mirrors f c c') (p : Program α) (s : σ) : f (p.run c s).2 = (p.run c' (f s)).2 :=
  (congrArg Prod.snd (h.run p s)).symm

namespace TextStore

/-- **Programs and what is read.** Calls on what is read from the texts are answered as calls on the
texts. -/
theorem mirrors_reading (now : UInt64) :
    Collaborators.Mirrors reading (collaborators now) (Reading.collaborators now) where
  get kind key t := Prod.ext (objectAt_reading t (tableKey kind key)) rfl
  upsert placeholder change t :=
    reading_revise t placeholder.tableKey (upserting placeholder change)
  writeStatus o t := by
    simp only [collaborators, Reading.collaborators, reading_revise]
    rfl
  record notice t := (reading_putEvent t { toNotice := notice, timestamp := now }).symm
  provision request t := Prod.ext rfl (reading_putTenant t request).symm

end TextStore

end Converge

import Converge.Proofs.Application
import Converge.Proofs.Codecs
import Converge.Proofs.EventIsolation
import Converge.Proofs.Identity
import Converge.Proofs.TenantRegistry
import Converge.Simulation.Basic

/-!
# The archive of a store

A store keeps its objects, tenants and events as structured values. Whatever it reads is decoded
first, and whatever it writes is encoded; when it is closed and opened again these values are all
that is left. As every codec is lawful none of that shows: no decoding ever fails, and a store that
keeps its values encoded answers as one that keeps them as they are.

## Main definitions

* `Archive`: a store that keeps encoded values.
* `Archive.ofStore`: the archive of a store.
* `Archive.perform`, `Archive.reopen`: operations on encoded values, and opening an archive again.
* `Archive.Step`, `Archive.run`: operations and reopenings in any order.
* `Archive.Shows`: an archive that answers as a store.
* `Archive.Returns`: an archive that gives back what an operation has stored.

## Main results

* `Archive.perform_ofStore`, `Archive.reopen_ofStore`: every step on the archive of a store gives
  the archive of the store after that step.
* `Archive.run_ofStore`: so does every run.
* `Archive.lossless`: what was stored is given back.
-/

namespace Converge

open Store (Operation)

/-- A store that keeps its values encoded. -/
structure Archive where
  objects : Table Json := ∅
  tenants : Table Json := ∅
  events : Table Json := ∅
  sequence : Nat := 0

namespace Archive

instance : EmptyCollection Archive := ⟨{}⟩

/-! ### Reading -/

/-- The value that is kept under a key. -/
def decodeAt {α : Type} (codec : Codec α) (t : Table Json) (key : String) :
    Except DecodeError (Option α) := (t.find? key).mapM codec.decode

/-- The values that are kept under some keys. -/
def decodeAll {α : Type} (codec : Codec α) (entries : List (String × Json)) :
    Except DecodeError (List (String × α)) :=
  entries.mapM fun entry => (codec.decode entry.2).map (entry.1, ·)

/-- The object of a kind at a key. -/
def find? (a : Archive) (kind : String) (key : ObjectKey) : Except DecodeError (Option Object) :=
  decodeAt Object.codec a.objects (tableKey kind key)

/-- The objects of a kind. -/
def list (a : Archive) (kind : String) : Except DecodeError (List Object) := do
  let entries ← decodeAll Object.codec (a.objects.startingWith (kind ++ "/"))
  return entries.map (·.2)

/-- The tenant registered at a path. -/
def tenant? (a : Archive) (path : String) : Except DecodeError (Option TenantRequest) :=
  decodeAt TenantRequest.codec a.tenants path

/-- The entries of the events of a subject. -/
def eventsOf (a : Archive) (subject : ObjectKey) : Except DecodeError (List (String × Event)) :=
  decodeAll Event.codec (a.events.between (subject.display ++ ":") (subject.display ++ ";"))

/-- The events of a subject, the oldest first. -/
def listEvents (a : Archive) (subject : ObjectKey) : Except DecodeError (List Event) := do
  let entries ← a.eventsOf subject
  return entries.map (·.2)

/-! ### Writing -/

/-- The archive with `o` under `key`. -/
def withObject (a : Archive) (key : String) (o : Object) : Archive :=
  { a with objects := a.objects.insert key (Object.codec.encode o) }

/-- Store an object as given. -/
def put (o : Object) (a : Archive) : Except DecodeError (UInt64 × Archive) := do
  let stored? ← decodeAt Object.codec a.objects o.tableKey
  let o' := Store.revision stored? o
  return (o'.metadata.version, a.withObject o.tableKey o')

/-- Remove the object of a kind at a key. -/
def delete (kind : String) (key : ObjectKey) (a : Archive) : Bool × Archive :=
  let key := tableKey kind key
  (a.objects.contains key, { a with objects := a.objects.erase key })

/-- Create `placeholder` as `change` makes it, or apply `change` to the object in its place. -/
def upsert (placeholder : Object) (change : Change) (a : Archive) :
    Except DecodeError (Except StoreError Store.Upserted × Archive) := do
  let key := placeholder.tableKey
  let stored? ← decodeAt Object.codec a.objects key
  match Store.applyChange key change (stored?.getD placeholder), stored? with
  | .error e, _ => return (.error e, a)
  | .ok o, none => return (.ok .created, a.withObject key (o.withVersion 1))
  | .ok o, some stored =>
    let o' := Store.updated stored o
    if o'.same stored then return (.ok .unchanged, a)
    else return (.ok .updated, a.withObject key (o'.withVersion (stored.metadata.version + 1)))

/-- Replace the status of an object by that of `o`. -/
def writeStatus (o : Object) (a : Archive) :
    Except DecodeError (Except StoreError UInt64 × Archive) := do
  let key := o.tableKey
  match ← decodeAt Object.codec a.objects key with
  | none => return (.error (.missing key), a)
  | some stored =>
    let version := stored.metadata.version
    if version ≠ o.metadata.version then
      return (.error (.conflict key o.metadata.version version), a)
    else
      let o' := { stored with status := o.status }.withVersion (version + 1)
      return (.ok (version + 1), a.withObject key o')

/-- Register a tenant. -/
def putTenant (request : TenantRequest) (a : Archive) : Bool × Archive :=
  if a.tenants.contains request.path then (false, a)
  else
    let value := TenantRequest.codec.encode request
    (true, { a with tenants := a.tenants.insert request.path value })

/-- Keep an event under the next number, after the entries of its subject, and drop the oldest of
these beyond the limit. -/
def appendEvent (e : Event) (entries : List (String × Event)) (a : Archive) : Archive :=
  let number := a.sequence + 1
  let excess := entries.take (entries.length + 1 - Store.eventLimit)
  let events := a.events.insert (Store.eventKey e.subject number) (Event.codec.encode e)
  { a with
    events := excess.foldl (fun t entry => t.erase entry.1) events
    sequence := number }

/-- Record an event: fold it into the latest of its subject if it repeats that, and append it
otherwise. -/
def putEvent (e : Event) (a : Archive) : Except DecodeError Archive := do
  let entries ← a.eventsOf e.subject
  match entries.getLast? with
  | some (key, last) =>
    if e.repeats last then
      return { a with events := a.events.insert key (Event.codec.encode (last.folded e)) }
    else return a.appendEvent e entries
  | none => return a.appendEvent e entries

/-- The archive after an operation. -/
def perform (a : Archive) : Operation → Except DecodeError Archive
  | .put o => (a.put o).map (·.2)
  | .delete kind key => .ok (a.delete kind key).2
  | .upsert placeholder change => (a.upsert placeholder change).map (·.2)
  | .writeStatus o => (a.writeStatus o).map (·.2)
  | .putTenant request => .ok (a.putTenant request).2
  | .putEvent e => a.putEvent e

/-! ### The archive of a store -/

/-- The archive of a store. -/
def ofStore (s : Store) : Archive where
  objects := s.objects.map Object.codec.encode
  tenants := s.tenants.map TenantRequest.codec.encode
  events := s.events.map Event.codec.encode
  sequence := s.sequence

variable {α : Type} {codec : Codec α}

/-- What was encoded under a key is decoded there. -/
theorem decodeAt_map (h : codec.Lawful) (t : Table α) (key : String) :
    decodeAt codec (t.map codec.encode) key = .ok (t.find? key) := by
  rw [decodeAt, Table.find?_map]
  cases t.find? key with
  | none => rfl
  | some value => simp [h value]

theorem decodeAll_map (h : codec.Lawful) (entries : List (String × α)) :
    decodeAll codec (entries.map fun entry => (entry.1, codec.encode entry.2)) = .ok entries :=
  Codec.mapM_decode_encode h entries

theorem decodeAt_ofStore (s : Store) (tkey : String) :
    decodeAt Object.codec (ofStore s).objects tkey = .ok (s.objects.find? tkey) :=
  decodeAt_map Object.codec_lawful s.objects tkey

theorem find?_ofStore (s : Store) (kind : String) (key : ObjectKey) :
    (ofStore s).find? kind key = .ok (s.find? kind key) := decodeAt_ofStore s _

theorem list_ofStore (s : Store) (kind : String) : (ofStore s).list kind = .ok (s.list kind) := by
  simp only [list, ofStore, Table.startingWith_map, decodeAll_map Object.codec_lawful]
  rfl

theorem tenant?_ofStore (s : Store) (path : String) :
    (ofStore s).tenant? path = .ok (s.tenant? path) :=
  decodeAt_map TenantRequest.codec_lawful s.tenants _

theorem eventsOf_ofStore (s : Store) (subject : ObjectKey) :
    (ofStore s).eventsOf subject = .ok (s.eventsOf subject) := by
  simp only [eventsOf, ofStore, Table.between_map, decodeAll_map Event.codec_lawful]
  rfl

theorem listEvents_ofStore (s : Store) (subject : ObjectKey) :
    (ofStore s).listEvents subject = .ok (s.listEvents subject) := by
  rw [listEvents, eventsOf_ofStore]
  rfl

@[simp] theorem withObject_ofStore (s : Store) (key : String) (o : Object) :
    (ofStore s).withObject key o = ofStore (s.withObject key o) := by
  simp only [withObject, ofStore, Store.withObject, Table.map_insert]

/-! ### Operations on the archive of a store -/

variable {s : Store}

theorem put_ofStore (o : Object) :
    (ofStore s).put o = .ok ((s.put o).1, ofStore (s.put o).2) := by
  simp only [put, decodeAt_ofStore, bind, Except.bind, withObject_ofStore]
  rfl

theorem delete_ofStore (kind : String) (key : ObjectKey) :
    (ofStore s).delete kind key = ((s.delete kind key).1, ofStore (s.delete kind key).2) := by
  simp only [delete, ofStore, Store.delete, Table.contains_map, Table.map_erase]

theorem upsert_ofStore (placeholder : Object) (change : Change) :
    (ofStore s).upsert placeholder change =
      .ok ((s.upsert placeholder change).1, ofStore (s.upsert placeholder change).2) := by
  simp only [upsert, decodeAt_ofStore, bind, Except.bind, withObject_ofStore, Store.upsert_eq]
  generalize Store.applyChange placeholder.tableKey change
    ((s.objects.find? placeholder.tableKey).getD placeholder) = changed
  cases changed with
  | error e => rfl
  | ok o =>
    cases s.objects.find? placeholder.tableKey with
    | none => rfl
    | some stored =>
      by_cases hsame : (Store.updated stored o).same stored = true
      · simp only [if_pos hsame]
        rfl
      · simp only [if_neg hsame]
        rfl

theorem writeStatus_ofStore (o : Object) :
    (ofStore s).writeStatus o = .ok ((s.writeStatus o).1, ofStore (s.writeStatus o).2) := by
  simp only [writeStatus, decodeAt_ofStore, bind, Except.bind, withObject_ofStore,
    Store.writeStatus_eq]
  cases s.objects.find? o.tableKey with
  | none => rfl
  | some stored =>
    by_cases hversion : stored.metadata.version = o.metadata.version
    · simp only [if_pos hversion, if_neg (not_not.mpr hversion)]
      rfl
    · simp only [if_neg hversion, if_pos hversion]
      rfl

theorem putTenant_ofStore (request : TenantRequest) :
    (ofStore s).putTenant request = ((s.putTenant request).1, ofStore (s.putTenant request).2) := by
  simp only [putTenant, ofStore, Store.putTenant, Table.contains_map]
  split <;> simp only [Table.map_insert]

theorem appendEvent_ofStore (e : Event) :
    (ofStore s).appendEvent e (s.eventsOf e.subject) = ofStore (s.appendEvent e) := by
  simp only [appendEvent, ofStore, Store.appendEvent, ← Table.map_insert]
  rw [List.foldl_hom (Table.map Event.codec.encode) fun t entry =>
    (Table.map_erase Event.codec.encode t entry.1).symm]

theorem putEvent_ofStore (e : Event) :
    (ofStore s).putEvent e = .ok (ofStore (s.putEvent e)) := by
  have hfold (key : String) (e : Event) : ({ ofStore s with
      events := (ofStore s).events.insert key (Event.codec.encode e) } : Archive) =
      ofStore { s with events := s.events.insert key e } := by
    simp only [ofStore, Table.map_insert]
  simp only [putEvent, eventsOf_ofStore, bind, Except.bind, hfold, appendEvent_ofStore,
    Store.putEvent]
  cases (s.eventsOf e.subject).getLast? with
  | none => rfl
  | some entry =>
    by_cases hrepeats : e.repeats entry.2 = true
    · simp only [if_pos hrepeats]
      rfl
    · simp only [if_neg hrepeats]
      rfl

/-- **An operation on the archive of a store** gives the archive of the store after it. -/
theorem perform_ofStore (op : Operation) :
    (ofStore s).perform op = .ok (ofStore (op.apply s)) := by
  cases op with
  | put o => rw [perform, put_ofStore]; rfl
  | delete kind key => rw [perform, delete_ofStore]; rfl
  | upsert placeholder change => rw [perform, upsert_ofStore]; rfl
  | writeStatus o => rw [perform, writeStatus_ofStore]; rfl
  | putTenant request => rw [perform, putTenant_ofStore]; rfl
  | putEvent e => exact putEvent_ofStore e

/-! ### Runs -/

/-- What is left of an archive that was closed. -/
def image (a : Archive) : Json :=
  .ofMembers [("objects", .obj a.objects.entries), ("tenants", .obj a.tenants.entries),
    ("events", .obj a.events.entries), ("sequence", .int a.sequence)]

/-- Close an archive and open it again. -/
def reopen (a : Archive) : Except DecodeError Archive := (Store.codec.decode a.image).map ofStore

theorem image_ofStore (s : Store) : (ofStore s).image = Store.codec.encode s := rfl

theorem reopen_ofStore (s : Store) : (ofStore s).reopen = .ok (ofStore s) := by
  rw [reopen, image_ofStore, Store.codec_lawful s]
  rfl

/-- What happens to a store on disk: an operation, or it is closed and opened again. -/
inductive Step where
  | operation (op : Operation)
  | reopen

namespace Step

/-- The store after a step; it does not notice that it was closed. -/
def apply (s : Store) : Step → Store
  | operation op => op.apply s
  | reopen => s

/-- The step is an operation about the object of a kind at a key, or about another object that has
the same table key. -/
def About (kind : String) (key : ObjectKey) : Step → Prop
  | operation op => ∃ kind' key', op.target? = some (kind', key') ∧
      tableKey kind' key' = tableKey kind key
  | reopen => False

end Step

/-- The archive after a step. -/
def advance (a : Archive) : Step → Except DecodeError Archive
  | .operation op => a.perform op
  | .reopen => a.reopen

/-- The archive after some steps. -/
def run (steps : List Step) (a : Archive) : Except DecodeError Archive := steps.foldlM advance a

theorem advance_ofStore (s : Store) (step : Step) :
    (ofStore s).advance step = .ok (ofStore (step.apply s)) := by
  cases step with
  | operation op => exact perform_ofStore op
  | reopen => exact reopen_ofStore s

/-- **A run on the archive of a store** gives the archive of the store after the run. -/
theorem run_ofStore (steps : List Step) (s : Store) :
    run steps (ofStore s) = .ok (ofStore (steps.foldl Step.apply s)) := by
  induction steps generalizing s with
  | nil => rfl
  | cons step steps ih =>
    rw [run, List.foldlM_cons, advance_ofStore]
    exact ih (step.apply s)

/-! ### What stays -/

variable {steps : List Step} {kind : String} {key : ObjectKey}

/-- What every operation of a run keeps, the run keeps. -/
theorem foldl_keeps {P : Store → Prop}
    (hstep : ∀ s op, Step.operation op ∈ steps → P s → P (op.apply s)) (h : P s) :
    P (steps.foldl Step.apply s) := by
  refine List.foldlRecOn steps Step.apply h fun s hs step hmem => ?_
  cases step with
  | operation op => exact hstep s op hmem hs
  | reopen => exact hs

theorem reachable_foldl (h : s.Reachable) (steps : List Step) :
    (steps.foldl Step.apply s).Reachable := foldl_keeps (fun _ op _ hs => hs.apply op) h

/-- An object stays as it is until an operation is about it. -/
theorem find?_foldl_of_not_about (h : ∀ step ∈ steps, ¬ step.About kind key) :
    (steps.foldl Step.apply s).find? kind key = s.find? kind key := by
  refine foldl_keeps (P := fun s' => s'.find? kind key = s.find? kind key)
    (fun s' op hop hs' => ?_) rfl
  refine (Operation.find?_apply_of_target_ne fun kind' key' htarget heq => ?_).trans hs'
  exact h _ hop ⟨kind', key', htarget, heq⟩

/-- A tenant stays registered. -/
theorem tenant?_foldl_of_some {path : String} {request : TenantRequest}
    (h : s.tenant? path = some request) (steps : List Step) :
    (steps.foldl Step.apply s).tenant? path = some request := by
  refine foldl_keeps (P := fun s' => s'.tenant? path = some request) (fun s' op _ hs' => ?_) h
  rcases op.tenants_apply s' with ⟨request', rfl⟩ | htenants
  · exact Store.tenant?_putTenant_of_some hs'
  · exact (Store.tenant?_congr htenants path).trans hs'

/-- The events of a subject stay as they are until one is recorded for a subject that is not
apart. -/
theorem listEvents_foldl_of_apart {subject : ObjectKey}
    (h : ∀ e, Step.operation (.putEvent e) ∈ steps → e.subject.Apart subject) :
    (steps.foldl Step.apply s).listEvents subject = s.listEvents subject := by
  refine foldl_keeps (P := fun s' => s'.listEvents subject = s.listEvents subject)
    (fun s' op hop hs' => ?_) rfl
  rcases op.events_apply s' with ⟨e, rfl⟩ | ⟨hevents, -⟩
  · exact (Store.listEvents_putEvent_of_apart (h e hop)).trans hs'
  · rwa [Store.listEvents, Store.eventsOf, hevents]

/-! ### What is given back -/

/-- The archive answers as the store. -/
structure Shows (a : Archive) (s : Store) : Prop where
  find? : ∀ kind key, a.find? kind key = .ok (s.find? kind key)
  list : ∀ kind, a.list kind = .ok (s.list kind)
  tenant? : ∀ path, a.tenant? path = .ok (s.tenant? path)
  listEvents : ∀ subject, a.listEvents subject = .ok (s.listEvents subject)

theorem shows_ofStore (s : Store) : (ofStore s).Shows s where
  find? := find?_ofStore s
  list := list_ofStore s
  tenant? := tenant?_ofStore s
  listEvents := listEvents_ofStore s

/-- The archive `a`, which has come about from the store `s` by the operation `op` and the steps
`after`, gives back what the operation has stored: an object and a status until another operation is
about that object, a tenant for ever, and an event until another one is recorded for its subject or
one that is not apart from it. -/
structure Returns (a : Archive) (s : Store) (op : Operation) (after : List Step) : Prop where
  put : ∀ o, op = .put o → (∀ step ∈ after, ¬ step.About o.kind o.key) →
    ∃ stored, o.StoredAs (s.find? o.kind o.key) stored ∧ a.find? o.kind o.key = .ok (some stored)
  writeStatus : ∀ o version, op = .writeStatus o → (s.writeStatus o).1 = .ok version →
    (∀ step ∈ after, ¬ step.About o.kind o.key) →
    ∃ current, s.find? o.kind o.key = some current ∧
      a.find? o.kind o.key = .ok (some ({ current with status := o.status }.withVersion version))
  putTenant : ∀ request, op = .putTenant request → (s.putTenant request).1 = true →
    a.tenant? request.path = .ok (some request)
  putEvent : ∀ e, op = .putEvent e →
    (∀ e', Step.operation (.putEvent e') ∈ after → e'.subject.Apart e.subject) →
    ∃ events stored, a.listEvents e.subject = .ok events ∧ stored ∈ events ∧
      (stored = e ∨ ∃ last ∈ s.listEvents e.subject, e.repeats last = true ∧
        stored = last.folded e)

/-- A status that was written is found in the object that was there. -/
theorem find?_writeStatus {o : Object} {version : UInt64}
    (h : (s.writeStatus o).1 = .ok version) : ∃ current, s.find? o.kind o.key = some current ∧
      (s.writeStatus o).2.find? o.kind o.key =
        some ({ current with status := o.status }.withVersion version) := by
  change ∃ current, s.objects.find? o.tableKey = some current ∧
    (s.writeStatus o).2.objects.find? o.tableKey = _
  rw [Store.writeStatus_eq] at h ⊢
  cases hfind : s.objects.find? o.tableKey with
  | none =>
    rw [hfind] at h
    exact nomatch h
  | some current =>
    simp only [hfind] at h ⊢
    by_cases hversion : current.metadata.version = o.metadata.version
    · rw [if_pos hversion] at h ⊢
      obtain rfl := Except.ok.inj h
      exact ⟨current, rfl, Table.find?_insert_self _ _ _⟩
    · rw [if_neg hversion] at h
      exact nomatch h

/-- A tenant that was new is registered with the request for it. -/
theorem tenant?_putTenant_of_new {request : TenantRequest} (h : (s.putTenant request).1 = true) :
    (s.putTenant request).2.tenant? request.path = some request := by
  have hfree : s.tenant? request.path = none := by
    by_contra hregistered
    have hcontains : s.tenants.contains request.path = true :=
      Option.isSome_iff_ne_none.mpr hregistered
    rw [Store.putTenant, if_pos hcontains] at h
    exact Bool.false_ne_true h
  rw [Store.tenant?_putTenant_self, hfree, Option.getD_none]

/-- The archive of a store gives back what was stored. -/
theorem returns_ofStore (hs : s.Reachable) (op : Operation) (after : List Step) :
    (ofStore (after.foldl Step.apply (op.apply s))).Returns s op after where
  put := by
    rintro o rfl hafter
    refine ⟨_, Store.revision_storedAs _ o, ?_⟩
    rw [find?_ofStore, find?_foldl_of_not_about hafter]
    exact congrArg Except.ok (Table.find?_insert_self s.objects o.tableKey _)
  writeStatus := by
    rintro o version rfl hok hafter
    obtain ⟨current, hcurrent, hfind⟩ := find?_writeStatus hok
    refine ⟨current, hcurrent, ?_⟩
    rw [find?_ofStore, find?_foldl_of_not_about hafter]
    exact congrArg _ hfind
  putTenant := by
    rintro request rfl hnew
    rw [tenant?_ofStore]
    exact congrArg _ (tenant?_foldl_of_some (tenant?_putTenant_of_new hnew) after)
  putEvent := by
    rintro e rfl hafter
    obtain ⟨stored, hstored, h⟩ := Store.exists_mem_listEvents_putEvent hs.numbered e
    refine ⟨_, stored, listEvents_ofStore _ _, ?_, h⟩
    rwa [listEvents_foldl_of_apart hafter]

/-- **Nothing is lost.** Every object, tenant request, event and condition is decoded as it was
encoded, and a simulation whose store is closed and opened again has the same store. In every run,
with the store closed and opened again at any points of it, no decoding fails; what is answered is
what a store answers that keeps its values as they are and is never closed; and what was stored is
given back. -/
theorem lossless :
    (Object.codec.Lawful ∧ TenantRequest.codec.Lawful ∧ Event.codec.Lawful ∧
      Condition.codec.Lawful) ∧
    (∀ x : Simulation, x.reopen = .ok { x with schedule := {} }) ∧
    ∀ steps : List Step, ∃ a, run steps ∅ = .ok a ∧ a.Shows (steps.foldl Step.apply ∅) ∧
      ∀ before op after, steps = before ++ .operation op :: after →
        a.Returns (before.foldl Step.apply ∅) op after := by
  refine ⟨⟨Object.codec_lawful, TenantRequest.codec_lawful, Event.codec_lawful,
    Condition.codec_lawful⟩, fun x => ?_, fun steps => ?_⟩
  · rw [Simulation.reopen, TextStore.codec_lawful x.world.store]
    rfl
  · refine ⟨_, run_ofStore steps ∅, shows_ofStore _, fun before op after hsteps => ?_⟩
    have hs : (before.foldl Step.apply ∅).Reachable := reachable_foldl .empty before
    rw [hsteps, List.foldl_append]
    exact returns_ofStore hs op after

/-- A database whose specification holds null and the largest number of 64 bits, its status, a
tenant and an event, in a store that is opened again three times. -/
theorem lossless_orders :
    let key : ObjectKey := ⟨"prod", "orders"⟩
    let spec : Json := .obj [("limit", .int 18446744073709551615), ("owner", .null)]
    let orders : Object := { kind := "Database", metadata := .ofKey key, spec }
    let ready : Object := { orders.withVersion 1 with status := .str "Ready" }
    let request : TenantRequest :=
      { storageEndpoint := "main", path := "/root/orders", storageUnits := [], shared := false,
        useSecureChannel := true }
    let event : Event :=
      { subject := key, severity := .normal, reason := "Ready", message := "", timestamp := 1 }
    let steps : List Step := [.operation (.put orders), .reopen, .operation (.writeStatus ready),
      .operation (.putTenant request), .reopen, .operation (.putEvent event), .reopen]
    ∃ a events, run steps ∅ = .ok a ∧
      a.find? "Database" key = .ok (some (ready.withVersion 2)) ∧
      a.tenant? request.path = .ok (some request) ∧
      a.listEvents key = .ok events ∧ event ∈ events := by
  intro key spec orders ready request event steps
  obtain ⟨a, hrun, -, hreturns⟩ := lossless.2.2 steps
  let stored := (Operation.put orders).apply ∅
  have hstored : stored.find? "Database" key = some (orders.withVersion 1) := rfl
  have hstatus := hreturns [.operation (.put orders), .reopen] (.writeStatus ready) _ rfl
  obtain ⟨current, hcurrent, hfind⟩ := hstatus.writeStatus ready 2 rfl (by decide +kernel)
    (by simp [Step.About, Operation.target?])
  obtain rfl : orders.withVersion 1 = current := Option.some.inj (hstored.symm.trans hcurrent)
  have htenant := (hreturns [.operation (.put orders), .reopen, .operation (.writeStatus ready)]
    (.putTenant request) _ rfl).putTenant request rfl (by decide +kernel)
  have hevent := hreturns (steps.take 5) (.putEvent event) [.reopen] rfl
  obtain ⟨events, told, hevents, hmem, rfl | ⟨last, hlast, -⟩⟩ :=
    hevent.putEvent event rfl (by simp)
  · exact ⟨a, events, hrun, hfind, htenant, hevents, hmem⟩
  · have hnone : ((steps.take 5).foldl Step.apply ∅).listEvents key = [] := by decide +kernel
    exact absurd (hnone ▸ hlast) List.not_mem_nil

end Archive

end Converge

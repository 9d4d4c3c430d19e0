import Converge.Proofs.Addressing
import Converge.Proofs.TextRefinement
import Converge.Simulation.Disk

/-!
# Applying a manifest

A manifest is read as a whole before the store is opened. If one of its values is no object, or an
object without a kind or a name, then nothing is stored. Otherwise every object has its turn, in the
order of the manifest. What is stored for it depends on what is read when its turn comes, which an
earlier object of the same manifest can have given: it counts the version up, and an object without
a status leaves the status that it finds.

What is found is read from text, and what is stored is written as text. So a status that is left can
be another one afterwards, as a floating-point number is read as its neighbour; and where a text
cannot be read the command ends, with the objects before that stored. Where objects are read as they
are written neither happens.

## Main definitions

* `Manifest.Reads`: a value of a manifest that can be stored.
* `Object.StoredAs`: what is stored for an object, after what was read in its place.
* `Manifest.Applied`: the store after some objects, and the lines that tell of it.

## Main results

* `Manifest.ofJson_eq_ok_iff_forall₂`: a manifest is read when each of its values is.
* `TextStore.applyObjects_applied`: storing one object after another.
* `TextStore.applyObjects_ofStore`: storing objects that are read as they are.
* `Command.apply_run_error`, `Command.apply_run`: the two ends of a command.
* `Command.apply_in_turn`: what becomes of a manifest.
* `Command.apply_changes_status`: a status that is changed although it is left.
-/

namespace Converge

/-! ### Values that can be stored -/

namespace Manifest

variable {value : Json} {objects : List Object}

/-- The value is an object with a kind and a name. -/
def Reads (value : Json) (o : Object) : Prop :=
  Object.codec.decode value = .ok o ∧ o.kind ≠ "" ∧ o.metadata.name ≠ ""

private theorem isComplete_iff {o : Object} :
    isComplete o = true ↔ o.kind ≠ "" ∧ o.metadata.name ≠ "" := by
  simp [isComplete]

private theorem mapM_decode_eq_ok_iff {values : List Json} :
    values.mapM Object.codec.decode = .ok objects ↔
      List.Forall₂ (fun value o => Object.codec.decode value = .ok o) values objects := by
  induction values generalizing objects with
  | nil => simp [pure, Except.pure, eq_comm]
  | cons value values ih =>
    rw [List.mapM_cons, except_bind_eq_ok_iff, List.forall₂_cons_left_iff]
    refine exists_congr fun o => ?_
    rw [except_bind_eq_ok_iff]
    constructor
    · rintro ⟨ho, rest, hrest, heq⟩
      exact ⟨rest, ho, ih.mp hrest, (Except.ok.inj heq).symm⟩
    · rintro ⟨rest, ho, hrest, rfl⟩
      exact ⟨ho, rest, ih.mpr hrest, rfl⟩

/-- A manifest is read as what each of its values is read as. -/
theorem ofJson_eq_ok_iff_forall₂ :
    ofJson value = .ok objects ↔ List.Forall₂ Reads (elements value) objects := by
  rw [ofJson_eq_ok_iff, mapM_decode_eq_ok_iff, List.all_eq_true]
  generalize elements value = values
  constructor
  · rintro ⟨hdecode, hcomplete⟩
    induction hdecode with
    | nil => exact .nil
    | cons ho _ ih =>
      obtain ⟨hfirst, hrest⟩ := List.forall_mem_cons.mp hcomplete
      exact .cons ⟨ho, isComplete_iff.mp hfirst⟩ (ih hrest)
  · intro h
    induction h with
    | nil => exact ⟨.nil, List.forall_mem_nil _⟩
    | cons hreads _ ih =>
      exact ⟨.cons hreads.1 ih.1, List.forall_mem_cons.mpr ⟨isComplete_iff.mpr hreads.2, ih.2⟩⟩

/-- A manifest is read as some objects when each of its values can be stored. -/
theorem exists_ofJson_eq_ok_iff :
    (∃ objects, ofJson value = .ok objects) ↔ ∀ j ∈ elements value, ∃ o, Reads j o := by
  simp only [ofJson_eq_ok_iff_forall₂]
  generalize elements value = values
  induction values with
  | nil => simp
  | cons j values ih =>
    rw [List.forall_mem_cons, ← ih]
    constructor
    · rintro ⟨_, _ | ⟨hreads, hrest⟩⟩
      exact ⟨⟨_, hreads⟩, _, hrest⟩
    · rintro ⟨⟨o, hreads⟩, objects, hrest⟩
      exact ⟨o :: objects, .cons hreads hrest⟩

end Manifest

/-! ### Storing the objects -/

/-- What is stored for an object where `current?` was stored: all that the object says, under the
next version. An object without a status leaves the one that is there. -/
structure Object.StoredAs (o : Object) (current? : Option Object) (stored : Object) : Prop where
  kind : stored.kind = o.kind
  key : stored.key = o.key
  spec : stored.spec = o.spec
  labels : stored.metadata.labels = o.metadata.labels
  owner : stored.metadata.owner = o.metadata.owner
  version : stored.metadata.version = (current?.map (·.metadata.version + 1)).getD 1
  status_given : o.status ≠ .null → stored.status = o.status
  status_kept : o.status = .null → stored.status = (current?.map (·.status)).getD .null

theorem Store.revision_storedAs (current? : Option Object) (o : Object) :
    o.StoredAs current? (revision current? o) := by
  cases current? with
  | none => exact ⟨rfl, rfl, rfl, rfl, rfl, rfl, fun _ => rfl, id⟩
  | some current =>
    refine ⟨rfl, rfl, rfl, rfl, rfl, rfl, fun hgiven => ?_, fun hnull => ?_⟩
    · have hstatus : o.status.isNull ≠ true := mt Json.isNull_eq_true_iff.mp hgiven
      simp [revision, Object.withVersion, hstatus]
    · simp [revision, Object.withVersion, Json.isNull_eq_true_iff.mpr hnull]

private theorem storedLine_eq (o : Object) (version : UInt64) : storedLine o version =
    s!"{o.kind} {o.metadata.ns}/{o.metadata.name} stored (version {version})\n" := by
  simp only [storedLine, toString, ObjectKey.display, Object.key, Metadata.key,
    String.append_assoc]

/-- The objects were stored in `t` one after another, and `lines` tell of it. -/
structure Manifest.Applied (objects : List Object) (t t' : TextStore) (lines : List String) :
    Prop where
  puts : t' = (objects.map .put).foldl TextStore.apply t
  length : lines.length = objects.length
  /-- What is stored for an object when its turn comes is told, and stays if no object after it is
  stored in its place. -/
  turn : ∀ before o after, objects = before ++ o :: after →
    let t₁ := (before.map .put).foldl TextStore.apply t
    ∃ current? stored, t₁.objectAt o.tableKey = .ok current? ∧ o.StoredAs current? stored ∧
      t₁.apply (.put o) = t₁.withObject o.tableKey stored ∧
      lines[before.length]? = some
        s!"{o.kind} {o.metadata.ns}/{o.metadata.name} stored (version {stored.metadata.version})\n" ∧
      ((∀ o' ∈ after, o'.tableKey ≠ o.tableKey) →
        t'.objects.find? o.tableKey = some (Object.codec.toText stored))
  others : ∀ tkey, (∀ o ∈ objects, o.tableKey ≠ tkey) →
    t'.objects.find? tkey = t.objects.find? tkey
  registry : t'.registry = t.registry

namespace TextStore

variable {t t' : TextStore} {o : Object} {objects : List Object} {current? : Option Object}
  {s : Store} {e : StoreError}

private theorem put_of_ok (h : t.objectAt o.tableKey = .ok current?) :
    t.put o = (.ok (Store.revision current? o).metadata.version,
      t.withObject o.tableKey (Store.revision current? o)) := by
  rw [put, revise_of_ok h]
  rfl

private theorem applyObjects_cons_of_ok (h : t.objectAt o.tableKey = .ok current?)
    (objects : List Object) : t.applyObjects (o :: objects) =
      let stored := Store.revision current? o
      let rest := (t.withObject o.tableKey stored).applyObjects objects
      (storedLine o stored.metadata.version ++ rest.1, rest.2.1, rest.2.2) := by
  simp only [applyObjects, put_of_ok h]

private theorem applyObjects_cons_of_error (h : t.objectAt o.tableKey = .error e)
    (objects : List Object) :
    t.applyObjects (o :: objects) = ("", .error e, t) := by
  simp only [applyObjects, put, revise_of_error h]

/-- An object can be stored before others. -/
theorem applied_cons {lines : List String} (h : t.objectAt o.tableKey = .ok current?)
    (happlied : Manifest.Applied objects (t.withObject o.tableKey (Store.revision current? o)) t'
      lines) :
    Manifest.Applied (o :: objects) t t'
      (storedLine o (Store.revision current? o).metadata.version :: lines) where
  puts := by
    rw [happlied.puts, List.map_cons, List.foldl_cons, apply, put_of_ok h]
  length := by rw [List.length_cons, List.length_cons, happlied.length]
  turn before o' after hsplit := by
    have hput : t.apply (.put o) = t.withObject o.tableKey (Store.revision current? o) := by
      rw [apply, put_of_ok h]
    rcases List.cons_eq_append_iff.mp hsplit with ⟨rfl, heq⟩ | ⟨before', rfl, hrest⟩
    · obtain ⟨rfl, rfl⟩ := List.cons.inj heq
      refine ⟨current?, _, h, Store.revision_storedAs _ o', hput,
        congrArg some (storedLine_eq o' _), fun hlast => ?_⟩
      rw [happlied.others _ hlast]
      exact Table.find?_insert_self _ _ _
    · simp only [List.map_cons, List.foldl_cons, hput]
      exact happlied.turn before' o' after hrest
  others tkey hne := by
    obtain ⟨ho, hobjects⟩ := List.forall_mem_cons.mp hne
    rw [happlied.others tkey hobjects]
    exact Table.find?_insert_ne _ ho _
  registry := happlied.registry

/-- **Storing one object after another**, up to the first in whose place there is a text that cannot
be read. -/
theorem applyObjects_applied (objects : List Object) (t : TextStore) : ∃ done lines,
    Manifest.Applied done t (t.applyObjects objects).2.2 lines ∧
    (t.applyObjects objects).1 = String.join lines ∧
    (done = objects ∧ (t.applyObjects objects).2.1 = .ok () ∨
      ∃ o rest e, objects = done ++ o :: rest ∧
        (t.applyObjects objects).2.2.objectAt o.tableKey = .error e ∧
        (t.applyObjects objects).2.1 = .error e) := by
  have hnil : ∀ t : TextStore, Manifest.Applied [] t t [] := fun t =>
    ⟨rfl, rfl, fun before _ _ h => absurd h (by simp), fun _ _ => rfl, rfl⟩
  induction objects generalizing t with
  | nil => exact ⟨[], [], hnil t, rfl, .inl ⟨rfl, rfl⟩⟩
  | cons o objects ih =>
    cases hread : t.objectAt o.tableKey with
    | error e =>
      rw [applyObjects_cons_of_error hread]
      exact ⟨[], [], hnil t, rfl, .inr ⟨o, objects, e, rfl, hread, rfl⟩⟩
    | ok current? =>
      rw [applyObjects_cons_of_ok hread]
      obtain ⟨done, lines, happlied, hprinted, hend⟩ :=
        ih (t.withObject o.tableKey (Store.revision current? o))
      refine ⟨o :: done, _, applied_cons hread happlied, ?_, ?_⟩
      · simp only [hprinted, String.join_cons]
      · rcases hend with ⟨rfl, hok⟩ | ⟨o', rest, e, rfl, hread', herror⟩
        · exact .inl ⟨rfl, hok⟩
        · exact .inr ⟨o', rest, e, rfl, hread', herror⟩

end TextStore

/-- What is stored is read as it is, if that is so of what is given and of what is stored. -/
theorem Store.Steady.put {s : Store} {o : Object} (hs : s.Steady) (ho : o.Steady) :
    (s.put o).2.Steady := by
  refine hs.apply (.put o) fun key o' hwrites => ?_
  cases hwrites with
  | put o =>
    obtain ⟨hspec, hstatus⟩ := Object.steady_iff.mp ho
    refine Object.steady_iff.mpr ?_
    cases hfind : s.objects.find? o.tableKey with
    | none => exact ⟨hspec, hstatus⟩
    | some stored =>
      refine ⟨hspec, ?_⟩
      simp only [revision, Object.withVersion]
      split
      · exact (Object.steady_iff.mp (hs _ _ hfind)).2
      · exact hstatus

/-- **Storing objects that are read as they are** over texts is storing them. -/
theorem TextStore.applyObjects_ofStore {s : Store} {objects : List Object} (hs : s.Steady)
    (hobjects : ∀ o ∈ objects, o.Steady) :
    (ofStore s).applyObjects objects =
      ((Converge.applyObjects objects s).1, .ok (),
        ofStore (Converge.applyObjects objects s).2) := by
  induction objects generalizing s with
  | nil => rfl
  | cons o objects ih =>
    obtain ⟨ho, hobjects⟩ := List.forall_mem_cons.mp hobjects
    have hput : (ofStore s).put o = (.ok (s.put o).1, ofStore (s.put o).2) := by
      rw [put, revise_ofStore hs, Store.put_eq_revise]
    have hsplit := applyObjects_split [] objects o s
    rw [List.nil_append] at hsplit
    rw [hsplit, applyObjects, hput]
    simp only [ih (hs.put ho) hobjects]
    simp [Converge.applyObjects, Store.putAll]

/-! ### The command -/

private theorem Disk.saveStore_saveStore (d : Disk) (path : String) (t t' : TextStore) :
    (d.saveStore path t).saveStore path t' = d.saveStore path t' := by
  simp only [saveStore, Table.insert_insert_self]

/-- A store that was saved is opened again. -/
theorem Disk.openStore_saveStore {d : Disk} {path : String} {t₀ : TextStore}
    (h : d.openStore path = .ok t₀) (t : TextStore) :
    (d.saveStore path t).openStore path = .ok t := by
  by_cases hfile : d.files.contains (normalize path) = true
  · simp [openStore, hfile] at h
  by_cases hbelow : d.belowFile (normalize path) = true
  · simp [openStore, hfile, hbelow] at h
  have hfile' : ¬ (d.saveStore path t).files.contains (normalize path) = true := hfile
  have hbelow' : ¬ (d.saveStore path t).belowFile (normalize path) = true := hbelow
  have hstore : (d.saveStore path t).stores.find? (normalize path) = some t :=
    Table.find?_insert_self _ _ _
  simp [openStore, hfile', hbelow', hstore]

private theorem Disk.readFile_writeFile (d : Disk) (path content : String) :
    (d.writeFile path content).readFile path = .ok content := by
  simp [readFile, writeFile]

namespace Command

section Runs

variable {σ ε α β : Type} {x : ExceptT ε (StateM σ) α} {f : α → ExceptT ε (StateM σ) β} {w w' : σ}

theorem run_bind (x : ExceptT ε (StateM σ) α) (f : α → ExceptT ε (StateM σ) β) (w : σ) :
    (x >>= f).run w = match x.run w with
      | (.ok a, w') => (f a).run w'
      | (.error e, w') => (.error e, w') := by
  simp only [bind, ExceptT.bind, ExceptT.mk, ExceptT.run, StateT.bind, ExceptT.bindCont]
  rcases x w with ⟨r | r, w'⟩ <;> rfl

theorem run_bind_ok {a : α} (h : x.run w = (.ok a, w')) : (x >>= f).run w = (f a).run w' := by
  rw [run_bind, h]

theorem run_bind_error {e : ε} (h : x.run w = (.error e, w')) :
    (x >>= f).run w = (.error e, w') := by
  rw [run_bind, h]

private theorem run_ofExcept (r : Except ε α) (w : σ) :
    (MonadExcept.ofExcept r : ExceptT ε (StateM σ) α).run w = (r, w) := by
  cases r <;> rfl

end Runs

variable {d : Disk} {dataDir path content : String} {t : TextStore} {objects : List Object}

private theorem read_run (h : d.readFile path = .ok content) :
    (read Disk.host path).run d = (.ok content, d) := by
  have hhost : (liftM (Disk.host.readFile path) : ExceptT CommandError (StateM Disk) _).run d =
      (.ok (.ok content), d) := by
    change (Except.ok (d.readFile path), d) = _
    rw [h]
  rw [read, run_bind_ok hhost]
  rfl

private theorem openStore_run (h : d.openStore dataDir = .ok t) :
    (openStore Disk.host dataDir).run d = (.ok t, d.saveStore dataDir t) := by
  have hhost : (liftM (Disk.host.openStore dataDir) : ExceptT CommandError (StateM Disk) _).run d =
      (.ok (.ok t), d.saveStore dataDir t) := by
    change (Except.ok (Disk.host.openStore dataDir d).1, (Disk.host.openStore dataDir d).2) = _
    simp only [Disk.host, h]
  rw [openStore, run_bind_ok hhost]
  rfl

/-- A text that is no manifest ends the command before the store is opened. -/
theorem apply_run_error {e : ManifestError} (hread : d.readFile path = .ok content)
    (hparse : Manifest.parse content = .error e) :
    ((Command.apply dataDir path).execute Disk.host).run d = (.error (.manifest e), d) := by
  rw [execute, run_bind_ok (read_run hread), hparse]
  exact run_bind_error (run_ofExcept _ d)

/-- The objects of a manifest are stored, as far as they can be, and the store is saved. -/
theorem apply_run (hread : d.readFile path = .ok content)
    (hparse : Manifest.parse content = .ok objects) (hopen : d.openStore dataDir = .ok t) :
    ((Command.apply dataDir path).execute Disk.host).run d =
      (match (t.applyObjects objects).2.1 with
        | .ok () => .ok (t.applyObjects objects).1
        | .error e => .error (.halted (t.applyObjects objects).1 e),
        d.saveStore dataDir (t.applyObjects objects).2.2) := by
  rw [execute, run_bind_ok (read_run hread), hparse, ← Disk.saveStore_saveStore d dataDir t]
  refine (run_bind_ok (run_ofExcept _ d)).trans ?_
  rw [run_bind_ok (openStore_run hopen)]
  obtain ⟨printed, result, t'⟩ := t.applyObjects objects
  cases result <;> rfl

/-- **What becomes of a manifest.** A manifest with a value that is no object, or an object without
a kind or a name, fails, and files and stores stay as they were. Otherwise its objects are stored
one after another, up to the first in whose place there is a text that cannot be read. What is
printed tells of each the version that is stored for it. An object without a status keeps the one
that is read when its turn comes. What is found at last under a table key is the text of what was
stored for the last object that has it, and nothing else in the store changes. Where all objects are
read as they are written, all are stored, and text and store are those of storing them as values. -/
theorem apply_in_turn {value : Json} (hread : d.readFile path = .ok content)
    (hparse : Json.parse? content Manifest.nestingLimit = some value) :
    let outcome := ((Command.apply dataDir path).execute Disk.host).run d
    ((∃ j ∈ Manifest.elements value, ∀ o, ¬ Manifest.Reads j o) →
      ∃ e, outcome = (.error (.manifest e), d)) ∧
    ((∀ j ∈ Manifest.elements value, ∃ o, Manifest.Reads j o) →
      ∀ t, d.openStore dataDir = .ok t →
      ∃ objects done t' lines, List.Forall₂ Manifest.Reads (Manifest.elements value) objects ∧
        Manifest.Applied done t t' lines ∧
        (done = objects ∧ outcome = (.ok (String.join lines), d.saveStore dataDir t') ∨
          ∃ o rest e, objects = done ++ o :: rest ∧ t'.objectAt o.tableKey = .error e ∧
            outcome = (.error (.halted (String.join lines) e), d.saveStore dataDir t')) ∧
        ∀ s, s.Steady → t = .ofStore s → (∀ o ∈ objects, o.Steady) →
          done = objects ∧ String.join lines = (applyObjects objects s).1 ∧
            t' = .ofStore (applyObjects objects s).2) := by
  have hmanifest : Manifest.parse content = Manifest.ofJson value := by
    rw [Manifest.parse, hparse]
  constructor
  · rintro ⟨j, hj, hnot⟩
    cases hjson : Manifest.ofJson value with
    | error e => exact ⟨e, apply_run_error hread (hmanifest.trans hjson)⟩
    | ok objects =>
      obtain ⟨o, ho⟩ := Manifest.exists_ofJson_eq_ok_iff.mp ⟨objects, hjson⟩ j hj
      exact absurd ho (hnot o)
  · intro hreads t hopen
    obtain ⟨objects, hjson⟩ := Manifest.exists_ofJson_eq_ok_iff.mpr hreads
    have hrun := apply_run hread (hmanifest.trans hjson) hopen
    obtain ⟨done, lines, happlied, hprinted, hend⟩ := TextStore.applyObjects_applied objects t
    refine ⟨objects, done, _, lines, Manifest.ofJson_eq_ok_iff_forall₂.mp hjson, happlied, ?_, ?_⟩
    · rcases hend with ⟨hall, hok⟩ | ⟨o, rest, e, hsplit, hunreadable, herror⟩
      · exact .inl ⟨hall, by rw [hrun, hok, hprinted]⟩
      · exact .inr ⟨o, rest, e, hsplit, hunreadable, by rw [hrun, herror, hprinted]⟩
    · rintro s hs rfl hobjects
      have hstored := TextStore.applyObjects_ofStore hs hobjects
      rcases hend with ⟨hall, -⟩ | ⟨_, _, _, -, -, herror⟩
      · exact ⟨hall, by rw [← hprinted, hstored], by rw [hstored]⟩
      · rw [hstored] at herror
        cases herror

set_option maxRecDepth 3000 in
/-- A manifest that holds a database twice, where only the first has a status; and another one whose
second value is no object. -/
theorem apply_in_turn_orders :
    let key : ObjectKey := ⟨"prod", "orders"⟩
    let twice := "[\x7b\"kind\": \"Database\", \"status\": \"Ready\", \"metadata\":" ++
      "\x7b\"name\": \"orders\", \"namespace\": \"prod\"\x7d\x7d," ++
      "\x7b\"kind\": \"Database\", \"spec\": 2, \"metadata\":" ++
      "\x7b\"name\": \"orders\", \"namespace\": \"prod\"\x7d\x7d]"
    let half := "[\x7b\"kind\": \"Database\", \"metadata\":" ++
      "\x7b\"name\": \"orders\", \"namespace\": \"prod\"\x7d\x7d, 2]"
    let run (d : Disk) := ((Command.apply "d" "m").execute Disk.host).run d
    let disk (manifest : String) : Disk := ({} : Disk).writeFile "m" manifest
    (∃ e, run (disk half) = (.error (.manifest e), disk half)) ∧
    ∃ t', run (disk twice) = (.ok ("Database prod/orders stored (version 1)\n" ++
        "Database prod/orders stored (version 2)\n"), (disk twice).saveStore "d" t') ∧
      t'.objects.find? "Database/prod/orders" = some (Object.codec.toText
        { kind := "Database", metadata := { Metadata.ofKey key with version := 2 },
          spec := .int 2, status := .str "Ready" }) := by
  intro key twice half run disk
  let metadata : Json := .obj [("name", .str "orders"), ("namespace", .str "prod")]
  let first : Object :=
    { kind := "Database", metadata := .ofKey key, status := .str "Ready" }
  let second : Object := { kind := "Database", metadata := .ofKey key, spec := .int 2 }
  have hfile (manifest : String) : (disk manifest).readFile "m" = .ok manifest :=
    Disk.readFile_writeFile _ _ _
  have hopen (manifest : String) : (disk manifest).openStore "d" = .ok ∅ := by cbv
  have hhalf : Json.parse? half Manifest.nestingLimit =
      some (.arr [.obj [("kind", .str "Database"), ("metadata", metadata)], .int 2]) := by
    unfold half metadata
    cbv
  let values : List Json :=
    [.obj [("kind", .str "Database"), ("metadata", metadata), ("status", .str "Ready")],
      .obj [("kind", .str "Database"), ("metadata", metadata), ("spec", .int 2)]]
  have htwice : Json.parse? twice Manifest.nestingLimit = some (.arr values) := by
    unfold twice values metadata
    cbv
  have hvalues : List.Forall₂ Manifest.Reads values [first, second] :=
    .cons ⟨rfl, by decide, by decide⟩ (.cons ⟨rfl, by decide, by decide⟩ .nil)
  have hnot : ∀ o, ¬ Manifest.Reads (.int 2) o := by
    rintro o ⟨hdecode, -⟩
    obtain ⟨e, he⟩ : ∃ e, Object.codec.decode (.int 2) = .error e := ⟨_, rfl⟩
    cases he.symm.trans hdecode
  refine ⟨(apply_in_turn (hfile half) hhalf).1 ⟨.int 2, by simp [Manifest.elements], hnot⟩, ?_⟩
  have hall : ∀ j ∈ Manifest.elements (.arr values), ∃ o, Manifest.Reads j o :=
    Manifest.exists_ofJson_eq_ok_iff.mp ⟨_, Manifest.ofJson_eq_ok_iff_forall₂.mpr hvalues⟩
  obtain ⟨objects, done, t', lines, hreads, happlied, hend, hsteady⟩ :=
    (apply_in_turn (hfile twice) htwice).2 hall ∅ (hopen twice)
  obtain rfl : objects = [first, second] := Except.ok.inj
    ((Manifest.ofJson_eq_ok_iff_forall₂.mpr hreads).symm.trans
      (Manifest.ofJson_eq_ok_iff_forall₂.mpr hvalues))
  -- Both objects are read as they are, so both are stored.
  have hspec : (Json.int 2).Plain Object.nestingLimit := .int (by decide) (by decide)
  have hfirst : first.Steady := Object.steady_iff.mpr ⟨rfl, rfl⟩
  have hsecond : second.Steady := Object.steady_iff.mpr ⟨hspec.reread, rfl⟩
  have hempty : (∅ : Store).Steady := by
    rintro _ _ ⟨⟩
  obtain ⟨rfl, hprinted, rfl⟩ := hsteady ∅ hempty rfl
    (List.forall_mem_cons.mpr ⟨hfirst, List.forall_mem_singleton.mpr hsecond⟩)
  rcases hend with ⟨-, hrun⟩ | ⟨_, _, _, hsplit, -⟩
  · have hlines : (applyObjects [first, second] ∅).1 =
        "Database prod/orders stored (version 1)\n" ++
        "Database prod/orders stored (version 2)\n" := by decide +kernel
    rw [hprinted, hlines] at hrun
    have hbefore : ((∅ : Store).put first).2.objects.find? second.tableKey =
        some (first.withVersion 1) := Table.find?_insert_self _ _ _
    have hversion : (first.withVersion 1).metadata.version + 1 = 2 := by decide
    have hrevision : Store.revision (some (first.withVersion 1)) second =
        { second with status := .str "Ready" }.withVersion 2 := by rw [← hversion]; rfl
    have hfound : (applyObjects [first, second] ∅).2.objects.find? "Database/prod/orders" =
        some ({ second with status := .str "Ready" }.withVersion 2) := by
      rw [← hrevision, ← hbefore]
      exact Table.find?_insert_self _ _ _
    refine ⟨_, hrun, ?_⟩
    rw [TextStore.ofStore, Table.find?_map, hfound]
    rfl
  · exact absurd (congrArg List.length hsplit) (by simp)

/-- **A status that is changed although it is left.** A service is stored with a number in its
status that is read as its neighbour. A manifest with that service and without a status is stored;
after that the number is another one. -/
theorem apply_changes_status :
    let key : ObjectKey := ⟨"prod", "orders-grpc"⟩
    let service : Object :=
      { kind := "Service", metadata := .ofKey key, spec := .obj [("port", .int 1)],
        status := .obj [("ratio", .drifting)] }
    let manifest := "\x7b\"kind\": \"Service\", \"metadata\":" ++
      "\x7b\"name\": \"orders-grpc\", \"namespace\": \"prod\"\x7d," ++
      "\"spec\": \x7b\"port\": 2\x7d\x7d"
    let t := ((∅ : TextStore).put service).2
    let d : Disk := (({} : Disk).writeFile "m" manifest).saveStore "d" t
    ∃ t' o o', ((Command.apply "d" "m").execute Disk.host).run d =
        (.ok "Service prod/orders-grpc stored (version 2)\n", d.saveStore "d" t') ∧
      t.find? "Service" key = .ok (some o) ∧ t'.find? "Service" key = .ok (some o') ∧
      ¬ o'.status.same o.status = true := by
  intro key service manifest t d
  let found : Object := { service with status := .obj [("ratio", .drifted)] }
  let other : Object := { service with spec := .obj [("port", .int 2)], status := .null }
  let written : Object := { other with status := found.status }.withVersion 2
  have hfile : d.readFile "m" = .ok manifest := by
    simp [d, Disk.readFile, Disk.saveStore, Disk.writeFile]
  have hparse : Manifest.parse manifest = .ok [other] := by
    unfold manifest other service key
    cbv
  have hempty : (({} : Disk).writeFile "m" manifest).openStore "d" = .ok ∅ := by cbv
  have hopen : d.openStore "d" = .ok t := Disk.openStore_saveStore hempty t
  have hport : ∀ n : Int, -2 ^ 63 ≤ n → n < 2 ^ 63 →
      (Json.obj [("port", .int n)]).reread Object.nestingLimit = some (.obj [("port", .int n)]) :=
    fun n h h' => by
      have hplain : (Json.int n).Plain 125 := .int (by omega) (by omega)
      exact Json.reread_singleton "port" hplain.reread
  have hread : t.objectAt service.tableKey = .ok (some (found.withVersion 1)) := by
    have hfree : (∅ : TextStore).objectAt service.tableKey = .ok none := rfl
    have hput := TextStore.put_of_ok hfree
    rw [show t = _ from congrArg Prod.snd hput]
    refine (TextStore.objectAt_withObject_self _ _ _).trans (Object.restored_eq_ok_some_iff.mpr ?_)
    exact Object.reread_eq_some_iff.mpr ⟨_, _, hport 1 (by decide) (by decide),
      Json.reread_singleton "ratio" (Json.reread_drifting 125), rfl⟩
  have hversion : (found.withVersion 1).metadata.version + 1 = 2 := by decide
  have hrevision : Store.revision (some (found.withVersion 1)) other = written := by
    rw [Store.revision, hversion]
    rfl
  have hline : storedLine other 2 ++ "" = "Service prod/orders-grpc stored (version 2)\n" := by
    decide +kernel
  have hstored : t.applyObjects [other] = ("Service prod/orders-grpc stored (version 2)\n", .ok (),
      t.withObject other.tableKey written) := by
    rw [TextStore.applyObjects_cons_of_ok (o := other) hread, hrevision]
    exact congrArg (·, _) hline
  have hrun := apply_run hfile hparse hopen
  rw [hstored] at hrun
  refine ⟨_, found.withVersion 1, { written with status := .obj [("ratio", .drifting)] }, hrun,
    hread, ?_, ?_⟩
  · refine (TextStore.objectAt_withObject_self _ _ _).trans (Object.restored_eq_ok_some_iff.mpr ?_)
    exact Object.reread_eq_some_iff.mpr ⟨_, _, hport 2 (by decide) (by decide),
      Json.reread_singleton "ratio" (Json.reread_drifted 125), rfl⟩
  · intro hsame
    have hratio : (Json.drifting.same .drifted && true) = true := hsame
    exact Json.drifting_not_same (Bool.and_eq_true_iff.mp hratio).1

end Command

end Converge

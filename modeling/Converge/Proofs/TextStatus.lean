import Converge.Proofs.Persistence
import Converge.Proofs.Rereading
import Converge.Proofs.TextOperations

/-!
# Writing the status over texts

The status that is written goes into what is read of the stored database, and all of it is written
as text again. So the labels and the owner stay what they were, and the status is read back as it
was written. The specification is still that of the same database; but it is what was read that was
written, so that a number of it in a member that a database does not have can have become its
neighbour.

## Main results

* `TextStore.writeStatus_of_ofObject`: the status of a database that was just read is written.
* `Reconciler.persistStatus_text_of_stored`, `Reconciler.persistStatus_text_of_error`: the run of
  the writing of a status, over a database and over anything else.
* `Reconciler.persistStatus_spec`: what becomes of the status at which a pass has arrived.
* `Reconciler.persistStatus_changes_spec`: a specification that is changed by it.
-/

namespace Converge

namespace TextStore

variable {t : TextStore} {o : Object} {database : Database}

theorem writeStatus_of_ofObject (hread : t.objectAt o.tableKey = .ok (some o))
    (h : Database.kind.ofObject o = .ok database) (status : DatabaseStatus) :
    t.writeStatus (Database.kind.toObject { database with status }) =
      (.ok (o.metadata.version + 1), t.withObject o.tableKey (o.restated status)) := by
  have hmetadata : database.metadata = o.metadata := (ResourceKind.ofObject_eq_ok_iff.mp h).2.1
  have hkey : (Database.kind.toObject { database with status }).tableKey = o.tableKey :=
    Session.tableKey_of_ofObject h
  have hversion : o.metadata.version =
      (Database.kind.toObject { database with status }).metadata.version :=
    congrArg (·.version) hmetadata.symm
  have hrestated : restating (Database.kind.toObject { database with status }) (some o) =
      .ok (o.metadata.version + 1, some (o.restated status)) := by
    rw [restating, if_neg (not_not_intro hversion)]
    rfl
  rw [writeStatus, hkey, revise_of_ok hread, hrestated]

theorem record_frame (t : TextStore) (notice : Notice) (now : UInt64) :
    (t.record notice now).objects = t.objects ∧ (t.record notice now).tenants = t.tenants := by
  exact ⟨rfl, (t.tenants_apply (.putEvent _)).resolve_left nofun⟩

private theorem spec_sorted {key : String} (h : t.objectAt key = .ok (some o)) : o.spec.Sorted := by
  obtain ⟨text, -, htext⟩ := objectAt_eq_ok_some_iff.mp h
  exact Object.spec_sorted_of_ofText htext

end TextStore

/-- What is read after a status was written: the status as it was written, and the specification as
it is read from its own text. -/
theorem Object.reread_restated {o : Object} {spec : Json}
    (h : o.spec.reread nestingLimit = some spec) (status : DatabaseStatus) :
    (o.restated status).reread = some { o.restated status with spec } := by
  have hstatus := ((DatabaseStatus.codec_writesPlain status).mono (by decide :
    3 ≤ nestingLimit)).reread
  exact reread_eq_some_iff.mpr ⟨spec, _, h, hstatus, rfl⟩

private theorem Program.run_fetch_text {σ τ : Type} (kind : ResourceKind σ τ) (key : ObjectKey)
    (now : UInt64) (t : TextStore) : (Program.fetch kind key).run (TextStore.collaborators now) t =
      (kind.read (t.find? kind.name key), t) := by
  simp only [fetch, run, TextStore.collaborators]
  rcases t.find? kind.name key with e | _ | o <;> rfl

namespace Reconciler

variable {r : Reconciler} {a : Aggregate} {t : TextStore} {o : Object} {fresh : Database}

/-- Writing the status is an attempt over what is read, and a report. -/
private theorem persistStatus_text_run {found : Except StoreError (Option Database)}
    (hread : Database.kind.read (t.find? Database.kind.name a.key) = found) (now : UInt64) :
    (r.persistStatus a).run (TextStore.collaborators now) t =
      (r.reportWrite a ((attemptWrite a found).run (TextStore.collaborators now) t).1).run
        (TextStore.collaborators now)
        ((attemptWrite a found).run (TextStore.collaborators now) t).2 := by
  rw [persistStatus_eq, Program.run_bind, Program.run_fetch_text, hread, Program.run_bind]

/-- Over something that is not a database, or cannot be read, nothing is written, and that is told.
-/
theorem persistStatus_text_of_error {found : Except StoreError (Option Database)} {e : PassError}
    (hread : Database.kind.read (t.find? Database.kind.name a.key) = found)
    (hattempt : attemptWrite a found = pure (.error e)) (now : UInt64) :
    (r.persistStatus a).run (TextStore.collaborators now) t =
      ({ after := r.delays.default, error := some e },
        t.record ⟨a.key, .warning, "ControllerError", "Failed setting status: " ++ e.message⟩
          now) := by
  rw [persistStatus_text_run hread, hattempt]
  rfl

/-- Over a database the status is written into what is read, unless it is stored already. -/
theorem persistStatus_text_of_stored
    (hfind : t.find? Database.kind.name a.key = .ok (some o))
    (hplaced : o.tableKey = tableKey Database.kind.name a.key)
    (hload : Database.kind.ofObject o = .ok fresh) (now : UInt64) :
    (r.persistStatus a).run (TextStore.collaborators now) t = ({ after := r.delays.statusUpdate },
      if fresh.status = a.status then t
      else t.withObject (tableKey Database.kind.name a.key) (o.restated a.status)) := by
  have hread : Database.kind.read (t.find? Database.kind.name a.key) = .ok (some fresh) :=
    ResourceKind.read_eq_ok_some_iff.mpr ⟨o, hfind, hload⟩
  rw [persistStatus_text_run hread, attemptWrite, replaceStatus]
  by_cases hstatus : fresh.status = a.status
  · rw [if_pos hstatus, if_pos hstatus]
    rfl
  · have hat : t.objectAt o.tableKey = .ok (some o) := by rwa [hplaced]
    have hwrite := TextStore.writeStatus_of_ofObject hat hload a.status
    rw [hplaced] at hwrite
    rw [if_neg hstatus, if_neg hstatus]
    simp only [Program.run, TextStore.collaborators, hwrite]
    rfl

/-- **Writing the status over texts.** Over a database that can be loaded, and can have changed
since the pass has loaded it, the pass wishes for another one soon. Nothing is written when the
status is stored already. Otherwise the text is that of what is read, with the status and the next
version, and nothing else changes. If the specification is read from its own text, the same database
is then loaded, with the status, and to write that again changes nothing; if not, the object cannot
be read any more. Without a database that can be loaded nothing is written, one warning says so, and
the wish tells whether the database is gone or cannot be read. -/
theorem persistStatus_spec (ht : t.Reachable) (r : Reconciler) (a : Aggregate) (now : UInt64) :
    (∀ o fresh, t.find? Database.kind.name a.key = .ok (some o) →
      Database.kind.ofObject o = .ok fresh →
      ∃ t', (r.persistStatus a).run (TextStore.collaborators now) t =
          ({ after := r.delays.statusUpdate }, t') ∧
        (fresh.status = a.status → t' = t) ∧
        (fresh.status ≠ a.status →
          t' = t.withObject (tableKey Database.kind.name a.key) (o.restated a.status) ∧
          (∀ spec, o.spec.reread Object.nestingLimit = some spec →
            t'.find? Database.kind.name a.key = .ok (some { o.restated a.status with spec }) ∧
            Database.kind.ofObject { o.restated a.status with spec } =
              .ok { fresh with metadata := (o.restated a.status).metadata, status := a.status }) ∧
          (o.spec.reread Object.nestingLimit = none → t'.find? Database.kind.name a.key =
            .error (.reported .deserialization "malformed text"))) ∧
        (fresh.status = a.status ∨ (o.spec.reread Object.nestingLimit).isSome = true →
          ∀ later, (r.persistStatus a).run (TextStore.collaborators later) t' =
            ({ after := r.delays.statusUpdate }, t'))) ∧
    ∀ e, (t.find? Database.kind.name a.key = .ok none ∧ e = .statusTargetMissing a.key) ∨
        (∃ cause, (t.find? Database.kind.name a.key = .error cause ∨
            ∃ o, t.find? Database.kind.name a.key = .ok (some o) ∧
              Database.kind.ofObject o = .error cause) ∧
          e = .fetch Database.kind.name a.key cause) →
      ∃ t', (r.persistStatus a).run (TextStore.collaborators now) t =
          ({ after := r.delays.default, error := some e }, t') ∧
        t' = t.record ⟨a.key, .warning, "ControllerError", "Failed setting status: " ++ e.message⟩
          now ∧
        t'.objects = t.objects ∧ t'.tenants = t.tenants := by
  refine ⟨fun o fresh hfind hload => ?_, fun e he => ?_⟩
  · have hplaced : o.tableKey = tableKey Database.kind.name a.key := ht.placed _ o hfind
    have hrun := persistStatus_text_of_stored (r := r) hfind hplaced hload
    by_cases hstatus : fresh.status = a.status
    · simp only [if_pos hstatus] at hrun
      exact ⟨t, hrun now, fun _ => rfl, absurd hstatus, fun _ => hrun⟩
    · simp only [if_neg hstatus] at hrun
      have hread : (t.withObject (tableKey Database.kind.name a.key) (o.restated a.status)).find?
          Database.kind.name a.key = (o.restated a.status).restored :=
        TextStore.objectAt_withObject_self _ _ _
      have hreread : ∀ spec, o.spec.reread Object.nestingLimit = some spec →
          (t.withObject (tableKey Database.kind.name a.key) (o.restated a.status)).find?
              Database.kind.name a.key = .ok (some { o.restated a.status with spec }) ∧
            Database.kind.ofObject { o.restated a.status with spec } = .ok
              { fresh with metadata := (o.restated a.status).metadata, status := a.status } := by
        intro spec hspec
        refine ⟨hread.trans ?_, ?_⟩
        · exact Object.restored_eq_ok_some_iff.mpr (Object.reread_restated hspec a.status)
        · have hsorted : o.spec.Sorted := TextStore.spec_sorted hfind
          have hload' := Database.ofObject_restated hload a.status
          exact Database.ofObject_of_reread (o := o.restated a.status) hsorted hspec hload'
      refine ⟨_, hrun now, fun h => absurd h hstatus, fun _ => ⟨rfl, hreread, fun hspec => ?_⟩,
        fun hagain later => ?_⟩
      · have hnone : (o.restated a.status).reread = none := Object.reread_of_spec hspec
        rw [hread, Object.restored, hnone]
      · obtain ⟨spec, hspec⟩ := Option.isSome_iff_exists.mp (hagain.resolve_left hstatus)
        obtain ⟨hfind', hload'⟩ := hreread spec hspec
        rw [persistStatus_text_of_stored hfind' hplaced hload' later, if_pos rfl]
  · obtain ⟨hobjects, htenants⟩ := t.record_frame
      ⟨a.key, .warning, "ControllerError", "Failed setting status: " ++ e.message⟩ now
    refine ⟨_, ?_, rfl, hobjects, htenants⟩
    rcases he with ⟨hfind, rfl⟩ | ⟨cause, hcause, rfl⟩
    · exact persistStatus_text_of_error (ResourceKind.read_eq_ok_none_iff.mpr hfind) rfl now
    · have hread : Database.kind.read (t.find? Database.kind.name a.key) = .error cause := by
        rcases hcause with hfind | ⟨o, hfind, hload⟩
        · rw [hfind, ResourceKind.read]
        · rw [hfind, ResourceKind.read, hload]
          rfl
      exact persistStatus_text_of_error hread rfl now

end Reconciler

/-! ### A specification with a number -/

/-- The specification of a database, with a member that databases do not have. -/
def ratioSpec (ratio : Json) : Json :=
  .obj [("nodes", .int 2), ("ratio", ratio), ("resources", .obj [("storageUnits", .arr [])]),
    ("storageClusterRef", .obj [("name", .str "main")])]

/-- A database that is ready, with that specification. -/
def ratioDatabase (ratio : Json) : Object where
  kind := Database.kind.name
  metadata := .ofKey ⟨"prod", "orders"⟩
  spec := ratioSpec ratio
  status := DatabaseStatus.codec.encode { state := .ready }

/-- A storage cluster that is ready. -/
def readyCluster : Object :=
  StorageCluster.kind.toObject ⟨.ofKey ⟨"prod", "main"⟩, {}, { state := "Ready" }⟩

/-- A store with such a database, whose storage cluster is ready. The number in the specification is
read as its neighbour. -/
def TextStore.withRatio : TextStore :=
  [.put readyCluster, .put (ratioDatabase .drifting)].foldl TextStore.apply ∅

theorem TextStore.withRatio_reachable : withRatio.Reachable := Reachable.empty.foldl _

private theorem reread_ratioSpec {x y : Json} (h : ∀ depth, x.reread depth = some y) :
    (ratioSpec x).reread Object.nestingLimit = some (ratioSpec y) := by
  have hnodes : Reader.run? Json.number (toString (2 : Int)) = some (.int 2) :=
    Json.run?_int (by decide) (by decide)
  have hnames : ["nodes", "ratio", "resources", "storageClusterRef"].Pairwise (· < ·) := by decide
  have hlimit : Object.nestingLimit = 124 + 2 := rfl
  have hmembers : (ratioSpec x).reread Object.nestingLimit = some (.ofMembers
      [("nodes", .int 2), ("ratio", y), ("resources", .obj [("storageUnits", .arr [])]),
        ("storageClusterRef", .obj [("name", .str "main")])]) := by
    simp only [ratioSpec, hlimit, Json.reread, Json.rereadMembers, Json.rereadElements, hnodes, h]
    rfl
  exact hmembers.trans (congrArg some (Json.ofMembers_eq_obj hnames))

private theorem ratioSpec_not_same : ¬ (ratioSpec .drifting).same (ratioSpec .drifted) = true := by
  simp [ratioSpec, Json.same, Json.sameMembers, Json.drifting_not_same]

theorem ofObject_ratioDatabase : Database.kind.ofObject ((ratioDatabase .drifted).withVersion 1) =
    .ok ⟨{ Metadata.ofKey ⟨"prod", "orders"⟩ with version := 1 },
      { storageCluster := { name := "main" }, nodes := 2, resources := some {} },
      { state := .ready }⟩ := by
  decide +kernel

namespace TextStore

/-- What was stored is written as it was given, with its first version. -/
theorem withRatio_eq : withRatio =
    ((∅ : TextStore).withObject "StorageCluster/prod/main" (readyCluster.withVersion 1)).withObject
      "Database/prod/orders" ((ratioDatabase .drifting).withVersion 1) := by
  have hempty : (∅ : TextStore).objectAt readyCluster.tableKey = .ok none := rfl
  have hfree : ((∅ : TextStore).put readyCluster).2.objectAt (ratioDatabase .drifting).tableKey =
      .ok none := by
    rw [put, revise_of_ok hempty]
    exact objectAt_withObject_ne (by decide) _
  calc withRatio
      = (((∅ : TextStore).put readyCluster).2.put (ratioDatabase .drifting)).2 := rfl
    _ = _ := congrArg Prod.snd (revise_of_ok hfree)
    _ = _ := congrArg (fun x : Except StoreError UInt64 × TextStore => x.2.withObject _ _)
      (revise_of_ok hempty)

theorem reread_ratioDatabase : ((ratioDatabase .drifting).withVersion 1).reread =
    some ((ratioDatabase .drifted).withVersion 1) := by
  have hspec := reread_ratioSpec Json.reread_drifting
  have hstatus := ((DatabaseStatus.codec_writesPlain { state := .ready }).mono
    (by decide : 3 ≤ Object.nestingLimit)).reread
  exact Object.reread_eq_some_iff.mpr ⟨_, _, hspec, hstatus, rfl⟩

theorem find?_withRatio : withRatio.find? Database.kind.name ⟨"prod", "orders"⟩ =
    .ok (some ((ratioDatabase .drifted).withVersion 1)) := by
  rw [withRatio_eq]
  exact (objectAt_withObject_self _ _ _).trans
    (Object.restored_eq_ok_some_iff.mpr reread_ratioDatabase)

end TextStore

namespace Reconciler

/-- A pass has loaded the database when it wanted another storage cluster, and has arrived at
another status: that is written into what the database wants now, which is loaded again with the
status. -/
theorem persistStatus_spec_withRatio :
    let a : Aggregate := ⟨⟨.ofKey ⟨"prod", "orders"⟩, { storageCluster := { name := "old" } },
      { state := .initializing }⟩, .dedicated [], none⟩
    ∃ o' t', (({} : Reconciler).persistStatus a).run (TextStore.collaborators 7)
          TextStore.withRatio = ({ after := 1 }, t') ∧
      t'.find? Database.kind.name ⟨"prod", "orders"⟩ = .ok (some o') ∧
      Database.kind.ofObject o' = .ok ⟨{ Metadata.ofKey ⟨"prod", "orders"⟩ with version := 2 },
        { storageCluster := { name := "main" }, nodes := 2, resources := some {} },
        { state := .initializing }⟩ ∧
      (({} : Reconciler).persistStatus a).run (TextStore.collaborators 8) t' =
        ({ after := 1 }, t') := by
  intro a
  obtain ⟨t', hrun, -, hwritten, hagain⟩ :=
    (persistStatus_spec TextStore.withRatio_reachable {} a 7).1 _ _ TextStore.find?_withRatio
      ofObject_ratioDatabase
  have hspec := reread_ratioSpec Json.reread_drifted
  obtain ⟨-, hread, -⟩ := hwritten (by decide)
  obtain ⟨hfind, hload⟩ := hread _ hspec
  exact ⟨_, t', hrun, hfind, hload, hagain (.inr (congrArg Option.isSome hspec)) 8⟩

/-- **A specification that a status write changes.** The database keeps a number in its
specification that no database has; after the status was written the number is another one. -/
theorem persistStatus_changes_spec :
    let a : Aggregate := ⟨⟨.ofKey ⟨"prod", "orders"⟩, { storageCluster := { name := "main" } },
      { state := .initializing }⟩, .dedicated [], none⟩
    let t' := ((({} : Reconciler).persistStatus a).run (TextStore.collaborators 7)
      TextStore.withRatio).2
    ∃ o o', TextStore.withRatio.find? Database.kind.name ⟨"prod", "orders"⟩ = .ok (some o) ∧
      t'.find? Database.kind.name ⟨"prod", "orders"⟩ = .ok (some o') ∧
      (Database.kind.ofObject o).isOk = true ∧ ¬ o'.spec.same o.spec = true := by
  intro a t'
  have hrun := persistStatus_text_of_stored (r := {}) (a := a) TextStore.find?_withRatio rfl
    ofObject_ratioDatabase 7
  have hwritten : t' = _ := congrArg Prod.snd hrun
  rw [if_neg (by decide)] at hwritten
  have hreread := Object.reread_restated (o := (ratioDatabase .drifted).withVersion 1)
    (reread_ratioSpec Json.reread_drifted) a.status
  have hread : t'.find? Database.kind.name ⟨"prod", "orders"⟩ = .ok (some
      { ((ratioDatabase .drifted).withVersion 1).restated a.status with
        spec := ratioSpec .drifting }) := by
    rw [hwritten]
    exact (TextStore.objectAt_withObject_self _ _ _).trans
      (Object.restored_eq_ok_some_iff.mpr hreread)
  refine ⟨_, _, TextStore.find?_withRatio, hread, ?_, ratioSpec_not_same⟩
  rw [ofObject_ratioDatabase]
  rfl

end Reconciler

end Converge

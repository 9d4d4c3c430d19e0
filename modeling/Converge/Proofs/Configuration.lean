import Converge.Proofs.Documents
import Converge.Proofs.Resources
import Converge.Settings
import Mathlib

/-!
# Settings that are written

Settings are written as a document with a section for each part that is set, even if nothing in it
is, and with an entry for each text that is set. What is not set leaves no trace, and the reader
takes what it does not find for unset. So settings are read as they were written, whatever their
texts hold. Those with a bad duration are then refused, for the reason for which they were invalid
before they were written.

## Main definitions

* `Settings.present`: the entries that are set.
* `Settings.durations`: the durations that are set.

## Main results

* `Settings.lookup_present`: what is found among the entries that are set.
* `Settings.ofToml_contents`: the table of the sections denotes the settings.
* `Settings.validate_eq_ok_iff`: settings are valid when all durations are such.
* `Settings.parse_written`: settings that are written are read.
-/

namespace Converge

open Toml

/-! ### Parts of the settings -/

/-- The delays by their keys. -/
def RequeueSettings.fields (r : RequeueSettings) : List (String × Option String) :=
  [("default", r.default), ("status_update", r.statusUpdate), ("tenant_creation", r.tenantCreation),
    ("storage_await", r.storageAwait), ("shared_database_await", r.sharedDatabaseAwait)]

theorem RequeueSettings.plainKeys (r : RequeueSettings) : PlainKeys (r.fields.map (·.1)) := by
  change PlainKeys Settings.requeueKeys
  decide

/-- The end of names by its key. -/
def ClusterSettings.fields (c : ClusterSettings) : List (String × Option String) :=
  [("domain", c.domain)]

theorem ClusterSettings.plainKeys (c : ClusterSettings) : PlainKeys (c.fields.map (·.1)) := by
  change PlainKeys ["domain"]
  decide

/-- The rhythm by its keys. -/
def DaemonSettings.fields (d : DaemonSettings) : List (String × Option String) :=
  [("resync", d.resync), ("tick", d.tick)]

theorem DaemonSettings.plainKeys (d : DaemonSettings) : PlainKeys (d.fields.map (·.1)) := by
  change PlainKeys ["resync", "tick"]
  decide

/-- The parts by their names. -/
def Settings.fields (s : Settings) : List (String × Option (List (String × Option String))) :=
  [("requeue", s.requeue.map (·.fields)), ("cluster", s.cluster.map (·.fields)),
    ("daemon", s.daemon.map (·.fields))]

theorem Settings.plainKeys (s : Settings) : PlainKeys (s.fields.map (·.1)) := by
  change PlainKeys ["requeue", "cluster", "daemon"]
  decide

namespace Settings

variable {α β : Type} {l : List (String × Option α)} {entries : List (String × Option String)}

/-! ### Entries that are set -/

/-- The entries that are set. -/
def present (l : List (String × Option α)) : List (String × α) :=
  l.flatMap fun e => (e.2.map (e.1, ·)).toList

theorem present_cons (key : String) (value? : Option α) (l : List (String × Option α)) :
    present ((key, value?) :: l) = (value?.map (key, ·)).toList ++ present l := rfl

theorem sublist_present (l : List (String × Option α)) :
    ((present l).map (·.1)).Sublist (l.map (·.1)) := by
  induction l with
  | nil => exact .slnil
  | cons e l ih =>
    obtain ⟨key, value?⟩ := e
    cases value? with
    | none => exact ih.cons key
    | some value => exact ih.cons_cons key

/-- **What is set is found**, and nothing else. -/
theorem lookup_present (h : (l.map (·.1)).Nodup) (key : String) :
    (present l).lookup key = (l.lookup key).join := by
  induction l with
  | nil => rfl
  | cons e l ih =>
    obtain ⟨key', value?⟩ := e
    obtain ⟨hfresh, hl⟩ := List.nodup_cons.mp h
    rw [present_cons, List.lookup_append, ih hl, Table.lookup_cons]
    by_cases hkey : key' = key
    · -- Behind the entry with the key there is none.
      have hnone : l.lookup key = none := List.lookup_eq_none_iff.mpr fun e he =>
        bne_iff_ne.mpr fun heq => hfresh (List.mem_map.mpr ⟨e, he, heq.symm.trans hkey.symm⟩)
      cases value? <;> simp [hkey, hnone]
    · cases value? <;> simp [Table.lookup_cons, hkey]

/-! ### Sections -/

/-- The sections are the parts that are set, with the entries that are set. -/
theorem sections_eq (s : Settings) :
    s.sections = (present s.fields).map fun e => (e.1, present e.2) := by
  obtain ⟨requeue, cluster, daemon⟩ := s
  cases requeue <;> cases cluster <;> cases daemon <;>
    simp [sections, fields, present, RequeueSettings.fields, ClusterSettings.fields,
      DaemonSettings.fields]

theorem mapM_eq_some_map {f : α → Option β} {g : α → β} {l : List α}
    (h : ∀ a ∈ l, f a = some (g a)) : l.mapM f = some (l.map g) := by
  induction l with
  | nil => rfl
  | cons a l ih =>
    obtain ⟨ha, hl⟩ := List.forall_mem_cons.mp h
    simp [List.mapM_cons, ha, ih hl]

/-- The table of a section. -/
def sectionTable (entries : List (String × Option String)) : Toml :=
  .table .header (content (present entries))

/-- The entries of a section are read as they were set. -/
theorem sectionTexts_sectionTable (h : (entries.map (·.1)).Nodup) :
    sectionTexts (entries.map (·.1)) (sectionTable entries) = some (entries.map (·.2)) := by
  rw [sectionTable, sectionTexts, List.mapM_map]
  refine mapM_eq_some_map fun e he => ?_
  have hlookup : (content (present entries)).lookup e.1 = e.2.map Toml.string := by
    rw [content, Table.lookup_map, lookup_present h, Table.lookup_of_mem_of_nodup h he,
      Option.join_some]
  rw [Function.comp_apply, hlookup]
  cases e.2 <;> rfl

theorem requeueOfToml_sectionTable (r : RequeueSettings) :
    requeueOfToml (sectionTable r.fields) = some r := by
  have htexts : sectionTexts requeueKeys (sectionTable r.fields) = _ :=
    sectionTexts_sectionTable r.plainKeys.nodup
  rw [requeueOfToml, htexts]
  rfl

theorem clusterOfToml_sectionTable (c : ClusterSettings) :
    clusterOfToml (sectionTable c.fields) = some c := by
  have htexts : sectionTexts ["domain"] (sectionTable c.fields) = _ :=
    sectionTexts_sectionTable c.plainKeys.nodup
  rw [clusterOfToml, htexts]
  rfl

theorem daemonOfToml_sectionTable (d : DaemonSettings) :
    daemonOfToml (sectionTable d.fields) = some d := by
  have htexts : sectionTexts ["resync", "tick"] (sectionTable d.fields) = _ :=
    sectionTexts_sectionTable d.plainKeys.nodup
  rw [daemonOfToml, htexts]
  rfl

/-! ### Documents -/

theorem plainKeys_of_mem {s : Settings} {name : String} {entries : List (String × Option String)}
    (h : (name, entries) ∈ present s.fields) : PlainKeys (entries.map (·.1)) := by
  have hpart : (∃ r, s.requeue = some r ∧ "requeue" = name ∧ r.fields = entries) ∨
      (∃ c, s.cluster = some c ∧ "cluster" = name ∧ c.fields = entries) ∨
      ∃ d, s.daemon = some d ∧ "daemon" = name ∧ d.fields = entries := by
    simpa [present, fields] using h
  rcases hpart with ⟨r, -, -, rfl⟩ | ⟨c, -, -, rfl⟩ | ⟨d, -, -, rfl⟩
  · exact r.plainKeys
  · exact c.plainKeys
  · exact d.plainKeys

/-- The sections of any settings can be written. -/
theorem plain_sections (s : Settings) : Plain s.sections where
  names := by
    rw [sections_eq, List.map_map]
    exact s.plainKeys.of_sublist (sublist_present s.fields)
  keys := by
    rw [sections_eq]
    intro e he
    obtain ⟨e', he', rfl⟩ := List.mem_map.mp he
    exact (plainKeys_of_mem he').of_sublist (sublist_present e'.2)

/-- Under the name of a part its table is found, if the part is set. -/
theorem member?_contents (s : Settings) (name : String) :
    (Toml.table .header (contents s.sections)).member? name =
      (s.fields.lookup name).join.map sectionTable := by
  have hcontents : contents s.sections =
      (present s.fields).map fun e => (e.1, sectionTable e.2) := by
    rw [sections_eq, contents, List.map_map]
    rfl
  rw [member?, hcontents, Table.lookup_map, lookup_present s.plainKeys.nodup]

/-- The table of the sections denotes the settings. -/
theorem ofToml_contents (s : Settings) :
    ofToml (.table .header (contents s.sections)) = some s := by
  have hrequeue : ((s.fields.lookup "requeue").join.map sectionTable).mapM requeueOfToml =
      some s.requeue := by
    cases h : s.requeue <;> simp [fields, h, requeueOfToml_sectionTable]
  have hcluster : ((s.fields.lookup "cluster").join.map sectionTable).mapM clusterOfToml =
      some s.cluster := by
    cases h : s.cluster <;> simp [fields, List.lookup, h, clusterOfToml_sectionTable]
  have hdaemon : ((s.fields.lookup "daemon").join.map sectionTable).mapM daemonOfToml =
      some s.daemon := by
    cases h : s.daemon <;> simp [fields, List.lookup, h, daemonOfToml_sectionTable]
  rw [ofToml, member?_contents, member?_contents, member?_contents, hrequeue, hcluster, hdaemon]
  rfl

/-! ### Durations -/

/-- The durations that are set. -/
def durations (s : Settings) : List String :=
  let r := s.requeue.getD {}
  [r.default, r.statusUpdate, r.tenantCreation, r.storageAwait, r.sharedDatabaseAwait,
    s.daemon.bind (·.resync), s.daemon.bind (·.tick)].reduceOption

theorem map_eq_ok_iff {ε : Type} {x : Except ε α} :
    (fun _ => ()) <$> x = .ok () ↔ ∃ a, x = .ok a := by
  cases x with
  | ok a => exact iff_of_true rfl ⟨a, rfl⟩
  | error e => exact iff_of_false nofun nofun

theorem exists_durationOr_iff {entry : String} {text? : Option String} {unset : Seconds} :
    (∃ d, durationOr entry text? unset = .ok d) ↔
      ∀ text, some text = text? → (Seconds.parse? text).isSome = true := by
  cases text? with
  | none => simp [durationOr]
  | some text => cases h : Seconds.parse? text <;> simp [durationOr, h]

/-- Settings are valid when all durations are such. -/
theorem validate_eq_ok_iff (s : Settings) :
    s.validate = .ok () ↔ ∀ text ∈ s.durations, (Seconds.parse? text).isSome = true := by
  simp [durations, validate, delays, resync, tick, except_bind_eq_ok_iff, map_eq_ok_iff,
    exists_durationOr_iff, List.reduceOption_mem_iff, or_imp, forall_and]

/-- **Settings that are written are read**, and accepted when all durations that are set are such.
Otherwise they are refused for the reason for which they are invalid. -/
theorem parse_written (s : Settings) :
    (Toml.parse? s.written).bind ofToml = some s ∧
      (parse s.written = .ok s ↔ ∀ text ∈ s.durations, (Seconds.parse? text).isSome = true) ∧
      ∀ e, parse s.written = .error e ↔ s.validate = .error e := by
  have hread : (Toml.parse? s.written).bind ofToml = some s := by
    rw [written, parse?_writtenSections (plain_sections s), Option.bind_some, ofToml_contents]
  have hparse : parse s.written = s.validate.map fun _ => s := by
    rw [parse, hread]
    change (s.validate >>= fun _ => pure s) = _
    cases s.validate <;> rfl
  rw [← validate_eq_ok_iff, hparse]
  refine ⟨hread, ?_, fun e => ?_⟩
  · cases s.validate <;> simp [Except.map]
  · cases s.validate <;> simp [Except.map]

/-- A delay with blanks in it, a domain with both marks and a control character, and an empty
section. -/
theorem parse_written_blanks :
    let s : Settings :=
      { requeue := some { default := some "\n10\t s " }
        cluster := some { domain := some "\"'\x00" }
        daemon := some {} }
    s.written = "[requeue]\ndefault = \"\"\"\n\n10\\t s \"\"\"\n\n" ++
        "[cluster]\ndomain = \"\\\"'\\u0000\"\n\n[daemon]\n" ∧
      parse s.written = .ok s := by
  intro s
  exact ⟨by decide +kernel, (parse_written s).2.1.mpr (by decide +kernel)⟩

end Settings

end Converge

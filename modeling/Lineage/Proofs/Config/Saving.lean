import Lineage.Proofs.Config.Histories
import Lineage.Proofs.Config.Preservation
import Lineage.Proofs.Scan.Kinds

/-!
# Saving beside loading

The entry for the settings can be any value.  Loading takes whatever is no table for no settings at
all.  Saving is not so strict: it takes the entry for a table if that is possible in any way, as it
is for a list of pairs, an array of tables with two entries each or an empty text, and it fails at
anything else.

So values that are saved are not always found on top of the settings that were loaded before.  This
is worked out on every file that holds a configuration.  If the settings are a table, all is well.
If they are something else that passes for a table, then what passes for known settings comes to
light by saving, and the two agree only if all of it is covered by the values, or if the file cannot
be written.  Otherwise saving fails.

## Main results

* `exists_entries_iff`: what saving can take for a table.
* `save_fails_of_entries`: where it cannot, nothing is changed.
* `savesAsLoaded_iff_of_entries`: otherwise everything depends on what is found under the keys of
  settings.
* `savesAsLoaded_iff`: when saving agrees with loading.
-/

namespace Lineage.Config

variable {state : ConfigState} {host : ConfigHost} {table values : Table}
  {present : List (Scalar × Value)}

/-- Saving does not fail, and if it is done, then the settings that are loaded are those loaded
before with the values made in them. -/
def SavesAsLoaded (values : Table) (state : ConfigState) : Prop :=
  ∃ written after, (save values).run.run state = (.ok written, after) ∧
    (written = true → ∃ old new, ((loadScan).run.run state).1 = .ok old ∧
      ((loadScan).run.run after).1 = .ok new ∧
      ∀ key, Keyed.get? key new = Keyed.get? key (old.update values))

/-- A draft is written so that a host reads it again as the same.  This is out of the question for
keys that are no texts. -/
def Recovered (host : ConfigHost) (draft : Toml.Draft) : Prop :=
  draft.given = [] ∧ ∃ read, Restores host draft.table read

/-- A draft without keys that are no texts is written as its table. -/
theorem Recovered.draft_eq {draft : Toml.Draft} (h : Recovered host draft) :
    draft = { table := draft.table } := by
  obtain ⟨table, given⟩ := draft
  obtain ⟨rfl, -⟩ := h
  rfl

/-! ## What passes for a table -/

/-- A value of two members, the first of which can be a key. -/
def IsPair (item : Value) : Prop :=
  ∃ key value, item.members? = some [.scalar key, value] ∧ key.isMember = true

theorem exists_pair_iff {item : Value} : (∃ entry, pair item = .ok entry) ↔ IsPair item := by
  constructor
  · rintro ⟨entry, hentry⟩
    unfold pair at hentry
    split at hentry
    · cases hentry
    · next first value hmembers =>
        cases first with
        | scalar key =>
            dsimp only at hentry
            split at hentry
            · next hkey => exact ⟨key, value, hmembers, hkey⟩
            · cases hentry
        | list items => cases hentry
        | table entries => cases hentry
    · cases hentry
  · rintro ⟨key, value, hmembers, hkey⟩
    refine ⟨(key, value), ?_⟩
    rw [pair, hmembers]
    exact if_pos hkey

/-- The settings are a table, or else an empty text or a list of pairs. -/
def PassesForTable (table : Table) : Prop :=
  SectionIsTable table ∨ table.get? sectionKey = some (.scalar (.text "")) ∨
    ∃ items, table.get? sectionKey = some (.list items) ∧ ∀ item ∈ items, IsPair item

theorem exists_entries_iff : (∃ present, entries table = .ok present) ↔ PassesForTable table := by
  unfold PassesForTable SectionIsTable entries
  cases table.get? sectionKey with
  | none => simp
  | some value =>
      cases value with
      | table entries => simp
      | list items =>
          have hitems : (∃ present, items.mapM pair = .ok present) ↔
              ∀ item ∈ items, IsPair item := by
            simp only [exists_mapM_eq_ok_iff, exists_pair_iff]
          simp [hitems]
      | scalar value =>
          cases value with
          | text text => by_cases hempty : text = "" <;> simp [hempty]
          | null => simp
          | bool value => simp
          | int value => simp
          | measure value => simp

/-! ## What saving does -/

/-- Saving fails where the settings cannot be taken for a table, and leaves everything as it was. -/
theorem save_fails_of_entries {error : ConfigError} (haccepted : (Call.save values).Accepted)
    (hholds : state.file.Holds state.host table) (hentries : entries table = .error error) :
    (save values).run.run state = (.error error, state) := by
  have hrun := Call.run_of_loaded haccepted (run_load hholds)
  rw [Call.draft, hentries] at hrun
  exact hrun

theorem save_fails (haccepted : (Call.save values).Accepted)
    (hholds : state.file.Holds state.host table) (hno : ¬ PassesForTable table) :
    ∃ error, (save values).run.run state = (.error error, state) := by
  cases hentries : entries table with
  | error error => exact ⟨error, save_fails_of_entries haccepted hholds hentries⟩
  | ok present => exact absurd (exists_entries_iff.mp ⟨present, hentries⟩) hno

theorem draft_save (hentries : entries table = .ok present) :
    (Call.save values).draft table = .ok (merged table values present) := by
  rw [Call.draft, hentries]
  rfl

/-- A draft that is read again has texts for keys. -/
theorem exists_textKeys_of_recovered (h : Recovered host (merged table values present)) :
    ∃ settings, textKeys? present = some settings := by
  cases hkeys : textKeys? present with
  | none =>
      obtain ⟨hgiven, -⟩ := h
      rw [merged, hkeys] at hgiven
      cases hgiven
  | some settings => exact ⟨settings, rfl⟩

/-- Where the draft of a save is read again as the same, the values are found on top of what saving
took for the settings. -/
theorem get?_sectionOf_of_restores {settings read : Table} {key : String}
    (hkeys : textKeys? present = some settings)
    (hrestores : Restores host (merged table values present).table read)
    (hkey : key ∈ settingKeys) :
    Keyed.get? key (sectionOf read) =
      Keyed.get? key ((Keyed.update [] settings).update values) := by
  rw [hrestores.settings key hkey]
  simp [merged, hkeys, sectionOf]

/-- What saving takes for the settings is written with the values made in it. -/
theorem exists_run_save {settings : Table} (haccepted : (Call.save values).Accepted)
    (hopen : state.isWritable = true) (hholds : state.file.Holds state.host table)
    (hentries : entries table = .ok present) (hkeys : textKeys? present = some settings)
    (hrecovered : Recovered state.host (merged table values present)) :
    ∃ read after, (save values).run.run state = (.ok true, after) ∧
      after.file.Holds after.host read ∧
      ∀ key ∈ settingKeys, Keyed.get? key (sectionOf read) =
        Keyed.get? key ((Keyed.update [] settings).update values) := by
  have hrun := Call.run_of_loaded haccepted (run_load hholds)
  rw [draft_save hentries] at hrun
  have hdraft := hrecovered.draft_eq
  obtain ⟨-, read, hrestores⟩ := hrecovered
  obtain ⟨text, hprint, hread⟩ := hrestores.written
  rw [← hdraft] at hprint
  exact ⟨read, _, hrun.trans (run_store hprint hopen), hread,
    fun _ hkey => get?_sectionOf_of_restores hkeys hrestores hkey⟩

/-- Where the file cannot be written, saving says so if there is a place for it. -/
theorem savesAsLoaded_iff_of_not_writable (haccepted : (Call.save values).Accepted)
    (hclosed : state.isWritable = false) (hholds : state.file.Holds state.host table)
    (hentries : entries table = .ok present) :
    SavesAsLoaded values state ↔ state.file ≠ .homeless := by
  have hdraft : (Call.save values).draft table = .ok (merged table values present) :=
    draft_save hentries
  obtain ⟨after, -, hrun⟩ :=
    Call.exists_run_of_not_writable haccepted hclosed (.inl hholds) hdraft
  by_cases hplace : state.file = .homeless
  · rw [if_pos hplace] at hrun
    refine iff_of_false ?_ (not_not_intro hplace)
    rintro ⟨written, after', hdone, -⟩
    cases hrun.symm.trans hdone
  · rw [if_neg hplace] at hrun
    exact iff_of_true ⟨false, after, hrun, nofun⟩ hplace

/-! ## What is loaded then -/

theorem mem_settingKeys_of_accepted (h : (Call.save values).Accepted) {key : String}
    (hkey : key ∈ values.map Prod.fst) : key ∈ settingKeys := by
  have hknown := List.filter_eq_nil_iff.mp h key hkey
  simpa using hknown

/-- Values under known keys are the same on top of the known settings as on top of all settings. -/
theorem get?_update_known (h : (Call.save values).Accepted) (settings : Table) (key : String) :
    Keyed.get? key ((known settings).update values) =
      Keyed.get? key (known (settings.update values)) := by
  rw [get?_known, Keyed.get?_update, get?_known]
  split
  · rw [← Keyed.get?_update]
  · next hunknown =>
      have hnone : Keyed.get? key (Keyed.update [] values) = none :=
        Keyed.get?_update_nil_eq_none_iff.mpr fun hkey =>
          hunknown (List.contains_iff_mem.mpr (mem_settingKeys_of_accepted h hkey))
      rw [hnone, Option.or_none]

/-- Saving agrees with loading if under each key of a setting the values are found on top of what
saving takes for the settings just as on top of those that are loaded. -/
theorem savesAsLoaded_iff_of_entries {settings : Table} (haccepted : (Call.save values).Accepted)
    (hopen : state.isWritable = true) (hholds : state.file.Holds state.host table)
    (hentries : entries table = .ok present) (hkeys : textKeys? present = some settings)
    (hrecovered : Recovered state.host (merged table values present)) :
    SavesAsLoaded values state ↔
      ∀ key ∈ settingKeys, Keyed.get? key ((Keyed.update [] settings).update values) =
        Keyed.get? key ((sectionOf table).update values) := by
  obtain ⟨read, after, hrun, hread, hwritten⟩ :=
    exists_run_save haccepted hopen hholds hentries hkeys hrecovered
  have hold := congrArg Prod.fst (run_loadScan hholds)
  have hnew := congrArg Prod.fst (run_loadScan hread)
  constructor
  · rintro ⟨written, after', hrun', hloaded⟩ key hkey
    cases hrun.symm.trans hrun'
    obtain ⟨old, new, hold', hnew', hsame⟩ := hloaded rfl
    cases hold.symm.trans hold'
    cases hnew.symm.trans hnew'
    have hfound := hsame key
    rw [get?_update_known haccepted, get?_known, get?_known,
      if_pos (List.contains_iff_mem.mpr hkey), if_pos (List.contains_iff_mem.mpr hkey)] at hfound
    rw [← hwritten key hkey, hfound]
  · intro hsame
    refine ⟨true, after, hrun, fun _ => ⟨_, _, hold, hnew, fun key => ?_⟩⟩
    rw [get?_update_known haccepted, get?_known, get?_known]
    split
    · next hkey =>
        have hmem := List.contains_iff_mem.mp hkey
        rw [hwritten key hmem, hsame key hmem]
    · rfl

/-! ## Agreement -/

/-- The values have the key of everything that saving takes for a known setting. -/
def Covers (values table : Table) : Prop :=
  ∃ present settings, entries table = .ok present ∧ textKeys? present = some settings ∧
    ∀ key ∈ settingKeys, key ∈ settings.map Prod.fst → key ∈ values.map Prod.fst

theorem sectionOf_eq_nil (h : ¬ SectionIsTable table) : sectionOf table = [] := by
  rw [sectionOf]
  split
  · next entries hfound => exact absurd (.inr ⟨entries, hfound⟩) h
  · rfl

/-- What saving takes for the settings goes unnoticed under a key if it has none there or the values
have one. -/
theorem get?_update_eq_iff {settings : Table} {key : String} :
    Keyed.get? key ((Keyed.update [] settings).update values) =
        Keyed.get? key (Keyed.update [] values) ↔
      (key ∈ settings.map Prod.fst → key ∈ values.map Prod.fst) := by
  rw [Keyed.get?_update key (Keyed.update [] settings)]
  by_cases hvalues : key ∈ values.map Prod.fst
  · have hsome : Keyed.get? key (Keyed.update [] values) ≠ none := fun hnone =>
      Keyed.get?_update_nil_eq_none_iff.mp hnone hvalues
    obtain ⟨value, hvalue⟩ := Option.ne_none_iff_exists'.mp hsome
    rw [hvalue]
    exact iff_of_true rfl fun _ => hvalues
  · rw [Keyed.get?_update_nil_eq_none_iff.mpr hvalues, Option.none_or,
      Keyed.get?_update_nil_eq_none_iff]
    exact (imp_iff_not hvalues).symm

/-- Settings that are a table are nothing new to loading. -/
theorem covers_or_sectionIsTable_iff (values : Table) {settings : Table}
    (hdistinct : Value.KeysDistinct (.table table)) (hentries : entries table = .ok present)
    (hkeys : textKeys? present = some settings) :
    (∀ key ∈ settingKeys, Keyed.get? key ((Keyed.update [] settings).update values) =
        Keyed.get? key ((sectionOf table).update values)) ↔
      SectionIsTable table ∨ Covers values table := by
  by_cases hsection : SectionIsTable table
  · refine iff_of_true (fun key _ => ?_) (.inl hsection)
    obtain rfl := Except.ok.inj ((entries_eq hsection).symm.trans hentries)
    obtain rfl := Option.some.inj ((textKeys?_map _).symm.trans hkeys)
    rw [Keyed.update_nil (nodup_sectionOf hdistinct)]
  · rw [or_iff_right hsection]
    simp only [sectionOf_eq_nil hsection, get?_update_eq_iff]
    constructor
    · exact fun hcovered => ⟨present, settings, hentries, hkeys, hcovered⟩
    · rintro ⟨present', settings', hpresent, hkeys', hcovered⟩
      cases hentries.symm.trans hpresent
      cases hkeys.symm.trans hkeys'
      exact hcovered

/-- What covers settings passes for a table. -/
theorem passesForTable_of_covers (h : Covers values table) : PassesForTable table := by
  obtain ⟨present, -, hentries, -⟩ := h
  exact exists_entries_iff.mp ⟨present, hentries⟩

/-- Saving agrees with loading exactly if the settings are a table, or everything that is taken for
known settings is covered by the values, or the settings pass for a table and nothing can be
written.  Where they do not even pass for a table it fails, and nothing is changed. -/
theorem savesAsLoaded_iff (haccepted : (Call.save values).Accepted)
    (hholds : state.file.Holds state.host table)
    (hrecovered : ∀ draft, (Call.save values).draft table = .ok draft →
      Recovered state.host draft) :
    (SavesAsLoaded values state ↔ state.file ≠ .homeless ∧
      (SectionIsTable table ∨ Covers values table ∨
        state.isWritable = false ∧ PassesForTable table)) ∧
      (¬ PassesForTable table → ∃ error, (save values).run.run state = (.error error, state)) := by
  refine ⟨?_, fun hno => save_fails haccepted hholds hno⟩
  cases hentries : entries table with
  | error error =>
      have hno : ¬ PassesForTable table := fun hpasses => by
        obtain ⟨present, hpresent⟩ := exists_entries_iff.mpr hpasses
        cases hentries.symm.trans hpresent
      have hrun := save_fails_of_entries haccepted hholds hentries
      constructor
      · rintro ⟨written, after, hdone, -⟩
        cases hrun.symm.trans hdone
      · rintro ⟨-, hsection | hcovers | ⟨-, hpasses⟩⟩
        · exact absurd (.inl hsection) hno
        · exact absurd (passesForTable_of_covers hcovers) hno
        · exact absurd hpasses hno
  | ok present =>
      have hpasses : PassesForTable table := exists_entries_iff.mp ⟨present, hentries⟩
      have hdraft := hrecovered _ (draft_save hentries)
      obtain ⟨settings, hkeys⟩ := exists_textKeys_of_recovered hdraft
      have hagree := covers_or_sectionIsTable_iff values
        (ConfigFile.keysDistinct_of_holds hholds) hentries hkeys
      cases hopen : state.isWritable with
      | false =>
          rw [savesAsLoaded_iff_of_not_writable haccepted hopen hholds hentries]
          exact (and_iff_left (.inr (.inr ⟨rfl, hpasses⟩))).symm
      | true =>
          have hplace : state.file ≠ .homeless := by
            intro hhomeless
            rw [ConfigState.isWritable, hhomeless] at hopen
            cases hopen
          rw [savesAsLoaded_iff_of_entries haccepted hopen hholds hentries hkeys hdraft, hagree]
          simp [hplace]

/-- Settings that are a list with one pair. -/
def paired : Table :=
  [("scan", .list [.list [.scalar (.text "tag_prefix"), .scalar (.text "x")]])]

/-- The file that holds them. -/
def pairedStart : ConfigState :=
  { file := .file (Text.toBytes "scan = [[\"tag_prefix\", \"x\"]]\n") }

/-- A folder to be saved. -/
def savedFolder : Table := [("default_folder", .scalar (.text "lwc"))]

/-- A prefix to be saved. -/
def savedPrefix : Table := [("tag_prefix", .scalar (.text "y"))]

theorem holds_paired : pairedStart.file.Holds pairedStart.host paired := ⟨rfl, rfl⟩

theorem recovered_savedPrefix {draft : Toml.Draft}
    (hdraft : (Call.save savedPrefix).draft paired = .ok draft) : Recovered {} draft := by
  cases hdraft
  exact ⟨rfl, _, .refl "[scan]\ntag_prefix = \"y\"\n" rfl rfl rfl rfl⟩

theorem recovered_savedFolder {draft : Toml.Draft}
    (hdraft : (Call.save savedFolder).draft paired = .ok draft) : Recovered {} draft := by
  cases hdraft
  exact ⟨rfl, _, .refl "[scan]\ntag_prefix = \"x\"\ndefault_folder = \"lwc\"\n" rfl rfl rfl rfl⟩

/-- A prefix covers the one in the pair, which no loading has found. -/
theorem savesAsLoaded_savedPrefix : SavesAsLoaded savedPrefix pairedStart := by
  have hcovers : Covers savedPrefix paired :=
    ⟨_, [("tag_prefix", .scalar (.text "x"))], rfl, rfl, by decide⟩
  exact (savesAsLoaded_iff (by decide) holds_paired fun _ => recovered_savedPrefix).1.mpr
    ⟨nofun, .inr (.inl hcovers)⟩

/-- An array of tables, the only one of which has one entry. -/
def arrayedText : String := "[[scan]]\ntag_prefix = \"x\"\n"

/-- A folder does not, and with it that prefix comes to light.  Settings that are a number, be it
whole or not, or an array of tables with one entry each make saving fail. -/
theorem not_savesAsLoaded_savedFolder :
    ((∀ draft, (Call.save savedFolder).draft paired = .ok draft → Recovered {} draft) ∧
      ¬ SavesAsLoaded savedFolder pairedStart) ∧
    ((save savedFolder).run.run { file := .file (Text.toBytes "scan = 5\n") }).1 =
      .error .notTable ∧
    ((save savedFolder).run.run { file := .file (Text.toBytes "scan = 1.5\n") }).1 =
      .error .notTable ∧
    ((save savedFolder).run.run { file := .file (Text.toBytes arrayedText) }).1 =
      .error .notPairs := by
  have haccepted : (Call.save savedFolder).Accepted := by decide
  refine ⟨⟨fun _ => recovered_savedFolder, fun hsaved => ?_⟩, ?_, ?_, ?_⟩
  · have hsame := (savesAsLoaded_iff_of_entries haccepted rfl holds_paired rfl rfl
      (recovered_savedFolder rfl)).mp hsaved "tag_prefix" (by decide)
    cases hsame
  · have hholds : (ConfigFile.file (Text.toBytes "scan = 5\n")).Holds {}
        [("scan", .scalar (.int 5))] := ⟨rfl, rfl⟩
    rw [save_fails_of_entries haccepted hholds rfl]
  · have hholds : (ConfigFile.file (Text.toBytes "scan = 1.5\n")).Holds {}
        [("scan", .scalar (.measure (Toml.signedFraction false (Toml.nearest? 15 (-1)))))] :=
      ⟨rfl, rfl⟩
    rw [save_fails_of_entries haccepted hholds rfl]
  · have hholds : (ConfigFile.file (Text.toBytes arrayedText)).Holds {}
        [("scan", .list [.table [("tag_prefix", .scalar (.text "x"))]])] := ⟨rfl, rfl⟩
    rw [save_fails_of_entries haccepted hholds rfl]

end Lineage.Config

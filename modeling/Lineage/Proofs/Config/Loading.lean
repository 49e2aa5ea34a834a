import Lineage.Proofs.Config.Calls

/-!
# Loading the configuration

A file that is missing counts as an empty configuration.  So do a directory in its place, a file
that cannot be opened and a malformed text, and these are reported.  But a file may be worse than
malformed: bytes that are no text at all, and texts in which the reader trips over something other
than their form.  Loading breaks off at these, with an error for whoever asked for the
configuration, and gives none.  The same goes for a place that cannot be looked at.

Every file is of one of these kinds.  Whichever it is, loading leaves the file as it was.

## Main results

* `run_load_cases`: what loading can do.
* `run_loadSettings_of_ignored`: a file that is passed over leaves the standard settings.
* `loaded_unless_broken`: which files are loaded, and as what, and which keys their settings have.
-/

namespace Lineage

/-! ## Kinds of files -/

namespace ConfigFile

variable {host : ConfigHost} {file : ConfigFile} {table : Table}

/-- There is something in the place of a configuration, and it is passed over: a directory, a file
that cannot be opened, or one with a text that is refused as malformed. -/
def Ignored (host : ConfigHost) : ConfigFile → Prop
  | .directory => True
  | .file bytes =>
      host.reads = false ∨ Config.decode host.codec bytes = .error (.unreadable .malformed)
  | _ => False

/-- The file can neither be read nor passed over: looking at it ends with an error. -/
def Broken (host : ConfigHost) : ConfigFile → ConfigError → Prop
  | .hidden, error => error = .hidden
  | .file bytes, error =>
      host.reads = true ∧ error ≠ .unreadable .malformed ∧
        Config.decode host.codec bytes = .error error
  | _, _ => False

theorem holds_or_ignored_or_broken (host : ConfigHost) (file : ConfigFile) :
    (∃ table, file.Holds host table) ∨ file.Ignored host ∨ ∃ error, file.Broken host error := by
  cases file with
  | absent | homeless => exact .inl ⟨[], rfl⟩
  | hidden => exact .inr (.inr ⟨.hidden, rfl⟩)
  | directory => exact .inr (.inl trivial)
  | file bytes =>
      cases hreads : host.reads with
      | false => exact .inr (.inl (.inl hreads))
      | true =>
          cases hdecode : Config.decode host.codec bytes with
          | ok table => exact .inl ⟨table, hreads, hdecode⟩
          | error error =>
              by_cases hmalformed : error = .unreadable .malformed
              · exact .inr (.inl (.inr (hmalformed ▸ hdecode)))
              · exact .inr (.inr ⟨error, hreads, hmalformed, hdecode⟩)

/-- A file holds one configuration only. -/
theorem eq_of_holds {other : Table} (h : file.Holds host table) (hother : file.Holds host other) :
    table = other := by
  cases file with
  | absent | homeless => exact Eq.trans h (Eq.symm hother)
  | hidden | directory => cases h
  | file bytes => exact Except.ok.inj (h.2.symm.trans hother.2)

theorem not_holds_of_ignored (h : file.Ignored host) : ¬ file.Holds host table := by
  intro hholds
  cases file with
  | absent | homeless | hidden => cases h
  | directory => cases hholds
  | file bytes =>
      obtain hunread | hmalformed := h
      · cases hunread.symm.trans hholds.1
      · cases hmalformed.symm.trans hholds.2

/-- The configuration that a file is loaded as: the one that it holds, or the empty one in place of
a file that is passed over. -/
def LoadedAs (host : ConfigHost) (file : ConfigFile) (table : Table) : Prop :=
  file.Holds host table ∨ file.Ignored host ∧ table = []

theorem LoadedAs.unique {other : Table} (h : file.LoadedAs host table)
    (hother : file.LoadedAs host other) : table = other := by
  obtain hholds | ⟨hignored, rfl⟩ := h
  · obtain hholds' | ⟨hignored, -⟩ := hother
    · exact eq_of_holds hholds hholds'
    · exact absurd hholds (not_holds_of_ignored hignored)
  · obtain hholds | ⟨-, rfl⟩ := hother
    · exact absurd hholds (not_holds_of_ignored hignored)
    · rfl

theorem LoadedAs.keysDistinct (h : file.LoadedAs host table) :
    Value.KeysDistinct (.table table) := by
  obtain hholds | ⟨-, rfl⟩ := h
  · exact keysDistinct_of_holds hholds
  · exact .empty

end ConfigFile

namespace Config

variable {state : ConfigState} {table : Table} {error : ConfigError}

/-! ## What loading does -/

/-- A file that is passed over is loaded as an empty configuration and reported. -/
theorem run_load_of_ignored (h : state.file.Ignored state.host) :
    (load).run.run state =
      (.ok [], { state with notices := state.notices.push .configIgnored }) := by
  obtain ⟨file, notices, host⟩ := state
  rw [load, run_get_bind]
  cases file with
  | absent | homeless | hidden => cases h
  | directory => rfl
  | file bytes =>
      dsimp only
      obtain hunread | hmalformed := h
      · rw [if_neg (Bool.eq_false_iff.mp hunread)]
        rfl
      · dsimp only at hmalformed
        rw [hmalformed]
        cases host.reads <;> rfl

/-- Loading a broken file fails and changes nothing. -/
theorem run_load_of_broken (h : state.file.Broken state.host error) :
    (load).run.run state = (.error error, state) := by
  obtain ⟨file, notices, host⟩ := state
  rw [load, run_get_bind]
  cases file with
  | absent | homeless | directory => cases h
  | hidden =>
      obtain rfl : error = .hidden := h
      rfl
  | file bytes =>
      obtain ⟨hreads, hmalformed, hdecode⟩ := h
      dsimp only at hreads hdecode ⊢
      rw [if_pos hreads, hdecode]
      split
      · next heq => cases heq
      · next heq => exact absurd (Except.error.inj heq) hmalformed
      · next heq =>
          cases heq
          rfl

/-- Loading gives the configuration that the file holds or an empty one in place of a file that is
passed over, or it fails at a broken file. -/
theorem run_load_cases (state : ConfigState) :
    (∃ table after, (load).run.run state = (.ok table, after) ∧
      after.file = state.file ∧ after.host = state.host ∧
      state.file.LoadedAs state.host table) ∨
    ∃ error, state.file.Broken state.host error ∧ (load).run.run state = (.error error, state) := by
  obtain ⟨table, hholds⟩ | hignored | ⟨error, hbroken⟩ :=
    state.file.holds_or_ignored_or_broken state.host
  · exact .inl ⟨table, state, run_load hholds, rfl, rfl, .inl hholds⟩
  · exact .inl ⟨[], _, run_load_of_ignored hignored, rfl, rfl, .inr ⟨hignored, rfl⟩⟩
  · exact .inr ⟨error, hbroken, run_load_of_broken hbroken⟩

theorem exists_run_load (h : state.file.LoadedAs state.host table) :
    ∃ after, (load).run.run state = (.ok table, after) ∧
      after.file = state.file ∧ after.host = state.host := by
  obtain hholds | ⟨hignored, rfl⟩ := h
  · exact ⟨state, run_load hholds, rfl, rfl⟩
  · exact ⟨_, run_load_of_ignored hignored, rfl, rfl⟩

/-! ## Loading settings -/

/-- What is loaded as settings has only their keys. -/
theorem mem_settingKeys_of_mem_known {settings : Table} {entry : String × Value}
    (h : entry ∈ known settings) : entry.1 ∈ settingKeys :=
  List.contains_iff_mem.mp (List.mem_filter.mp h).2

/-- Settings are loaded from whatever the configuration is loaded as. -/
theorem run_loadScan_of_loaded {after : ConfigState}
    (h : (load).run.run state = (.ok table, after)) :
    (loadScan).run.run state = (.ok (known (sectionOf table)), after) := by
  rw [loadScan, run_run_bind, h, ← scanTable_eq]
  rfl

theorem run_loadScan_of_broken (h : state.file.Broken state.host error) :
    (loadScan).run.run state = (.error error, state) := by
  rw [loadScan, run_run_bind, run_load_of_broken h]

/-- With a file that is passed over the settings are the standard ones. -/
theorem run_loadSettings_of_ignored (h : state.file.Ignored state.host) :
    (loadSettings).run.run state =
      (.ok {}, { state with notices := state.notices.push .configIgnored }) := by
  rw [loadSettings, run_run_bind, run_loadScan_of_loaded (run_load_of_ignored h)]
  rfl

/-- Loading fails exactly at broken files, and the settings with it.  From any other file it gives a
configuration, empty unless the file holds one, and settings under none but their own keys. -/
theorem loaded_unless_broken (state : ConfigState) :
    ((∃ table after, (load).run.run state = (.ok table, after)) ↔
      ∀ error, ¬ state.file.Broken state.host error) ∧
    (∀ error, state.file.Broken state.host error →
      (load).run.run state = (.error error, state) ∧
        (loadScan).run.run state = (.error error, state)) ∧
    ∀ table after, (load).run.run state = (.ok table, after) →
      after.file = state.file ∧ state.file.LoadedAs state.host table ∧
      ∃ settings, (loadScan).run.run state = (.ok settings, after) ∧
        ∀ entry ∈ settings, entry.1 ∈ settingKeys := by
  refine ⟨⟨?_, ?_⟩, ?_, ?_⟩
  · rintro ⟨table, after, hload⟩ error hbroken
    cases hload.symm.trans (run_load_of_broken hbroken)
  · intro hsound
    obtain ⟨table, after, hload, -⟩ | ⟨error, hbroken, -⟩ := run_load_cases state
    · exact ⟨table, after, hload⟩
    · exact absurd hbroken (hsound error)
  · exact fun error hbroken => ⟨run_load_of_broken hbroken, run_loadScan_of_broken hbroken⟩
  · intro table after hload
    obtain ⟨table', after', hload', hfile, -, hkind⟩ | ⟨error, -, hfails⟩ := run_load_cases state
    · cases hload.symm.trans hload'
      exact ⟨hfile, hkind, _, run_loadScan_of_loaded hload,
        fun entry => mem_settingKeys_of_mem_known⟩
    · cases hload.symm.trans hfails

/-- Not every file is loaded: not a byte that begins no character, nor a text that puts an array of
tables into a number, be it whole or not. -/
theorem load_breaks_off :
    ¬ (∀ state : ConfigState, ∃ table after, (load).run.run state = (.ok table, after)) ∧
    ((load).run.run { file := .file [0xFF] }).1 = .error .notText ∧
    ((load).run.run { file := .file (Text.toBytes "x = 5\n[[x.y]]\n") }).1 =
      .error (.unreadable .notTable) ∧
    ((load).run.run { file := .file (Text.toBytes "x = 1.5\n[[x.y]]\n") }).1 =
      .error (.unreadable .notTable) := by
  have hbyte : (ConfigFile.file [0xFF]).Broken {} .notText := ⟨rfl, nofun, rfl⟩
  have htext : (ConfigFile.file (Text.toBytes "x = 5\n[[x.y]]\n")).Broken {}
      (.unreadable .notTable) := ⟨rfl, nofun, rfl⟩
  have hfraction : (ConfigFile.file (Text.toBytes "x = 1.5\n[[x.y]]\n")).Broken {}
      (.unreadable .notTable) := ⟨rfl, nofun, rfl⟩
  refine ⟨fun hall => ?_, ?_, ?_, ?_⟩
  · obtain ⟨table, after, hload⟩ := hall { file := .file [0xFF] }
    cases hload.symm.trans (run_load_of_broken hbyte)
  · rw [run_load_of_broken hbyte]
  · rw [run_load_of_broken htext]
  · rw [run_load_of_broken hfraction]

end Config

end Lineage

import Lineage.Proofs.Config.Calls

/-!
# Histories of the configuration

However often the configuration is saved and cleared, the entries of others stay as they were, and
what is loaded are the values saved since the settings were cleared for the last time, on top of the
settings that were there before if they never were.  Calls that name unknown keys have no part in
this.  Keys that are unknown but stand in the file survive every saving, and no loading sees them.

The induction is over the calls.  What it carries is that the file holds a configuration in which
the entries of others have their first content and the settings are those that the calls have made
of the first ones.  A step needs the file to be open to writing, and the configuration that it
writes to be read again as the same.  That is all that is asked of the codec.

## Main results

* `Keeps.step`: what one call leaves of a configuration.
* `exists_keeps_stateAfter`: what a history leaves of it.
* `loaded_after_calls`: what is loaded after a history, and what its refused calls do.
-/

namespace Lineage.Config

/-! ## Reading what was written -/

/-- The second configuration is what a host reads when the first was written, and it holds the same.
Its entries may have changed places, though not within the value of a setting, where places count:
the keys of a table that is given for extensions are taken in their order. -/
structure Restores (host : ConfigHost) (table read : Table) : Prop where
  written : ∃ text, host.codec.print { table } = .ok text ∧
    (ConfigFile.file (Text.toBytes text)).Holds host read
  content : ∀ key, read.contentAt key = table.contentAt key
  settings : ∀ key ∈ settingKeys,
    Keyed.get? key (sectionOf read) = Keyed.get? key (sectionOf table)

/-- A text that keeps through its bytes and is read as the table that it was written from. -/
theorem Restores.refl {host : ConfigHost} {table : Table} (text : String)
    (hreads : host.reads = true) (hprint : host.codec.print { table } = .ok text)
    (hbytes : Text.ofBytes? (Text.toBytes text) = some text)
    (hparse : host.codec.parse text = .ok table) : Restores host table table where
  written := by
    refine ⟨text, hprint, hreads, ?_⟩
    rw [decode_of_text hbytes, hparse]
    rfl
  content _ := rfl
  settings _ _ := rfl

/-- A configuration that holds the same as one whose settings are a table has such settings too. -/
theorem section_of_contentAt_eq {table read : Table} (hsection : SectionIsTable table)
    (h : read.contentAt sectionKey = table.contentAt sectionKey) :
    SectionIsTable read ∧
      ∀ key, (sectionOf read).contentAt key = (sectionOf table).contentAt key := by
  rw [Table.contentAt, Table.contentAt] at h
  obtain hnone | ⟨settings, hsome⟩ := hsection
  · rw [hnone, Option.map_none, Option.map_eq_none_iff] at h
    refine ⟨.inl h, fun key => ?_⟩
    rw [sectionOf, sectionOf, h, hnone]
  · rw [hsome, Option.map_some, Option.map_eq_some_iff] at h
    obtain ⟨value, hread, hvalue⟩ := h
    obtain ⟨other, rfl, hother⟩ := Table.exists_of_content_eq hvalue
    refine ⟨.inr ⟨other, hread⟩, fun key => ?_⟩
    rw [sectionOf, sectionOf, hread, hsome]
    exact hother key

/-! ## One call -/

/-- A configuration has the entries of others from a first one, and certain settings. -/
structure Keeps (first settings table : Table) : Prop where
  others : ∀ key ≠ sectionKey, table.contentAt key = first.contentAt key
  isTable : SectionIsTable table
  content : ∀ key, (sectionOf table).contentAt key = settings.contentAt key
  known : ∀ key ∈ settingKeys, Keyed.get? key (sectionOf table) = Keyed.get? key settings

theorem Keeps.refl {table : Table} (h : SectionIsTable table) :
    Keeps table (sectionOf table) table where
  others _ _ := rfl
  isTable := h
  content _ := rfl
  known _ _ := rfl

/-- A call changes settings that are alike to settings that are alike. -/
theorem Call.change_congr {γ : Type} (view : Value → γ) (call : Call) {settings others : Table}
    {key : String}
    (h : (Keyed.get? key settings).map view = (Keyed.get? key others).map view) :
    (Keyed.get? key (call.change settings)).map view =
      (Keyed.get? key (call.change others)).map view := by
  cases call with
  | save values => exact Keyed.get?_update_congr view h values
  | clear => rfl

theorem Keeps.step {host : ConfigHost} {first settings table read : Table} {call : Call}
    (h : Keeps first settings table) (hread : Restores host (call.rewrite table) read) :
    Keeps first (call.change settings) read := by
  obtain ⟨hisTable, hcontent⟩ :=
    section_of_contentAt_eq (call.sectionIsTable_rewrite table) (hread.content sectionKey)
  rw [call.sectionOf_rewrite] at hcontent
  refine ⟨fun key hkey => ?_, hisTable, fun key => ?_, fun key hkey => ?_⟩
  · have hsame : Keyed.get? key (call.rewrite table) = Keyed.get? key table :=
      Call.get?_rewrite hkey call table
    calc read.contentAt key
      _ = Table.contentAt (call.rewrite table) key := hread.content key
      _ = table.contentAt key := by rw [Table.contentAt, hsame]; rfl
      _ = first.contentAt key := h.others key hkey
  · exact (hcontent key).trans (call.change_congr Value.content (h.content key))
  · have halike := call.change_congr id (congrArg (Option.map id) (h.known key hkey))
    rw [Option.map_id, id, id] at halike
    rw [hread.settings key hkey, call.sectionOf_rewrite, halike]

/-! ## Many calls -/

/-- The state that calls lead to. -/
def stateAfter (state : ConfigState) (calls : List Call) : ConfigState :=
  calls.foldl (fun state call => (call.act.run.run state).2) state

/-- What settings become by those of the calls that are followed. -/
def settingsAfter (settings : Table) (calls : List Call) : Table :=
  calls.foldl (fun settings call => if call.Accepted then call.change settings else settings)
    settings

/-- Each configuration that calls write, one after the other, is read again as the same. -/
inductive Restored (host : ConfigHost) : Table → List Call → Prop
  | done (table : Table) : Restored host table []
  | refused {table : Table} {call : Call} {calls : List Call} (hrefused : ¬ call.Accepted)
      (hrest : Restored host table calls) : Restored host table (call :: calls)
  | written {table read : Table} {call : Call} {calls : List Call} (haccepted : call.Accepted)
      (hread : Restores host (call.rewrite table) read) (hrest : Restored host read calls) :
      Restored host table (call :: calls)

/-- The file can be written when the calls that are followed come to that. -/
def AllowsCalls (state : ConfigState) (calls : List Call) : Prop :=
  ∀ call ∈ calls, call.Accepted → state.isWritable = true

theorem exists_keeps_stateAfter {host : ConfigHost} {first settings table : Table}
    {calls : List Call} {state : ConfigState} (hhost : state.host = host)
    (hwritable : AllowsCalls state calls) (hfile : state.file.Holds host table)
    (hkeeps : Keeps first settings table) (hrestored : Restored host table calls) :
    (stateAfter state calls).host = host ∧
      ∃ read, (stateAfter state calls).file.Holds host read ∧
        Keeps first (settingsAfter settings calls) read := by
  induction hrestored generalizing settings state with
  | done table => exact ⟨hhost, table, hfile, hkeeps⟩
  | @refused table call calls hrefused hrest ih =>
      have hstate : stateAfter state (call :: calls) = stateAfter state calls := by
        rw [stateAfter, List.foldl_cons, call.run_of_refused hrefused]
        rfl
      have hsettings : settingsAfter settings (call :: calls) = settingsAfter settings calls := by
        rw [settingsAfter, List.foldl_cons, if_neg hrefused]
        rfl
      rw [hstate, hsettings]
      exact ih hhost (fun call hcall => hwritable call (List.mem_cons_of_mem _ hcall)) hfile hkeeps
  | @written table read call calls haccepted hread hrest ih =>
      obtain ⟨text, hprint, hholds⟩ := hread.written
      rw [← hhost] at hfile hprint
      have hopen := hwritable call List.mem_cons_self haccepted
      have hrun := (call.run_of_accepted haccepted hfile hkeeps.isTable).trans
        (run_store hprint hopen)
      have hstate : stateAfter state (call :: calls) =
          stateAfter { state with file := .file (Text.toBytes text) } calls := by
        rw [stateAfter, List.foldl_cons, hrun]
        rfl
      have hsettings : settingsAfter settings (call :: calls) =
          settingsAfter (call.change settings) calls := by
        rw [settingsAfter, List.foldl_cons, if_pos haccepted]
        rfl
      rw [hstate, hsettings]
      exact ih hhost (fun _ _ _ => isWritable_written hopen _) hholds (hkeeps.step hread)

/-- After any history the entries of others are loaded as they were at first, the settings are the
fold of the calls that were followed, and each call that was not has named its unknown keys and
changed nothing. -/
theorem loaded_after_calls {start : ConfigState} {table : Table} {calls : List Call}
    (hstart : start.file.Holds start.host table) (hsection : SectionIsTable table)
    (hwritable : AllowsCalls start calls) (hrestored : Restored start.host table calls) :
    (∃ read, (load).run.run (stateAfter start calls) = (.ok read, stateAfter start calls) ∧
      (∀ key ≠ sectionKey, read.contentAt key = table.contentAt key) ∧
      ∀ key, (sectionOf read).contentAt key =
        (settingsAfter (sectionOf table) calls).contentAt key) ∧
    (∃ settings,
      (loadScan).run.run (stateAfter start calls) = (.ok settings, stateAfter start calls) ∧
      ∀ key, Keyed.get? key settings =
        Keyed.get? key (known (settingsAfter (sectionOf table) calls))) ∧
    (loadSettings).run.run (stateAfter start calls) =
      ((({} : Settings).withOverrides (known (settingsAfter (sectionOf table) calls))).mapError
        .settings, stateAfter start calls) ∧
    ∀ before call after, calls = before ++ call :: after → ¬ call.Accepted →
      call.act.run.run (stateAfter start before) =
        (.error (.unknownKeys ((firstsBy id call.unknown).mergeSort Text.precedes)),
          stateAfter start before) := by
  obtain ⟨hhost, read, hfile, hkeeps⟩ :=
    exists_keeps_stateAfter rfl hwritable hstart (.refl hsection) hrestored
  rw [← hhost] at hfile
  have hknown : ∀ key, Keyed.get? key (known (sectionOf read)) =
      Keyed.get? key (known (settingsAfter (sectionOf table) calls)) := by
    intro key
    rw [get?_known, get?_known]
    split
    · next hkey => exact hkeeps.known key (List.contains_iff_mem.mp hkey)
    · rfl
  refine ⟨⟨read, run_load hfile, hkeeps.others, hkeeps.content⟩,
    ⟨_, run_loadScan hfile, hknown⟩, ?_, fun before call _ _ hrefused =>
      call.run_of_refused hrefused _⟩
  rw [run_loadSettings hfile, withOverrides_congr fun key _ => hknown key]

/-- The entries of another program, one of them no whole number. -/
def theme : Value :=
  .table [("theme", .scalar (.text "dark")),
    ("scale", .scalar (.measure (Toml.signedFraction false (Toml.nearest? 15 (-1)))))]

/-- Settings beside the entries of another program. -/
def besideTheme (settings : Table) : Table := [("ui", theme), ("scan", .table settings)]

/-- Settings, one of them under an unknown key. -/
def themed : Table :=
  besideTheme [("default_folder", .scalar (.text "ui")), ("bogus", .scalar (.bool true))]

/-- A setting is changed, an unknown one is refused, all settings are cleared, one is saved. -/
def themedCalls : List Call :=
  [.save [("tag_prefix", .scalar (.text "x"))], .save [("colour", .scalar (.text "blue"))], .clear,
    .save [("default_folder", .scalar (.text "lwc"))]]

theorem restored_themedCalls : Restored {} themed themedCalls := by
  have hprefix : Restores {} (Call.rewrite (.save [("tag_prefix", .scalar (.text "x"))]) themed)
      (besideTheme [("default_folder", .scalar (.text "ui")), ("bogus", .scalar (.bool true)),
        ("tag_prefix", .scalar (.text "x"))]) :=
    .refl ("[ui]\ntheme = \"dark\"\nscale = 1.5\n\n[scan]\n" ++
      "default_folder = \"ui\"\nbogus = true\ntag_prefix = \"x\"\n") rfl rfl
      (by decide +kernel) rfl
  have hcleared : Restores {} [("ui", theme)] [("ui", theme)] :=
    .refl "[ui]\ntheme = \"dark\"\nscale = 1.5\n" rfl rfl (by decide +kernel) rfl
  have hfolder : Restores {}
      (Call.rewrite (.save [("default_folder", .scalar (.text "lwc"))]) [("ui", theme)])
      (besideTheme [("default_folder", .scalar (.text "lwc"))]) :=
    .refl ("[ui]\ntheme = \"dark\"\nscale = 1.5\n\n[scan]\n" ++
      "default_folder = \"lwc\"\n") rfl rfl (by decide +kernel) rfl
  exact .written (by decide) hprefix
    (.refused (by decide) (.written (by decide) hcleared (.written (by decide) hfolder (.done _))))

/-- The text of the file at the start. -/
def themedText : String :=
  "[ui]\ntheme = \"dark\"\nscale = 1.5\n[scan]\ndefault_folder = \"ui\"\nbogus = true\n"

/-- The file at the start. -/
def themedStart : ConfigState := { file := .file (Text.toBytes themedText) }

/-- The saved folder holds and the cleared prefix does not, the theme is still there, and the
unknown colour was refused by name when the prefix was the only change. -/
theorem loaded_after_calls_themed :
    themedStart.file.Holds themedStart.host themed ∧
      (∃ read, (load).run.run (stateAfter themedStart themedCalls) =
          (.ok read, stateAfter themedStart themedCalls) ∧
        read.contentAt "ui" = some theme.content) ∧
      (loadSettings).run.run (stateAfter themedStart themedCalls) =
        (.ok { defaultFolder := "lwc" }, stateAfter themedStart themedCalls) ∧
      (Config.save [("colour", .scalar (.text "blue"))]).run.run
          (stateAfter themedStart (themedCalls.take 1)) =
        (.error (.unknownKeys ["colour"]), stateAfter themedStart (themedCalls.take 1)) := by
  have hstart : themedStart.file.Holds themedStart.host themed := ⟨rfl, rfl⟩
  obtain ⟨⟨read, hload, hothers, -⟩, -, hsettings, hrefused⟩ :=
    loaded_after_calls hstart (.inr ⟨_, rfl⟩) (fun _ _ _ => rfl) restored_themedCalls
  refine ⟨hstart, ⟨read, hload, ?_⟩, ?_, ?_⟩
  · rw [hothers "ui" (by decide)]
    rfl
  · rw [hsettings]
    rfl
  · have hcolour := hrefused (themedCalls.take 1) (.save [("colour", .scalar (.text "blue"))])
      (themedCalls.drop 2) rfl (by decide)
    have hkeys : firstsBy id (Call.unknown (.save [("colour", .scalar (.text "blue"))])) =
        ["colour"] := rfl
    rw [hkeys, List.mergeSort_singleton] at hcolour
    exact hcolour

end Lineage.Config

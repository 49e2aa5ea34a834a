import Lineage.Proofs.Cli.DefaultFolder
import Lineage.Proofs.Cli.Effects
import Lineage.Proofs.Export.JsonCharacters
import Lineage.Proofs.Export.Transcripts
import Lineage.Proofs.Text.LineEnds

/-!
# Hierarchies that are exported

Two commands export a hierarchy as JSON: one prints it, the other one writes it to a file.  Either
way the text is that of the whole tree, and a reader of JSON finds the tree's value in it.  What a
console does to the texts that it shows makes no difference to it, and neither does what is done to
the text of a file when it is read.

## Main results

* `decode?_text`, `decode?_ofBytes?`: what is read from a console and from a file.
* `outcome_hierarchy`: what the one command prints.
* `outcome_saveGraph`: what the other command writes.
* `exports_lossless`: reading it gives the value of the tree.
-/

namespace Lineage.Cli

/-! ## Where an export is read from -/

/-- The lines of a console are read as the value that is printed, on a terminal or elsewhere. -/
theorem decode?_text (value : Json) :
    Json.decode? (Console.text [value.render]) = some value ∧
      Json.decode? (Console.terminalText [value.render]) = some value := by
  have hplain : Text.withoutSequences value.render = value.render :=
    Text.withoutSequences_eq_self (Json.not_mem_toList_render (by decide))
  have hline : Console.terminalText [value.render] = String.ofList (value.write 0 ++ ['\n']) := by
    rw [← String.toList_inj]
    simp [Console.terminalText, String.join, Json.render]
  have hread : Json.decode? (Console.terminalText [value.render]) = some value := by
    rw [hline]
    exact Json.decode?_of_blanks value (List.forall_mem_singleton.mpr rfl)
  refine ⟨?_, hread⟩
  rw [Console.text, List.map_singleton, hplain]
  exact hread

/-- A file is read as the value that is written to it. -/
theorem decode?_ofBytes? (value : Json) :
    (Text.ofBytes? (Text.toBytes value.render)).bind Json.decode? = some value := by
  rw [Text.ofBytes?_toBytes (Json.not_mem_toList_render (by decide))]
  exact Json.decode?_render value

/-! ## What the commands do -/

section

variable {session : Session} {name : String} {root : Path} {tree : Tree}

namespace Running

/-- A write that is done files the bytes of the text in the place of the path. -/
theorem store_of_write {path : Path} {text line : String}
    (hdone : failureOf ((do write path text; say line : Running Unit).run.run session).1 = none) :
    ((do write path text; say line : Running Unit).run.run session).2.workspace.store =
        session.workspace.store.set (Path.collapse (session.workspace.current.join path).names)
          (.file (Text.toBytes text)) ∧
      IsPlace (Path.collapse (session.workspace.current.join path).names) := by
  have hget : (get : Running Session).run.run session = (.ok session, session) := rfl
  rw [run_run_bind, write, run_run_bind, hget] at hdone ⊢
  dsimp only at hdone ⊢
  cases hwrite : session.workspace.store.write (session.workspace.current.join path)
    (Text.toBytes text) with
  | error error =>
      rw [hwrite] at hdone
      cases hdone
  | ok later =>
      obtain ⟨rfl, hplace⟩ := Store.eq_set_of_write hwrite
      exact ⟨rfl, hplace⟩

theorem run_hierarchyOf_none {project : Project}
    (hnone : ((project.hierarchy name).run {}).1 = none) (session : Session) :
    ∃ after, (hierarchyOf project name).run.run session = (.error .unsuccessful, after) := by
  have hanswer := answer_hierarchyOf project name session
  rw [hnone] at hanswer
  exact ⟨_, Prod.ext hanswer rfl⟩

theorem run_hierarchyOf {project : Project}
    (htree : ((project.hierarchy name).run {}).1 = some tree) (session : Session) :
    (hierarchyOf project name).run.run session =
      (.ok tree, { session with
        console := session.console.report session.least
          ((project.hierarchy name).run {}).2.notices }) := by
  rw [hierarchyOf, run_run_bind, run_scan, htree]
  rfl

end Running

/-- The hierarchy that is shown is built under the settings that hold. -/
theorem exists_settings_of_shown {showPaths asJson : Bool}
    (h : session.workspace.shown? (.hierarchy name root asJson showPaths) = some tree) :
    ∃ settings, session.workspace.settings = .ok settings ∧
      (((session.workspace.project root settings).hierarchy name).run {}).1 = some tree := by
  rw [Workspace.shown?] at h
  split at h
  · next settings hsettings => exact ⟨settings, hsettings, h⟩
  · cases h

/-- The text of the hierarchy is printed. -/
theorem outcome_hierarchy {showPaths : Bool}
    (h : session.workspace.shown? (.hierarchy name root true showPaths) = some tree) :
    (session.outcome (.hierarchy name root true showPaths)).failure = none ∧
      (session.outcome (.hierarchy name root true showPaths)).console.results =
        session.console.results ++ [tree.toJson.render] := by
  obtain ⟨settings, hsettings, htree⟩ := exists_settings_of_shown h
  have hrun : ∃ after, (Running.hierarchy name root true showPaths).run.run session =
      (.ok (), after) ∧
        after.console.results = session.console.results ++ [tree.toJson.render] := by
    rw [Running.hierarchy, run_run_bind, Running.run_project_eq, hsettings]
    dsimp only [Except.mapError, Except.map]
    rw [run_run_bind, Running.run_hierarchyOf htree]
    exact ⟨_, rfl, rfl⟩
  obtain ⟨after, hafter, hresults⟩ := hrun
  rw [Session.outcome, Running.command, hafter]
  exact ⟨rfl, hresults⟩

/-- The text of the hierarchy is written to the file, and nothing else changes in the store. -/
theorem outcome_saveGraph {format : String} {output : Option Path}
    (hformat : Unicode.lower format = "json")
    (hdone : (session.outcome (.saveGraph name format output root)).failure = none) :
    ∃ tree path, session.workspace.shown? (.hierarchy name root true false) = some tree ∧
      session.workspace.outputPath? (.saveGraph name format output root) = some path ∧
      (session.outcome (.saveGraph name format output root)).workspace.store =
        session.workspace.store.set (Path.collapse path.names)
          (.file (Text.toBytes tree.toJson.render)) ∧
      IsPlace (Path.collapse path.names) := by
  have hknown : Running.Format.ofName? (Unicode.lower format) = some .json := by
    rw [hformat]
    rfl
  rw [Session.outcome, Running.command, Running.saveGraph] at hdone ⊢
  simp only [hknown] at hdone ⊢
  rw [run_run_bind, Running.run_project_eq] at hdone ⊢
  rw [Workspace.shown?]
  cases hsettings : session.workspace.settings with
  | error error =>
      rw [hsettings] at hdone
      cases hdone
  | ok settings =>
      rw [hsettings] at hdone
      dsimp only [Except.mapError, Except.map] at hdone ⊢
      rw [run_run_bind] at hdone ⊢
      cases htree : (((session.workspace.project root settings).hierarchy name).run {}).1 with
      | none =>
          obtain ⟨after, hafter⟩ := Running.run_hierarchyOf_none htree session.opened
          rw [hafter] at hdone
          cases hdone
      | some tree =>
          rw [Running.run_hierarchyOf htree] at hdone ⊢
          refine ⟨tree, _, htree, rfl, ?_⟩
          exact Running.store_of_write hdone

end

/-! ## Command lines -/

namespace Workspace

/-- The text of a tree is read as the tree's value, so trees with one text agree at every node.  It
is the text of the whole hierarchy that the one command prints, and that the other one writes to its
file, and it is read from there as well. -/
theorem exports_lossless (workspace : Workspace) :
    (∀ tree : Tree, Json.decode? tree.toJson.render = some tree.toJson) ∧
      (∀ tree other : Tree, tree.toJson.render = other.toJson.render ↔ tree.Alike other) ∧
      (∀ arguments name root showPaths tree,
        workspace.chosen? arguments = some (.hierarchy name root true showPaths) →
          workspace.shown? (.hierarchy name root true showPaths) = some tree →
            (workspace.run arguments).failure = none ∧
              (workspace.run arguments).console.results = [tree.toJson.render] ∧
              Json.decode? (Console.text (workspace.run arguments).console.results) =
                some tree.toJson) ∧
      ∀ arguments name format output root,
        workspace.chosen? arguments = some (.saveGraph name format output root) →
          Unicode.lower format = "json" → (workspace.run arguments).failure = none →
            ∃ tree path bytes, workspace.shown? (.hierarchy name root true false) = some tree ∧
              workspace.outputPath? (.saveGraph name format output root) = some path ∧
              (workspace.run arguments).workspace.store =
                workspace.store.set (Path.collapse path.names) (.file bytes) ∧
              IsPlace (Path.collapse path.names) ∧
              bytes = Text.toBytes tree.toJson.render ∧
              (Text.ofBytes? bytes).bind Json.decode? = some tree.toJson := by
  refine ⟨fun tree => Json.decode?_render tree.toJson, fun _ _ => Tree.render_eq_iff, ?_, ?_⟩
  · intro arguments name root showPaths tree hchosen hshown
    obtain ⟨hdone, hresults⟩ :=
      @outcome_hierarchy (workspace.sessionFor arguments) name root tree showPaths hshown
    have hprinted : (workspace.run arguments).console.results = [tree.toJson.render] := by
      rw [run_of_chosen hchosen, hresults]
      rfl
    rw [run_of_chosen hchosen] at hprinted ⊢
    refine ⟨hdone, hprinted, ?_⟩
    rw [hprinted]
    exact (decode?_text tree.toJson).1
  · intro arguments name format output root hchosen hformat hdone
    rw [run_of_chosen hchosen] at hdone ⊢
    obtain ⟨tree, path, hshown, hpath, hstore, hplace⟩ := outcome_saveGraph hformat hdone
    exact ⟨tree, path, _, hshown, hpath, hstore, hplace, rfl, decode?_ofBytes? tree.toJson⟩

/-- A workspace with one class, in a file whose name has quotes, a backslash, a line separator and a
character beyond the first 65536. -/
def escapedName : Workspace where
  store :=
    { entries := [(["p"], .directory),
        (["p", "\"\\\u2028😀.js"], .file "class A {}".toUTF8.toList)] }
  current := ⟨.root, ["p"]⟩
  configPath := ⟨.root, ["config.toml"]⟩

theorem exports_lossless_escapedName :
    ∃ tree, escapedName.shown? (.hierarchy "A" ⟨.relative, []⟩ true false) = some tree ∧
      Json.decode? (Console.text (escapedName.run ["hierarchy", "A", "--json"]).console.results) =
        some tree.toJson ∧
      ∃ bytes, (escapedName.run ["export", "A", "--format", "JSON"]).workspace.store.entryAt
          ["p", "A_hierarchy.json"] = some (.file bytes) ∧
        (Text.ofBytes? bytes).bind Json.decode? = some tree.toJson := by
  have hsome : (escapedName.shown? (.hierarchy "A" ⟨.relative, []⟩ true false)).isSome = true := by
    decide +kernel
  obtain ⟨tree, hshown⟩ := Option.isSome_iff_exists.mp hsome
  have hprinting : escapedName.chosen? ["hierarchy", "A", "--json"] =
      some (.hierarchy "A" ⟨.relative, []⟩ true false) := rfl
  have hwriting : escapedName.chosen? ["export", "A", "--format", "JSON"] =
      some (.saveGraph "A" "JSON" none ⟨.relative, []⟩) := rfl
  have hdone : (escapedName.run ["export", "A", "--format", "JSON"]).failure = none := by
    decide +kernel
  obtain ⟨-, -, hprints, hwrites⟩ := exports_lossless escapedName
  obtain ⟨-, -, hread⟩ := hprints _ "A" ⟨.relative, []⟩ false tree hprinting hshown
  obtain ⟨other, path, bytes, hother, hpath, hstore, -, -, hreadFile⟩ :=
    hwrites _ "A" "JSON" none ⟨.relative, []⟩ hwriting (by decide +kernel) hdone
  obtain rfl : other = tree := Option.some.inj (hother.symm.trans hshown)
  obtain rfl : (⟨.root, ["p", "A_hierarchy.json"]⟩ : Path) = path := Option.some.inj hpath
  refine ⟨other, hshown, hread, bytes, ?_, hreadFile⟩
  rw [hstore]
  rfl

end Workspace

end Lineage.Cli

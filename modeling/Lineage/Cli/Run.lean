import Lineage.Cli.Session
import Lineage.Export.Dot
import Lineage.Export.Json
import Lineage.RootChoice

/-!
# Running commands

What each command does in its session, and how a whole command line is followed. A value is refused
before the configuration is read and before anything is scanned. Apart from the hierarchy on
display, a command changes nothing but the file that it writes a graph to, or the configuration
file.
-/

namespace Lineage.Cli

namespace Running

/-! ## Hierarchies -/

/-- Shows a hierarchy, which is on display from then on. -/
def present (tree : Tree) (asJson showPaths : Bool) : Running Unit := do
  modify fun session =>
    let workspace := session.workspace
    { session with
      workspace := { workspace with display := workspace.display.refresh (some tree) } }
  if asJson then say tree.toJson.render
  else draw (.tree (tree.render showPaths))

/-- The hierarchy below a name. -/
def hierarchyOf (project : Project) (name : String) : Running Tree := do
  match ← scan (project.hierarchy name) with
  | some tree => return tree
  | none => giveUp ("Could not build hierarchy for class '" ++ name ++ "'")

/-- Shows the hierarchy below a name. -/
def hierarchy (name : String) (root : Path) (asJson showPaths : Bool) : Running Unit := do
  let tree ← hierarchyOf (← project root) name
  present tree asJson showPaths

/-- Shows the file that declares a name. -/
def locate (name : String) (root : Path) : Running Unit := do
  let project ← project root
  match ← scan (project.locate name) with
  | some path => say path.toString
  | none => giveUp ("'" ++ name ++ "' is not declared in any scanned file.")

/-- The hierarchy for an open file and the text selected in it. -/
def mainClass (file : Path) (selection : Option String) (root : Path) (asJson : Bool) :
    Running Unit := do
  let project ← project root
  let file := file.resolve (← get).workspace.current
  match ← scan (project.hierarchyFor file selection) with
  | .error failure => refuse (.unreadable failure)
  | .ok ([], _) => giveUp "Could not detect a class in the current file"
  | .ok (_, some tree) => present tree asJson false
  | .ok (_, none) =>
      match selection with
      | some text =>
          if text.isEmpty then giveUp "Could not determine class hierarchy"
          else giveUp ("'" ++ Text.stripped text ++ "' does not appear to be a valid class")
      | none => giveUp "Could not determine class hierarchy"

/-- The formats of a graph. -/
inductive Format where
  | dot
  | json
  deriving Repr, DecidableEq

/-- The format of a name. -/
def Format.ofName? (name : String) : Option Format :=
  if name = "dot" then some .dot else if name = "json" then some .json else none

/-- The text of a graph. -/
def Format.render (format : Format) (tree : Tree) (root : Path) : String :=
  match format with
  | .dot => Dot.render tree (some root)
  | .json => tree.toJson.render

/-- Writes the hierarchy below a name to a file. -/
def saveGraph (name format : String) (output : Option Path) (root : Path) : Running Unit := do
  let formatName := Unicode.lower format
  match Format.ofName? formatName with
  | none => refuse .format
  | some format =>
      let project ← project root
      let tree ← hierarchyOf project name
      let fallback := Path.ofString (name ++ "_hierarchy." ++ formatName)
      let output := output.getD ((← get).workspace.current.join fallback)
      write output (format.render tree project.root)
      say ("Exported hierarchy to " ++ output.toString)

/-! ## Folders and tags -/

/-- The text is the name of a single directory. -/
def isFolderName (text : String) : Bool :=
  !(Text.stripped text).isEmpty && !text.toList.contains '/' && !text.toList.contains '\\'

/-- Lists what the files below any directory of a name may stand for. -/
def classes (folder : Option String) (root : Path) : Running Unit := do
  if folder.any fun name => !isFolderName name then refuse .folder
  else
    let project ← project root
    let folder := folder.getD project.settings.defaultFolder
    match ← scan (project.folderEntities folder) with
    | [] => say ("No classes found in folder '" ++ folder ++ "'")
    | entities =>
        draw (.grid {
          title := "Classes in '" ++ folder ++ "'"
          headings := ["Name", "File"]
          rows := entities.map fun entity => [entity.name, entity.path.shownFrom project.root] })

/-- Counts the usages of every custom tag and the files that they are in. -/
def listTags (root : Path) : Running Unit := do
  let project ← project root
  let custom := "<" ++ project.settings.tagPrefix ++ "-*> tags"
  match ← scan project.tags with
  | [] => say ("No custom " ++ custom ++ " found in the workspace")
  | usages =>
      draw (.grid {
        title := "Custom " ++ custom
        headings := ["Tag", "Usages", "Files"]
        rows := (TagUsage.groups usages).map fun (name, group) =>
          [name, group.length.repr, (firstsBy id (group.map TagUsage.file)).length.repr] })

/-- The name of the tag that a text means, which may be the tag with its prefix and brackets. -/
def tagNameOf (tagPrefix text : String) : String :=
  let bare := Text.trim (fun c => c = '<' || c = '>') (Text.strip text.toList)
  String.ofList ((Text.after? (tagPrefix ++ "-").toList bare).getD bare)

/-- The line that shows where a tag is used. -/
def usageLine (root : Path) (usage : TagUsage) : String :=
  let file := (usage.file.map fun file => file.shownFrom root).getD ""
  file ++ ":" ++ usage.line.repr ++ "  " ++ usage.context

/-- Shows every usage of a custom tag. -/
def showTag (tag : String) (root : Path) : Running Unit := do
  let project ← project root
  let tagPrefix := project.settings.tagPrefix
  let wanted := tagNameOf tagPrefix tag
  let usages ← scan project.tags
  match (Keyed.get? wanted (TagUsage.groups usages)).getD [] with
  | [] => say ("No usages of <" ++ tagPrefix ++ "-" ++ wanted ++ "> found")
  | usages => usages.forM fun usage => say (usageLine project.root usage)

/-! ## Configuration -/

/-- Shows the settings that hold. -/
def showConfig : Running Unit := do
  let settings ← configure Config.loadSettings
  draw (.grid {
    title := "Scan settings (" ++ (← get).workspace.configPath.toString ++ ")"
    headings := ["Setting", "Value"]
    rows := [
      ["default_folder", settings.defaultFolder],
      ["tag_prefix", settings.tagPrefix],
      ["import_namespace", settings.importNamespace],
      ["logic_extensions", " ".intercalate settings.logicExtensions],
      ["markup_extensions", " ".intercalate settings.markupExtensions]] })

/-- Saves settings. -/
def save (values : Table) : Running Unit := do
  if ← configure (Config.save values) then return ()
  else giveUp "Could not save configuration."

/-- Changes the folder that is listed when none is named. -/
def setFolder (folder : String) : Running Unit := do
  if !isFolderName folder then refuse .folder
  else
    let name := Text.stripped folder
    save [("default_folder", .scalar (.text name))]
    say ("Default folder set to '" ++ name ++ "'.")

/-- The text is an ASCII letter, followed by ASCII letters, digits and underscores. -/
def isTagPrefix (text : String) : Bool :=
  match text.toList with
  | [] => false
  | c :: rest => c.isAlpha && rest.all fun c => c.isAlphanum || c = '_'

/-- Changes the prefix of custom tags and the home of imported components, which is the prefix if
it is not given. -/
def setPrefix (tagPrefix : String) (home : Option String) : Running Unit := do
  if !isTagPrefix tagPrefix then refuse .tagPrefix
  else
    let home := match home with
      | some text => if text.isEmpty then tagPrefix else text
      | none => tagPrefix
    save [("tag_prefix", .scalar (.text tagPrefix)), ("import_namespace", .scalar (.text home))]
    say ("Tag prefix set to '" ++ tagPrefix ++ "'.")

/-- Takes the settings back to what holds without any. -/
def resetConfig : Running Unit := do
  let _ ← configure Config.clear
  say "Scan settings reset to defaults."

/-! ## Command lines -/

/-- Runs a command. -/
def command : Command → Running Unit
  | .hierarchy name root asJson showPaths => hierarchy name root asJson showPaths
  | .locate name root => locate name root
  | .classes folder root => classes folder root
  | .mainClass file selection root asJson => mainClass file selection root asJson
  | .saveGraph name format output root => saveGraph name format output root
  | .listTags root => listTags root
  | .showTag tag root => showTag tag root
  | .showConfig => showConfig
  | .setFolder folder => setFolder folder
  | .setPrefix tagPrefix home => setPrefix tagPrefix home
  | .resetConfig => resetConfig

/-- The name and version of the program. -/
def versionLine : String := "ClassTree CLI v0.3.0"

/-- Does what a command line asks for. -/
def request : Request → Running Unit
  | .help => return ()
  | .version => say versionLine
  | .run verbose verb arguments => do
      modify fun session => { session with least := if verbose then .debug else .warning }
      match (← get).workspace.command verb arguments with
      | .ok chosen => command chosen
      | .error error => throw (.misuse error)

/-- Follows a command line. -/
def arguments (arguments : List String) : Running Unit :=
  match Request.read arguments with
  | .ok asked => request asked
  | .error error => throw (.misuse error)

end Running

/-- The outcome of a command line, with the workspace and the console that it leaves. -/
structure Outcome where
  failure : Option Failure
  workspace : Workspace
  console : Console

/-- Follows a command line in a workspace. -/
def Workspace.run (workspace : Workspace) (arguments : List String) : Outcome :=
  match (Running.arguments arguments).run.run { workspace } with
  | (.ok (), session) => ⟨none, session.workspace, session.console⟩
  | (.error failure, session) => ⟨some failure, session.workspace, session.console⟩

end Lineage.Cli

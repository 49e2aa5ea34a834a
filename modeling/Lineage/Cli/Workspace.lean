import Lineage.Config
import Lineage.Project
import Lineage.View.Display

/-!
# Workspaces

A workspace is what commands act on: the files, the directory from which relative paths are seen,
the configuration file and the hierarchy on display. Paths on the command line are checked by their
text, since a path that ends in a slash must lead to a directory.

The configuration file is none of the files that are scanned. It stands apart from them, so that
what is written to its place by another way than a change of the configuration, as by an export of a
graph to that very path, is not seen when the configuration is loaded.
-/

namespace Lineage.Cli

/-- What commands act on. -/
structure Workspace where
  store : Store
  /-- The directory from which relative paths are seen. -/
  current : Path
  /-- The configuration file, which is not among the files of the store. -/
  config : ConfigFile := .absent
  /-- The place of the configuration file. -/
  configPath : Path
  display : Display := {}
  host : ConfigHost := {}

/--
The place of the configuration file: in the directory chosen for it, else in `.classtree` in the
home directory. A chosen directory may start at the home directory by `~`.
-/
def configPlace (home : Path) (chosen : Option String) : Path :=
  let directory :=
    match chosen.map Path.ofString with
    | none => home.child ".classtree"
    | some ⟨.relative, "~" :: names⟩ => { home with names := home.names ++ names }
    | some path => path
  directory.child "config.toml"

namespace Workspace

/-- The configuration before any notice of it is given. -/
def configState (workspace : Workspace) : ConfigState where
  file := workspace.config
  host := workspace.host

/-- The text of a path can lead to nothing but a directory. -/
def namesDirectory (text : String) : Bool :=
  match (Text.fields '/' text.toList).getLast? with
  | some last => !Path.isProperName last
  | none => false

/-- What the text of a path leads to. -/
def standing? (workspace : Workspace) (text : String) : Option Entry :=
  if text.isEmpty then none
  else
    match workspace.store.access (workspace.current.join (Path.ofString text)) with
    | .ok .directory => some .directory
    | .ok (.file bytes) => if namesDirectory text then none else some (.file bytes)
    | .error _ => none

/-- The project at a root under some settings. -/
def project (workspace : Workspace) (root : Path) (settings : Settings) : Project :=
  ⟨workspace.store, root.resolve workspace.current, settings⟩

end Workspace

end Lineage.Cli

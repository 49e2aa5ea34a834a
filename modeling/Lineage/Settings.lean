import Lineage.Distinct
import Lineage.Path
import Lineage.Unicode.Lowercase
import Lineage.Value

/-!
# Scan settings

Which files a scan looks at, and how components are named in them. Files fall into two kinds by
their extension, compared without regard to letter case. Settings are changed by a table of
overrides, in which only the known keys count: extensions are brought into the form `.ext`, a text
setting ignores an empty value, and everything else is taken as it is.
-/

namespace Lineage

/-- The two kinds of source files. -/
inductive FileKind where
  /-- Code that declares classes. -/
  | logic
  /-- A template that declares the component it is named after. -/
  | markup
  deriving Repr, DecidableEq

/-- The name of a kind. -/
def FileKind.name : FileKind → String
  | logic => "logic"
  | markup => "markup"

/-- Extension groups and naming conventions of a scan. -/
structure Settings where
  logicExtensions : List String := [".ts", ".js", ".java", ".cs", ".cpp", ".py"]
  markupExtensions : List String := [".html"]
  /-- The folder that is listed when none is named. -/
  defaultFolder : String := "LWC"
  tagPrefix : String := "c"
  importNamespace : String := "c"
  /-- Directories that are passed over. Members that are no texts name no directory. -/
  skipDirs : List Scalar := [
    ".venv", "venv", "__pycache__", "node_modules", ".git", "site-packages", ".tox",
    ".pytest_cache", "build", "dist", ".mypy_cache", ".ruff_cache", ".sfdx", ".sf",
    ".classtree"].map Scalar.text
  deriving Repr, DecidableEq

/-- Why a table of overrides cannot be applied. -/
inductive SettingsError where
  /-- The value under the key has no members. -/
  | noMembers (key : String)
  /-- A directory to pass over is itself a list or a table. -/
  | nestedDirectory
  /-- The value under the key has no written form, or no such value can be a member of a set. -/
  | noForm (key : String)
  deriving Repr, DecidableEq

namespace Settings

/-- The extensions of both groups. -/
def allExtensions (settings : Settings) : List String :=
  settings.logicExtensions ++ settings.markupExtensions

/-- The kind of a file, markup first. -/
def kindOf (settings : Settings) (path : Path) : Option FileKind :=
  let extension := Unicode.lower path.suffix
  if extension ∈ settings.markupExtensions then some .markup
  else if extension ∈ settings.logicExtensions then some .logic
  else none

/-- A directory of that name is passed over. -/
def skips (settings : Settings) (directory : String) : Bool :=
  decide (Scalar.text directory ∈ settings.skipDirs)

/-- The directories to pass over in their written form, sorted, if all have one. -/
def skipDirNames? (settings : Settings) : Option (List String) :=
  (settings.skipDirs.mapM Scalar.written?).map fun names => names.mergeSort Text.precedes

/-- An extension without surrounding blanks, in lower case and with its dot. -/
def normalizeExtension (extension : String) : String :=
  let text := Unicode.lower (Text.stripped extension)
  if text.toList.head? = some '.' then text else "." ++ text

/-- The members of a value under a key. -/
def members (key : String) (value : Value) : Except SettingsError (List Value) :=
  match value.members? with
  | some members => .ok members
  | none => .error (.noMembers key)

/-- The written form of a value under a key. -/
def written (key : String) (value : Value) : Except SettingsError String :=
  match value.written? with
  | some text => .ok text
  | none => .error (.noForm key)

/-- The extensions that a value stands for. -/
def extensions (key : String) (value : Value) : Except SettingsError (List String) := do
  let members ← members key value
  members.mapM fun member => return normalizeExtension (← written key member)

/-- A directory to pass over. -/
def directory (key : String) : Value → Except SettingsError Scalar
  | .scalar name => if name.isMember then .ok name else .error (.noForm key)
  | _ => .error .nestedDirectory

/-- The directories to pass over that a value stands for. -/
def directories (key : String) (value : Value) : Except SettingsError (List Scalar) := do
  let members ← members key value
  return firstsBy Scalar.key (← members.mapM (directory key))

/-- The value under a key, or what holds without one. -/
def override {α : Type} (values : Table) (key : String) (current : α)
    (read : String → Value → Except SettingsError α) : Except SettingsError α :=
  match values.get? key with
  | none => .ok current
  | some value => read key value

/-- The written form of the value under a key, unless it is missing or empty. -/
def overrideText (values : Table) (key current : String) : Except SettingsError String :=
  match values.get? key with
  | none => .ok current
  | some value => if value.isGiven then written key value else .ok current

/-- The settings with a table of overrides applied. -/
def withOverrides (settings : Settings) (values : Table) : Except SettingsError Settings := do
  let logic ← override values "logic_extensions" settings.logicExtensions extensions
  let markup ← override values "markup_extensions" settings.markupExtensions extensions
  let folder ← overrideText values "default_folder" settings.defaultFolder
  let tagPrefix ← overrideText values "tag_prefix" settings.tagPrefix
  let namespaceName ← overrideText values "import_namespace" settings.importNamespace
  let skipDirs ← override values "skip_dirs" settings.skipDirs directories
  return {
    logicExtensions := logic
    markupExtensions := markup
    defaultFolder := folder
    tagPrefix := tagPrefix
    importNamespace := namespaceName
    skipDirs := skipDirs }

end Settings

end Lineage

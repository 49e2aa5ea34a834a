import Lineage.Cli.Arguments
import Lineage.Cli.Workspace
import Lineage.Unicode.Word

/-!
# Commands

A command line names a command, perhaps by way of a group of commands, and gives it arguments. Its
reading goes in two steps. The first looks at the texts alone and tells which command is asked for
with which arguments. The second looks at the workspace too: every path is looked up, and those to
read from must lead somewhere; first those of the options in the order in which they are given, then
the operand, and only then are operands missed or found too many.

Asking for help, or for the version, is granted whatever else stands beside it, as long as the
arguments can be taken apart.
-/

namespace Lineage.Cli

/-- Why a value on the command line is refused. -/
inductive Refusal where
  /-- The path of a directory leads nowhere. -/
  | noDirectory (text : String)
  /-- The path of a directory leads to a file. -/
  | notDirectory (text : String)
  /-- The path of a file leads nowhere. -/
  | noFile (text : String)
  /-- The path of a file leads to a directory. -/
  | notFile (text : String)
  /-- A folder is given by more than a name, or by none. -/
  | folder
  | format
  | tagPrefix
  /-- The file cannot be read. -/
  | unreadable (failure : ReadFailure)
  deriving Repr, DecidableEq

/-- The refusal in words. -/
def Refusal.message : Refusal → String
  | noDirectory text => "Directory " ++ Text.quoted text ++ " does not exist."
  | notDirectory text => "Directory " ++ Text.quoted text ++ " is a file."
  | noFile text => "File " ++ Text.quoted text ++ " does not exist."
  | notFile text => "File " ++ Text.quoted text ++ " is a directory."
  | folder => "Folder must be a single directory name."
  | format => "Format must be one of: dot, json"
  | tagPrefix => "Prefix must be an identifier such as 'c' or 'lightning'."
  | unreadable failure => failure.message

/-- Why a command line cannot be followed. -/
inductive UsageError where
  | arguments (error : ArgumentError)
  | noCommand
  | unknownCommand (name : String)
  | missingOperand
  | extraOperand (text : String)
  | refused (refusal : Refusal)
  /-- A path has a null character, so that it cannot be checked. -/
  | nullCharacter (text : String)
  deriving Repr, DecidableEq

/-! ## Which command -/

/-- The commands. -/
inductive Verb where
  | hierarchy
  | locate
  | classes
  | mainClass
  | saveGraph
  | listTags
  | showTag
  | showConfig
  | setFolder
  | setPrefix
  | resetConfig
  deriving Repr, DecidableEq

namespace Verb

/-- The options of a command. -/
def options : Verb → List Opt
  | hierarchy => [.help, .root, .json, .paths]
  | locate | classes | listTags | showTag => [.help, .root]
  | mainClass => [.help, .selection, .root, .json]
  | saveGraph => [.help, .format, .output, .root]
  | setPrefix => [.help, .home]
  | showConfig | setFolder | resetConfig => [.help]

/-- The arguments that a command takes; its options may stand anywhere. -/
def grammar (verb : Verb) : Grammar := ⟨verb.options, true⟩

end Verb

/-- What a name on the command line stands for. -/
inductive Choice where
  | verb (verb : Verb)
  | group (members : List (String × Verb))

/-- The commands that act on the configuration. -/
def configMembers : List (String × Verb) :=
  [("show", .showConfig), ("set-folder", .setFolder), ("set-prefix", .setPrefix),
    ("reset", .resetConfig)]

/-- The commands that act on custom tags. -/
def tagMembers : List (String × Verb) := [("list", .listTags), ("show", .showTag)]

/-- The names that a command line can start with. -/
def choices : List (String × Choice) :=
  [("hierarchy", .verb .hierarchy), ("locate", .verb .locate), ("classes", .verb .classes),
    ("main-class", .verb .mainClass), ("export", .verb .saveGraph),
    ("config", .group configMembers), ("tags", .group tagMembers)]

/-- What a command line asks for. -/
inductive Request where
  | help
  | version
  | run (verbose : Bool) (verb : Verb) (arguments : Arguments)
  deriving Repr, DecidableEq

namespace Request

/--
No command has a name that starts with neither a letter nor a digit: whoever gives one is shown the
names there are.
-/
def asksForNames (name : String) : Bool :=
  match name.toList with
  | [] => false
  | c :: _ => c = '_' || !Unicode.isWord c

/--
Reads the arguments of a group: its own options, then the name of one of its members with the
arguments of that member.
-/
def choose {α : Type} (options : List Opt) (members : List (String × α)) (arguments : List String)
    (goOn : Arguments → α → List String → Except UsageError Request) : Except UsageError Request :=
  if arguments.isEmpty then .ok help
  else
    match (⟨options, false⟩ : Grammar).parse arguments with
    | .error error => .error (.arguments error)
    | .ok own =>
        match own.firstOf [.help, .version], own.operands with
        | some .version, _ => .ok version
        | some _, _ => .ok help
        | none, [] => .error .noCommand
        | none, name :: rest =>
            match Keyed.get? name members with
            | some member => goOn own member rest
            | none => if asksForNames name then .ok help else .error (.unknownCommand name)

/-- Reads the arguments of a command. -/
def command (verbose : Bool) (verb : Verb) (arguments : List String) : Except UsageError Request :=
  match verb.grammar.parse arguments with
  | .error error => .error (.arguments error)
  | .ok arguments => if arguments.has .help then .ok help else .ok (run verbose verb arguments)

/-- Reads a command line, whose own options stand before the command. -/
def read (arguments : List String) : Except UsageError Request :=
  choose [.help, .version, .verbose] choices arguments fun own choice rest =>
    let verbose := own.has .verbose
    match choice with
    | .verb verb => command verbose verb rest
    | .group members => choose [.help] members rest fun _ verb rest => command verbose verb rest

end Request

/-- The paths that a request is about. -/
structure Places where
  /-- The directory that is scanned. -/
  scanned : Option String := none
  /-- Files that are read or written. -/
  files : List String := []

/-- The paths that a request is about. -/
def Request.places : Request → Places
  | help | version => {}
  | run _ verb arguments => {
      scanned := if verb.options.contains .root then some ((arguments.value? .root).getD ".")
        else none
      files := (if verb = .mainClass then arguments.operands.take 1 else []) ++
        (arguments.value? .output).toList }

/-! ## With which values -/

/-- A command with the values that it works on. -/
inductive Command where
  | hierarchy (name : String) (root : Path) (asJson showPaths : Bool)
  | locate (name : String) (root : Path)
  | classes (folder : Option String) (root : Path)
  | mainClass (file : Path) (selection : Option String) (root : Path) (asJson : Bool)
  | saveGraph (name format : String) (output : Option Path) (root : Path)
  | listTags (root : Path)
  | showTag (tag : String) (root : Path)
  | showConfig
  | setFolder (folder : String)
  | setPrefix (tagPrefix : String) (home : Option String)
  | resetConfig
  deriving Repr, DecidableEq

namespace Arguments

/-- The directory to scan, by default the current one. -/
def root (arguments : Arguments) : Path := Path.ofString ((arguments.value? .root).getD ".")

/-- The format of a graph, by default DOT. -/
def format (arguments : Arguments) : String := (arguments.value? .format).getD "dot"

/-- The first operand. -/
def operand (arguments : Arguments) : Except UsageError String :=
  match arguments.operands with
  | operand :: _ => .ok operand
  | [] => .error .missingOperand

/-- There are no more operands than the command takes. -/
def atMost (arguments : Arguments) (count : Nat) : Except UsageError Unit :=
  match arguments.operands.drop count with
  | [] => .ok ()
  | text :: _ => .error (.extraOperand text)

/-- The only operand. -/
def single (arguments : Arguments) : Except UsageError String := do
  let operand ← arguments.operand
  arguments.atMost 1
  return operand

end Arguments

namespace Workspace

/-- The text is a path that can be looked up, wherever it leads. -/
def checkPath (text : String) : Except UsageError Unit :=
  if text.toList.contains '\x00' then .error (.nullCharacter text) else .ok ()

/-- The text is the path of a directory. -/
def checkDirectory (workspace : Workspace) (text : String) : Except UsageError Unit := do
  checkPath text
  match workspace.standing? text with
  | some .directory => .ok ()
  | some (.file _) => .error (.refused (.notDirectory text))
  | none => .error (.refused (.noDirectory text))

/-- The text is the path of a file. -/
def checkFile (workspace : Workspace) (text : String) : Except UsageError Unit := do
  checkPath text
  match workspace.standing? text with
  | some (.file _) => .ok ()
  | some .directory => .error (.refused (.notFile text))
  | none => .error (.refused (.noFile text))

/-- The value of an option is a path that the option can have, if its values are paths. -/
def checkOption (workspace : Workspace) : (option : Opt × String) → Except UsageError Unit
  | (.root, text) => workspace.checkDirectory text
  | (.output, text) => checkPath text
  | _ => .ok ()

/-- The command with its values, after its arguments are checked. -/
def command (workspace : Workspace) (verb : Verb) (arguments : Arguments) :
    Except UsageError Command := do
  arguments.options.forM workspace.checkOption
  match verb with
  | .hierarchy =>
      let name ← arguments.single
      return .hierarchy name arguments.root (arguments.has .json) (arguments.has .paths)
  | .locate => return .locate (← arguments.single) arguments.root
  | .classes =>
      arguments.atMost 1
      return .classes arguments.operands.head? arguments.root
  | .mainClass =>
      let file ← arguments.operand
      workspace.checkFile file
      arguments.atMost 1
      return .mainClass (Path.ofString file) (arguments.value? .selection) arguments.root
        (arguments.has .json)
  | .saveGraph =>
      let name ← arguments.single
      let output := (arguments.value? .output).map Path.ofString
      return .saveGraph name arguments.format output arguments.root
  | .listTags =>
      arguments.atMost 0
      return .listTags arguments.root
  | .showTag => return .showTag (← arguments.single) arguments.root
  | .showConfig =>
      arguments.atMost 0
      return .showConfig
  | .setFolder => return .setFolder (← arguments.single)
  | .setPrefix => return .setPrefix (← arguments.single) (arguments.value? .home)
  | .resetConfig =>
      arguments.atMost 0
      return .resetConfig

end Workspace

end Lineage.Cli

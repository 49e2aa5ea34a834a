import Lineage.Notice
import Lineage.Settings
import Lineage.Toml.Codec

/-!
# The configuration file

The settings of a user are the `scan` table of a configuration file; other tables of the file belong
to others and are kept as they are. A file that is not there, that cannot be opened or that is
malformed counts as empty. Saving merges values into the table, clearing removes the table, and both
write the whole file anew.

How texts are read and written is up to a codec, and whether the file can be opened for either of it
is up to the system that it is kept in; both make up the host of the configuration. The system may
also keep the program from so much as looking for the file, or from making the directory for it.
What a file holds when a writing breaks off halfway, as on a disk that is full, is not told.
-/

namespace Lineage

/-- What stands at the place of the configuration file. -/
inductive ConfigFile where
  | absent
  /-- Nothing stands there, and the directory that the file belongs into cannot be made. -/
  | homeless
  /-- The system does not tell what stands there. -/
  | hidden
  | directory
  | file (bytes : List UInt8)
  deriving Repr, DecidableEq

/-- What deals with the configuration file. -/
structure ConfigHost where
  codec : Toml.Codec := Toml.codec
  /-- A file in the place can be opened for reading. -/
  reads : Bool := true
  /-- A file in the place can be opened for writing, or made there. -/
  writes : Bool := true

/-- Why the configuration cannot be used or changed. -/
inductive ConfigError where
  /-- The directory of the file cannot be made. -/
  | homeless
  /-- The place of the file cannot be looked at. -/
  | hidden
  /-- The file holds no well-formed text. -/
  | notText
  /-- The text goes wrong in a way that is not passed over. -/
  | unreadable (fault : Toml.Fault)
  /-- A value cannot be written. -/
  | unwritable (fault : Toml.Fault)
  /-- Values were given for keys that are no settings. -/
  | unknownKeys (keys : List String)
  /-- The settings are no table and cannot be taken for one. -/
  | notTable
  /-- The settings are a list whose items are not all pairs of a key and a value. -/
  | notPairs
  | settings (error : SettingsError)
  deriving Repr, DecidableEq

/-- What the configuration is kept in, and the notices given. -/
structure ConfigState where
  file : ConfigFile := .absent
  notices : Array Notice := #[]
  host : ConfigHost := {}

/-- The file can be opened for writing, though it may have to be made for that. -/
def ConfigState.isWritable (state : ConfigState) : Bool :=
  match state.file with
  | .absent | .file _ => state.host.writes
  | .homeless | .hidden | .directory => false

/-- A computation on the configuration. -/
abbrev Configuring (α : Type) := ExceptT ConfigError (StateM ConfigState) α

namespace Config

/-- The key of the table of settings. -/
def sectionKey : String := "scan"

/-- The keys of settings. -/
def settingKeys : List String :=
  ["default_folder", "tag_prefix", "import_namespace", "logic_extensions", "markup_extensions",
    "skip_dirs"]

/-- Gives a notice. -/
def note (notice : Notice) : Configuring Unit :=
  modify fun state => { state with notices := state.notices.push notice }

/-- The configuration in some bytes. -/
def decode (codec : Toml.Codec) (bytes : List UInt8) : Except ConfigError Table :=
  match Text.ofBytes? bytes with
  | none => .error .notText
  | some text => (codec.parse text).mapError .unreadable

/-- An empty configuration in place of one that is passed over. -/
def ignore : Configuring Table := do
  note .configIgnored
  return []

/-- The whole configuration. -/
def load : Configuring Table := do
  let state ← get
  match state.file with
  | .absent | .homeless => return []
  | .hidden => throw .hidden
  | .directory => ignore
  | .file bytes =>
      if state.host.reads then
        match decode state.host.codec bytes with
        | .ok table => return table
        | .error (.unreadable .malformed) => ignore
        | .error error => throw error
      else ignore

/-- Empties the file that is about to be written; false if it cannot be opened. -/
def openForWriting : Configuring Bool := do
  let state ← get
  match state.file with
  | .homeless => throw .homeless
  | .hidden => throw .hidden
  | .absent | .directory | .file _ =>
      if state.isWritable then
        set { state with file := .file [] }
        return true
      else
        note .configNotWritten
        return false

/-- Writes a text as the whole configuration; false if the file cannot be opened. -/
def storeText (text : Except Toml.Fault String) : Configuring Bool := do
  if ← openForWriting then
    match text with
    | .ok text =>
        modify fun state => { state with file := .file (Text.toBytes text) }
        return true
    | .error fault => throw (.unwritable fault)
  else return false

/-- Writes the whole configuration; false if the file cannot be opened. -/
def store (draft : Toml.Draft) : Configuring Bool := do
  storeText ((← get).host.codec.print draft)

/-- The settings in the configuration: known keys of the `scan` table, if that is a table. -/
def scanTable (table : Table) : Table :=
  match table.get? sectionKey with
  | some (.table entries) => entries.filter fun entry => settingKeys.contains entry.1
  | _ => []

/-- The settings of the user. -/
def loadScan : Configuring Table := do return scanTable (← load)

/-- The scan settings that hold with those of the user. -/
def loadSettings : Configuring Settings := do
  match ({} : Settings).withOverrides (← loadScan) with
  | .ok settings => return settings
  | .error error => throw (.settings error)

/-- A value as a pair of key and value: a list or table of two, or a text of two characters. -/
def pair (item : Value) : Except ConfigError (Scalar × Value) :=
  match item.members? with
  | none => .error .notTable
  | some [key, value] =>
      match key with
      | .scalar key => if key.isMember then .ok (key, value) else .error .notPairs
      | _ => .error .notTable
  | some _ => .error .notPairs

/-- The present settings as entries; a list of pairs counts as a table. -/
def entries (table : Table) : Except ConfigError (List (Scalar × Value)) :=
  match table.get? sectionKey with
  | none => .ok []
  | some (.table entries) => .ok (entries.map fun (key, value) => (.text key, value))
  | some (.list items) => items.mapM pair
  | some (.scalar (.text text)) => if text.isEmpty then .ok [] else .error .notPairs
  | some (.scalar _) => .error .notTable

/-- The entries as a table, if all their keys are texts. -/
def textKeys? : List (Scalar × Value) → Option Table
  | [] => some []
  | (.text key, value) :: entries => (textKeys? entries).map ((key, value) :: ·)
  | _ :: _ => none

/-- The entries with one more, which takes the value of one with the same key. -/
def setMember (entry : Scalar × Value) : Toml.Entries → Toml.Entries
  | [] => [entry]
  | (key, old) :: entries =>
      if key.key = entry.1.key then (key, entry.2) :: entries
      else (key, old) :: setMember entry entries

/-- A configuration with values merged into its present settings. Keys that are not all texts are
given apart. -/
def merged (table values : Table) (present : List (Scalar × Value)) : Toml.Draft :=
  match textKeys? present with
  | some entries =>
      { table := table.set sectionKey (.table ((Keyed.update [] entries).update values)) }
  | none =>
      let changes := present ++ Toml.entriesOf values
      let members := changes.foldl (fun members entry => setMember entry members) []
      { table := table.set sectionKey (.table []), given := [(sectionKey.toList, members)] }

/-- Merges values into the settings; false if the file could not be written. -/
def save (values : Table) : Configuring Bool := do
  let unknown := (values.map Prod.fst).filter fun key => !settingKeys.contains key
  if !unknown.isEmpty then
    throw (.unknownKeys ((firstsBy id unknown).mergeSort Text.precedes))
  else
    let table ← load
    match entries table with
    | .ok present => store (merged table values present)
    | .error error => throw error

/-- Removes the settings; false if the file could not be written. -/
def clear : Configuring Bool := do
  let table ← load
  store { table := table.erase sectionKey }

end Config

end Lineage

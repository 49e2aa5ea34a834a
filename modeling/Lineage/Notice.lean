import Lineage.Store

/-!
# Notices

What a scan has to report beside its result: files that it passed over, names that it found or did
not find, branches that it cut. A notice says what happened; its level and wording are derived from
it.
-/

namespace Lineage

/-- How urgent a notice is. -/
inductive Level where
  | debug
  | info
  | warning
  | error
  deriving Repr, DecidableEq

namespace Level

/-- The name of a level. -/
def name : Level → String
  | debug => "DEBUG"
  | info => "INFO"
  | warning => "WARNING"
  | error => "ERROR"

/-- Levels by urgency. -/
def rank : Level → Nat
  | debug => 0
  | info => 1
  | warning => 2
  | error => 3

end Level

/-- Why the tags of an entity could not all be collected. -/
inductive TagScanError where
  /-- It cannot be told whether a template is a file. -/
  | unknownTemplate (path : Path) (error : AccessError)
  | unreadable (failure : ReadFailure)
  deriving Repr, DecidableEq

/-- The error in words. -/
def TagScanError.message : TagScanError → String
  | unknownTemplate path error => error.reason path
  | unreadable failure => failure.message

/-- Something that a scan or the configuration has to report. -/
inductive Notice where
  /-- It could not be told whether a path is a file, so it was passed over. -/
  | skippedPath (path : Path)
  /-- A file could not be read, so it was passed over. -/
  | skippedFile (failure : ReadFailure)
  | located (name : String) (path : Path)
  | undeclared (name : String)
  | emptyFolder (folder : String)
  /-- The number of children that the rules nominated for a parent. -/
  | nominated (count : Nat) (parent : String)
  | tagsIncomplete (name : String) (error : TagScanError)
  | noTags (tagPrefix : String) (root : Path)
  | rootMissing (name : String)
  /-- A child was left out below a parent because it is one of its ancestors. -/
  | cycle (child parent : String)
  /-- A name tried as the root of a hierarchy is not declared. -/
  | unresolved (name : String)
  | configIgnored
  | configNotWritten
  deriving Repr, DecidableEq

namespace Notice

/-- How urgent the notice is. -/
def level : Notice → Level
  | skippedPath _ | skippedFile _ | tagsIncomplete .. | configIgnored => .warning
  | located .. | undeclared _ | nominated .. | cycle .. | unresolved _ => .debug
  | emptyFolder _ | noTags .. | rootMissing _ => .info
  | configNotWritten => .error

/-- The notice in words; `config` is the path of the configuration file. -/
def message (config : Path) : Notice → String
  | skippedPath path => "Skipping " ++ path.toString ++ ": " ++ AccessError.denied.reason path
  | skippedFile failure => "Skipping " ++ failure.message
  | located name path => "Located " ++ name ++ " in " ++ path.toString
  | undeclared name => "No declaration found for " ++ name
  | emptyFolder folder => "No entities found under folder '" ++ folder ++ "'"
  | nominated count parent => count.repr ++ " candidate children for " ++ parent
  | tagsIncomplete name error => "Error finding custom tags for " ++ name ++ ": " ++ error.message
  | noTags tagPrefix root =>
      "No custom <" ++ tagPrefix ++ "-*> tags found under " ++ root.toString
  | rootMissing name => "Could not build hierarchy: '" ++ name ++ "' not found"
  | cycle child parent => "Cycle: " ++ child ++ " already an ancestor of " ++ parent
  | unresolved name => "Root candidate '" ++ name ++ "' did not resolve"
  | configIgnored => "Ignoring unreadable config " ++ config.toString
  | configNotWritten => "Could not write config " ++ config.toString

end Notice

end Lineage

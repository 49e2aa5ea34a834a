import Lineage.Lexical.BaseList
import Lineage.Lexical.Extension
import Lineage.Project
import Lineage.Tree

/-!
# Children of an entity

Two rules nominate children. By inheritance, a class is a child of the class it extends; in files
with the suffix `.py` a list of bases counts as well. By composition, a file that mentions a name is
a user of it, and is nominated under the file's own name unless that is the name itself. The rules
are applied to every file of code in turn; nothing is left out as a duplicate here.
-/

namespace Lineage

/-- A reason for which a file nominates children of a parent. -/
inductive ChildRule where
  | inheritance
  | composition
  deriving Repr, DecidableEq

namespace ChildRule

/-- The rules that hierarchies are built by. -/
def all : List ChildRule := [inheritance, composition]

/-- The suffix of files in which a list of bases names the parents of a class. -/
def baseListSuffix : String := ".py"

/-- The text mentions the name. -/
def mentions (text name : String) : Bool := Text.occurs name.toList text.toList

/-- The children that a file with the given text nominates for the parent. -/
def nominate (rule : ChildRule) (path : Path) (text parent : String) : List String :=
  match rule with
  | inheritance =>
      Lexical.Extension.children text parent ++
        if path.suffix = baseListSuffix then Lexical.BaseList.children text parent else []
  | composition =>
      if mentions text parent && !Unicode.sameIgnoringCase path.stem parent then [path.stem] else []

end ChildRule

namespace Project

/-- The children that one file nominates by the rules, rule after rule. -/
def nominees (rules : List ChildRule) (parent : String) (path : Path) (text : String) :
    List Entity :=
  rules.flatMap fun rule => (rule.nominate path text parent).map (⟨·, path⟩)

/-- The children that the code of the project nominates for the parent, file after file. -/
def children (project : Project) (rules : List ChildRule) (parent : String) :
    Scan (List Entity) := do
  if parent.isEmpty then return []
  else
    let files ← project.logicFiles
    let texts ← project.readAll files
    let found := texts.flatMap fun (file, text) => nominees rules parent file.path text
    note (.nominated found.length parent)
    return found

end Project

end Lineage

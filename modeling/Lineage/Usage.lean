import Lineage.Lexical.Import
import Lineage.Lexical.Tag
import Lineage.Path

/-!
# Usages of custom tags

A usage is the evidence that a component is used: the tag, the line it was found on and that line's
text. Markup gives one usage for every tag opened; an import gives the tag that would be used for
the imported component. Usages are grouped by the identifier in their tag, whatever their prefix.
-/

namespace Lineage

/-- A custom tag found on a line of a file. -/
structure TagUsage where
  tag : String
  line : Int
  context : String
  file : Option Path := none
  deriving Repr, DecidableEq

namespace TagUsage

/-- The identifier in the tag. -/
def name (usage : TagUsage) : String := Lexical.Tag.name usage.tag

/-- The lines of a text with their numbers, the first line being number one. -/
def numberedLines (text : String) : List (Nat × String) :=
  (Text.lines text.toList).zipIdx 1 |>.map fun (line, number) => (number, String.ofList line)

/-- The usages on one line of markup, all with the line's number and its text. -/
def onMarkupLine (tagPrefix : String) (file : Option Path) (number : Nat) (line : String) :
    List TagUsage :=
  (Lexical.Tag.findAll line tagPrefix).map fun tag =>
    ⟨tag, number, Text.stripped line, file⟩

/-- One usage for every tag that a markup text opens. -/
def inMarkup (text tagPrefix : String) (file : Option Path) : List TagUsage :=
  (numberedLines text).flatMap fun (number, line) => onMarkupLine tagPrefix file number line

/-- The usage that one line of code implies by importing a component. -/
def onImportLine? (home tagPrefix : String) (file : Option Path) (number : Nat) (line : String) :
    Option TagUsage :=
  (Lexical.Import.component? line home).map fun ident =>
    ⟨Lexical.Tag.format tagPrefix (Lexical.Tag.kebab ident), number, Text.stripped line, file⟩

/-- One usage for every line of code that imports a component. -/
def inImports (text home tagPrefix : String) (file : Option Path) : List TagUsage :=
  (numberedLines text).filterMap fun (number, line) =>
    onImportLine? home tagPrefix file number line

/-- The usages with one more, at the end of the group of its name. -/
def addToGroups (usage : TagUsage) : List (String × List TagUsage) → List (String × List TagUsage)
  | [] => [(usage.name, [usage])]
  | (name, group) :: groups =>
      if name = usage.name then (name, group ++ [usage]) :: groups
      else (name, group) :: addToGroups usage groups

/-- The usages by name, the names in the order in which they are first seen. -/
def groups (usages : List TagUsage) : List (String × List TagUsage) :=
  usages.foldl (fun groups usage => addToGroups usage groups) []

end TagUsage

end Lineage

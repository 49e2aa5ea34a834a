import Lineage.Text.Basic
import Lineage.Lexical.Scan

/-!
# Custom tags

Markup uses a component by opening a tag whose name is a prefix, a hyphen and the component's
identifier. `findAll` lists the tags that a line opens, each written `<prefix-identifier>`
whatever follows the identifier there; `name` reads the identifier off a tag so written. In a tag
the identifier of a component is spelled in small letters with hyphens: `kebab`.
-/

namespace Lineage.Lexical.Tag

/-- The characters of an identifier in a tag. -/
def isIdent (c : Char) : Bool := c.isAlphanum || c = '_' || c = '-'

/-- What every tag of the prefix starts with. -/
def opener (tagPrefix : String) : String := "<" ++ tagPrefix ++ "-"

/-- The tag of the prefix with the given identifier. -/
def format (tagPrefix ident : String) : String := "<" ++ tagPrefix ++ "-" ++ ident ++ ">"

/-- The identifier of a tag that is opened at the position. -/
def identAt? (tagOpener : List Char) : Rule (Option (Found (List Char))) := fun _ text =>
  match Text.after? tagOpener text with
  | none => none
  | some rest =>
      let ident := rest.takeWhile isIdent
      if ident.isEmpty then none else some ⟨ident, tagOpener.length + ident.length⟩

/-- The identifiers of the tags that a line opens, from left to right. -/
def idents (line tagPrefix : String) : List String :=
  (allMatches (identAt? (opener tagPrefix).toList) line.toList).map String.ofList

/-- The tags that a line opens, from left to right. -/
def findAll (line tagPrefix : String) : List String :=
  (idents line tagPrefix).map (format tagPrefix)

/-- The identifier in a tag: what follows the first hyphen within the angle brackets. -/
def name (tag : String) : String :=
  let inner := Text.trim (fun c => c = '<' || c = '>') tag.toList
  match inner.dropWhile (· ≠ '-') with
  | [] => String.ofList inner
  | _ :: ident => String.ofList ident

/-- A capital letter as a hyphen and the small letter. -/
def kebabChar (c : Char) : List Char := if c.isUpper then ['-', c.toLower] else [c]

/-- The spelling of a component's name in tags: every capital starts a new hyphenated part. -/
def kebab (ident : String) : String :=
  match ident.toList.flatMap kebabChar with
  | '-' :: rest => String.ofList rest
  | spelled => String.ofList spelled

end Lineage.Lexical.Tag

import Lineage.Text.Basic
import Lineage.Text.Order

/-!
# Paths

A path is an anchor and a list of names. Reading one from text drops empty names and the name `.`,
so repeated and trailing slashes mean nothing; `..` is kept, since it need not lead back to where
the path came from. Two leading slashes are an anchor of their own, three or more count as one.

Paths are ordered by their lists of names, which is not the order of the texts: `a-b` comes after
`a/b`.

## Main results

* `relativeTo?_eq_some_iff`: a path lies below another exactly if joining gives it back.
-/

namespace Lineage

/-- Where a path starts. -/
inductive Anchor where
  /-- At whatever directory is current. -/
  | relative
  /-- At the root directory. -/
  | root
  /-- At the place that two leading slashes name. -/
  | doubleRoot
  deriving Repr, DecidableEq

/-- The text of an anchor. -/
def Anchor.text : Anchor → String
  | relative => ""
  | root => "/"
  | doubleRoot => "//"

/-- An anchor and the names that lead on from it. -/
structure Path where
  anchor : Anchor
  names : List String
  deriving Repr, DecidableEq

namespace Path

/-- The anchor that a text starts with. -/
def anchorOf : List Char → Anchor
  | '/' :: '/' :: '/' :: _ => .root
  | '/' :: '/' :: _ => .doubleRoot
  | '/' :: _ => .root
  | _ => .relative

/-- A name that counts: neither empty nor a single dot. -/
def isProperName (name : List Char) : Bool := !(name.isEmpty || name == ['.'])

/-- Reads a path. -/
def ofString (text : String) : Path where
  anchor := anchorOf text.toList
  names := ((Text.fields '/' text.toList).filter isProperName).map String.ofList

/-- The text of a path; a relative path without names is `.`. -/
def toString (path : Path) : String :=
  match path.anchor, path.names with
  | .relative, [] => "."
  | anchor, names => anchor.text ++ "/".intercalate names

instance : ToString Path := ⟨Path.toString⟩

/-- The last name, empty if there is none. -/
def name (path : Path) : String := path.names.getLast?.getD ""

/--
A file name at its last dot: stem and suffix, the dot with the latter. A dot that is the first or
the last character starts no suffix.
-/
def splitName (name : List Char) : List Char × List Char :=
  let fromEnd := name.reverse
  let extension := fromEnd.takeWhile (· ≠ '.')
  match fromEnd.dropWhile (· ≠ '.') with
  | _dot :: c :: stem =>
      if extension.isEmpty then (name, []) else ((c :: stem).reverse, '.' :: extension.reverse)
  | _ => (name, [])

/-- The last name without its suffix. -/
def stem (path : Path) : String := String.ofList (splitName path.name.toList).1

/-- The suffix of the last name, from its dot on. -/
def suffix (path : Path) : String := String.ofList (splitName path.name.toList).2

/-- A name of the path has a null character. No such path leads anywhere. -/
def hasNull (path : Path) : Bool := path.names.any fun name => name.toList.contains '\x00'

/-- The number of bytes in the path, each name with the slash before it. -/
def byteSize (path : Path) : Nat :=
  path.names.foldl (fun size name => size + name.utf8ByteSize + 1) 0

/-- The path without its last name. -/
def parent (path : Path) : Path := { path with names := path.names.dropLast }

/-- The second path as seen from the first; an anchored path stands for itself. -/
def join (base path : Path) : Path :=
  match path.anchor with
  | .relative => { base with names := base.names ++ path.names }
  | _ => path

/-- The path with one name more. -/
def child (path : Path) (name : String) : Path := { path with names := path.names ++ [name] }

/-- The path as seen from `base`, if it lies at or below it. -/
def relativeTo? (path base : Path) : Option Path :=
  if path.anchor = base.anchor then
    (Text.after? base.names path.names).map fun names => ⟨.relative, names⟩
  else none

theorem relativeTo?_eq_some_iff {path base rest : Path} :
    path.relativeTo? base = some rest ↔ rest.anchor = .relative ∧ path = base.join rest := by
  obtain ⟨anchor, names⟩ := path
  obtain ⟨baseAnchor, baseNames⟩ := base
  obtain ⟨restAnchor, restNames⟩ := rest
  simp only [relativeTo?]
  split
  · next same =>
      subst same
      simp only [Option.map_eq_some_iff, Text.after?_eq_some_iff, mk.injEq]
      constructor
      · rintro ⟨found, split, rfl, rfl⟩
        simp [join, split]
      · rintro ⟨rfl, h⟩
        exact ⟨restNames, by simpa [join] using h, rfl, rfl⟩
  · next differ =>
      simp only [reduceCtorEq, false_iff, not_and]
      rintro rfl h
      simp [join] at h
      exact differ h.1

/-- The path as seen from `base`, or the path itself where it does not lie below. -/
def shownFrom (path base : Path) : String := toString ((path.relativeTo? base).getD path)

/-- Names with each `..` taken together with the name before it. -/
def collapse (names : List String) : List String :=
  names.foldl (fun done name => if name = ".." then done.dropLast else done ++ [name]) []

/-- The path as seen from the current directory, without `..`. -/
def resolve (path current : Path) : Path :=
  let full := current.join path
  ⟨full.anchor, collapse full.names⟩

/-- The order of paths under one root: by names, from the left. -/
def precedes (a b : Path) : Bool := Text.lexicographic Text.precedes a.names b.names

theorem precedes_trans (a b c : Path) (hab : a.precedes b = true) (hbc : b.precedes c = true) :
    a.precedes c = true :=
  (Text.lexicographic_isOrder Text.precedes_isOrder).trans _ _ _ hab hbc

theorem precedes_total (a b : Path) : (a.precedes b || b.precedes a) = true := by
  rw [Bool.or_eq_true]
  exact (Text.lexicographic_isOrder Text.precedes_isOrder).total a.names b.names

end Path

end Lineage

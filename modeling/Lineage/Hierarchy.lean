import Lineage.Evidence
import Lineage.Locate
import Lineage.Relation

/-!
# Building a hierarchy

A hierarchy is built depth first from a root that some file declares. The children of a node are
the names nominated for it that some file declares, each once and in the order of nomination; a
child that is an ancestor of the node, or the node itself, is left out, so files that refer to each
other in a circle still give a finite tree.

What a name resolves to and which names are nominated for it is looked up once in a build and
remembered.

Along a branch no entity occurs twice, and every entity below the root is named by the code of the
project: after `class`, or by a file's name. The number of these names therefore bounds the levels
below the root. The recursion counts down from one more than that number, so it always looks for the
children of a node before the count is used up.
-/

namespace Lineage

/-- What has been looked up in the course of one build. -/
structure Lookups where
  places : Keyed String (Option Path) := []
  nominations : Keyed String (List String) := []

/-- A computation in the course of a build. -/
abbrev Build (α : Type) := StateT Lookups Scan α

namespace Project

/-- The file that declares the name, looked up once. -/
def placeOf (project : Project) (name : String) : Build (Option Path) := do
  match (← get).places.get? name with
  | some place => return place
  | none =>
      let place ← project.locate name
      modify fun lookups => { lookups with places := lookups.places.set name place }
      return place

/-- The names nominated for a parent, each once, looked up once. -/
def nominatedFor (project : Project) (parent : String) : Build (List String) := do
  match (← get).nominations.get? parent with
  | some names => return names
  | none =>
      let entities ← project.children ChildRule.all parent
      let names := firstsBy id (entities.map Entity.name)
      modify fun lookups => { lookups with nominations := lookups.nominations.set parent names }
      return names

/-- The trees that are built for some of the names, in their order. -/
def collectTrees (build : String → Build (Option Tree)) : List String → Build (List Tree)
  | [] => return []
  | name :: names => do
      match ← build name with
      | some tree =>
          let trees ← collectTrees build names
          return tree :: trees
      | none => collectTrees build names

/--
The tree for an entity below the given ancestors, with `depth` further levels at most below it.
-/
def grow (project : Project) : (depth : Nat) → (ancestors : List Entity) → Entity → Build Tree
  | depth, ancestors, entity => do
      let tags ← project.entityTags entity.name entity.path
      match depth with
      | 0 => return ⟨entity.name, entity.path, tags, []⟩
      | depth + 1 =>
          let names ← project.nominatedFor entity.name
          let lineage := entity :: ancestors
          let children ← collectTrees (fun name => do
            match ← project.placeOf name with
            | none => return none
            | some path =>
                if ⟨name, path⟩ ∈ lineage then
                  note (.cycle name entity.name)
                  return none
                else
                  let tree ← project.grow depth lineage ⟨name, path⟩
                  return some tree) names
          return ⟨entity.name, entity.path, tags, children⟩

/-- The names that one file of code can nominate, whatever the parent. -/
def nominable (path : Path) (text : String) : List String :=
  path.stem :: Lexical.Declaration.candidates text

/-- The names that the code of the project can nominate, each once. -/
def nominableNames (project : Project) (memory : Memory) : List String :=
  firstsBy id <|
    (project.files project.settings.logicExtensions none).flatMap fun file =>
      match memory.peek project.store file.path with
      | .ok text => nominable file.path text
      | .error _ => []

/-- The hierarchy below a name, if some file declares it. -/
def hierarchy (project : Project) (name : String) : Scan (Option Tree) := do
  let memory ← get
  let depth := (project.nominableNames memory).length + 1
  let build : Build (Option Tree) := do
    match ← project.placeOf name with
    | none =>
        note (.rootMissing name)
        return none
    | some path =>
        let tree ← project.grow depth [] ⟨name, path⟩
        return some tree
  let (tree, _) ← build.run {}
  return tree

end Project

end Lineage

import Lineage.Export.Dot
import Lineage.Proofs.Store.Spelling

/-!
# The graph of a tree

A tree repeats an entity wherever it is inherited from, with everything below it; its graph has the
entity once.  What the export goes by, however, are not entities but identifiers, texts put together
from a name and a path.  If a name had a slash, or a path none, one text could stand for two
entities and the graph would merge them.

Names without a slash and paths from a root do not allow that: the first slash of an identifier is
where the path begins, so the identifier falls apart into what it was made of.  The graph is then
that of the entities: one node for each of them, one edge for each pair that is a parent and its
child somewhere in the tree, both in the order in which the walk comes to them.

## Main results

* `eq_of_entityId_eq`: different entities have different identifiers.
* `map_entity_nodes`, `edges_eq_map_links`: leaving out repeated identifiers leaves out the repeated
  entities and pairs, and no others.
* `render_eq_quotient`: the text of a graph is made from the entities of the tree and their pairs.
-/

namespace Lineage.Dot

variable {root node : Tree} {entity other : Entity} {text : String}

/-! ## Identifiers -/

/-- The identifier of an entity. -/
def entityId (entity : Entity) : String := entity.name ++ "@" ++ entity.path.toString

/-- An entity whose identifier tells where its path begins. The path is proper, as is every path
that was read from a text. -/
structure IsSeparable (entity : Entity) : Prop where
  name : '/' ∉ entity.name.toList
  anchored : entity.path.anchor ≠ .relative
  proper : entity.path.IsProper

instance (entity : Entity) : Decidable (IsSeparable entity) :=
  decidable_of_iff ('/' ∉ entity.name.toList ∧ entity.path.anchor ≠ .relative ∧
    entity.path.IsProper) ⟨fun h => ⟨h.1, h.2.1, h.2.2⟩, fun h => ⟨h.1, h.2, h.3⟩⟩

theorem exists_toString_eq_slash {path : Path} (h : path.anchor ≠ .relative) :
    ∃ rest, path.toString.toList = '/' :: rest := by
  obtain ⟨anchor, names⟩ := path
  cases anchor with
  | relative => exact absurd rfl h
  | root =>
      have hwritten : Path.toString ⟨.root, names⟩ = "/" ++ "/".intercalate names := rfl
      rw [hwritten, String.toList_append]
      exact ⟨_, rfl⟩
  | doubleRoot =>
      have hwritten : Path.toString ⟨.doubleRoot, names⟩ = "//" ++ "/".intercalate names := rfl
      rw [hwritten, String.toList_append]
      exact ⟨_, rfl⟩

theorem eq_of_entityId_eq (hentity : IsSeparable entity) (hother : IsSeparable other)
    (h : entityId entity = entityId other) : entity = other := by
  obtain ⟨rest, hrest⟩ := exists_toString_eq_slash hentity.anchored
  obtain ⟨otherRest, hotherRest⟩ := exists_toString_eq_slash hother.anchored
  have hslash {name : String} (hname : '/' ∉ name.toList) : '/' ∉ (name ++ "@").toList := by
    simpa using hname
  have hchars : (entity.name ++ "@").toList ++ '/' :: rest =
      (other.name ++ "@").toList ++ '/' :: otherRest := by
    rw [← hrest, ← hotherRest, ← String.toList_append, ← String.toList_append]
    exact congrArg String.toList h
  have hfields := congrArg (Text.fields '/') hchars
  rw [Text.fields_append_separator (hslash hentity.name),
    Text.fields_append_separator (hslash hother.name)] at hfields
  obtain ⟨hlead, -⟩ := List.cons.inj hfields
  have hname : entity.name = other.name := by
    rw [String.toList_append, String.toList_append] at hlead
    exact String.toList_inj.mp (List.append_cancel_right hlead)
  have hwritten : entity.path.toString = other.path.toString := by
    rw [← String.toList_inj, hrest, hotherRest]
    rw [hlead] at hchars
    exact List.append_cancel_left hchars
  have hpath := Path.eq_of_toString_eq hentity.proper hother.proper hwritten
  obtain ⟨name, path⟩ := entity
  obtain ⟨otherName, otherPath⟩ := other
  obtain rfl : name = otherName := hname
  obtain rfl : path = otherPath := hpath
  rfl

/-! ## Escaping -/

/-- What a character is written as inside quotes. -/
def escapeChar (c : Char) : List Char := if c = '"' then ['\\', '"'] else [c]

theorem toList_escape (text : String) : (escape text).toList = text.toList.flatMap escapeChar := by
  rw [escape, String.toList_ofList]
  rfl

/-- No text is written as one that begins with a quote. -/
theorem flatMap_escapeChar_ne_quote {chars rest : List Char} :
    chars.flatMap escapeChar ≠ '"' :: rest := by
  cases chars with
  | nil => exact List.cons_ne_nil _ _ |>.symm
  | cons c chars =>
      rw [List.flatMap_cons, escapeChar]
      split
      · simp
      · next hne => simp [hne]

theorem flatMap_escapeChar_injective : Function.Injective (List.flatMap escapeChar) := by
  intro chars
  induction chars with
  | nil =>
      intro others h
      cases others with
      | nil => rfl
      | cons d others =>
          rw [List.flatMap_cons, escapeChar] at h
          split at h <;> cases h
  | cons c chars ih =>
      intro others h
      cases others with
      | nil =>
          rw [List.flatMap_cons, escapeChar] at h
          split at h <;> cases h
      | cons d others =>
          by_cases hc : c = '"'
          · by_cases hd : d = '"'
            · have hrest : chars.flatMap escapeChar = others.flatMap escapeChar := by
                simpa [escapeChar, hc, hd] using h
              rw [hc, hd, ih hrest]
            · have hrest : others.flatMap escapeChar = '"' :: chars.flatMap escapeChar := by
                simp only [List.flatMap_cons, escapeChar, if_pos hc, if_neg hd] at h
                exact (List.cons.inj h).2.symm
              exact absurd hrest flatMap_escapeChar_ne_quote
          · by_cases hd : d = '"'
            · have hrest : chars.flatMap escapeChar = '"' :: others.flatMap escapeChar := by
                simp only [List.flatMap_cons, escapeChar, if_neg hc, if_pos hd] at h
                exact (List.cons.inj h).2
              exact absurd hrest flatMap_escapeChar_ne_quote
            · simp only [List.flatMap_cons, escapeChar, if_neg hc, if_neg hd] at h
              obtain ⟨hfirst, hrest⟩ := List.cons.inj h
              rw [hfirst, ih hrest]

/-- Different texts stay different inside quotes. -/
theorem escape_injective : Function.Injective escape := by
  intro text other h
  have hchars := congrArg String.toList h
  rw [toList_escape, toList_escape] at hchars
  exact String.toList_inj.mp (flatMap_escapeChar_injective hchars)

/-! ## Lines -/

/-- The label of an entity that has so many tag usages. -/
def entityLabel (project : Option Path) (count : Nat) (entity : Entity) : String :=
  let usages := if count = 0 then "" else "\\n" ++ count.repr ++ " tag usage(s)"
  entity.name ++ "\\n" ++ displayPath entity.path project ++ usages

/-- The line that declares an entity. -/
def entityLine (project : Option Path) (count : Nat) (entity : Entity) : String :=
  "  \"" ++ escape (entityId entity) ++ "\" [label=\"" ++
    escape (entityLabel project count entity) ++ "\"];"

/-- The line of a parent and its child. -/
def linkLine (link : Entity × Entity) : String := edgeLine (entityId link.1, entityId link.2)

theorem nodeLine_eq_entityLine (project : Option Path) (node : Tree) :
    nodeLine project node = entityLine project node.tags.length node.entity := by
  have hlabel : label node project = entityLabel project node.tags.length node.entity := by
    rw [label, entityLabel]
    cases node.tags <;> rfl
  rw [nodeLine, entityLine, hlabel]
  rfl

/-! ## Entities and their pairs -/

/-- The entities of a tree, each once. -/
def entities (root : Tree) : List Entity := firstsBy id (root.walk.map Tree.entity)

/-- Every parent with every child of it, as often as the tree has them. -/
def pairs (root : Tree) : List (Entity × Entity) :=
  root.walk.flatMap fun node => node.children.map fun child => (node.entity, child.entity)

/-- The pairs of a parent and a child, each once. -/
def links (root : Tree) : List (Entity × Entity) := firstsBy id (pairs root)

/-- The number of tag usages of an entity in a tree. -/
def tagCount (root : Tree) (entity : Entity) : Nat :=
  match root.walk.find? (·.entity = entity) with
  | some node => node.tags.length
  | none => 0

/-- A tree whose nodes have separable entities, the same entity with the same tags everywhere. -/
structure IsFaithful (root : Tree) : Prop where
  separable : ∀ node ∈ root.walk, IsSeparable node.entity
  tags : ∀ node ∈ root.walk, ∀ other ∈ root.walk, node.entity = other.entity →
    node.tags = other.tags

theorem tagCount_eq (hroot : IsFaithful root) (hnode : node ∈ root.walk) :
    tagCount root node.entity = node.tags.length := by
  rw [tagCount]
  split
  · next found hfound =>
      have hsame : found.entity = node.entity := by simpa using List.find?_some hfound
      rw [hroot.tags found (List.mem_of_find?_eq_some hfound) node hnode hsame]
  · next hnone =>
      have hdiffers := List.find?_eq_none.mp hnone node hnode
      exact absurd (decide_eq_true rfl) hdiffers

theorem map_entity_nodes (hroot : IsFaithful root) :
    (nodes root).map Tree.entity = entities root := by
  refine map_firstsBy fun node hnode other hother => ⟨fun h => ?_, fun h => congrArg entityId h⟩
  exact eq_of_entityId_eq (hroot.separable node hnode) (hroot.separable other hother) h

/-- The ends of a link are entities of the tree. -/
theorem mem_entities_of_mem_links {link : Entity × Entity} (h : link ∈ links root) :
    link.1 ∈ entities root ∧ link.2 ∈ entities root := by
  rw [links, mem_firstsBy_id, pairs, List.mem_flatMap] at h
  obtain ⟨node, hnode, h⟩ := h
  obtain ⟨child, hchild, rfl⟩ := List.mem_map.mp h
  have hentity {node : Tree} (hnode : node ∈ root.walk) : node.entity ∈ entities root :=
    mem_firstsBy_id.mpr (List.mem_map_of_mem hnode)
  exact ⟨hentity hnode, hentity (root.mem_walk_of_mem_children hnode hchild)⟩

theorem isSeparable_of_mem_entities (hroot : IsFaithful root) (h : entity ∈ entities root) :
    IsSeparable entity := by
  rw [entities, mem_firstsBy_id, List.mem_map] at h
  obtain ⟨node, hnode, rfl⟩ := h
  exact hroot.separable node hnode

/-- The edges of the graph are the links of the tree. -/
theorem edges_eq_map_links (hroot : IsFaithful root) :
    edges root = (links root).map fun link => (entityId link.1, entityId link.2) := by
  have hedges : edges root =
      firstsBy id ((pairs root).map fun link => (entityId link.1, entityId link.2)) := by
    rw [edges, pairs, List.map_flatMap]
    simp only [List.map_map]
    rfl
  have hpair {link : Entity × Entity} (hlink : link ∈ pairs root) :
      IsSeparable link.1 ∧ IsSeparable link.2 := by
    have hends := mem_entities_of_mem_links (mem_firstsBy_id.mpr hlink)
    exact ⟨isSeparable_of_mem_entities hroot hends.1, isSeparable_of_mem_entities hroot hends.2⟩
  have hsame : ∀ link ∈ pairs root, ∀ other ∈ pairs root,
      (entityId link.1, entityId link.2) = (entityId other.1, entityId other.2) ↔
        id link = id other := by
    intro link hlink other hother
    constructor
    · intro h
      obtain ⟨hparent, hchild⟩ := Prod.mk.inj h
      exact Prod.ext (eq_of_entityId_eq (hpair hlink).1 (hpair hother).1 hparent)
        (eq_of_entityId_eq (hpair hlink).2 (hpair hother).2 hchild)
    · rintro rfl
      rfl
  have hfirsts := map_firstsBy hsame
  rw [List.map_id, List.map_id] at hfirsts
  rw [hedges, links, ← hfirsts]
  exact (map_firstsBy fun _ _ _ _ => Iff.rfl).symm

theorem mem_walk_of_mem_nodes (h : node ∈ nodes root) : node ∈ root.walk := by
  obtain ⟨before, after, hwalk, -⟩ := mem_firstsBy.mp h
  rw [hwalk]
  simp

/-- The node lines of the graph are those of the entities, each with its number of tag usages. -/
theorem map_nodeLine_nodes (hroot : IsFaithful root) (project : Option Path) :
    (nodes root).map (nodeLine project) =
      (entities root).map fun entity => entityLine project (tagCount root entity) entity := by
  rw [← map_entity_nodes hroot, List.map_map]
  refine List.map_congr_left fun node hnode => ?_
  rw [nodeLine_eq_entityLine, Function.comp_apply,
    tagCount_eq hroot (mem_walk_of_mem_nodes hnode)]

/-- The graph of a faithful tree is that of its entities.  It declares each of them once, in the
order of the walk and with the number of its tag usages, and it has one edge for each parent and
child, in that order too.  Different entities have different identifiers, also as they are written,
and both ends of an edge are declared. -/
theorem render_eq_quotient (hroot : IsFaithful root) (project : Option Path) :
    render root project = "\n".intercalate (header ++
        (entities root).map (fun entity => entityLine project (tagCount root entity) entity) ++
        (links root).map linkLine ++ ["\x7d"]) ∧
      FirstsOf (entities root) (root.walk.map Tree.entity) ∧
      FirstsOf (links root) (root.walk.flatMap fun node =>
        node.children.map fun child => (node.entity, child.entity)) ∧
      (∀ node ∈ root.walk, tagCount root node.entity = node.tags.length) ∧
      (∀ entity ∈ entities root, ∀ other ∈ entities root,
        escape (entityId entity) = escape (entityId other) → entity = other) ∧
      ∀ link ∈ links root, link.1 ∈ entities root ∧ link.2 ∈ entities root := by
  refine ⟨?_, firstsOf_firstsBy_id _, firstsOf_firstsBy_id _, fun node => tagCount_eq hroot, ?_,
    fun link => mem_entities_of_mem_links⟩
  · rw [render, lines, map_nodeLine_nodes hroot, edges_eq_map_links hroot, List.map_map]
    rfl
  · intro entity hentity other hother h
    exact eq_of_entityId_eq (isSeparable_of_mem_entities hroot hentity)
      (isSeparable_of_mem_entities hroot hother) (escape_injective h)

/-- A tree in which two classes have a subclass in common, which uses a tag. -/
def diamond : Tree :=
  let usage : TagUsage := ⟨"<c-x>", 1, "<c-x>", some ⟨.root, ["p", "d.html"]⟩⟩
  let common : Tree := ⟨"D", ⟨.root, ["p", "d.js"]⟩, [usage], []⟩
  ⟨"A", ⟨.root, ["p", "a.js"]⟩, [],
    [⟨"B", ⟨.root, ["p", "b.js"]⟩, [], [common]⟩, ⟨"C", ⟨.root, ["p", "c.js"]⟩, [], [common]⟩]⟩

/-- The walk comes to the common subclass twice; the graph has it once, with an edge from either
parent. -/
theorem render_eq_quotient_diamond :
    diamond.walk.map Tree.name = ["A", "B", "D", "C", "D"] ∧
      render diamond none = "\n".intercalate (header ++
        ["  \"A@/p/a.js\" [label=\"A\\na.js\"];", "  \"B@/p/b.js\" [label=\"B\\nb.js\"];",
          "  \"D@/p/d.js\" [label=\"D\\nd.js\\n1 tag usage(s)\"];",
          "  \"C@/p/c.js\" [label=\"C\\nc.js\"];",
          "  \"A@/p/a.js\" -> \"B@/p/b.js\";", "  \"A@/p/a.js\" -> \"C@/p/c.js\";",
          "  \"B@/p/b.js\" -> \"D@/p/d.js\";", "  \"C@/p/c.js\" -> \"D@/p/d.js\";", "\x7d"]) ∧
      ∀ link ∈ links diamond, link.1 ∈ entities diamond ∧ link.2 ∈ entities diamond := by
  have hfaithful : IsFaithful diamond :=
    { separable := by decide +kernel
      tags := by decide +kernel }
  obtain ⟨htext, -, -, -, -, hends⟩ := render_eq_quotient hfaithful none
  refine ⟨by decide, ?_, hends⟩
  rw [htext]
  decide +kernel

end Lineage.Dot

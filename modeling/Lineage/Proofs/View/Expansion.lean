import Lineage.View.Outline

/-!
# Expanded rows

Whoever expands every row of a displayed hierarchy should see all of it, and nothing twice.  The
rows are found by going from each row to those that it expands to, while the tree that they show is
a different thing, with its own children and its own walk.  The two are tied together here: met from
the top down, the rows are those that the nodes of the walk add one after the other, each its own
row and the section of its tags.

An outline shows a row if it carries the row's label and, below it, shows the rows that the row
expands to.  The relation says nothing of trees.  It has one outline for each row, which is what the
recursion over the tree builds.

## Main results

* `shows_iff`: the one outline that shows a row.
* `rows_eq`: the rows of a tree, in terms of its walk.
* `displays_iff`: these are all the rows that expanding can bring up.
* `expansion_of_tree`: expanding shows each node and each tag of a tree once, and it is printed so.
-/

namespace Lineage

/-! ## Outlines from the top down -/

namespace Outline

mutual

/-- The values of an outline: its own, then those of each outline below it in turn. -/
def values {α : Type} : Outline α → List α
  | ⟨value, inner⟩ => value :: valuesAll inner

/-- The values of several outlines, one outline after the other. -/
def valuesAll {α : Type} : List (Outline α) → List α
  | [] => []
  | outline :: outlines => values outline ++ valuesAll outlines

end

variable {α β : Type}

theorem valuesAll_append (outlines others : List (Outline α)) :
    valuesAll (outlines ++ others) = valuesAll outlines ++ valuesAll others := by
  induction outlines with
  | nil => simp [valuesAll]
  | cons outline outlines ih => simp [valuesAll, ih]

mutual

theorem values_map (f : α → β) (outline : Outline α) :
    (outline.map f).values = outline.values.map f := by
  obtain ⟨value, inner⟩ := outline
  rw [map, values, values, List.map_cons, valuesAll_mapAll f inner]

theorem valuesAll_mapAll (f : α → β) (outlines : List (Outline α)) :
    valuesAll (mapAll f outlines) = (valuesAll outlines).map f := by
  match outlines with
  | [] => simp [mapAll, valuesAll]
  | outline :: outlines =>
      rw [mapAll, valuesAll, valuesAll, List.map_append, values_map f outline,
        valuesAll_mapAll f outlines]

end

mutual

theorem map_id (outline : Outline α) : outline.map id = outline := by
  obtain ⟨value, inner⟩ := outline
  rw [map, mapAll_id inner]
  rfl

theorem mapAll_id (outlines : List (Outline α)) : mapAll id outlines = outlines := by
  match outlines with
  | [] => rfl
  | outline :: outlines => rw [mapAll, map_id outline, mapAll_id outlines]

end

end Outline

/-! ## Outlines that show rows -/

namespace Row

variable {α : Type} {label : Row → α}

mutual

/-- The outline carries the row's label, and the outlines below it show what the row expands to. -/
inductive Shows (label : Row → α) : Row → Outline α → Prop
  | expand {row : Row} {inner : List (Outline α)} (hinner : ShowsAll label row.children inner) :
      Shows label row ⟨label row, inner⟩

/-- The outlines show the rows, one each and in their order. -/
inductive ShowsAll (label : Row → α) : List Row → List (Outline α) → Prop
  | nil : ShowsAll label [] []
  | cons {row : Row} {rows : List Row} {outline : Outline α} {outlines : List (Outline α)}
      (hfirst : Shows label row outline) (hothers : ShowsAll label rows outlines) :
      ShowsAll label (row :: rows) (outline :: outlines)

end

mutual

/-- An outline can show a row in one way only. -/
theorem Shows.eq_map (outline : Outline α) {row : Row} (h : Shows label row outline) :
    outline = row.outline.map label := by
  obtain ⟨value, inner⟩ := outline
  cases h with
  | expand hinner => rw [outline_eq, Outline.map, hinner.eq_mapAll inner]

theorem ShowsAll.eq_mapAll (outlines : List (Outline α)) {rows : List Row}
    (h : ShowsAll label rows outlines) :
    outlines = Outline.mapAll label (rows.map Row.outline) := by
  match outlines with
  | [] =>
      cases h with
      | nil => rfl
  | outline :: outlines =>
      cases h with
      | cons hfirst hothers =>
          rw [List.map_cons, Outline.mapAll, ← hfirst.eq_map outline,
            ← hothers.eq_mapAll outlines]

end

mutual

/-- The induction is on the outline of the row, in which everything below the row is smaller. -/
private theorem shows_map (outline : Outline Row) {row : Row} (h : row.outline = outline) :
    Shows label row (outline.map label) := by
  obtain ⟨value, inner⟩ := outline
  rw [outline_eq, Outline.mk.injEq] at h
  obtain ⟨rfl, hinner⟩ := h
  rw [Outline.map]
  exact .expand (showsAll_mapAll inner hinner)

private theorem showsAll_mapAll (outlines : List (Outline Row)) {rows : List Row}
    (h : rows.map Row.outline = outlines) :
    ShowsAll label rows (Outline.mapAll label outlines) := by
  match outlines, rows with
  | [], [] => exact .nil
  | outline :: outlines, row :: rows =>
      obtain ⟨hfirst, hothers⟩ := List.cons.inj h
      exact .cons (shows_map outline hfirst) (showsAll_mapAll outlines hothers)

end

theorem shows_iff {row : Row} {outline : Outline α} :
    Shows label row outline ↔ outline = row.outline.map label := by
  constructor
  · exact fun h => h.eq_map outline
  · rintro rfl
    exact shows_map row.outline rfl

/-! ## Kinds of rows -/

/-- The row of a node. -/
def isEntity : Row → Bool
  | .entity _ => true
  | _ => false

/-- The heading of a node's tags. -/
def isTagSection : Row → Bool
  | .tagSection _ => true
  | _ => false

end Row

/-! ## The rows of a tree -/

namespace Tree

variable {tree node : Tree} {row : Row}

/-- The rows of a tree, as they are met from the top down with all of them expanded. -/
def rows (tree : Tree) : List Row := tree.outline.values

/-- The rows of a node's tags: none, or a section and a leaf for each tag. -/
def tagRows (node : Tree) : List Row :=
  if node.tags.isEmpty then []
  else .tagSection node :: node.tags.map fun usage => .tagLeaf usage node

/-- The rows that a node adds to those of the nodes below it: its own and those of its tags. -/
def ownRows (node : Tree) : List Row := .entity node :: node.tagRows

theorem valuesAll_tagOutline (node : Tree) :
    Outline.valuesAll node.tagOutline = node.tagRows := by
  have hleaves : ∀ usages : List TagUsage,
      Outline.valuesAll (usages.map fun usage => (⟨.tagLeaf usage node, []⟩ : Outline Row)) =
        usages.map fun usage => .tagLeaf usage node := by
    intro usages
    induction usages with
    | nil => rfl
    | cons usage usages ih =>
        rw [List.map_cons, Outline.valuesAll, ih]
        rfl
  rw [tagOutline, tagRows]
  split
  · rfl
  · rw [Outline.valuesAll, Outline.values, hleaves, Outline.valuesAll, List.append_nil]

mutual

/-- Every node of the walk adds its own rows, in the place where the walk comes to it. -/
theorem rows_eq (tree : Tree) : tree.rows = tree.walk.flatMap ownRows := by
  obtain ⟨name, path, tags, children⟩ := tree
  rw [rows, outline, Outline.values, Outline.valuesAll_append, valuesAll_tagOutline,
    valuesAll_outlineAll children, walk, List.flatMap_cons, ownRows, List.cons_append]

theorem valuesAll_outlineAll (trees : List Tree) :
    Outline.valuesAll (outlineAll trees) = (walkAll trees).flatMap ownRows := by
  match trees with
  | [] => simp [outlineAll, walkAll, Outline.valuesAll]
  | tree :: trees =>
      rw [outlineAll, walkAll, Outline.valuesAll, List.flatMap_append,
        valuesAll_outlineAll trees, ← rows_eq tree, rows]

end

theorem mem_rows_iff : row ∈ tree.rows ↔ ∃ node ∈ tree.walk, row ∈ node.ownRows := by
  rw [rows_eq, List.mem_flatMap]

theorem mem_tagRows_iff :
    row ∈ node.tagRows ↔
      node.tags ≠ [] ∧ row = .tagSection node ∨ ∃ usage ∈ node.tags, row = .tagLeaf usage node := by
  rw [tagRows]
  by_cases htags : node.tags = []
  · simp [htags]
  · rw [if_neg (by simpa using htags), List.mem_cons, List.mem_map]
    simp only [ne_eq, htags, not_false_eq_true, true_and, eq_comm (a := row)]

/-! ## Rows of one kind -/

theorem filter_isEntity_ownRows (node : Tree) :
    node.ownRows.filter Row.isEntity = [.entity node] := by
  have htags : node.tagRows.filter Row.isEntity = [] := by
    rw [List.filter_eq_nil_iff]
    intro row hrow
    obtain ⟨-, rfl⟩ | ⟨usage, -, rfl⟩ := mem_tagRows_iff.mp hrow <;> simp [Row.isEntity]
  rw [ownRows, List.filter_cons_of_pos rfl, htags]

theorem filter_isTagSection_ownRows (node : Tree) :
    node.ownRows.filter Row.isTagSection =
      if node.tags.isEmpty then [] else [.tagSection node] := by
  have hleaves :
      (node.tags.map fun usage => Row.tagLeaf usage node).filter Row.isTagSection = [] := by
    rw [List.filter_eq_nil_iff]
    intro row hrow
    obtain ⟨usage, -, rfl⟩ := List.mem_map.mp hrow
    simp [Row.isTagSection]
  rw [ownRows, List.filter_cons_of_neg (by simp [Row.isTagSection]), tagRows]
  split
  · rfl
  · rw [List.filter_cons_of_pos rfl, hleaves]

/-- The rows of entities are those of the nodes of the walk. -/
theorem filter_isEntity_rows (tree : Tree) :
    tree.rows.filter Row.isEntity = tree.walk.map Row.entity := by
  rw [rows_eq, List.filter_flatMap, List.map_eq_flatMap]
  simp only [filter_isEntity_ownRows]

/-- The sections are those of the nodes with tags, one for each. -/
theorem filter_isTagSection_rows (tree : Tree) :
    tree.rows.filter Row.isTagSection =
      (tree.walk.filter fun node => !node.tags.isEmpty).map Row.tagSection := by
  rw [rows_eq, List.filter_flatMap]
  simp only [filter_isTagSection_ownRows]
  induction tree.walk with
  | nil => rfl
  | cons node nodes ih =>
      rw [List.flatMap_cons, ih, List.filter_cons]
      by_cases htags : node.tags.isEmpty = true <;> simp [htags]

/-! ## What expanding brings up -/

/-- The row comes up when rows are expanded, beginning with that of the tree. -/
inductive Displays (tree : Tree) : Row → Prop
  | top : tree.Displays (.entity tree)
  | expand {row child : Row} (hrow : tree.Displays row) (hchild : child ∈ row.children) :
      tree.Displays child

theorem Displays.shown (h : tree.Displays row) : row.Shown := by
  induction h with
  | top => trivial
  | @expand row child hrow hchild ih =>
      cases row with
      | entity node =>
          rw [Row.children, List.mem_append, List.mem_map] at hchild
          obtain hsection | ⟨below, -, rfl⟩ := hchild
          · split at hsection
            · cases hsection
            · next htags =>
                obtain rfl := List.mem_singleton.mp hsection
                simpa [Row.Shown] using htags
          · trivial
      | tagSection node =>
          obtain ⟨usage, -, rfl⟩ := List.mem_map.mp hchild
          trivial
      | tagLeaf usage owner => cases hchild

/-- A row that is met expands to rows that are met. -/
theorem mem_rows_of_mem_children {child : Row} (hrow : row ∈ tree.rows)
    (hchild : child ∈ row.children) : child ∈ tree.rows := by
  obtain ⟨node, hnode, hown⟩ := mem_rows_iff.mp hrow
  rcases List.mem_cons.mp hown with rfl | htags
  · rw [Row.children, List.mem_append, List.mem_map] at hchild
    obtain hsection | ⟨below, hbelow, rfl⟩ := hchild
    · refine mem_rows_iff.mpr ⟨node, hnode, List.mem_cons_of_mem _ (mem_tagRows_iff.mpr (.inl ?_))⟩
      split at hsection
      · cases hsection
      · next htags => exact ⟨by simpa using htags, List.mem_singleton.mp hsection⟩
    · exact mem_rows_iff.mpr
        ⟨below, tree.mem_walk_of_mem_children hnode hbelow, List.mem_cons_self⟩
  · obtain ⟨-, rfl⟩ | ⟨usage, -, rfl⟩ := mem_tagRows_iff.mp htags
    · obtain ⟨usage, husage, rfl⟩ := List.mem_map.mp hchild
      exact mem_rows_iff.mpr ⟨node, hnode,
        List.mem_cons_of_mem _ (mem_tagRows_iff.mpr (.inr ⟨usage, husage, rfl⟩))⟩
    · cases hchild

mutual

/-- The walk is followed downwards, from a row that has come up. -/
private theorem displays_of_mem_walk {root : Tree} (tree : Tree)
    (htree : root.Displays (.entity tree)) (hnode : node ∈ tree.walk) :
    root.Displays (.entity node) := by
  obtain ⟨name, path, tags, children⟩ := tree
  rw [walk, List.mem_cons] at hnode
  rcases hnode with rfl | hnode
  · exact htree
  · refine displays_of_mem_walkAll children (fun child hchild => ?_) hnode
    exact htree.expand (List.mem_append_right _ (List.mem_map_of_mem hchild))

private theorem displays_of_mem_walkAll {root : Tree} (trees : List Tree)
    (htrees : ∀ tree ∈ trees, root.Displays (.entity tree)) (hnode : node ∈ walkAll trees) :
    root.Displays (.entity node) := by
  match trees with
  | [] => cases hnode
  | tree :: trees =>
      rw [walkAll, List.mem_append] at hnode
      rcases hnode with hnode | hnode
      · exact displays_of_mem_walk tree (htrees tree List.mem_cons_self) hnode
      · exact displays_of_mem_walkAll trees
          (fun other hother => htrees other (List.mem_cons_of_mem _ hother)) hnode

end

/-- What expanding can bring up are the rows that are met from the top down. -/
theorem displays_iff : tree.Displays row ↔ row ∈ tree.rows := by
  constructor
  · intro h
    induction h with
    | top => exact mem_rows_iff.mpr ⟨tree, tree.mem_walk_self, List.mem_cons_self⟩
    | expand hrow hchild ih => exact mem_rows_of_mem_children ih hchild
  · intro h
    obtain ⟨node, hnode, hown⟩ := mem_rows_iff.mp h
    have hentity : tree.Displays (.entity node) := displays_of_mem_walk tree .top hnode
    have hsection (htags : node.tags ≠ []) : tree.Displays (.tagSection node) := by
      refine hentity.expand (List.mem_append_left _ ?_)
      rw [if_neg (by simpa using htags)]
      exact List.mem_singleton_self _
    rcases List.mem_cons.mp hown with rfl | hown
    · exact hentity
    · obtain ⟨htags, rfl⟩ | ⟨usage, husage, rfl⟩ := mem_tagRows_iff.mp hown
      · exact hsection htags
      · exact (hsection (List.ne_nil_of_mem husage)).expand (List.mem_map_of_mem husage)

/-- Expanding every row of a tree shows the whole tree once.  The rows that come up are those met
from the top down; each of them is expandable exactly if there is something below it; they are what
the nodes of the walk add in turn, so that there is a row of an entity for each node, with its name
and its file, a section for each node with tags, before all that is below the node, and in it a leaf
for each tag.  The printed tree has the labels of the rows in this very shape, whether or not it
shows paths. -/
theorem expansion_of_tree (tree : Tree) :
    (∀ outline, Row.Shows id (.entity tree) outline ↔ outline = tree.outline) ∧
    (∀ row, tree.Displays row ↔ row ∈ tree.rows) ∧
    (∀ row, tree.Displays row → (row.expandable = true ↔ row.children ≠ [])) ∧
    tree.rows = tree.walk.flatMap ownRows ∧
    ((tree.rows.filter Row.isEntity).map fun row => (row.label, row.target?)) =
      (tree.walk.map fun node => (node.name, some ⟨node.path, none⟩)) ∧
    tree.rows.filter Row.isTagSection =
      (tree.walk.filter fun node => !node.tags.isEmpty).map Row.tagSection ∧
    (∀ node : Tree, ((Row.tagSection node).children.map fun leaf => (leaf.label, leaf.target?)) =
      node.tags.map fun usage =>
        (usage.name, some ⟨usage.file.getD node.path, some usage.line⟩)) ∧
    ∀ showPaths,
      (∀ outline, Row.Shows (Row.markup showPaths) (.entity tree) outline ↔
        outline = tree.render showPaths) ∧
      (tree.render showPaths).values = tree.rows.map (Row.markup showPaths) := by
  have hentities : ((tree.rows.filter Row.isEntity).map fun row => (row.label, row.target?)) =
      tree.walk.map fun node => (node.name, some ⟨node.path, none⟩) := by
    rw [filter_isEntity_rows, List.map_map]
    rfl
  have hleaves : ∀ node : Tree,
      ((Row.tagSection node).children.map fun leaf => (leaf.label, leaf.target?)) =
        node.tags.map fun usage =>
          (usage.name, some ⟨usage.file.getD node.path, some usage.line⟩) := by
    intro node
    rw [Row.children, List.map_map]
    rfl
  have hshape : ∀ outline, Row.Shows id (.entity tree) outline ↔ outline = tree.outline := by
    intro outline
    rw [Row.shows_iff, Outline.map_id]
    rfl
  have hprinted : ∀ showPaths,
      (tree.render showPaths).values = tree.rows.map (Row.markup showPaths) :=
    fun showPaths => Outline.values_map (Row.markup showPaths) tree.outline
  exact ⟨hshape, fun _ => displays_iff, fun _ hrow => Row.expandable_iff hrow.shown, rows_eq tree,
    hentities, filter_isTagSection_rows tree, hleaves,
    fun showPaths => ⟨fun _ => Row.shows_iff, hprinted showPaths⟩⟩

/-- An entity with two tags. -/
def card : Tree :=
  ⟨"Card", ⟨.root, ["card.js"]⟩,
    [⟨"<c-x>", 1, "<c-x><c-y>", none⟩, ⟨"<c-y>", 1, "<c-x><c-y>", none⟩], []⟩

/-- An entity with a tag, above that one and one without tags. -/
def taggedParent : Tree :=
  ⟨"Shelf", ⟨.root, ["shelf.js"]⟩, [⟨"<c-card>", 2, "<c-card>", none⟩],
    [card, ⟨"Row", ⟨.root, ["row.js"]⟩, [], []⟩]⟩

/-- The section of an entity below the top comes up and is expandable, as it expands to leaves. -/
theorem expansion_of_tree_taggedParent :
    taggedParent.rows.map Row.label =
      ["Shelf", "Custom Tags", "card", "Card", "Custom Tags", "x", "y", "Row"] ∧
    taggedParent.Displays (.tagSection card) ∧ (Row.tagSection card).children ≠ [] := by
  obtain ⟨-, -, hexpandable, hrows, -⟩ := expansion_of_tree taggedParent
  have hlabels : taggedParent.rows.map Row.label =
      ["Shelf", "Custom Tags", "card", "Card", "Custom Tags", "x", "y", "Row"] := by
    rw [hrows]
    decide +kernel
  have hcard : taggedParent.Displays (.tagSection card) :=
    (Displays.top.expand (List.mem_append_right _ List.mem_cons_self)).expand List.mem_cons_self
  exact ⟨hlabels, hcard, (hexpandable _ hcard).mp rfl⟩

end Tree

end Lineage

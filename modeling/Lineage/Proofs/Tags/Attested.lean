import Lineage.Proofs.Hierarchy.Agreement

/-!
# Usages and the lines that attest them

A usage is worth something only as far as it can be checked: whoever opens the file and goes to the
line has to find there what the usage says.  Usages come from markup and from imports, out of listed
files and out of templates, and a scan may break off at a faulty file.  None of this matters to a
single usage: wherever it ended up, it was made from one line of one text that was read from the
file it names.

## Main results

* `attestedBy_of_mem_inMarkup`, `attestedBy_of_mem_inImports`: what a usage says of its line.
* `attests_of_mem_collectTags`: the usages of an entity are attested by the files they name.
* `usages_attested`: so are all usages of a project and of its hierarchies.
-/

namespace Lineage

/-! ## Lines -/

namespace TagUsage

variable {settings : Settings} {usage : TagUsage} {file : Option Path} {text line : String}

theorem mem_numberedLines_iff {number : Nat} :
    (number, line) ∈ numberedLines text ↔
      1 ≤ number ∧ (Text.lines text.toList)[number - 1]? = some line.toList := by
  rw [numberedLines, List.mem_map]
  constructor
  · rintro ⟨⟨chars, index⟩, hindexed, hsame⟩
    obtain ⟨rfl, rfl⟩ := Prod.mk.inj hsame
    rw [String.toList_ofList]
    exact List.mk_mem_zipIdx_iff_le_and_getElem?_sub.mp hindexed
  · intro hline
    refine ⟨(line.toList, number), List.mk_mem_zipIdx_iff_le_and_getElem?_sub.mpr hline, ?_⟩
    exact congrArg (Prod.mk number) String.ofList_toList

/-- The usage tells the truth about a line of a text: its number, its contents without the blanks
around them, and a tag that the line opens or that stands for the component it imports. -/
structure AttestedBy (usage : TagUsage) (settings : Settings) (text line : String) : Prop where
  one_le : 1 ≤ usage.line
  le_length : usage.line ≤ (Text.lines text.toList).length
  line_eq : (Text.lines text.toList)[usage.line.toNat - 1]? = some line.toList
  context_eq : usage.context = Text.stripped line
  tag : usage.tag ∈ Lexical.Tag.findAll line settings.tagPrefix ∨
    ∃ ident, Lexical.Import.component? line settings.importNamespace = some ident ∧
      usage.tag = Lexical.Tag.format settings.tagPrefix (Lexical.Tag.kebab ident)

/-- A usage made from a numbered line tells where the line stands. -/
theorem attestedBy_of_mem_numberedLines {number : Nat} {tag : String}
    (hline : (number, line) ∈ numberedLines text)
    (htag : tag ∈ Lexical.Tag.findAll line settings.tagPrefix ∨
      ∃ ident, Lexical.Import.component? line settings.importNamespace = some ident ∧
        tag = Lexical.Tag.format settings.tagPrefix (Lexical.Tag.kebab ident)) :
    AttestedBy ⟨tag, number, Text.stripped line, file⟩ settings text line := by
  obtain ⟨hnumber, hthere⟩ := mem_numberedLines_iff.mp hline
  obtain ⟨hlength, -⟩ := List.getElem?_eq_some_iff.mp hthere
  refine ⟨?_, ?_, hthere, rfl, htag⟩
  · show (1 : Int) ≤ number
    omega
  · show (number : Int) ≤ _
    omega

theorem attestedBy_of_mem_inMarkup (h : usage ∈ inMarkup text settings.tagPrefix file) :
    usage.file = file ∧ ∃ line, usage.AttestedBy settings text line := by
  obtain ⟨⟨number, line⟩, hline, husage⟩ := List.mem_flatMap.mp h
  obtain ⟨tag, htag, rfl⟩ := List.mem_map.mp husage
  exact ⟨rfl, line, attestedBy_of_mem_numberedLines hline (.inl htag)⟩

theorem attestedBy_of_mem_inImports
    (h : usage ∈ inImports text settings.importNamespace settings.tagPrefix file) :
    usage.file = file ∧ ∃ line, usage.AttestedBy settings text line := by
  obtain ⟨⟨number, line⟩, hline, husage⟩ := List.mem_filterMap.mp h
  obtain ⟨ident, hident, rfl⟩ := Option.map_eq_some_iff.mp husage
  exact ⟨rfl, line, attestedBy_of_mem_numberedLines hline (.inr ⟨ident, hident, rfl⟩)⟩

end TagUsage

/-! ## Files -/

namespace Project

variable {project : Project} {memory : Memory} {usage : TagUsage} {file : Path}

/-- A file that the index can read attests the usage by one of its lines. -/
def Attests (project : Project) (memory : Memory) (usage : TagUsage) : Prop :=
  ∃ file text line, usage.file = some file ∧
    ((project.read file).run memory).1 = .ok text ∧
    usage.AttestedBy project.settings text line

theorem attests_of_view {text : String} (hview : project.view memory file = .ok text)
    (h : usage.file = some file ∧ ∃ line, usage.AttestedBy project.settings text line) :
    project.Attests memory usage := by
  obtain ⟨hfile, line, hattested⟩ := h
  exact ⟨file, text, line, hfile, hview, hattested⟩

theorem attests_of_mem_tags (h : usage ∈ (project.tags.run memory).1) :
    project.Attests memory usage := by
  obtain ⟨file, text, -, hview, husage⟩ := mem_tags_iff.mp h
  exact attests_of_view hview (TagUsage.attestedBy_of_mem_inMarkup husage)

/-- A scan of templates that breaks off has told the truth up to there. -/
theorem attests_of_mem_templateTags {templates : List Path}
    (h : usage ∈ ((project.templateTags templates).run memory).1.tags) :
    project.Attests memory usage := by
  induction templates with
  | nil => cases h
  | cons path templates ih =>
      rw [answer_templateTags_cons] at h
      cases hview : project.view memory path with
      | error failure =>
          rw [hview] at h
          cases h
      | ok text =>
          rw [hview] at h
          rcases List.mem_append.mp h with hfirst | hothers
          · exact attests_of_view hview (TagUsage.attestedBy_of_mem_inMarkup hfirst)
          · exact ih hothers

theorem attests_of_mem_importTags (h : usage ∈ ((project.importTags file).run memory).1.tags) :
    project.Attests memory usage := by
  rw [importTags] at h
  split at h
  · rw [answer_tagsIn] at h
    cases hview : project.view memory file with
    | error failure =>
        rw [hview] at h
        cases h
    | ok text =>
        rw [hview] at h
        exact attests_of_view hview (TagUsage.attestedBy_of_mem_inImports h)
  · cases h

theorem attests_of_mem_collectTags (h : usage ∈ ((project.collectTags file).run memory).1.tags) :
    project.Attests memory usage := by
  rw [answer_collectTags] at h
  split at h
  · dsimp only at h
    split at h
    · exact attests_of_mem_templateTags h
    · rcases List.mem_append.mp h with htemplates | himports
      · exact attests_of_mem_templateTags htemplates
      · exact attests_of_mem_importTags himports
  · cases h

/-- No usage is made up: all that are found in the markup of a project, and all that stand at a node
of any hierarchy, name a file that the index can read and tell the truth about one of its lines. -/
theorem usages_attested (project : Project) (memory : Memory) :
    (∀ usage ∈ (project.tags.run memory).1, project.Attests memory usage) ∧
      ∀ root, ∀ tree ∈ ((project.hierarchy root).run memory).1, ∀ node ∈ tree.walk,
        ∀ usage ∈ node.tags, project.Attests memory usage := by
  refine ⟨fun usage => attests_of_mem_tags, ?_⟩
  intro root tree htree node hnode usage husage
  obtain ⟨-, htags⟩ := tags_of_mem_walk htree hnode rfl
  rw [← htags] at husage
  exact attests_of_mem_collectTags husage

/-- The root of a hierarchy has a usage that comes from an import. -/
theorem usages_attested_importing :
    ∃ tree ∈ ((importing.hierarchy "A").run {}).1, ∃ usage ∈ tree.tags,
      usage.tag = "<c-x>" ∧ importing.Attests {} usage := by
  have htags : ((importing.hierarchy "A").run {}).1.map
      (fun tree => tree.tags.map TagUsage.tag) = some ["<c-x>"] := by decide +kernel
  obtain ⟨tree, htree, hmap⟩ := Option.map_eq_some_iff.mp htags
  obtain ⟨usage, husages, htag⟩ := List.map_eq_singleton_iff.mp hmap
  have husage : usage ∈ tree.tags := by
    rw [husages]
    exact List.mem_singleton_self usage
  have hroot : tree ∈ tree.walk := by
    rw [Tree.walk_eq_cons]
    exact List.mem_cons_self
  exact ⟨tree, htree, usage, husage, htag,
    (usages_attested importing {}).2 "A" tree htree tree hroot usage husage⟩

end Project

end Lineage

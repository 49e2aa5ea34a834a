import Lineage.Proofs.Hierarchy.Reach
import Lineage.Proofs.Scan.Kinds
import Lineage.Proofs.Tags.Attested

/-!
# The tags of a template, counted twice

A template is searched for tags on two occasions.  For an entity it is looked for beside the file,
under the base of the file's name completed by a markup extension.  For the project it comes from
the listing of all markup, in which every file stands once and which knows a file by its suffix.

A template with any tags gives the same of them on both occasions exactly if it is listed as markup
and stands only once beside the file.  Ordinary extensions see to both.  An extension that is given
twice does not: the template stands twice beside the file, and the entity has each of its tags
twice. Nor does an extension of several parts, which completes a name that no listing takes for
markup.

## Main results

* `answer_tags_eq_flatMap`, `tags_of_answer_collectTags`: both are put together from what single
  files give.
* `inFile_collectTags_eq_iff`: exactly when they agree on a template.
* `inFile_collectTags_of_ordinary`: with ordinary extensions they always do.
-/

namespace Lineage

/-! ## Names completed by an extension -/

namespace Path

/-- An extension of one part. -/
def IsOrdinary (extension : String) : Prop :=
  ∃ part, part ≠ [] ∧ '.' ∉ part ∧ '/' ∉ part ∧ extension.toList = '.' :: part

theorem slash_not_mem_of_isOrdinary {extension : String} (h : IsOrdinary extension) :
    '/' ∉ extension.toList := by
  obtain ⟨part, -, -, hslash, heq⟩ := h
  rw [heq]
  exact List.not_mem_cons_of_ne_of_not_mem (by decide) hslash

/-- Completing a base by an ordinary extension gives a name that splits into the two. -/
theorem splitName_append {base part : List Char} (hbase : base ≠ []) (hpart : part ≠ [])
    (hdot : '.' ∉ part) : splitName (base ++ '.' :: part) = (base, '.' :: part) := by
  have hrun : ∀ c ∈ part.reverse, decide (c ≠ '.') = true := by
    intro c hc
    rw [decide_eq_true_iff]
    rintro rfl
    exact hdot (List.mem_reverse.mp hc)
  have hreverse : (base ++ '.' :: part).reverse = part.reverse ++ '.' :: base.reverse := by simp
  obtain ⟨c, stem, hstem⟩ := List.exists_cons_of_ne_nil (List.reverse_ne_nil_iff.mpr hbase)
  have hback : (c :: stem).reverse = base := by rw [← hstem, List.reverse_reverse]
  rw [splitName, hreverse]
  simp only [List.takeWhile_append_of_pos hrun, List.dropWhile_append_of_pos hrun]
  rw [List.takeWhile_cons_of_neg (by simp), List.dropWhile_cons_of_neg (by simp), hstem]
  simp [hpart, hback]

theorem suffix_child (directory : Path) {base : List Char} {extension : String} (hbase : base ≠ [])
    (hordinary : IsOrdinary extension) :
    (directory.child (String.ofList base ++ extension)).suffix = extension := by
  obtain ⟨part, hpart, hdot, -, heq⟩ := hordinary
  have hname : (directory.child (String.ofList base ++ extension)).name.toList =
      base ++ '.' :: part := by
    rw [Path.name, Path.child, List.getLast?_concat, Option.getD_some, String.toList_append,
      String.toList_ofList, heq]
  rw [Path.suffix, hname, splitName_append hbase hpart hdot, ← heq, String.ofList_toList]

end Path

/-! ## Usages by file -/

/-- A list repeated is itself only if it is repeated once, or has nothing to repeat. -/
theorem flatten_replicate_eq_self_iff {α : Type} {n : Nat} {l : List α} (hn : 0 < n) :
    (List.replicate n l).flatten = l ↔ (List.replicate n l).flatten = [] ∨ n = 1 := by
  constructor
  · intro h
    have hlength := congrArg List.length h
    rw [List.length_flatten, List.map_replicate, List.sum_replicate_nat] at hlength
    rcases Nat.eq_zero_or_pos l.length with hnone | hsome
    · left
      rw [h, List.eq_nil_of_length_eq_zero hnone]
    · right
      exact Nat.eq_of_mul_eq_mul_right hsome (hlength.trans (Nat.one_mul _).symm)
  · rintro (hnone | rfl)
    · obtain ⟨m, rfl⟩ := Nat.exists_eq_succ_of_ne_zero hn.ne'
      rw [List.replicate_succ, List.flatten_cons] at hnone
      rw [List.replicate_succ, List.flatten_cons, hnone, (List.append_eq_nil_iff.mp hnone).1]
    · simp

namespace TagUsage

variable {path other : Path} {usages : List TagUsage}

/-- The usages found in a file. -/
def inFile (path : Path) (usages : List TagUsage) : List TagUsage :=
  usages.filter fun usage => usage.file = some path

theorem inFile_append (others : List TagUsage) :
    inFile path (usages ++ others) = inFile path usages ++ inFile path others :=
  List.filter_append usages others

theorem inFile_of_file (h : ∀ usage ∈ usages, usage.file = some other) :
    inFile path usages = if other = path then usages else [] := by
  split
  · next hsame =>
      subst hsame
      rw [inFile, List.filter_eq_self]
      intro usage husage
      simpa using h usage husage
  · next hdiffer =>
      rw [inFile, List.filter_eq_nil_iff]
      intro usage husage
      rw [h usage husage]
      simpa using hdiffer

end TagUsage

namespace Project

variable {project : Project} {memory : Memory} {file path : Path} {templates : List Path}

/-! ## What single files give -/

/-- The tags of a file in sight that is taken for markup. -/
def markupIn (project : Project) (memory : Memory) (path : Path) : List TagUsage :=
  match project.view memory path with
  | .ok text => TagUsage.inMarkup text project.settings.tagPrefix (some path)
  | .error _ => []

/-- The tags that a file in sight implies by its imports. -/
def importsIn (project : Project) (memory : Memory) (path : Path) : List TagUsage :=
  if project.settings.kindOf path = some .logic then
    match project.view memory path with
    | .ok text =>
        TagUsage.inImports text project.settings.importNamespace project.settings.tagPrefix
          (some path)
    | .error _ => []
  else []

theorem file_of_mem_markupIn {usage : TagUsage} (h : usage ∈ project.markupIn memory path) :
    usage.file = some path := by
  rw [markupIn] at h
  split at h
  · exact (TagUsage.attestedBy_of_mem_inMarkup h).1
  · cases h

theorem file_of_mem_importsIn {usage : TagUsage} (h : usage ∈ project.importsIn memory path) :
    usage.file = some path := by
  rw [importsIn] at h
  split at h
  · split at h
    · exact (TagUsage.attestedBy_of_mem_inImports h).1
    · cases h
  · cases h

/-- Each time that a file is among those searched it gives its tags once. -/
theorem inFile_flatMap_markupIn (paths : List Path) :
    TagUsage.inFile path (paths.flatMap (project.markupIn memory)) =
      (List.replicate (paths.count path) (project.markupIn memory path)).flatten := by
  induction paths with
  | nil => rfl
  | cons other paths ih =>
      have hother : TagUsage.inFile path (project.markupIn memory other) =
          if other = path then project.markupIn memory other else [] :=
        TagUsage.inFile_of_file fun _ => file_of_mem_markupIn
      rw [List.flatMap_cons, TagUsage.inFile_append, ih, hother, List.count_cons]
      by_cases hsame : other = path
      · rw [if_pos hsame, if_pos (beq_iff_eq.mpr hsame), hsame, List.replicate_succ,
          List.flatten_cons]
      · rw [if_neg hsame, if_neg (by simpa using hsame), List.nil_append, Nat.add_zero]

/-- A file taken for markup is not searched for imports. -/
theorem inFile_importsIn_of_markup (hkind : project.settings.kindOf path = some .markup) :
    TagUsage.inFile path (project.importsIn memory file) = [] := by
  rw [TagUsage.inFile_of_file fun _ => file_of_mem_importsIn]
  split
  · next hsame =>
      have hcode : project.settings.kindOf file ≠ some .logic := by
        rw [hsame, hkind]
        decide
      rw [importsIn, if_neg hcode]
  · rfl

/-! ## What they come to -/

theorem answer_tags_eq_flatMap (memory : Memory) :
    (project.tags.run memory).1 =
      ((project.files project.settings.markupExtensions none).map SourceFile.path).flatMap
        (project.markupIn memory) := by
  rw [answer_tags, legible, List.flatMap_map]
  induction project.files project.settings.markupExtensions none with
  | nil => rfl
  | cons file files ih =>
      rw [List.filterMap_cons, List.flatMap_cons, ← ih, markupIn]
      cases project.view memory file.path <;> rfl

theorem answer_templateTags
    (hlegible : ∀ path ∈ templates, ∃ text, project.view memory path = .ok text) :
    ((project.templateTags templates).run memory).1 =
      ⟨templates.flatMap (project.markupIn memory), none⟩ := by
  induction templates with
  | nil => rfl
  | cons path templates ih =>
      have hothers := ih fun other hother => hlegible other (List.mem_cons_of_mem _ hother)
      obtain ⟨text, htext⟩ := hlegible path List.mem_cons_self
      rw [answer_templateTags_cons, htext, hothers, List.flatMap_cons, markupIn, htext]

theorem tags_of_answer_importTags :
    ((project.importTags file).run memory).1.tags = project.importsIn memory file := by
  rw [importTags, importsIn]
  split
  · rw [answer_tagsIn]
    cases project.view memory file <;> rfl
  · rfl

/-- Without faults, what is there can be read. -/
theorem exists_view_of_isFile (hunreadable : project.store.unreadable = [])
    (hfile : project.store.isFile path = .ok true) :
    ∃ text, project.view memory path = .ok text := by
  obtain ⟨-, bytes, haccess⟩ := Store.isFile_eq_true_iff.mp hfile
  rw [view, Memory.peek]
  split
  · next text _ => exact ⟨text, rfl⟩
  · rw [Store.readText_of_access haccess, hunreadable, if_neg List.not_mem_nil]
    exact ⟨_, rfl⟩

theorem tags_of_answer_collectTags (hunreadable : project.store.unreadable = [])
    (htemplates : project.templates file = .ok templates) :
    ((project.collectTags file).run memory).1.tags =
      templates.flatMap (project.markupIn memory) ++ project.importsIn memory file := by
  have hlegible : ∀ path ∈ templates, ∃ text, project.view memory path = .ok text :=
    fun path hpath =>
      exists_view_of_isFile hunreadable (isFile_of_mem_onlyFiles htemplates path hpath)
  rw [answer_collectTags, htemplates]
  dsimp only
  rw [answer_templateTags hlegible, tags_of_answer_importTags]

/-! ## Templates in the listing of markup -/

theorem mem_markupListing_iff (hlower : project.settings.IsLowerCase) :
    path ∈ (project.files project.settings.markupExtensions none).map SourceFile.path ↔
      project.Listed path ∧ project.settings.kindOf path = some .markup := by
  rw [Settings.kindOf_eq_markup_iff_hasExtension hlower, List.mem_map]
  constructor
  · rintro ⟨file, hfile, rfl⟩
    obtain ⟨-, -, -, hextension, -, -⟩ := mem_files_iff.mp hfile
    exact ⟨listed_of_mem_files hfile, hextension⟩
  · rintro ⟨hlisted, hextension⟩
    have hkind := (Settings.kindOf_eq_markup_iff_hasExtension hlower).mpr hextension
    exact ⟨⟨path, .markup⟩, mem_files_iff.mpr ⟨hlisted.plain, hlisted.liesBelow,
      hlisted.isFile, hextension, admits_none_of_reaches hlisted.reaches, hkind⟩, rfl⟩

/-- The project counts the tags of a listed file of markup once. -/
theorem inFile_tags_of_markup (hlower : project.settings.IsLowerCase)
    (hlisted : project.Listed path) (hkind : project.settings.kindOf path = some .markup) :
    TagUsage.inFile path (project.tags.run memory).1 = project.markupIn memory path := by
  have hmem := (mem_markupListing_iff hlower).mpr ⟨hlisted, hkind⟩
  rw [answer_tags_eq_flatMap, inFile_flatMap_markupIn,
    List.count_eq_one_of_mem (project.nodup_paths_files _ _) hmem]
  simp

/-- It counts the tags of no other file. -/
theorem inFile_tags_of_not_markup (hlower : project.settings.IsLowerCase)
    (h : ¬ (project.Listed path ∧ project.settings.kindOf path = some .markup)) :
    TagUsage.inFile path (project.tags.run memory).1 = [] := by
  have hnone := mt (mem_markupListing_iff hlower).mp h
  rw [answer_tags_eq_flatMap, inFile_flatMap_markupIn, List.count_eq_zero_of_not_mem hnone]
  rfl

/-! ## Agreement -/

theorem inFile_collectTags_eq_iff (hunreadable : project.store.unreadable = [])
    (hlower : project.settings.IsLowerCase) (htemplates : project.templates file = .ok templates)
    (hpath : path ∈ templates) :
    TagUsage.inFile path ((project.collectTags file).run memory).1.tags =
        TagUsage.inFile path (project.tags.run memory).1 ↔
      TagUsage.inFile path ((project.collectTags file).run memory).1.tags = [] ∨
        (project.Listed path ∧ project.settings.kindOf path = some .markup) ∧
          templates.count path = 1 := by
  by_cases hmarkup : project.Listed path ∧ project.settings.kindOf path = some .markup
  · rw [inFile_tags_of_markup hlower hmarkup.1 hmarkup.2,
      tags_of_answer_collectTags hunreadable htemplates, TagUsage.inFile_append,
      inFile_flatMap_markupIn, inFile_importsIn_of_markup hmarkup.2, List.append_nil,
      flatten_replicate_eq_self_iff (List.count_pos_iff.mpr hpath), and_iff_right hmarkup]
  · rw [inFile_tags_of_not_markup hlower hmarkup]
    simp only [hmarkup, false_and, or_false]

/-! ## Ordinary extensions -/

/-- The base of a file's name. -/
def baseName (file : Path) : List Char := file.name.toList.takeWhile (· ≠ '.')

/-- With ordinary extensions the place of a template is a child of the file's directory. -/
theorem place_eq_child {extension : String} (hplain : file.IsPlain) (hbase : baseName file ≠ [])
    (hordinary : Path.IsOrdinary extension) :
    file.parent.join (.ofString (String.ofList (baseName file) ++ extension)) =
      file.parent.child (String.ofList (baseName file) ++ extension) := by
  have hslash : '/' ∉ (String.ofList (baseName file) ++ extension).toList := by
    rw [String.toList_append, String.toList_ofList, List.mem_append, not_or]
    exact ⟨fun h => slash_not_mem_name hplain ((List.takeWhile_sublist _).mem h),
      Path.slash_not_mem_of_isOrdinary hordinary⟩
  rcases Path.ofString_cases hslash with hnone | hone
  · exfalso
    obtain ⟨part, hpart, -, -, heq⟩ := hordinary
    obtain ⟨c, rest, hc⟩ := List.exists_cons_of_ne_nil hbase
    have hnames := congrArg Path.names hnone
    rw [Path.ofString, Text.fields_eq_singleton hslash, String.toList_append,
      String.toList_ofList, heq, hc] at hnames
    simp [Path.isProperName] at hnames
  · rw [hone, Path.join_relative_singleton]

/-- Ordinary extensions, each given once, let the tags of an entity and of the project agree on
every template. -/
theorem inFile_collectTags_of_ordinary (hunreadable : project.store.unreadable = [])
    (hlower : project.settings.IsLowerCase)
    (hordinary : ∀ extension ∈ project.settings.markupExtensions, Path.IsOrdinary extension)
    (hnodup : project.settings.markupExtensions.Nodup) (hlisted : project.Listed file)
    (hbase : baseName file ≠ []) (htemplates : project.templates file = .ok templates)
    (hpath : path ∈ templates) :
    TagUsage.inFile path ((project.collectTags file).run memory).1.tags =
      TagUsage.inFile path (project.tags.run memory).1 := by
  have hslash : ∀ extension ∈ project.settings.markupExtensions, '/' ∉ extension.toList :=
    fun extension hextension => Path.slash_not_mem_of_isOrdinary (hordinary extension hextension)
  have hplaces : project.templatePlaces file =
      project.settings.markupExtensions.map fun extension =>
        file.parent.child (String.ofList (baseName file) ++ extension) :=
    List.map_congr_left fun extension hextension =>
      place_eq_child hlisted.plain hbase (hordinary extension hextension)
  have hsublist := sublist_of_onlyFiles htemplates
  rw [hplaces] at hsublist
  have hkind : project.settings.kindOf path = some .markup := by
    obtain ⟨extension, hextension, rfl⟩ := List.mem_map.mp (hsublist.mem hpath)
    rw [Settings.kindOf_eq_markup_iff, Path.suffix_child _ hbase (hordinary extension hextension),
      hlower extension (List.mem_append_right _ hextension)]
    exact hextension
  have honce : templates.count path = 1 := by
    refine List.count_eq_one_of_mem (hsublist.nodup (hnodup.map_on ?_)) hpath
    intro extension hextension other hother hsame
    have hsuffix := congrArg Path.suffix hsame
    rwa [Path.suffix_child _ hbase (hordinary extension hextension),
      Path.suffix_child _ hbase (hordinary other hother)] at hsuffix
  refine (inFile_collectTags_eq_iff hunreadable hlower htemplates hpath).mpr (.inr ?_)
  exact ⟨⟨listed_of_mem_templates hlisted hslash htemplates path hpath, hkind⟩, honce⟩

/-! ## Entities -/

/-- Whatever overrides led to the settings, the tags that an entity has from a template are those
that the project has from it, in the same order and as often, exactly if there are none or the
template is listed as markup and stands once beside the entity's file. -/
theorem tagsAt_agrees_iff {base : Settings} {values : Table} {later : Memory} {source : SourceFile}
    (hunreadable : project.store.unreadable = []) (hbase : base.IsLowerCase)
    (hsettings : base.withOverrides values = .ok project.settings)
    (hview : project.view later = project.view memory)
    (hsource : source ∈ project.files project.settings.allExtensions none)
    (htemplates : project.templates source.path = .ok templates) (hpath : path ∈ templates)
    (name : String) :
    ∃ usages, ((project.tagsAt name source.path).run later).1 = .ok usages ∧
      (TagUsage.inFile path usages = TagUsage.inFile path (project.tags.run memory).1 ↔
        TagUsage.inFile path usages = [] ∨
          (project.Listed path ∧ project.settings.kindOf path = some .markup) ∧
            templates.count path = 1) := by
  have hlower := Settings.isLowerCase_of_withOverrides hbase hsettings
  have hsame := (steady_collectTags source.path).answer_eq _ _ hview
  refine ⟨_, answer_tagsAt (isFile_of_mem_files hsource) name later, ?_⟩
  rw [hsame]
  exact inFile_collectTags_eq_iff hunreadable hlower htemplates hpath

/-- A project with two templates of one entity, whose settings have the extension of one of them
twice. -/
def doubled : Project where
  store :=
    { entries := [(["p"], .directory), (["p", "card.html"], .file "<c-x>".toUTF8.toList),
        (["p", "card.js"], .file "class Card {}".toUTF8.toList),
        (["p", "card.xml"], .file "<c-y>".toUTF8.toList)] }
  root := ⟨.root, ["p"]⟩
  settings := { markupExtensions := [".html", ".html", ".xml"] }

/-- Overrides that lead to these settings. -/
def repeatedExtension : Table :=
  [("markup_extensions", .list [.scalar (.text "html"), .scalar (.text ".HTML"),
    .scalar (.text "xml")])]

theorem withOverrides_repeatedExtension :
    Settings.withOverrides {} repeatedExtension = .ok doubled.settings := by
  rfl

theorem templates_doubled :
    doubled.templates ⟨.root, ["p", "card.js"]⟩ = .ok [⟨.root, ["p", "card.html"]⟩,
      ⟨.root, ["p", "card.html"]⟩, ⟨.root, ["p", "card.xml"]⟩] := by
  rfl

theorem below_doubled :
    doubled.store.below doubled.root = [⟨.root, ["p", "card.html"]⟩,
      ⟨.root, ["p", "card.js"]⟩, ⟨.root, ["p", "card.xml"]⟩] :=
  Store.below_eq_of_sorted rfl (by decide)

theorem mem_files_doubled :
    (⟨⟨.root, ["p", "card.js"]⟩, .logic⟩ : SourceFile) ∈
      doubled.files doubled.settings.allExtensions none := by
  rw [files_eq_of_below below_doubled]
  decide

theorem length_tags_doubled :
    (TagUsage.inFile ⟨.root, ["p", "card.html"]⟩ (doubled.tags.run {}).1).length = 1 ∧
      (TagUsage.inFile ⟨.root, ["p", "card.xml"]⟩ (doubled.tags.run {}).1).length = 1 := by
  rw [answer_tags_eq_flatMap, files_eq_of_below below_doubled]
  decide +kernel

/-- The entity and the project agree on the template whose extension is given once. -/
theorem tagsAt_agrees_iff_doubled :
    ∃ usages, ((doubled.tagsAt "Card" ⟨.root, ["p", "card.js"]⟩).run {}).1 = .ok usages ∧
      TagUsage.inFile ⟨.root, ["p", "card.xml"]⟩ usages =
        TagUsage.inFile ⟨.root, ["p", "card.xml"]⟩ (doubled.tags.run {}).1 ∧
      (TagUsage.inFile ⟨.root, ["p", "card.xml"]⟩ usages).length = 1 := by
  have hbase : Settings.IsLowerCase {} := by decide +kernel
  have hview : doubled.view {} = doubled.view {} := rfl
  have hpath : (⟨.root, ["p", "card.xml"]⟩ : Path) ∈ [⟨.root, ["p", "card.html"]⟩,
      ⟨.root, ["p", "card.html"]⟩, ⟨.root, ["p", "card.xml"]⟩] := by decide
  obtain ⟨usages, husages, hiff⟩ := tagsAt_agrees_iff rfl hbase
    withOverrides_repeatedExtension hview mem_files_doubled templates_doubled hpath "Card"
  have hlisted : doubled.Listed ⟨.root, ["p", "card.xml"]⟩ := by
    refine ⟨by decide, by decide, ⟨by decide, by decide⟩, by decide +kernel⟩
  have hagree := hiff.mpr (.inr ⟨⟨hlisted, by decide +kernel⟩, by decide⟩)
  refine ⟨usages, husages, hagree, ?_⟩
  rw [hagree]
  exact length_tags_doubled.2

/-- On the template whose extension is given twice they do not, although nothing is faulty: the
entity has its one tag twice. -/
theorem tagsAt_disagrees_doubled :
    Settings.withOverrides {} repeatedExtension = .ok doubled.settings ∧
      doubled.store.unreadable = [] ∧ doubled.store.unstatable = [] ∧
      (⟨⟨.root, ["p", "card.js"]⟩, .logic⟩ : SourceFile) ∈
        doubled.files doubled.settings.allExtensions none ∧
      (∃ templates, doubled.templates ⟨.root, ["p", "card.js"]⟩ = .ok templates ∧
        ⟨.root, ["p", "card.html"]⟩ ∈ templates) ∧
      ∃ usages, ((doubled.tagsAt "Card" ⟨.root, ["p", "card.js"]⟩).run {}).1 = .ok usages ∧
        (TagUsage.inFile ⟨.root, ["p", "card.html"]⟩ usages).length = 2 ∧
        (TagUsage.inFile ⟨.root, ["p", "card.html"]⟩ (doubled.tags.run {}).1).length = 1 := by
  refine ⟨withOverrides_repeatedExtension, rfl, rfl, mem_files_doubled,
    ⟨_, templates_doubled, by decide⟩, ?_⟩
  refine ⟨_, answer_tagsAt (isFile_of_mem_files mem_files_doubled) "Card" {}, ?_,
    length_tags_doubled.1⟩
  rw [tags_of_answer_collectTags rfl templates_doubled]
  decide +kernel

end Project

end Lineage

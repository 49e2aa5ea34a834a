import Lineage.Proofs.Scan.Listing
import Lineage.Proofs.Unicode.LetterCase

/-!
# Kinds of files

What a file is taken for is told twice over.  A listing compares its suffix with extensions that it
brings to lower case itself, while the kind of a file is told from the extensions as they are in the
settings.  Overriding a setting brings the extensions to lower case, and then both come to the same:
the files of a kind are those of the listing made for it.

In one direction this holds whatever the settings are: a file that is listed at all is in the
listing of its kind, since its suffix in lower case stays as it is when it is brought to lower case
again.

## Main results

* `Settings.isLowerCase_of_withOverrides`: overriding leaves the extensions in lower case.
* `Project.mem_files_of_kind`: a listed file is in the listing of its kind.
* `Settings.kindOf_eq_markup_iff_hasExtension`: the listing of markup looks for just that kind.
-/

namespace Lineage

/-! ## Computations that may fail -/

section

variable {ε α β : Type} {outcome : Except ε α} {next : α → Except ε β}

theorem bind_eq_ok_iff {b : β} :
    (outcome >>= next) = .ok b ↔ ∃ a, outcome = .ok a ∧ next a = .ok b := by
  cases outcome with
  | error error =>
      constructor
      · intro h
        cases h
      · rintro ⟨a, h, -⟩
        cases h
  | ok a =>
      constructor
      · exact fun h => ⟨a, rfl, h⟩
      · rintro ⟨a', h, hnext⟩
        cases h
        exact hnext

/-- What a list is made of was made from members of the other. -/
theorem exists_of_mem_mapM {as : List α} {bs : List β} {b : β} (h : as.mapM next = .ok bs)
    (hb : b ∈ bs) : ∃ a ∈ as, next a = .ok b := by
  induction as generalizing bs with
  | nil =>
      cases h
      cases hb
  | cons a as ih =>
      rw [List.mapM_cons] at h
      obtain ⟨first, hfirst, h⟩ := bind_eq_ok_iff.mp h
      obtain ⟨others, hothers, h⟩ := bind_eq_ok_iff.mp h
      cases h
      rcases List.mem_cons.mp hb with rfl | hb
      · exact ⟨a, List.mem_cons_self, hfirst⟩
      · obtain ⟨a', ha', hnext⟩ := ih hothers hb
        exact ⟨a', List.mem_cons_of_mem a ha', hnext⟩

/-- A list is made of another one if something is made of each member. -/
theorem exists_mapM_eq_ok_iff {as : List α} :
    (∃ bs, as.mapM next = .ok bs) ↔ ∀ a ∈ as, ∃ b, next a = .ok b := by
  induction as with
  | nil => exact iff_of_true ⟨[], rfl⟩ fun a ha => absurd ha List.not_mem_nil
  | cons a as ih =>
      rw [List.forall_mem_cons, ← ih, List.mapM_cons]
      constructor
      · rintro ⟨bs, h⟩
        obtain ⟨b, hb, h⟩ := bind_eq_ok_iff.mp h
        obtain ⟨others, hothers, -⟩ := bind_eq_ok_iff.mp h
        exact ⟨⟨b, hb⟩, others, hothers⟩
      · rintro ⟨⟨b, hb⟩, others, hothers⟩
        rw [hb, hothers]
        exact ⟨b :: others, rfl⟩

end

namespace Settings

variable {settings : Settings} {path : Path} {kind : FileKind}

/-! ## Overrides -/

section

variable {base : Settings} {values : Table} {key : String}

/-- What is said of the current value and of every value that is read holds of the outcome. -/
theorem of_override {α : Type} (holds : α → Prop) {current found : α}
    {read : String → Value → Except SettingsError α} (hcurrent : holds current)
    (hread : ∀ value, read key value = .ok found → holds found)
    (h : override values key current read = .ok found) : holds found := by
  rw [override] at h
  split at h
  · cases h
    exact hcurrent
  · exact hread _ h

/-- The overrides of the six settings, one by one. -/
theorem withOverrides_eq_ok_iff :
    base.withOverrides values = .ok settings ↔
      override values "logic_extensions" base.logicExtensions extensions =
          .ok settings.logicExtensions ∧
        override values "markup_extensions" base.markupExtensions extensions =
          .ok settings.markupExtensions ∧
        overrideText values "default_folder" base.defaultFolder = .ok settings.defaultFolder ∧
        overrideText values "tag_prefix" base.tagPrefix = .ok settings.tagPrefix ∧
        overrideText values "import_namespace" base.importNamespace = .ok settings.importNamespace ∧
        override values "skip_dirs" base.skipDirs directories = .ok settings.skipDirs := by
  constructor
  · intro h
    obtain ⟨logic, hlogic, h⟩ := bind_eq_ok_iff.mp h
    obtain ⟨markup, hmarkup, h⟩ := bind_eq_ok_iff.mp h
    obtain ⟨folder, hfolder, h⟩ := bind_eq_ok_iff.mp h
    obtain ⟨tagPrefix, htagPrefix, h⟩ := bind_eq_ok_iff.mp h
    obtain ⟨namespaceName, hnamespaceName, h⟩ := bind_eq_ok_iff.mp h
    obtain ⟨skipDirs, hskipDirs, h⟩ := bind_eq_ok_iff.mp h
    cases h
    exact ⟨hlogic, hmarkup, hfolder, htagPrefix, hnamespaceName, hskipDirs⟩
  · rintro ⟨hlogic, hmarkup, hfolder, htagPrefix, hnamespaceName, hskipDirs⟩
    rw [withOverrides, hlogic, hmarkup, hfolder, htagPrefix, hnamespaceName, hskipDirs]
    rfl

end

/-! ## Extensions in lower case -/

/-- Every extension of the list is in lower case. -/
def AllLowerCase (extensions : List String) : Prop :=
  ∀ extension ∈ extensions, Unicode.lower extension = extension

instance (extensions : List String) : Decidable (AllLowerCase extensions) :=
  inferInstanceAs (Decidable (∀ _ ∈ _, _))

/-- The extensions of both groups are in lower case. -/
def IsLowerCase (settings : Settings) : Prop := AllLowerCase settings.allExtensions

instance (settings : Settings) : Decidable settings.IsLowerCase :=
  inferInstanceAs (Decidable (AllLowerCase _))

theorem lower_normalizeExtension (extension : String) :
    Unicode.lower (normalizeExtension extension) = normalizeExtension extension := by
  have hdot : Unicode.IsSmall '.' := by decide +kernel
  refine Unicode.lower_eq_self fun c hc => ?_
  rw [normalizeExtension] at hc
  split at hc
  · exact Unicode.isSmall_of_mem_lower hc
  · rw [String.toList_append, List.mem_append] at hc
    rcases hc with hc | hc
    · obtain rfl : c = '.' := List.mem_singleton.mp hc
      exact hdot
    · exact Unicode.isSmall_of_mem_lower hc

theorem allLowerCase_of_extensions {key : String} {value : Value} {found : List String}
    (h : extensions key value = .ok found) : AllLowerCase found := by
  obtain ⟨members, -, hfound⟩ := bind_eq_ok_iff.mp h
  intro extension hextension
  obtain ⟨member, -, hmember⟩ := exists_of_mem_mapM hfound hextension
  obtain ⟨text, -, htext⟩ := bind_eq_ok_iff.mp hmember
  obtain rfl : normalizeExtension text = extension := Except.ok.inj htext
  exact lower_normalizeExtension text

theorem isLowerCase_of_withOverrides {base : Settings} {values : Table}
    (hbase : base.IsLowerCase) (h : base.withOverrides values = .ok settings) :
    settings.IsLowerCase := by
  obtain ⟨hlogic, hmarkup, -⟩ := withOverrides_eq_ok_iff.mp h
  have hbaseLogic : AllLowerCase base.logicExtensions :=
    fun extension hextension => hbase extension (List.mem_append_left _ hextension)
  have hbaseMarkup : AllLowerCase base.markupExtensions :=
    fun extension hextension => hbase extension (List.mem_append_right _ hextension)
  have hnewLogic := of_override AllLowerCase hbaseLogic
    (fun _ => allLowerCase_of_extensions) hlogic
  have hnewMarkup := of_override AllLowerCase hbaseMarkup
    (fun _ => allLowerCase_of_extensions) hmarkup
  intro extension hextension
  rcases List.mem_append.mp hextension with hextension | hextension
  · exact hnewLogic extension hextension
  · exact hnewMarkup extension hextension

/-! ## Telling the kind -/

/-- The extensions of the files of a kind. -/
def extensionsOf (settings : Settings) : FileKind → List String
  | .logic => settings.logicExtensions
  | .markup => settings.markupExtensions

theorem lower_mem_extensionsOf (h : settings.kindOf path = some kind) :
    Unicode.lower path.suffix ∈ settings.extensionsOf kind := by
  rw [kindOf] at h
  split at h
  · next hmarkup =>
      cases h
      exact hmarkup
  · split at h
    · next hlogic =>
        cases h
        exact hlogic
    · cases h

theorem kindOf_eq_markup_iff :
    settings.kindOf path = some .markup ↔
      Unicode.lower path.suffix ∈ settings.markupExtensions := by
  constructor
  · exact lower_mem_extensionsOf
  · intro hmarkup
    rw [kindOf]
    exact if_pos hmarkup

theorem hasExtension_iff {extensions : List String} :
    Project.hasExtension extensions path = true ↔
      ∃ extension ∈ extensions, Unicode.lower extension = Unicode.lower path.suffix := by
  rw [Project.hasExtension, List.contains_iff_mem, List.mem_map]

/-- The listing of a kind does not miss a file of the kind. -/
theorem hasExtension_of_kindOf (h : settings.kindOf path = some kind) :
    Project.hasExtension (settings.extensionsOf kind) path = true :=
  hasExtension_iff.mpr ⟨_, lower_mem_extensionsOf h, Unicode.lower_lower path.suffix⟩

/-- The listing of markup has no file of another kind. -/
theorem kindOf_eq_markup_iff_hasExtension (hlower : settings.IsLowerCase) :
    settings.kindOf path = some .markup ↔
      Project.hasExtension settings.markupExtensions path = true := by
  constructor
  · exact hasExtension_of_kindOf
  · intro h
    obtain ⟨extension, hextension, hsame⟩ := hasExtension_iff.mp h
    rw [kindOf_eq_markup_iff, ← hsame, hlower extension (List.mem_append_right _ hextension)]
    exact hextension

end Settings

/-! ## Listings by kind -/

namespace Project

variable {project : Project} {extensions : List String} {folder : Option String}
  {file : SourceFile}

theorem admits_none_of_admits {path : Path} (h : project.admits folder path = true) :
    project.admits none path = true := by
  rw [admits, Bool.and_eq_true] at h ⊢
  exact ⟨h.1, rfl⟩

theorem kindOf_of_mem_files (h : file ∈ project.files extensions folder) :
    project.settings.kindOf file.path = some file.kind := by
  obtain ⟨path, -, hfile⟩ := List.mem_filterMap.mp h
  obtain ⟨rfl, -, -, hkind⟩ := sourceFile?_eq_some_iff.mp hfile
  exact hkind

/-- A listed file is in the listing of its kind. -/
theorem mem_files_of_kind (h : file ∈ project.files extensions folder) :
    file ∈ project.files (project.settings.extensionsOf file.kind) none := by
  obtain ⟨path, hpath, hfile⟩ := List.mem_filterMap.mp h
  obtain ⟨hbelow, -⟩ := List.mem_filter.mp hpath
  obtain ⟨rfl, hthere, hadmits, hkind⟩ := sourceFile?_eq_some_iff.mp hfile
  refine List.mem_filterMap.mpr ⟨file.path, ?_, ?_⟩
  · exact List.mem_filter.mpr ⟨hbelow, Settings.hasExtension_of_kindOf hkind⟩
  · exact sourceFile?_eq_some_iff.mpr ⟨rfl, hthere, admits_none_of_admits hadmits, hkind⟩

end Project

end Lineage

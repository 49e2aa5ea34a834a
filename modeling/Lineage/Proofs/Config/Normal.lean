import Lineage.Proofs.Config.Overrides
import Lineage.Proofs.Unicode.Edges

/-!
# Settings in normal form

Overrides are written by hand and come in many spellings.  What they are turned into is a normal
form: an extension starts with its dot, has no blanks around it and is in lower case; a text setting
is not empty; and no directory is passed over twice.  Settings in normal form, written out as a
table of overrides, are taken back exactly as they are, and the overrides that they came from change
nothing when they are applied once more.

A setting that is not overridden keeps its value, and so does a text setting whose override is
empty.  These are two different tests, which is why the texts that are written back must not be
empty.

## Main results

* `isNormalExtension_normalizeExtension`, `normalizeExtension_eq_self`: extensions are brought to a
  form in which they stay.
* `IsNormal.withOverrides`: overriding leaves settings in normal form.
* `withOverrides_toTable`: settings in normal form are taken back as they are.
* `withOverrides_again`: overrides change nothing the second time.
* `withOverrides_fixed`: all of this for settings made from the defaults.
-/

namespace Lineage.Settings

variable {base settings : Settings} {values : Table} {key : String}

/-! ## Extensions -/

/-- The form of an extension: a dot in front, no blanks around it, and no capitals. -/
structure IsNormalExtension (extension : String) : Prop where
  head?_eq : extension.toList.head? = some '.'
  stripped_eq : Text.stripped extension = extension
  lower_eq : Unicode.lower extension = extension

instance (extension : String) : Decidable (IsNormalExtension extension) :=
  decidable_of_iff (extension.toList.head? = some '.' ∧ Text.stripped extension = extension ∧
    Unicode.lower extension = extension)
    ⟨fun ⟨head?_eq, stripped_eq, lower_eq⟩ => ⟨head?_eq, stripped_eq, lower_eq⟩,
      fun ⟨head?_eq, stripped_eq, lower_eq⟩ => ⟨head?_eq, stripped_eq, lower_eq⟩⟩

/-- A dot in front is no blank, and it hides none behind it. -/
theorem stripped_dot {text : String} (h : Text.stripped text = text) :
    Text.stripped ("." ++ text) = "." ++ text := by
  have hdot : Unicode.isBlank '.' = false := by decide
  rw [Unicode.stripped_eq_self_iff] at h ⊢
  rw [String.toList_append]
  show ('.' :: text.toList).head?.any Unicode.isBlank = false ∧
    ('.' :: text.toList).getLast?.any Unicode.isBlank = false
  refine ⟨hdot, ?_⟩
  by_cases hempty : text.toList = []
  · rw [hempty]
    exact hdot
  · rw [List.getLast?_cons_of_ne_nil hempty]
    exact h.2

theorem isNormalExtension_normalizeExtension (extension : String) :
    IsNormalExtension (normalizeExtension extension) := by
  have hstripped := Unicode.stripped_lower (Text.stripped_stripped extension)
  refine ⟨?_, ?_, lower_normalizeExtension extension⟩
  · rw [normalizeExtension]
    split
    · next hdot => exact hdot
    · rw [String.toList_append]
      rfl
  · rw [normalizeExtension]
    split
    · exact hstripped
    · exact stripped_dot hstripped

theorem normalizeExtension_eq_self {extension : String} (h : IsNormalExtension extension) :
    normalizeExtension extension = extension := by
  rw [normalizeExtension, h.stripped_eq, h.lower_eq]
  exact if_pos h.head?_eq

theorem isNormalExtension_of_extensions {value : Value} {found : List String}
    (h : extensions key value = .ok found) : ∀ extension ∈ found, IsNormalExtension extension := by
  obtain ⟨members, -, hfound⟩ := bind_eq_ok_iff.mp h
  intro extension hextension
  obtain ⟨member, -, hmember⟩ := exists_of_mem_mapM hfound hextension
  obtain ⟨text, -, htext⟩ := bind_eq_ok_iff.mp hmember
  obtain rfl : normalizeExtension text = extension := Except.ok.inj htext
  exact isNormalExtension_normalizeExtension text

/-- Texts as a list of values. -/
def texts (names : List String) : Value := .list (names.map fun name => .scalar (.text name))

theorem extensions_texts {names : List String} (h : ∀ name ∈ names, IsNormalExtension name) :
    extensions key (texts names) = .ok names := by
  show (names.map _).mapM _ = _
  induction names with
  | nil => rfl
  | cons name names ih =>
      have hname := normalizeExtension_eq_self (h name List.mem_cons_self)
      have hothers := ih fun other hother => h other (List.mem_cons_of_mem name hother)
      rw [List.map_cons, List.mapM_cons, hothers]
      show Except.ok (normalizeExtension name :: names) = .ok (name :: names)
      rw [hname]

/-! ## Directories -/

/-- The directories can be members of a set, in which none of them is there twice. -/
structure IsNormalList (names : List Scalar) : Prop where
  isMember : ∀ name ∈ names, name.isMember = true
  nodup : (names.map Scalar.key).Nodup

instance (names : List Scalar) : Decidable (IsNormalList names) :=
  decidable_of_iff ((∀ name ∈ names, name.isMember = true) ∧ (names.map Scalar.key).Nodup)
    ⟨fun ⟨isMember, nodup⟩ => ⟨isMember, nodup⟩, fun ⟨isMember, nodup⟩ => ⟨isMember, nodup⟩⟩

theorem mapM_directory {names : List Scalar} (h : ∀ name ∈ names, name.isMember = true) :
    (names.map Value.scalar).mapM (directory key) = .ok names := by
  induction names with
  | nil => rfl
  | cons name names ih =>
      have hname : directory key (.scalar name) = .ok name := if_pos (h name List.mem_cons_self)
      rw [List.map_cons, List.mapM_cons, hname,
        ih fun other hother => h other (List.mem_cons_of_mem name hother)]
      rfl

theorem directories_list {names : List Scalar} (h : IsNormalList names) :
    directories key (.list (names.map .scalar)) = .ok names := by
  have hmembers : members key (.list (names.map .scalar)) = .ok (names.map .scalar) := rfl
  refine bind_eq_ok_iff.mpr ⟨_, hmembers, bind_eq_ok_iff.mpr ⟨_, mapM_directory h.isMember, ?_⟩⟩
  exact congrArg Except.ok (firstsBy_eq_self h.nodup)

theorem isMember_of_directory {value : Value} {name : Scalar}
    (h : directory key value = .ok name) : name.isMember = true := by
  cases value with
  | scalar value =>
      rw [directory] at h
      split at h
      · next hmember =>
          cases h
          exact hmember
      · cases h
  | list items => cases h
  | table entries => cases h

theorem isNormalList_of_directories {value : Value} {found : List Scalar}
    (h : directories key value = .ok found) : IsNormalList found := by
  obtain ⟨members, -, h⟩ := bind_eq_ok_iff.mp h
  obtain ⟨names, hnames, h⟩ := bind_eq_ok_iff.mp h
  cases h
  refine ⟨fun name hname => ?_, map_firstsBy_nodup Scalar.key names⟩
  obtain ⟨member, -, hmember⟩ := exists_of_mem_mapM hnames
    ((firstsBy_sublist Scalar.key names).subset hname)
  exact isMember_of_directory hmember

/-! ## Settings -/

/-- Settings as overrides leave them. -/
structure IsNormal (settings : Settings) : Prop where
  logicExtensions : ∀ extension ∈ settings.logicExtensions, IsNormalExtension extension
  markupExtensions : ∀ extension ∈ settings.markupExtensions, IsNormalExtension extension
  defaultFolder : settings.defaultFolder ≠ ""
  tagPrefix : settings.tagPrefix ≠ ""
  importNamespace : settings.importNamespace ≠ ""
  skipDirs : IsNormalList settings.skipDirs

theorem isNormal_default : IsNormal {} where
  logicExtensions := by decide +kernel
  markupExtensions := by decide +kernel
  defaultFolder := by decide
  tagPrefix := by decide
  importNamespace := by decide
  skipDirs := by decide

/-- Overriding leaves settings in normal form. -/
theorem IsNormal.withOverrides (hbase : base.IsNormal)
    (h : base.withOverrides values = .ok settings) : settings.IsNormal := by
  obtain ⟨hlogic, hmarkup, hfolder, htagPrefix, hnamespaceName, hskipDirs⟩ :=
    withOverrides_eq_ok_iff.mp h
  constructor
  · exact of_override (fun found => ∀ extension ∈ found, IsNormalExtension extension)
      hbase.logicExtensions (fun _ => isNormalExtension_of_extensions) hlogic
  · exact of_override (fun found => ∀ extension ∈ found, IsNormalExtension extension)
      hbase.markupExtensions (fun _ => isNormalExtension_of_extensions) hmarkup
  · exact ne_empty_of_overrideText hbase.defaultFolder hfolder
  · exact ne_empty_of_overrideText hbase.tagPrefix htagPrefix
  · exact ne_empty_of_overrideText hbase.importNamespace hnamespaceName
  · exact of_override IsNormalList hbase.skipDirs (fun _ => isNormalList_of_directories) hskipDirs

/-! ## Settings as overrides -/

/-- The settings as a table of overrides. -/
def toTable (settings : Settings) : Table := [
  ("logic_extensions", texts settings.logicExtensions),
  ("markup_extensions", texts settings.markupExtensions),
  ("default_folder", .scalar (.text settings.defaultFolder)),
  ("tag_prefix", .scalar (.text settings.tagPrefix)),
  ("import_namespace", .scalar (.text settings.importNamespace)),
  ("skip_dirs", .list (settings.skipDirs.map .scalar))]

/-- Settings in normal form are taken back as they are, whatever they replace. -/
theorem withOverrides_toTable (h : settings.IsNormal) (base : Settings) :
    base.withOverrides settings.toTable = .ok settings := by
  have hlogic : Keyed.get? "logic_extensions" settings.toTable =
      some (texts settings.logicExtensions) := rfl
  have hmarkup : Keyed.get? "markup_extensions" settings.toTable =
      some (texts settings.markupExtensions) := rfl
  have hfolder : Keyed.get? "default_folder" settings.toTable =
      some (.scalar (.text settings.defaultFolder)) := rfl
  have htagPrefix : Keyed.get? "tag_prefix" settings.toTable =
      some (.scalar (.text settings.tagPrefix)) := rfl
  have hnamespaceName : Keyed.get? "import_namespace" settings.toTable =
      some (.scalar (.text settings.importNamespace)) := rfl
  have hskipDirs : Keyed.get? "skip_dirs" settings.toTable =
      some (.list (settings.skipDirs.map .scalar)) := rfl
  rw [withOverrides_eq_ok_iff, override_of_some hlogic, override_of_some hmarkup,
    override_of_some hskipDirs]
  refine ⟨extensions_texts h.logicExtensions, extensions_texts h.markupExtensions, ?_, ?_, ?_,
    directories_list h.skipDirs⟩
  · exact overrideText_of_text hfolder (String.isEmpty_eq_false_iff.mpr h.defaultFolder) _
  · exact overrideText_of_text htagPrefix (String.isEmpty_eq_false_iff.mpr h.tagPrefix) _
  · exact overrideText_of_text hnamespaceName (String.isEmpty_eq_false_iff.mpr h.importNamespace) _

/-- Overrides change nothing the second time. -/
theorem withOverrides_again (h : base.withOverrides values = .ok settings) :
    settings.withOverrides values = .ok settings := by
  obtain ⟨hlogic, hmarkup, hfolder, htagPrefix, hnamespaceName, hskipDirs⟩ :=
    withOverrides_eq_ok_iff.mp h
  exact withOverrides_eq_ok_iff.mpr ⟨override_again hlogic, override_again hmarkup,
    overrideText_again hfolder, overrideText_again htagPrefix, overrideText_again hnamespaceName,
    override_again hskipDirs⟩

/-- The settings keep what the overrides leave alone: what has no value under its key, and texts
whose value is empty as well. -/
structure Keeps (base : Settings) (values : Table) (settings : Settings) : Prop where
  logicExtensions : values.get? "logic_extensions" = none →
    settings.logicExtensions = base.logicExtensions
  markupExtensions : values.get? "markup_extensions" = none →
    settings.markupExtensions = base.markupExtensions
  defaultFolder : gives values "default_folder" = false →
    settings.defaultFolder = base.defaultFolder
  tagPrefix : gives values "tag_prefix" = false → settings.tagPrefix = base.tagPrefix
  importNamespace : gives values "import_namespace" = false →
    settings.importNamespace = base.importNamespace
  skipDirs : values.get? "skip_dirs" = none → settings.skipDirs = base.skipDirs

theorem eq_of_override_of_none {α : Type} {current found : α}
    {read : String → Value → Except SettingsError α}
    (h : override values key current read = .ok found) (hnone : values.get? key = none) :
    found = current := by
  rw [override_of_none hnone] at h
  cases h
  rfl

theorem eq_of_overrideText_of_not_given {current found : String}
    (h : overrideText values key current = .ok found) (hgives : gives values key = false) :
    found = current := by
  rw [overrideText_of_not_given hgives] at h
  cases h
  rfl

theorem keeps_of_withOverrides (h : base.withOverrides values = .ok settings) :
    base.Keeps values settings := by
  obtain ⟨hlogic, hmarkup, hfolder, htagPrefix, hnamespaceName, hskipDirs⟩ :=
    withOverrides_eq_ok_iff.mp h
  constructor
  · exact eq_of_override_of_none hlogic
  · exact eq_of_override_of_none hmarkup
  · exact eq_of_overrideText_of_not_given hfolder
  · exact eq_of_overrideText_of_not_given htagPrefix
  · exact eq_of_overrideText_of_not_given hnamespaceName
  · exact eq_of_override_of_none hskipDirs

/-- Settings that are made from the defaults are made again from what they are written out as, and
once more from the same overrides.  Their extensions are in normal form, and what the overrides
leave alone is as it was. -/
theorem withOverrides_fixed (h : ({} : Settings).withOverrides values = .ok settings) :
    ({} : Settings).withOverrides settings.toTable = .ok settings ∧
      settings.withOverrides values = .ok settings ∧
      (∀ extension ∈ settings.allExtensions, IsNormalExtension extension) ∧
      ({} : Settings).Keeps values settings := by
  have hnormal := isNormal_default.withOverrides h
  refine ⟨withOverrides_toTable hnormal {}, withOverrides_again h, ?_, keeps_of_withOverrides h⟩
  intro extension hextension
  rcases List.mem_append.mp hextension with hextension | hextension
  · exact hnormal.logicExtensions extension hextension
  · exact hnormal.markupExtensions extension hextension

/-- Overrides in many spellings, with a key that is not known. -/
def spelledFreely : Table := [
  ("logic_extensions", .list [.scalar (.text " TS "), .scalar (.text ".İΣ"), .scalar (.int 7)]),
  ("markup_extensions", .scalar (.text "A.")),
  ("default_folder", .scalar (.text "")),
  ("tag_prefix", .list [.scalar (.text "x")]),
  ("colour", .scalar (.text "red")),
  ("skip_dirs", .list [.scalar (.text "lib"), .scalar (.bool true), .scalar (.int 1)])]

theorem withOverrides_fixed_spelledFreely :
    ∃ settings, ({} : Settings).withOverrides spelledFreely = .ok settings ∧
      settings.logicExtensions = [".ts", ".i\u0307ς", ".7"] ∧
      settings.markupExtensions = [".a", "."] ∧ settings.defaultFolder = "LWC" ∧
      settings.tagPrefix = "['x']" ∧
      settings.skipDirs = [.text "lib", .bool true] ∧
      ({} : Settings).withOverrides settings.toTable = .ok settings := by
  have hsettings : ({} : Settings).withOverrides spelledFreely = .ok
      { logicExtensions := [".ts", ".i\u0307ς", ".7"], markupExtensions := [".a", "."],
        tagPrefix := "['x']", skipDirs := [.text "lib", .bool true] } := by decide +kernel
  exact ⟨_, hsettings, rfl, rfl, rfl, rfl, rfl, (withOverrides_fixed hsettings).1⟩

end Lineage.Settings

import Lineage.Proofs.Store.Making
import Lineage.Proofs.Tags.Templates

/-!
# Tags attached in stages

A scan attaches tags to a node in stages: those of each template beside the file of its entity, and
then, if the file is code, those that its imports imply.  Before the first stage it is asked of all
templates whether they are files.  Whatever fails on the way ends the scan.  What has been attached
until then stays, so the node ends up with an initial segment of what a scan without faults would
have given it.

A failure is kept to a notice, with one exception.  A path with a null character cannot even be
looked up.  No template has one, because only paths that lead to files are read as templates; but
the file of the entity itself can have one behind the first dot of its name, where it does not keep
templates from being found.  Then the scan fails with the tags of all templates attached.

The texts in sight do not change in a scan, so every further scan attaches the same tags again.

## Main results

* `TagScan.Reaches`, `reaches_collectTags`: however a collection ends, it has gone through an
  initial segment of the stages.
* `error_collectTags_eq_nullCharacter_iff`: exactly when a collection ends in a failure that is not
  kept to a notice.
* `attachTags_exact`: what a scan, and a number of scans, make of a node.
-/

namespace Lineage

/-! ## Stores without their faults -/

namespace Store

variable {store : Store} {path : Path}

/-- The store without its faults. -/
def sound (store : Store) : Store := { store with unreadable := [], unstatable := [] }

theorem sameTree_sound (store : Store) : store.SameTree store.sound := by
  intro place
  cases place <;> rfl

/-- It can be told of the path whether it is a file. -/
def Tells (store : Store) (path : Path) : Prop := ∃ there, store.isFile path = .ok there

theorem isFile_sound {there : Bool} (h : store.isFile path = .ok there) :
    store.sound.isFile path = .ok there := by
  unfold isFile at h ⊢
  rw [store.sameTree_sound.access_eq, if_neg (show path ∉ store.sound.unstatable from
    List.not_mem_nil)]
  split at h
  · cases h
  · exact h

theorem readText_sound {text : String} (h : store.readText path = .ok text) :
    store.sound.readText path = .ok text := by
  unfold readText at h ⊢
  rw [store.sameTree_sound.access_eq, if_neg (show path ∉ store.sound.unreadable from
    List.not_mem_nil)]
  split at h
  · cases h
  · exact h

/-! ## Paths that cannot be looked up -/

/-- Whatever stops a path on its way, it is not a null character. -/
theorem walk_ne_nullCharacter (store : Store) (place names : List String) :
    store.walk place names ≠ .error .nullCharacter := by
  induction names generalizing place with
  | nil =>
      unfold walk
      split <;> simp
  | cons name names ih =>
      unfold walk
      split
      · split
        · simp
        · exact ih _
      · simp
      · simp

theorem access_eq_nullCharacter_iff :
    store.access path = .error .nullCharacter ↔ path.hasNull = true := by
  unfold access
  by_cases hnull : path.hasNull = true
  · simp [hnull]
  · have hwalk := store.walk_ne_nullCharacter [] path.names
    by_cases hlong : pathLimit ≤ path.byteSize <;> simp [hnull, hlong, hwalk]

theorem readText_eq_nullCharacter_iff {place : Path} :
    store.readText path = .error ⟨place, .nullCharacter⟩ ↔
      place = path ∧ path ∉ store.unreadable ∧ path.hasNull = true := by
  rw [← store.access_eq_nullCharacter_iff]
  unfold readText
  by_cases hfault : path ∈ store.unreadable
  · simp [hfault]
  · rw [if_neg hfault]
    split
    · next bytes haccess => simp [haccess]
    · next haccess => simp [haccess]
    · next error haccess => simp [haccess, hfault, eq_comm]

end Store

/-- The node with further tags attached. -/
def Tree.attach (node : Tree) (tags : List TagUsage) : Tree :=
  { node with tags := node.tags ++ tags }

theorem Tree.attach_attach (node : Tree) (tags others : List TagUsage) :
    (node.attach tags).attach others = node.attach (tags ++ others) := by
  simp only [attach, List.append_assoc]

theorem Tree.attach_nil (node : Tree) : node.attach [] = node := by
  obtain ⟨name, path, tags, children⟩ := node
  rw [attach, List.append_nil]

namespace Project

variable {project : Project} {memory : Memory} {file path : Path} {templates : List Path}

/-- The project without its faults. -/
def sound (project : Project) : Project := { project with store := project.store.sound }

theorem view_sound {text : String} (h : project.view memory path = .ok text) :
    project.sound.view memory path = .ok text := by
  unfold view Memory.peek at h ⊢
  split at h
  · exact h
  · exact Store.readText_sound h

theorem view_eq_nullCharacter_iff {place : Path} :
    project.view memory path = .error ⟨place, .nullCharacter⟩ ↔
      memory.texts.get? path = none ∧ place = path ∧ path ∉ project.store.unreadable ∧
        path.hasNull = true := by
  unfold view Memory.peek
  split
  · next text htext => simp [htext]
  · next htext => rw [Store.readText_eq_nullCharacter_iff, htext, and_iff_right rfl]

/-! ## Asking of templates whether they are files -/

theorem onlyFiles_eq_ok_iff {store : Store} {paths found : List Path} :
    onlyFiles store paths = .ok found ↔
      (∀ path ∈ paths, store.Tells path) ∧
        found = paths.filter fun path => store.isFile path matches .ok true := by
  induction paths generalizing found with
  | nil => simp [onlyFiles, eq_comm]
  | cons path paths ih =>
      rw [onlyFiles, List.forall_mem_cons, List.filter_cons]
      cases hpath : store.isFile path with
      | error error =>
          have hfails : ¬ store.Tells path := by
            rintro ⟨there, hthere⟩
            rw [hpath] at hthere
            cases hthere
          simp [hfails]
      | ok there =>
          have htells : store.Tells path := ⟨there, hpath⟩
          cases hothers : onlyFiles store paths with
          | error error =>
              have hfails : ¬ ∀ path ∈ paths, store.Tells path := by
                intro hall
                have hfound := ih.mpr ⟨hall, rfl⟩
                rw [hothers] at hfound
                cases hfound
              simp [hfails]
          | ok others =>
              obtain ⟨hall, rfl⟩ := ih.mp hothers
              rw [and_iff_right ⟨htells, hall⟩]
              cases there <;> simp [eq_comm]

theorem templates_sound (h : project.templates file = .ok templates) :
    project.sound.templates file = .ok templates := by
  obtain ⟨htells, rfl⟩ := onlyFiles_eq_ok_iff.mp h
  have hsound (place : Path) (hplace : place ∈ project.templatePlaces file) :
      project.sound.store.isFile place = project.store.isFile place := by
    obtain ⟨there, hthere⟩ := htells place hplace
    rw [hthere]
    exact Store.isFile_sound hthere
  apply onlyFiles_eq_ok_iff.mpr
  constructor
  · intro place hplace
    obtain ⟨there, hthere⟩ := htells place hplace
    exact ⟨there, Store.isFile_sound hthere⟩
  · apply List.filter_congr
    intro place hplace
    rw [hsound place hplace]

/-! ## Stages -/

/-- What the stages of a scan give: the tags of each template beside the file, and then, if the file
is code, those that it implies by its imports. -/
def stages (project : Project) (memory : Memory) (file : Path) : List (List TagUsage) :=
  match project.templates file with
  | .error _ => []
  | .ok templates =>
      templates.map (project.markupIn memory) ++
        if project.settings.kindOf file = some .logic then [project.importsIn memory file] else []

/-- A collection of tags has gone through an initial segment of some stages, and through all of them
unless it was ended by an error. -/
def TagScan.Reaches (scan : TagScan) (stages : List (List TagUsage)) : Prop :=
  ∃ kept, kept <+: stages ∧ scan.tags = kept.flatten ∧ (scan.error = none → kept = stages)

theorem TagScan.reaches_of_error {error : TagScanError} (stages : List (List TagUsage)) :
    TagScan.Reaches ⟨[], some error⟩ stages :=
  ⟨[], List.nil_prefix, rfl, fun h => nomatch h⟩

/-- One stage more at the front. -/
theorem TagScan.Reaches.cons {scan : TagScan} {stages : List (List TagUsage)}
    (h : scan.Reaches stages) (stage : List TagUsage) :
    TagScan.Reaches ⟨stage ++ scan.tags, scan.error⟩ (stage :: stages) := by
  obtain ⟨kept, hkept, htags, hall⟩ := h
  refine ⟨stage :: kept, List.cons_prefix_cons.mpr ⟨rfl, hkept⟩, ?_, fun hnone => ?_⟩
  · rw [List.flatten_cons, ← htags]
  · rw [hall hnone]

theorem reaches_templateTags (hfiles : ∀ path ∈ templates, project.store.isFile path = .ok true) :
    ((project.templateTags templates).run memory).1.Reaches
      (templates.map (project.sound.markupIn memory)) := by
  induction templates with
  | nil => exact ⟨[], List.nil_prefix, rfl, fun _ => rfl⟩
  | cons path templates ih =>
      have hothers := ih fun other hother => hfiles other (List.mem_cons_of_mem _ hother)
      rw [answer_templateTags_cons, List.map_cons]
      cases hview : project.view memory path with
      | error failure => exact TagScan.reaches_of_error _
      | ok text =>
          have hmarkup : project.sound.markupIn memory path =
              TagUsage.inMarkup text project.settings.tagPrefix (some path) := by
            unfold markupIn
            rw [view_sound hview]
            rfl
          rw [hmarkup]
          exact hothers.cons _

/-- The last stage: the file itself, if it is code. -/
theorem reaches_importTags (project : Project) (memory : Memory) (file : Path) :
    ((project.importTags file).run memory).1.Reaches
      (if project.settings.kindOf file = some .logic then [project.sound.importsIn memory file]
        else []) := by
  unfold importTags
  split
  · next hcode =>
      rw [answer_tagsIn]
      cases hview : project.view memory file with
      | error failure => exact TagScan.reaches_of_error _
      | ok text =>
          refine ⟨_, List.prefix_rfl, ?_, fun _ => rfl⟩
          have hsame : project.sound.settings = project.settings := rfl
          unfold importsIn
          rw [view_sound hview, hsame, if_pos hcode, List.flatten_singleton]
  · exact ⟨[], List.nil_prefix, rfl, fun _ => rfl⟩

/-- However a collection of tags ends, it has gone through an initial segment of the stages. -/
theorem reaches_collectTags (project : Project) (memory : Memory) (file : Path) :
    ((project.collectTags file).run memory).1.Reaches (project.sound.stages memory file) := by
  rw [answer_collectTags]
  cases htemplates : project.templates file with
  | error error => exact TagScan.reaches_of_error _
  | ok templates =>
      have hsettings : project.sound.settings = project.settings := rfl
      unfold stages
      rw [templates_sound htemplates, hsettings]
      dsimp only
      have hfiles := isFile_of_mem_onlyFiles htemplates
      have hreaches : ((project.templateTags templates).run memory).1.Reaches _ :=
        reaches_templateTags hfiles
      obtain ⟨kept, hkept, htags, hall⟩ := hreaches
      cases herror : ((project.templateTags templates).run memory).1.error with
      | some error =>
          refine ⟨kept, hkept.trans (List.prefix_append _ _), htags, fun hnone => ?_⟩
          rw [herror] at hnone
          cases hnone
      | none =>
          obtain ⟨further, hfurther, hmore, hrest⟩ := reaches_importTags project memory file
          obtain rfl := hall herror
          refine ⟨_ ++ further, (List.prefix_append_right_inj _).mpr hfurther, ?_, fun hnone => ?_⟩
          · rw [List.flatten_append, htags, hmore]
          · rw [hrest hnone]

/-! ## How a collection ends -/

/-- Nothing that the stages of the templates need fails: it can be told of every template whether it
is a file, and those that are can be read. -/
structure TemplatesRead (project : Project) (memory : Memory) (file : Path) : Prop where
  stat : ∀ place ∈ project.templatePlaces file, project.store.Tells place
  read : ∀ place ∈ project.templatePlaces file, project.store.isFile place = .ok true →
    ∃ text, project.view memory place = .ok text

/-- Nothing that a scan needs fails. -/
structure Unhindered (project : Project) (memory : Memory) (file : Path) : Prop
    extends project.TemplatesRead memory file where
  own : project.settings.kindOf file = some .logic → ∃ text, project.view memory file = .ok text

/-- A scan comes to a file of code whose path cannot be looked up: it has a null character, its text
is not remembered, and it is not known to be faulty anyway. -/
structure Uncaught (project : Project) (memory : Memory) (file : Path) : Prop
    extends project.TemplatesRead memory file where
  logic : project.settings.kindOf file = some .logic
  fresh : memory.texts.get? file = none
  unmarked : file ∉ project.store.unreadable
  null : file.hasNull = true

theorem templatesRead_iff :
    project.TemplatesRead memory file ↔
      ∃ templates, project.templates file = .ok templates ∧
        ((project.templateTags templates).run memory).1.error = none := by
  -- The templates are read one after the other, so no error means that each of them was read.
  have hread (templates : List Path) :
      ((project.templateTags templates).run memory).1.error = none ↔
        ∀ path ∈ templates, ∃ text, project.view memory path = .ok text := by
    induction templates with
    | nil => exact iff_of_true rfl fun _ hpath => nomatch hpath
    | cons path templates ih =>
        rw [answer_templateTags_cons, List.forall_mem_cons, ← ih]
        cases project.view memory path <;> simp
  simp only [hread]
  unfold templates
  constructor
  · rintro ⟨hstat, hreads⟩
    refine ⟨_, onlyFiles_eq_ok_iff.mpr ⟨hstat, rfl⟩, fun place hplace => ?_⟩
    obtain ⟨hmem, hthere⟩ := List.mem_filter.mp hplace
    obtain ⟨there, hstatted⟩ := hstat place hmem
    rw [hstatted] at hthere
    cases there with
    | true => exact hreads place hmem hstatted
    | false => cases hthere
  · rintro ⟨templates, htemplates, hreads⟩
    obtain ⟨hstat, rfl⟩ := onlyFiles_eq_ok_iff.mp htemplates
    refine ⟨hstat, fun place hplace hthere => hreads place (List.mem_filter.mpr ⟨hplace, ?_⟩)⟩
    rw [hthere]

theorem error_importTags_eq_iff {failure : ReadFailure} :
    ((project.importTags file).run memory).1.error = some (.unreadable failure) ↔
      project.settings.kindOf file = some .logic ∧
        project.view memory file = .error failure := by
  unfold importTags
  split
  · next hcode =>
      rw [answer_tagsIn]
      cases project.view memory file <;> simp [hcode]
  · next hcode => exact iff_of_false (fun h => nomatch h) fun h => hcode h.1

theorem uncaught_iff :
    project.Uncaught memory file ↔
      project.TemplatesRead memory file ∧ project.settings.kindOf file = some .logic ∧
        project.view memory file = .error ⟨file, .nullCharacter⟩ := by
  rw [view_eq_nullCharacter_iff]
  constructor
  · intro h
    exact ⟨h.toTemplatesRead, h.logic, h.fresh, rfl, h.unmarked, h.null⟩
  · rintro ⟨hread, hlogic, hfresh, -, hunmarked, hnull⟩
    exact ⟨hread, hlogic, hfresh, hunmarked, hnull⟩

/-- Only the read of the file itself can end at a path that cannot be looked up. -/
theorem error_collectTags_iff_view :
    ((project.collectTags file).run memory).1.error =
        some (.unreadable ⟨path, .nullCharacter⟩) ↔
      project.TemplatesRead memory file ∧ project.settings.kindOf file = some .logic ∧
        project.view memory file = .error ⟨path, .nullCharacter⟩ := by
  rw [templatesRead_iff, answer_collectTags]
  cases htemplates : project.templates file with
  | error error =>
      obtain ⟨place, reason, rfl⟩ := eq_unknownTemplate_of_onlyFiles htemplates
      simp
  | ok templates =>
      dsimp only
      cases herror : ((project.templateTags templates).run memory).1.error with
      | some error =>
          have hexpected : IsExpected error :=
            isExpected_of_templateTags (isFile_of_mem_onlyFiles htemplates) herror
          have hother : error ≠ .unreadable ⟨path, .nullCharacter⟩ := by
            rcases hexpected with ⟨_, _, rfl⟩ | ⟨_, rfl⟩ <;> simp
          simp [herror, hother]
      | none =>
          dsimp only
          rw [error_importTags_eq_iff]
          simp [herror]

/-- Exactly when a collection ends at a path that cannot be looked up, and at which. -/
theorem error_collectTags_eq_nullCharacter_iff :
    ((project.collectTags file).run memory).1.error =
        some (.unreadable ⟨path, .nullCharacter⟩) ↔
      path = file ∧ project.Uncaught memory file := by
  rw [error_collectTags_iff_view, uncaught_iff]
  constructor
  · rintro ⟨hread, hlogic, hview⟩
    obtain rfl : path = file := (view_eq_nullCharacter_iff.mp hview).2.1
    exact ⟨rfl, hread, hlogic, hview⟩
  · rintro ⟨rfl, h⟩
    exact h

/-- If nothing fails that a collection needs, it goes through all stages. -/
theorem error_collectTags_of_unhindered (h : project.Unhindered memory file) :
    ((project.collectTags file).run memory).1.error = none := by
  obtain ⟨templates, htemplates, hnone⟩ := templatesRead_iff.mp h.toTemplatesRead
  rw [answer_collectTags, htemplates]
  dsimp only
  rw [hnone]
  dsimp only
  unfold importTags
  split
  · next hcode =>
      obtain ⟨text, htext⟩ := h.own hcode
      rw [answer_tagsIn, htext]
  · rfl

/-- Without faults a collection has the tags of all stages, however it ends. -/
theorem tags_collectTags_sound (project : Project) (memory : Memory) (file : Path) :
    ((project.sound.collectTags file).run memory).1.tags =
      (project.sound.stages memory file).flatten := by
  unfold stages
  cases htemplates : project.sound.templates file with
  | error error =>
      rw [answer_collectTags, htemplates]
      rfl
  | ok templates =>
      rw [tags_of_answer_collectTags rfl htemplates, List.flatten_append, List.flatMap_def]
      congr 1
      split
      · rw [List.flatten_singleton]
      · next hcode =>
          unfold importsIn
          rw [if_neg hcode]
          rfl

/-! ## Attaching -/

/-- The failure that is not kept to a notice. -/
def TagScan.uncaught? (scan : TagScan) : Option ReadFailure :=
  match scan.error with
  | some (.unreadable ⟨path, .nullCharacter⟩) => some ⟨path, .nullCharacter⟩
  | _ => none

theorem answer_attachTags (project : Project) (node : Tree) (memory : Memory) :
    ((project.attachTags node).run memory).1 =
      (node.attach ((project.collectTags node.path).run memory).1.tags,
        ((project.collectTags node.path).run memory).1.uncaught?) := by
  unfold attachTags TagScan.uncaught?
  rw [Scan.run_bind]
  dsimp only
  cases ((project.collectTags node.path).run memory).1.error with
  | none => rfl
  | some error =>
      cases error with
      | unknownTemplate path reason => rfl
      | unreadable failure =>
          obtain ⟨path, reason⟩ := failure
          cases reason <;> rfl

/-- The tags of an entity are those that are attached to a node without any. -/
theorem tagsAt_eq_attachTags (name : String) (file : Path) (memory : Memory) :
    (project.tagsAt name file).run memory =
      let attached := (project.attachTags ⟨name, file, [], []⟩).run memory
      (match attached.1.2 with
        | some failure => .error failure
        | none => .ok attached.1.1.tags, attached.2) := by
  unfold tagsAt attachTags
  rw [Scan.run_bind, Scan.run_bind]
  dsimp only
  split <;> rfl

theorem steady_attachTags (project : Project) (node : Tree) :
    Steady project (project.attachTags node) := by
  apply Composed.steady
  refine (composed_collectTags node.path).bind fun found => ?_
  dsimp only
  split
  · exact .pure _
  · exact (composed_note _).bind fun _ => .pure _
  · exact .pure _

/-- Scans that do not fail attach the same tags each time. -/
theorem answer_attachTimes (node : Tree)
    (hcaught : ((project.collectTags node.path).run memory).1.uncaught? = none) (count : Nat) :
    ((project.attachTimes count node).run memory).1 =
      (node.attach
        (List.replicate count ((project.collectTags node.path).run memory).1.tags).flatten,
        none) := by
  induction count generalizing node memory with
  | zero =>
      rw [List.replicate_zero, List.flatten_nil, Tree.attach_nil]
      rfl
  | succ count ih =>
      have hfirst := project.answer_attachTags node memory
      rw [hcaught] at hfirst
      -- The scan leaves the texts in sight alone, so the next one collects the same.
      have hview := (project.steady_attachTags node).view_run memory
      have hsteady : Steady project (project.collectTags node.path) := steady_collectTags node.path
      have hsame := hsteady.answer_eq _ _ hview
      have hcaughtNext : ((project.collectTags node.path).run
          ((project.attachTags node).run memory).2).1.uncaught? = none := by
        rw [hsame, hcaught]
      have hnext := ih (node.attach ((project.collectTags node.path).run memory).1.tags)
        hcaughtNext
      rw [attachTimes, Scan.run_bind, hfirst]
      dsimp only
      rw [hnext, show (node.attach _).path = node.path from rfl, hsame, Tree.attach_attach,
        List.replicate_succ, List.flatten_cons]

/-- A scan that fails is the last. -/
theorem answer_attachTimes_of_failure {node : Tree} {failure : ReadFailure}
    (hfails : ((project.attachTags node).run memory).1.2 = some failure) (count : Nat) :
    ((project.attachTimes (count + 1) node).run memory).1 =
      ((project.attachTags node).run memory).1 := by
  have hpair : ((project.attachTags node).run memory).1 =
      (((project.attachTags node).run memory).1.1, some failure) := by
    rw [← hfails]
  rw [attachTimes, Scan.run_bind, hpair]
  rfl

/-- A scan attaches the tags of an initial segment of the stages that there would be without faults,
and of all of them if nothing that it needs fails.  It leaves everything else of the node as it is.
It fails exactly if it comes to the file of the entity and its path cannot be looked up; otherwise
any number of scans attach as many copies of the same tags. -/
theorem attachTags_exact (project : Project) (memory : Memory) (node : Tree) :
    ∃ kept, kept <+: project.sound.stages memory node.path ∧
      (project.Unhindered memory node.path → kept = project.sound.stages memory node.path) ∧
      ((project.sound.attachTags node).run memory).1.1 =
        node.attach (project.sound.stages memory node.path).flatten ∧
      ((project.attachTags node).run memory).1.1 = node.attach kept.flatten ∧
      ((¬ project.Uncaught memory node.path ∧
          ((project.attachTags node).run memory).1.2 = none ∧
          ∀ count, ((project.attachTimes count node).run memory).1 =
            (node.attach (List.replicate count kept.flatten).flatten, none)) ∨
        (project.Uncaught memory node.path ∧
          ((project.attachTags node).run memory).1.2 = some ⟨node.path, .nullCharacter⟩ ∧
          ∀ count, ((project.attachTimes (count + 1) node).run memory).1 =
            ((project.attachTags node).run memory).1)) := by
  obtain ⟨kept, hkept, htags, hall⟩ := reaches_collectTags project memory node.path
  have hattached := project.answer_attachTags node memory
  refine ⟨kept, hkept, fun h => hall (error_collectTags_of_unhindered h), ?_, ?_, ?_⟩
  · rw [answer_attachTags, tags_collectTags_sound]
  · rw [hattached, htags]
  · by_cases huncaught : project.Uncaught memory node.path
    · have hfails : ((project.attachTags node).run memory).1.2 =
          some ⟨node.path, .nullCharacter⟩ := by
        rw [hattached, TagScan.uncaught?,
          error_collectTags_eq_nullCharacter_iff.mpr ⟨rfl, huncaught⟩]
      exact .inr ⟨huncaught, hfails, answer_attachTimes_of_failure hfails⟩
    · have hcaught : ((project.collectTags node.path).run memory).1.uncaught? = none := by
        unfold TagScan.uncaught?
        split
        · next path herror =>
            exact absurd (error_collectTags_eq_nullCharacter_iff.mp herror).2 huncaught
        · rfl
      refine .inl ⟨huncaught, ?_, fun count => ?_⟩
      · rw [hattached, hcaught]
      · rw [answer_attachTimes node hcaught, htags]

/-- A project with a component that has two templates, of which the second cannot be read. -/
def torn : Project where
  store :=
    { entries := [(["p"], .directory), (["p", "card.html"], .file "<c-x>".toUTF8.toList),
        (["p", "card.js"], .file "import y from 'c/y'".toUTF8.toList),
        (["p", "card.xml"], .file "<c-z>".toUTF8.toList)]
      unreadable := [⟨.root, ["p", "card.xml"]⟩] }
  root := ⟨.root, ["p"]⟩
  settings := { markupExtensions := [".html", ".xml"] }

/-- A node for the component. -/
def tornNode : Tree := ⟨"Card", ⟨.root, ["p", "card.js"]⟩, [], []⟩

theorem not_uncaught_torn (project : Project) (memory : Memory) :
    ¬ project.Uncaught memory tornNode.path := by
  intro h
  have hnull := h.null
  revert hnull
  decide

/-- Without its fault nothing fails that a scan of the component needs. -/
theorem unhindered_torn : torn.sound.Unhindered {} tornNode.path := by
  have htemplates : torn.sound.templates tornNode.path =
      .ok [⟨.root, ["p", "card.html"]⟩, ⟨.root, ["p", "card.xml"]⟩] := by
    decide +kernel
  have hread : torn.sound.TemplatesRead {} tornNode.path :=
    templatesRead_iff.mpr ⟨_, htemplates, by decide +kernel⟩
  have hthere : torn.sound.store.isFile tornNode.path = .ok true := rfl
  exact ⟨hread, fun _ => exists_view_of_isFile rfl hthere⟩

/-- With the fault only the tag of the first template is attached.  Without it those of both
templates and of the import are, and two scans attach each of them twice. -/
theorem attachTags_exact_torn :
    torn.sound.Unhindered {} tornNode.path ∧ ¬ torn.Uncaught {} tornNode.path ∧
      (∃ kept, kept <+: torn.sound.stages {} tornNode.path ∧ kept.flatten.length = 1 ∧
        ((torn.attachTags tornNode).run {}).1.1 = tornNode.attach kept.flatten) ∧
      ((torn.sound.attachTimes 2 tornNode).run {}).1 =
        (tornNode.attach (List.replicate 2 (torn.sound.stages {} tornNode.path).flatten).flatten,
          none) ∧
      (torn.sound.stages {} tornNode.path).flatten.length = 3 := by
  have hcount : ((torn.attachTags tornNode).run {}).1.1.tags.length = 1 := by decide +kernel
  obtain ⟨kept, hkept, -, -, hattached, -⟩ := attachTags_exact torn {} tornNode
  obtain ⟨all, -, hall, -, -, hruns⟩ := attachTags_exact torn.sound {} tornNode
  have hwhole : torn.sound.sound = torn.sound := rfl
  rw [hwhole] at hall
  obtain rfl := hall unhindered_torn
  refine ⟨unhindered_torn, not_uncaught_torn torn {}, ⟨kept, hkept, ?_, hattached⟩, ?_, ?_⟩
  · rw [hattached] at hcount
    exact hcount
  · rcases hruns with ⟨-, -, htwice⟩ | ⟨huncaught, -⟩
    · exact htwice 2
    · exact absurd huncaught (not_uncaught_torn torn.sound {})
  · decide +kernel

/-- The failure of a scan is not kept to a notice if the path of the entity's file has a null
character, although nothing is faulty and the tags of the template beside it were attached. -/
theorem attachTags_fails_at_null :
    torn.sound.store.unreadable = [] ∧ torn.sound.store.unstatable = [] ∧
      ((torn.sound.attachTags ⟨"Card", ⟨.root, ["p", "card.\x00.js"]⟩, [], []⟩).run {}).1.2 =
        some ⟨⟨.root, ["p", "card.\x00.js"]⟩, .nullCharacter⟩ ∧
      ((torn.sound.attachTags ⟨"Card", ⟨.root, ["p", "card.\x00.js"]⟩, [], []⟩).run
        {}).1.1.tags.map TagUsage.tag = ["<c-x>", "<c-z>"] := by
  decide +kernel

end Project

end Lineage

import Lineage.Proofs.Config.Loading

/-!
# What saving and clearing leave of the file

Saving and clearing read the whole configuration, change its settings and write it anew, so the
entries of others have to go through both.  Three kinds of files do not let them through.  A file
that is passed over is taken for an empty configuration, and if it can be written, then that is what
is written over it; a malformed text is such a file.  The file is emptied before there is anything
to write, so where the configuration cannot be printed it is lost.  And what is printed may be read
as something else than what it was printed from.

Here a call is followed on every file, whatever this holds, and with every host of it.  These turn
out to be the only ways in which a call does harm.

## Main results

* `Call.exists_ends`: the ways in which a call can end.
* `Call.file_eq_or_done`: how a call ends that has changed the file.
* `Call.spares_iff_of_draft`: when the entries of others survive that a draft is stored.
* `Call.spares_iff`: which calls spare which files.
* `Call.spares_of_recovers`: a configuration that a codec gets through whole is spared.
-/

namespace Lineage

/-- The configuration that a file contains, whether or not it can be opened: none of it if the file
is not there. -/
def ConfigFile.Contains (codec : Toml.Codec) : ConfigFile → Table → Prop
  | .absent, table | .homeless, table => table = []
  | .file bytes, table => Config.decode codec bytes = .ok table
  | _, _ => False

namespace ConfigFile

variable {codec : Toml.Codec} {host : ConfigHost} {file : ConfigFile} {table : Table}

theorem Contains.unique {other : Table} (h : file.Contains codec table)
    (hother : file.Contains codec other) : table = other := by
  cases file with
  | absent | homeless => exact Eq.trans h (Eq.symm hother)
  | hidden | directory => cases h
  | file bytes => exact Except.ok.inj (Eq.trans (Eq.symm h) hother)

theorem contains_of_holds (h : file.Holds host table) : file.Contains host.codec table := by
  cases file with
  | absent | homeless => exact h
  | hidden | directory => cases h
  | file bytes => exact h.2

/-- An empty file contains the empty configuration. -/
theorem contains_empty (codec : Toml.Codec) : (ConfigFile.file []).Contains codec [] := by
  have hempty : Text.ofBytes? [] = some "" := rfl
  rw [Contains, Config.decode_of_text hempty, codec.parse_empty]
  rfl

end ConfigFile

namespace Config

variable {host : ConfigHost} {codec : Toml.Codec} {state after : ConfigState}
  {table read content : Table} {draft : Toml.Draft} {call : Call}

/-! ## The entries of others -/

/-- The entries of others in a configuration are in a second one too, with what they held. -/
def KeepsOthers (table read : Table) : Prop :=
  ∀ key ≠ sectionKey, ∀ content, table.contentAt key = some content →
    read.contentAt key = some content

/-- A configuration without entries of others. -/
def HasNoOthers (table : Table) : Prop := ∀ key ≠ sectionKey, table.contentAt key = none

theorem keepsOthers_nil_iff : KeepsOthers table [] ↔ HasNoOthers table := by
  constructor
  · intro hkeeps key hother
    cases hcontent : table.contentAt key with
    | none => rfl
    | some content => cases hkeeps key hother content hcontent
  · intro hnone key hother content hcontent
    rw [hnone key hother] at hcontent
    cases hcontent

/-- How a file may be after a call: as it was before, if the call does not claim to have written, or
else a configuration with the entries of others from the one that it was before. -/
def Spared (codec : Toml.Codec) (before : ConfigFile) (outcome : Except ConfigError Bool)
    (after : ConfigFile) : Prop :=
  (after = before ∧ outcome ≠ .ok true) ∨
    ∃ content read, before.Contains codec content ∧ after.Contains codec read ∧
      KeepsOthers content read

/-- Storing a draft does no harm to a configuration: the entries of others in it are read from what
is printed, or there are none and nothing can be printed. -/
def KeepsThrough (codec : Toml.Codec) (content : Table) (draft : Toml.Draft) : Prop :=
  match codec.print draft with
  | .ok text => ∃ read, (ConfigFile.file (Text.toBytes text)).Contains codec read ∧
      KeepsOthers content read
  | .error _ => HasNoOthers content

namespace Call

/-! ## Stored drafts -/

theorem contentAt_draft {key : String} (hother : key ≠ sectionKey)
    (h : call.draft table = .ok draft) : draft.table.contentAt key = table.contentAt key := by
  have hsame : Keyed.get? key draft.table = Keyed.get? key table := by
    cases call with
    | save values =>
        rw [Call.draft] at h
        cases hpresent : entries table with
        | error error =>
            rw [hpresent] at h
            cases h
        | ok present =>
            rw [hpresent] at h
            cases h
            exact get?_merged hother table values present
    | clear =>
        cases h
        simp [hother.symm]
  rw [Table.contentAt, Table.contentAt, hsame]

theorem isWritable_congr (hfile : after.file = state.file) (hhost : after.host = state.host) :
    after.isWritable = state.isWritable := by
  rw [ConfigState.isWritable, ConfigState.isWritable, hfile, hhost]

/-- A draft is stored in the state that loading has left, which is the former one but for its
notices. -/
theorem exists_run_of_draft (haccepted : call.Accepted)
    (hloaded : state.file.LoadedAs state.host table) (hdraft : call.draft table = .ok draft) :
    ∃ after : ConfigState, after.file = state.file ∧ after.isWritable = state.isWritable ∧
      call.act.run.run state = (storeText (state.host.codec.print draft)).run.run after := by
  obtain ⟨after, hload, hfile, hhost⟩ := exists_run_load hloaded
  have hrun := run_of_loaded haccepted hload
  rw [hdraft] at hrun
  dsimp only at hrun
  rw [run_store_eq, hhost] at hrun
  exact ⟨after, hfile, isWritable_congr hfile hhost, hrun⟩

theorem exists_run_of_no_draft {error : ConfigError} (haccepted : call.Accepted)
    (hloaded : state.file.LoadedAs state.host table) (hdraft : call.draft table = .error error) :
    ∃ after : ConfigState, after.file = state.file ∧
      call.act.run.run state = (.error error, after) := by
  obtain ⟨after, hload, hfile, -⟩ := exists_run_load hloaded
  have hrun := run_of_loaded haccepted hload
  rw [hdraft] at hrun
  exact ⟨after, hfile, hrun⟩

theorem run_of_broken {error : ConfigError} (haccepted : call.Accepted)
    (h : state.file.Broken state.host error) : call.act.run.run state = (.error error, state) := by
  rw [act_eq haccepted, run_run_bind, run_load_of_broken h]

/-- A draft that cannot be written leaves the file as it was. -/
theorem exists_run_of_not_writable (haccepted : call.Accepted) (hclosed : state.isWritable = false)
    (hloaded : state.file.LoadedAs state.host table) (hdraft : call.draft table = .ok draft) :
    ∃ after : ConfigState, after.file = state.file ∧
      call.act.run.run state =
        (if state.file = .homeless then .error .homeless else .ok false, after) := by
  obtain ⟨⟨file, notices, host⟩, hfile, hsame, hrun⟩ :=
    exists_run_of_draft haccepted hloaded hdraft
  obtain rfl : file = state.file := hfile
  rw [run_storeText_of_not_writable (hsame.trans hclosed)] at hrun
  cases hplace : state.file with
  | hidden =>
      rw [hplace] at hloaded
      obtain hholds | ⟨hignored, -⟩ := hloaded
      · cases hholds
      · cases hignored
  | absent | directory | file bytes =>
      rw [hplace] at hrun
      exact ⟨⟨_, notices.push .configNotWritten, host⟩, rfl, hrun⟩
  | homeless =>
      rw [hplace] at hrun
      exact ⟨⟨_, notices, host⟩, rfl, hrun⟩

/-- A draft that can be written leaves its text in the file, or an empty file if it has none. -/
theorem exists_run_of_writable (haccepted : call.Accepted) (hopen : state.isWritable = true)
    (hloaded : state.file.LoadedAs state.host table) (hdraft : call.draft table = .ok draft) :
    ∃ after : ConfigState, call.act.run.run state =
      match state.host.codec.print draft with
      | .ok text => (.ok true, { after with file := .file (Text.toBytes text) })
      | .error fault => (.error (.unwritable fault), { after with file := .file [] }) := by
  obtain ⟨after, -, hsame, hrun⟩ := exists_run_of_draft haccepted hloaded hdraft
  rw [run_storeText (hsame.trans hopen)] at hrun
  exact ⟨after, hrun⟩

/-- The ways in which a call that is accepted ends: before there is a draft, at a file that cannot
be written, with the draft written, or with the file emptied for a draft that has no text. -/
inductive Ends (call : Call) (state : ConfigState) : Except ConfigError Bool × ConfigState → Prop
  | failed {error : ConfigError} {after : ConfigState}
      (hcause : state.file.Broken state.host error ∨
        ∃ table, state.file.LoadedAs state.host table ∧ call.draft table = .error error)
      (hfile : after.file = state.file) : Ends call state (.error error, after)
  | closed {table : Table} {draft : Toml.Draft} {after : ConfigState}
      (hclosed : state.isWritable = false) (hloaded : state.file.LoadedAs state.host table)
      (hdraft : call.draft table = .ok draft) (hfile : after.file = state.file) :
      Ends call state (if state.file = .homeless then .error .homeless else .ok false, after)
  | written {table : Table} {draft : Toml.Draft} {text : String} {after : ConfigState}
      (hopen : state.isWritable = true) (hloaded : state.file.LoadedAs state.host table)
      (hdraft : call.draft table = .ok draft) (htext : state.host.codec.print draft = .ok text) :
      Ends call state (.ok true, { after with file := .file (Text.toBytes text) })
  | emptied {table : Table} {draft : Toml.Draft} {fault : Toml.Fault} {after : ConfigState}
      (hopen : state.isWritable = true) (hloaded : state.file.LoadedAs state.host table)
      (hdraft : call.draft table = .ok draft)
      (hfault : state.host.codec.print draft = .error fault) :
      Ends call state (.error (.unwritable fault), { after with file := .file [] })

theorem exists_ends (haccepted : call.Accepted) (state : ConfigState) :
    ∃ result, call.act.run.run state = result ∧ call.Ends state result := by
  refine ⟨_, rfl, ?_⟩
  obtain ⟨table, -, -, -, -, hloaded⟩ | ⟨error, hbroken, -⟩ := run_load_cases state
  · cases hdraft : call.draft table with
    | error error =>
        obtain ⟨after, hfile, hrun⟩ := exists_run_of_no_draft haccepted hloaded hdraft
        rw [hrun]
        exact .failed (.inr ⟨table, hloaded, hdraft⟩) hfile
    | ok draft =>
        cases hopen : state.isWritable with
        | false =>
            obtain ⟨after, hfile, hrun⟩ := exists_run_of_not_writable haccepted hopen hloaded hdraft
            rw [hrun]
            exact .closed hopen hloaded hdraft hfile
        | true =>
            obtain ⟨after, hrun⟩ := exists_run_of_writable haccepted hopen hloaded hdraft
            rw [hrun]
            cases htext : state.host.codec.print draft with
            | ok text => exact .written hopen hloaded hdraft htext
            | error fault => exact .emptied hopen hloaded hdraft htext
  · rw [run_of_broken haccepted hbroken]
    exact .failed (.inl hbroken) rfl

/-- A call that has changed the file is done, or it has come upon something that cannot be
written. -/
theorem file_eq_or_done (call : Call) (state : ConfigState) :
    (call.act.run.run state).2.file = state.file ∨ (call.act.run.run state).1 = .ok true ∨
      ∃ fault, (call.act.run.run state).1 = .error (.unwritable fault) := by
  by_cases haccepted : call.Accepted
  · obtain ⟨result, hrun, hends⟩ := exists_ends haccepted state
    rw [hrun]
    cases hends with
    | failed _ hfile | closed _ _ _ hfile => exact .inl hfile
    | written => exact .inr (.inl rfl)
    | emptied => exact .inr (.inr ⟨_, rfl⟩)
  · rw [run_of_refused haccepted]
    exact .inl rfl

/-! ## Spared files -/

/-- The call leaves the file as it was or keeps the entries of others. -/
def Spares (call : Call) (state : ConfigState) : Prop :=
  Spared state.host.codec state.file (call.act.run.run state).1 (call.act.run.run state).2.file

theorem spares_of_unchanged {outcome : Except ConfigError Bool}
    (hrun : call.act.run.run state = (outcome, after)) (hfile : after.file = state.file)
    (houtcome : outcome ≠ .ok true) : call.Spares state := by
  rw [Spares, hrun]
  exact .inl ⟨hfile, houtcome⟩

theorem spares_of_refused (h : ¬ call.Accepted) (state : ConfigState) : call.Spares state :=
  spares_of_unchanged (run_of_refused h state) rfl (by simp)

/-- A file that cannot be written stays as it is. -/
theorem spares_of_not_writable (haccepted : call.Accepted) (hclosed : state.isWritable = false) :
    call.Spares state := by
  obtain ⟨result, hrun, hends⟩ := exists_ends haccepted state
  cases hends with
  | failed hcause hfile => exact spares_of_unchanged hrun hfile nofun
  | closed _ _ _ hfile =>
      refine spares_of_unchanged hrun hfile ?_
      split <;> simp
  | written hopen | emptied hopen => cases hclosed.symm.trans hopen

/-- A draft that is stored does no harm if the file contains a configuration, and storing the draft
does no harm to that. -/
theorem spares_iff_of_draft (haccepted : call.Accepted) (hopen : state.isWritable = true)
    (hloaded : state.file.LoadedAs state.host table) (hdraft : call.draft table = .ok draft) :
    call.Spares state ↔
      ∃ content, state.file.Contains state.host.codec content ∧
        KeepsThrough state.host.codec content draft := by
  obtain ⟨after, hrun⟩ := exists_run_of_writable haccepted hopen hloaded hdraft
  rw [Spares, hrun]
  unfold KeepsThrough
  cases state.host.codec.print draft with
  | ok text =>
      constructor
      · rintro (⟨-, hsilent⟩ | ⟨content, read, hbefore, hread, hkeeps⟩)
        · exact absurd rfl hsilent
        · exact ⟨content, hbefore, read, hread, hkeeps⟩
      · rintro ⟨content, hbefore, read, hread, hkeeps⟩
        exact .inr ⟨content, read, hbefore, hread, hkeeps⟩
  | error fault =>
      have hempty := ConfigFile.contains_empty state.host.codec
      constructor
      · rintro (⟨hsame, -⟩ | ⟨content, read, hbefore, hread, hkeeps⟩)
        · refine ⟨[], ?_, fun _ _ => rfl⟩
          rw [← hsame]
          exact hempty
        · rw [hread.unique hempty] at hkeeps
          exact ⟨content, hbefore, keepsOthers_nil_iff.mp hkeeps⟩
      · rintro ⟨content, hbefore, hnone⟩
        exact .inr ⟨content, [], hbefore, hempty, keepsOthers_nil_iff.mpr hnone⟩

/-- A call does harm in no other way: unless it is refused or the file cannot be written, the file
must contain a configuration to which it does no harm that the draft is stored. -/
theorem spares_iff (call : Call) (state : ConfigState) :
    call.Spares state ↔
      ¬ call.Accepted ∨ state.isWritable = false ∨
        ∀ table draft, state.file.LoadedAs state.host table → call.draft table = .ok draft →
          ∃ content, state.file.Contains state.host.codec content ∧
            KeepsThrough state.host.codec content draft := by
  by_cases haccepted : call.Accepted
  · rw [or_iff_right (not_not_intro haccepted)]
    cases hopen : state.isWritable with
    | false => exact iff_of_true (spares_of_not_writable haccepted hopen) (.inl rfl)
    | true =>
        rw [or_iff_right Bool.true_eq_false.mp]
        constructor
        · intro hspares table draft hloaded hdraft
          exact (spares_iff_of_draft haccepted hopen hloaded hdraft).mp hspares
        · intro hdrafts
          obtain ⟨result, hrun, hends⟩ := exists_ends haccepted state
          cases hends with
          | failed hcause hfile => exact spares_of_unchanged hrun hfile nofun
          | closed hclosed => cases hclosed.symm.trans hopen
          | written _ hloaded hdraft | emptied _ hloaded hdraft =>
              exact (spares_iff_of_draft haccepted hopen hloaded hdraft).mpr
                (hdrafts _ _ hloaded hdraft)
  · exact iff_of_true (spares_of_refused haccepted state) (.inl haccepted)

/-- A file that contains no configuration is destroyed by every call that is followed, if it is
passed over and can be written. -/
theorem not_spares_of_ignored (haccepted : call.Accepted) (hopen : state.isWritable = true)
    (hignored : state.file.Ignored state.host)
    (hnone : ∀ content, ¬ state.file.Contains state.host.codec content) : ¬ call.Spares state := by
  have hdraft : ∃ draft, call.draft [] = .ok draft := by
    cases call with
    | save values => exact ⟨merged [] values [], rfl⟩
    | clear => exact ⟨{ table := [] }, rfl⟩
  obtain ⟨draft, hdraft⟩ := hdraft
  rw [spares_iff_of_draft haccepted hopen (.inr ⟨hignored, rfl⟩) hdraft]
  rintro ⟨content, hcontent, -⟩
  exact hnone content hcontent

/-- A configuration is spared if the draft that is made of it is read again as it was written. -/
theorem spares_of_recovers {text : String} (haccepted : call.Accepted)
    (hopen : state.isWritable = true) (hholds : state.file.Holds state.host table)
    (hdraft : call.draft table = .ok draft) (hprint : state.host.codec.print draft = .ok text)
    (hread : (ConfigFile.file (Text.toBytes text)).Contains state.host.codec read)
    (hsame : ∀ key, read.contentAt key = draft.table.contentAt key) : call.Spares state := by
  rw [spares_iff_of_draft haccepted hopen (.inl hholds) hdraft]
  refine ⟨table, ConfigFile.contains_of_holds hholds, ?_⟩
  rw [KeepsThrough, hprint]
  refine ⟨read, hread, fun key hother value hvalue => ?_⟩
  rw [hsame, contentAt_draft hother hdraft, hvalue]

/-- An entry of others that cannot be written. -/
def unprintable : Table := [("x", .scalar (.text "\x1a"))]

/-- An entry of others that is written as another one. -/
def misprinted : Table := [("x", .scalar (.text "a\x1a"))]

/-- Clearing the settings harms a file that is malformed, one with a text that cannot be written,
and one with a text that is written as another. -/
theorem not_spares_clear :
    ¬ clear.Spares { file := .file (Text.toBytes "[ui]\ntheme = \"dark\"\n[scan\nnot toml") } ∧
    ¬ clear.Spares { file := .file (Text.toBytes "x = \"\\u001a\"\n") } ∧
    ¬ clear.Spares { file := .file (Text.toBytes "x = \"a\\u001a\"\n") } := by
  have haccepted : clear.Accepted := rfl
  refine ⟨?_, fun hspares => ?_, fun hspares => ?_⟩
  · have hmalformed : decode Toml.codec (Text.toBytes "[ui]\ntheme = \"dark\"\n[scan\nnot toml") =
        .error (.unreadable .malformed) := rfl
    refine not_spares_of_ignored haccepted rfl (.inr hmalformed) fun content hcontent => ?_
    cases hmalformed.symm.trans hcontent
  · have hholds : (ConfigFile.file (Text.toBytes "x = \"\\u001a\"\n")).Holds {} unprintable :=
      ⟨rfl, rfl⟩
    have hdraft : clear.draft unprintable = .ok { table := unprintable } := rfl
    obtain ⟨content, hcontent, hnone⟩ :=
      (spares_iff_of_draft haccepted rfl (.inl hholds) hdraft).mp hspares
    rw [hcontent.unique (ConfigFile.contains_of_holds hholds)] at hnone
    cases hnone "x" (by decide)
  · have hholds : (ConfigFile.file (Text.toBytes "x = \"a\\u001a\"\n")).Holds {} misprinted :=
      ⟨rfl, rfl⟩
    have hdraft : clear.draft misprinted = .ok { table := misprinted } := rfl
    obtain ⟨content, hcontent, read, hread, hkeeps⟩ :=
      (spares_iff_of_draft haccepted rfl (.inl hholds) hdraft).mp hspares
    rw [hcontent.unique (ConfigFile.contains_of_holds hholds)] at hkeeps
    have hwritten : (ConfigFile.file (Text.toBytes "x = \"ax1a\"\n")).Contains Toml.codec
        [("x", .scalar (.text "ax1a"))] := rfl
    obtain rfl := hwritten.unique hread
    have hcontent : some (Content.scalar (.text "ax1a")) = some (.scalar (.text "a\x1a")) :=
      hkeeps "x" (by decide) _ rfl
    rw [Option.some.injEq, Content.scalar.injEq, Scalar.text.injEq] at hcontent
    exact absurd hcontent (by decide)

end Call

end Config

end Lineage

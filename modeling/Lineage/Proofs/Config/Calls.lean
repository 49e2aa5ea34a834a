import Lineage.Proofs.Config.Content

/-!
# Calls on the configuration

A configuration is read whole, changed in its table of settings and written whole.  What a single
call does is said here in terms of the configuration that is read: which draft is made of it and
written, or that the call is refused and nothing changes.

The host of the configuration is left open: what its codec makes of a text, and whether it lets the
file be read and written.

## Main results

* `run_load`: a file that holds a configuration is loaded as that.
* `run_storeText`, `run_storeText_of_not_writable`: what is written over a file.
* `Call.act_eq`, `Call.run_of_refused`: what saving and clearing do.
* `Call.run_of_accepted`: what they write if the settings are a table.
* `run_loadScan`, `run_loadSettings`: what is loaded depends only on the values of settings.
-/

namespace Lineage

/-! ## Files -/

/-- The configuration that a file holds for a host: none of it if the file is not there. -/
def ConfigFile.Holds (host : ConfigHost) : ConfigFile → Table → Prop
  | .absent, table | .homeless, table => table = []
  | .file bytes, table => host.reads = true ∧ Config.decode host.codec bytes = .ok table
  | _, _ => False

/-- What is in the bytes of a text is what the codec reads from it. -/
theorem Config.decode_of_text {codec : Toml.Codec} {bytes : List UInt8} {text : String}
    (h : Text.ofBytes? bytes = some text) :
    decode codec bytes = (codec.parse text).mapError .unreadable := by
  rw [decode, h]

theorem Config.exists_text_of_decode {codec : Toml.Codec} {bytes : List UInt8} {table : Table}
    (h : decode codec bytes = .ok table) : ∃ text, codec.parse text = .ok table := by
  rw [decode] at h
  split at h
  · cases h
  · next text htext =>
      refine ⟨text, ?_⟩
      cases hparse : codec.parse text with
      | ok read =>
          rw [hparse] at h
          cases h
          rfl
      | error fault =>
          rw [hparse] at h
          cases h

/-- Nothing that a file holds has a key twice. -/
theorem ConfigFile.keysDistinct_of_holds {host : ConfigHost} {file : ConfigFile} {table : Table}
    (h : file.Holds host table) : Value.KeysDistinct (.table table) := by
  cases file with
  | absent | homeless =>
      rw [show table = [] from h]
      exact .empty
  | hidden | directory => cases h
  | file bytes =>
      obtain ⟨text, hparse⟩ := Config.exists_text_of_decode h.2
      exact host.codec.keysDistinct_of_parse text table hparse

/-- A computation that can fail, step by step: the next step starts where the last one has ended,
and a failure ends both. -/
theorem run_run_bind {ε σ α β : Type} (act : ExceptT ε (StateM σ) α)
    (next : α → ExceptT ε (StateM σ) β) (state : σ) :
    (act >>= next).run.run state =
      match act.run.run state with
      | (.ok a, after) => (next a).run.run after
      | (.error failure, after) => (.error failure, after) := by
  rw [ExceptT.run_bind, StateT.run_bind]
  obtain ⟨outcome, after⟩ := act.run.run state
  cases outcome <;> rfl

/-! ## What is left as it was -/

section Leaves

variable {ε σ τ α β : Type} {part : σ → τ}

/-- However the computation ends, a part of the state is left as it was. -/
def Leaves (part : σ → τ) (act : ExceptT ε (StateM σ) α) : Prop :=
  ∀ state, part (act.run.run state).2 = part state

theorem Leaves.pure (a : α) : Leaves part (pure a : ExceptT ε (StateM σ) α) := fun _ => rfl

theorem Leaves.throw (failure : ε) :
    Leaves part (throw failure : ExceptT ε (StateM σ) α) := fun _ => rfl

theorem Leaves.get : Leaves part (get : ExceptT ε (StateM σ) σ) := fun _ => rfl

theorem Leaves.modify {change : σ → σ} (h : ∀ state, part (change state) = part state) :
    Leaves part (modify change : ExceptT ε (StateM σ) PUnit) := h

theorem Leaves.bind {act : ExceptT ε (StateM σ) α} {next : α → ExceptT ε (StateM σ) β}
    (hact : Leaves part act) (hnext : ∀ a, Leaves part (next a)) : Leaves part (act >>= next) := by
  intro state
  have hfirst := hact state
  rw [run_run_bind]
  rcases hrun : act.run.run state with ⟨outcome, after⟩
  rw [hrun] at hfirst
  cases outcome with
  | ok a => exact (hnext a after).trans hfirst
  | error failure => exact hfirst

end Leaves

namespace Config

variable {state : ConfigState} {table : Table}

@[simp] theorem run_get_bind {α : Type} (next : ConfigState → Configuring α) (state : ConfigState) :
    (get >>= next).run.run state = (next state).run.run state := rfl

theorem run_load (h : state.file.Holds state.host table) :
    (load).run.run state = (.ok table, state) := by
  rw [load, run_get_bind]
  cases hfile : state.file with
  | absent | homeless =>
      rw [hfile] at h
      rw [show table = [] from h]
      rfl
  | hidden | directory =>
      rw [hfile] at h
      cases h
  | file bytes =>
      rw [hfile] at h
      obtain ⟨hreads, hdecode⟩ := h
      simp only [hreads, if_true, hdecode]
      rfl

theorem leaves_note {γ : Type} {part : ConfigState → γ}
    (hpart : ∀ state notices, part { state with notices := notices } = part state)
    (notice : Notice) : Leaves part (note notice) :=
  .modify fun state => hpart state _

/-- Loading changes nothing but the notices. -/
theorem leaves_load {γ : Type} {part : ConfigState → γ}
    (hpart : ∀ state notices, part { state with notices := notices } = part state) :
    Leaves part load := by
  have hignore : Leaves part ignore := (leaves_note hpart _).bind fun _ => .pure _
  refine Leaves.get.bind fun state => ?_
  split
  · exact .pure _
  · exact .pure _
  · exact .throw _
  · exact hignore
  · split
    · split
      · exact .pure _
      · exact hignore
      · exact .throw _
    · exact hignore

theorem leaves_loadSettings : Leaves ConfigState.file loadSettings := by
  refine ((leaves_load fun _ _ => rfl).bind fun _ => .pure _).bind fun values => ?_
  split
  · exact .pure _
  · exact .throw _

/-- Nothing is written where there is no place to write to, or the file cannot be opened. -/
theorem run_storeText_of_not_writable (h : state.isWritable = false)
    (text : Except Toml.Fault String) :
    (storeText text).run.run state =
      match state.file with
      | .homeless => (.error .homeless, state)
      | .hidden => (.error .hidden, state)
      | _ => (.ok false, { state with notices := state.notices.push .configNotWritten }) := by
  rw [storeText.eq_def, run_run_bind, openForWriting, run_get_bind, h]
  obtain ⟨file, notices, host⟩ := state
  cases file <;> rfl

/-- A file that can be written is emptied before the text is written, and stays empty if there is
none. -/
theorem run_storeText (h : state.isWritable = true) (text : Except Toml.Fault String) :
    (storeText text).run.run state =
      match text with
      | .ok text => (.ok true, { state with file := .file (Text.toBytes text) })
      | .error fault => (.error (.unwritable fault), { state with file := .file [] }) := by
  have hopen : (openForWriting).run.run state = (.ok true, { state with file := .file [] }) := by
    rw [openForWriting, run_get_bind, h]
    rw [ConfigState.isWritable] at h
    cases hfile : state.file with
    | absent | file bytes => rfl
    | homeless | hidden | directory =>
        rw [hfile] at h
        cases h
  rw [storeText.eq_def, run_run_bind, hopen]
  cases text <;> rfl

theorem run_store_eq (draft : Toml.Draft) (state : ConfigState) :
    (store draft).run.run state = (storeText (state.host.codec.print draft)).run.run state := rfl

/-- A text is written in place of whatever the file held. -/
theorem run_store {draft : Toml.Draft} {text : String}
    (hprint : state.host.codec.print draft = .ok text) (hwritable : state.isWritable = true) :
    (store draft).run.run state =
      (.ok true, { state with file := .file (Text.toBytes text) }) := by
  rw [run_store_eq, run_storeText hwritable, hprint]

/-- What has been written can be written again. -/
theorem isWritable_written (h : state.isWritable = true) (bytes : List UInt8) :
    { state with file := .file bytes : ConfigState }.isWritable = true := by
  rw [ConfigState.isWritable] at h ⊢
  cases hfile : state.file with
  | absent | file bytes =>
      rw [hfile] at h
      exact h
  | homeless | hidden | directory =>
      rw [hfile] at h
      cases h

/-! ## The table of settings -/

/-- The table of settings in a configuration. -/
def sectionOf (table : Table) : Table :=
  match table.get? sectionKey with
  | some (.table entries) => entries
  | _ => []

/-- The settings, if there are any, are a table. -/
def SectionIsTable (table : Table) : Prop :=
  table.get? sectionKey = none ∨ ∃ entries, table.get? sectionKey = some (.table entries)

/-- The entries of a table whose keys are those of settings. -/
def known (settings : Table) : Table := settings.filter fun entry => settingKeys.contains entry.1

theorem scanTable_eq (table : Table) : scanTable table = known (sectionOf table) := by
  rw [scanTable, sectionOf]
  rcases Keyed.get? sectionKey table with _ | _ | _ | entries <;> rfl

theorem get?_known (settings : Table) (key : String) :
    Keyed.get? key (known settings) =
      if settingKeys.contains key then Keyed.get? key settings else none :=
  Keyed.get?_filter key (fun key => settingKeys.contains key) settings

theorem nodup_sectionOf (h : Value.KeysDistinct (.table table)) :
    ((sectionOf table).map Prod.fst).Nodup := by
  rw [sectionOf]
  split
  · next entries hfound => exact (h.member hfound).nodup_keys
  · exact .nil

theorem textKeys?_map (settings : Table) :
    textKeys? (settings.map fun (key, value) => (.text key, value)) = some settings := by
  induction settings with
  | nil => rfl
  | cons entry settings ih =>
      rw [List.map_cons, textKeys?, ih]
      rfl

/-- The settings to be changed are all entries of the table. -/
theorem entries_eq (h : SectionIsTable table) :
    entries table = .ok ((sectionOf table).map fun (key, value) => (.text key, value)) := by
  rw [entries, sectionOf]
  obtain hnone | ⟨settings, hsome⟩ := h
  · rw [hnone]
    rfl
  · rw [hsome]

/-! ## Drafts -/

/-- Merging into a table, in which no key is there twice, changes just its entries. -/
theorem merged_map {settings : Table} (hkeys : (settings.map Prod.fst).Nodup)
    (table values : Table) :
    merged table values (settings.map fun (key, value) => (.text key, value)) =
      { table := table.set sectionKey (.table (settings.update values)) } := by
  rw [merged, textKeys?_map]
  simp only
  rw [Keyed.update_nil hkeys]

/-- Merging leaves the entries of others as they are. -/
theorem get?_merged {key : String} (hother : key ≠ sectionKey) (table values : Table)
    (present : List (Scalar × Value)) :
    Keyed.get? key (merged table values present).table = Keyed.get? key table := by
  rw [merged]
  split <;> simp [hother.symm]

/-! ## Changes -/

/-- A call that changes the configuration. -/
inductive Call where
  | save (values : Table)
  | clear

namespace Call

/-- What a call does. -/
def act : Call → Configuring Bool
  | save values => Config.save values
  | clear => Config.clear

/-- The keys that a call gives values for although they are no settings. -/
def unknown : Call → List String
  | save values => (values.map Prod.fst).filter fun key => !settingKeys.contains key
  | clear => []

/-- A call is followed unless it names unknown keys. -/
def Accepted (call : Call) : Prop := call.unknown = []

instance (call : Call) : Decidable call.Accepted := inferInstanceAs (Decidable (_ = _))

/-- What becomes of the settings by a call. -/
def change : Call → Table → Table
  | save values, settings => settings.update values
  | clear, _ => []

/-- The draft that a call makes of a configuration, if its settings can be merged with others. -/
def draft : Call → Table → Except ConfigError Toml.Draft
  | save values, table => (entries table).map (merged table values)
  | clear, table => .ok { table := table.erase sectionKey }

/-- The configuration that a call writes in place of one whose settings are a table. -/
def rewrite : Call → Table → Table
  | save values, table => table.set sectionKey (.table ((sectionOf table).update values))
  | clear, table => table.erase sectionKey

/-- A call with unknown keys fails and names them, and nothing is changed. -/
theorem run_of_refused {call : Call} (h : ¬ call.Accepted) (state : ConfigState) :
    call.act.run.run state =
      (.error (.unknownKeys ((firstsBy id call.unknown).mergeSort Text.precedes)), state) := by
  cases call with
  | clear => exact absurd rfl h
  | save values =>
      have hsome : ((values.map Prod.fst).filter fun key =>
          !settingKeys.contains key).isEmpty = false := by
        rw [List.isEmpty_eq_false_iff]
        exact h
      rw [act, Config.save]
      simp only [hsome]
      rfl

/-- Any other call loads the configuration and stores its draft of it. -/
theorem act_eq {call : Call} (h : call.Accepted) :
    call.act = load >>= fun table =>
      match call.draft table with
      | .ok draft => store draft
      | .error error => throw error := by
  cases call with
  | clear => rfl
  | save values =>
      have hnone : ((values.map Prod.fst).filter fun key =>
          !settingKeys.contains key).isEmpty = true := by
        rw [List.isEmpty_iff]
        exact h
      rw [act, Config.save]
      simp only [hnone]
      rw [if_neg (by decide)]
      congr 1
      funext table
      rw [draft]
      cases entries table <;> rfl

/-- What becomes of the draft is seen in the state that loading has left. -/
theorem run_of_loaded {call : Call} {after : ConfigState} (haccepted : call.Accepted)
    (hload : (load).run.run state = (.ok table, after)) :
    call.act.run.run state =
      match call.draft table with
      | .ok draft => (store draft).run.run after
      | .error error => (.error error, after) := by
  rw [act_eq haccepted, run_run_bind, hload]
  simp only
  cases call.draft table <;> rfl

/-- Settings that are a table can be merged with others, entry by entry. -/
theorem draft_eq (call : Call) (hkeys : ((sectionOf table).map Prod.fst).Nodup)
    (hsection : SectionIsTable table) : call.draft table = .ok { table := call.rewrite table } := by
  cases call with
  | save values =>
      rw [draft, entries_eq hsection, Except.map, merged_map hkeys]
      rfl
  | clear => rfl

/-- A call writes a configuration in place of one whose settings are a table. -/
theorem run_of_accepted {call : Call} (h : call.Accepted)
    (hfile : state.file.Holds state.host table) (hsection : SectionIsTable table) :
    call.act.run.run state = (store { table := call.rewrite table }).run.run state := by
  have hkeys := nodup_sectionOf (ConfigFile.keysDistinct_of_holds hfile)
  rw [run_of_loaded h (run_load hfile), draft_eq call hkeys hsection]

/-! ## What is written -/

theorem sectionOf_rewrite (call : Call) (table : Table) :
    sectionOf (call.rewrite table) = call.change (sectionOf table) := by
  cases call with
  | save values => simp [rewrite, sectionOf, change]
  | clear => simp [rewrite, sectionOf, change]

theorem sectionIsTable_rewrite (call : Call) (table : Table) :
    SectionIsTable (call.rewrite table) := by
  cases call with
  | save values =>
      refine .inr ⟨(sectionOf table).update values, ?_⟩
      simp [rewrite]
  | clear => exact .inl (by simp [rewrite])

/-- Other entries than the settings are written as they were. -/
theorem get?_rewrite {key : String} (hother : key ≠ sectionKey) (call : Call) (table : Table) :
    Keyed.get? key (call.rewrite table) = Keyed.get? key table := by
  cases call with
  | save values => simp [rewrite, hother.symm]
  | clear => simp [rewrite, hother.symm]

end Call

/-! ## Loading settings -/

theorem run_loadScan (h : state.file.Holds state.host table) :
    (loadScan).run.run state = (.ok (known (sectionOf table)), state) := by
  rw [loadScan, run_run_bind, run_load h, ← scanTable_eq]
  rfl

/-- Overrides count only by their values under the keys of settings. -/
theorem withOverrides_congr {values others : Table}
    (h : ∀ key ∈ settingKeys, Keyed.get? key values = Keyed.get? key others)
    (settings : Settings) : settings.withOverrides values = settings.withOverrides others := by
  have hkey : ∀ key ∈ settingKeys, values.get? key = others.get? key := h
  simp only [settingKeys, List.forall_mem_cons] at hkey
  obtain ⟨hfolder, htags, hhome, hlogic, hmarkup, hskip, -⟩ := hkey
  simp only [Settings.withOverrides, Settings.override, Settings.overrideText, hfolder, htags,
    hhome, hlogic, hmarkup, hskip]

theorem run_loadSettings (h : state.file.Holds state.host table) :
    (loadSettings).run.run state =
      ((({} : Settings).withOverrides (known (sectionOf table))).mapError .settings, state) := by
  rw [loadSettings, run_run_bind, run_loadScan h]
  simp only
  cases ({} : Settings).withOverrides (known (sectionOf table)) <;> rfl

end Config

end Lineage

import Lineage.Proofs.Cli.Effects

/-!
# Text selected in a file

A hierarchy can be asked for with a file and the text selected in it.  The names that are tried
depend on the selection without its surrounding blanks only, and a selection of blanks is as good as
none.  What a command line with a selection does, shows and puts on display therefore depends on the
bare selection, except for one line.  If none of the names tried is declared, the complaint names
the selection where there is one, and there it counts as given as soon as it is not empty.  Then a
selection of blanks, which was not among the names tried, is named as an invalid class, and without
its blanks nothing is left of it to be named.

## Main results

* `run_mainClass_stripped`, `run_mainClass_blank`: how far a command regards the blanks.
* `run_selecting_cases`: a command line runs the command with its selection, or never comes to that.
* `run_selecting_exact`: what the blanks of a selection make of a command line.
-/

namespace Lineage

/-! ## Names to try -/

namespace Project

/-- The names tried do not depend on the blanks around a selection. -/
theorem hierarchyFor_stripped (project : Project) (file : Path) (selection : String) :
    project.hierarchyFor file (some (Text.stripped selection)) =
      project.hierarchyFor file (some selection) := by
  unfold hierarchyFor rootCandidates
  rw [Option.map_some, Option.map_some, Text.stripped_stripped]

/-- A selection of blanks is as good as none. -/
theorem hierarchyFor_blank (project : Project) (file : Path) {selection : String}
    (hblank : Text.stripped selection = "") :
    project.hierarchyFor file (some selection) = project.hierarchyFor file none := by
  unfold hierarchyFor rootCandidates
  rw [Option.map_some, hblank]
  rfl

end Project

namespace Cli

/-! ## Complaints -/

/-- The complaint that none of the names tried is declared. -/
def undetermined : String := "❌ Could not determine class hierarchy"

/-- The same complaint, made of a selection that nothing is left of. -/
def invalid : String := "❌ '' does not appear to be a valid class"

/-- The console on which the second complaint stands for the first. -/
def Console.misread (console : Console) : Console :=
  { console with
    complaints := console.complaints.map fun line => if line = undetermined then invalid else line }

theorem Console.misread_eq_self_iff {console : Console} :
    console.misread = console ↔ undetermined ∉ console.complaints := by
  constructor
  · intro hsame hmem
    rw [← hsame] at hmem
    obtain ⟨line, -, hline⟩ := List.mem_map.mp hmem
    split at hline
    · revert hline
      decide
    · next hother => exact hother hline
  · intro hfree
    have hkept : (console.complaints.map fun line =>
        if line = undetermined then invalid else line) = console.complaints := by
      conv => rhs; rw [← List.map_id console.complaints]
      apply List.map_congr_left
      intro line hline
      rw [if_neg (ne_of_mem_of_not_mem hline hfree)]
      rfl
    rw [misread, hkept]

theorem Console.misread_of_quiet {console : Console} (hquiet : console.complaints = []) :
    console.misread = console :=
  misread_eq_self_iff.mpr (by simp [hquiet])

/-- The outcome with the second complaint for the first. -/
def Outcome.misread (outcome : Outcome) : Outcome :=
  { outcome with console := outcome.console.misread }

theorem Outcome.misread_eq_self_iff {outcome : Outcome} :
    outcome.misread = outcome ↔ undetermined ∉ outcome.console.complaints := by
  rw [← Console.misread_eq_self_iff]
  obtain ⟨failure, workspace, console⟩ := outcome
  simp [misread]

namespace Running

variable {session : Session} {file root : Path} {asJson : Bool} {selection : String}

/-- The session with the second complaint for the first. -/
def misreadSession (session : Session) : Session :=
  { session with console := session.console.misread }

theorem misreadSession_of_quiet (hquiet : session.console.complaints = []) :
    misreadSession session = session := by
  rw [misreadSession, Console.misread_of_quiet hquiet]

/-! ## How the command ends -/

/-- What the command does with the names tried and the hierarchy found. -/
def conclude (selection : Option String) (asJson : Bool)
    (found : Except ReadFailure (List String × Option Tree)) : Running Unit :=
  match found with
  | .error failure => refuse (.unreadable failure)
  | .ok ([], _) => giveUp "Could not detect a class in the current file"
  | .ok (_ :: _, some tree) => present tree asJson false
  | .ok (_ :: _, none) =>
      match selection with
      | some text =>
          if text.isEmpty then giveUp "Could not determine class hierarchy"
          else giveUp ("'" ++ Text.stripped text ++ "' does not appear to be a valid class")
      | none => giveUp "Could not determine class hierarchy"

theorem mainClass_eq (file : Path) (selection : Option String) (root : Path) (asJson : Bool) :
    mainClass file selection root asJson = (do
      let project ← project root
      let file := file.resolve (← get).workspace.current
      let found ← scan (project.hierarchyFor file selection)
      conclude selection asJson found) := by
  unfold mainClass
  refine bind_congr fun project => bind_congr fun session => bind_congr fun found => ?_
  rcases found with failure | ⟨_ | ⟨name, names⟩, _ | tree⟩ <;> rfl

/-- The blanks around a selection do not show in the complaint. -/
theorem conclude_stripped (hgiven : Text.stripped selection ≠ "") :
    conclude (some (Text.stripped selection)) asJson = conclude (some selection) asJson := by
  have hempty : selection.isEmpty = false := by
    rw [Bool.eq_false_iff, Ne, String.isEmpty_iff]
    rintro rfl
    exact hgiven rfl
  have hbare : (Text.stripped selection).isEmpty = false := by
    rw [Bool.eq_false_iff, Ne, String.isEmpty_iff]
    exact hgiven
  funext found
  unfold conclude
  simp only [hempty, hbare, Text.stripped_stripped]

theorem conclude_empty : conclude (some "") asJson = conclude none asJson := rfl

/-- The session with one complaint. -/
def complaining (session : Session) (line : String) : Session :=
  { session with console := { session.console with complaints := [line] } }

theorem run_giveUp (hquiet : session.console.complaints = []) (line : String) :
    (giveUp line : Running Unit).run.run session =
      (.error .unsuccessful, complaining session ("❌ " ++ line)) := by
  have hlines : session.console.complaints ++ ["❌ " ++ line] = ["❌ " ++ line] := by
    rw [hquiet, List.nil_append]
  rw [complaining, ← hlines]
  rfl

theorem misreadSession_complaining (session : Session) (line : String) :
    misreadSession (complaining session line) =
      complaining session (if line = undetermined then invalid else line) := rfl

/-- A selection of blanks shows in the complaint that none of the names tried is declared. -/
theorem run_conclude_blank (hblank : Text.stripped selection = "") (hgiven : selection ≠ "")
    (hquiet : session.console.complaints = [])
    (found : Except ReadFailure (List String × Option Tree)) :
    (conclude (some selection) asJson found).run.run session =
      (((conclude none asJson found).run.run session).1,
        misreadSession ((conclude none asJson found).run.run session).2) := by
  have hempty : selection.isEmpty = false := by
    rw [Bool.eq_false_iff, Ne, String.isEmpty_iff]
    exact hgiven
  have hnames (tree : Option Tree) :
      (conclude (some selection) asJson (.ok ([], tree))).run.run session =
        (((conclude none asJson (.ok ([], tree))).run.run session).1,
          misreadSession ((conclude none asJson (.ok ([], tree))).run.run session).2) := by
    have hother : "❌ " ++ "Could not detect a class in the current file" ≠ undetermined := by
      decide
    unfold conclude
    dsimp only
    rw [run_giveUp hquiet, misreadSession_complaining, if_neg hother]
  rcases found with failure | ⟨_ | ⟨name, names⟩, _ | tree⟩
  · exact Prod.ext rfl (misreadSession_of_quiet hquiet).symm
  · exact hnames none
  · exact hnames (some tree)
  · have hbare : "❌ " ++ ("'" ++ "" ++ "' does not appear to be a valid class") = invalid := by
      rfl
    have hline : "❌ " ++ "Could not determine class hierarchy" = undetermined := rfl
    unfold conclude
    dsimp only
    rw [hempty, hblank, if_neg (by decide), run_giveUp hquiet, run_giveUp hquiet, hbare, hline,
      misreadSession_complaining, if_pos rfl]
  · have hshown : ((present tree asJson false).run.run session).2.console.complaints = [] := by
      rw [← hquiet]
      cases asJson <;> rfl
    exact Prod.ext rfl (misreadSession_of_quiet hshown).symm

/-! ## Running the command -/

/-- The blanks around a selection do not matter, if there is more to it. -/
theorem mainClass_stripped (hgiven : Text.stripped selection ≠ "") :
    mainClass file (some (Text.stripped selection)) root asJson =
      mainClass file (some selection) root asJson := by
  rw [mainClass_eq, mainClass_eq, conclude_stripped hgiven]
  simp only [Project.hierarchyFor_stripped]

/-- The empty selection is none. -/
theorem mainClass_empty :
    mainClass file (some "") root asJson = mainClass file none root asJson := by
  have hblank (project : Project) (file : Path) :
      project.hierarchyFor file (some "") = project.hierarchyFor file none :=
    project.hierarchyFor_blank file (by decide)
  rw [mainClass_eq, mainClass_eq, conclude_empty]
  simp only [hblank]

theorem complaints_project (root : Path) (session : Session) :
    ((project root).run.run session).2.console.complaints = session.console.complaints := by
  rw [project, run_run_bind, run_configure_eq]
  cases ((Config.loadSettings).run.run session.workspace.configState).1 <;> rfl

/-- With a selection of blanks the command does and shows the same as without one, but for the
complaint. -/
theorem run_mainClass_blank (hblank : Text.stripped selection = "") (hgiven : selection ≠ "")
    (hquiet : session.console.complaints = []) :
    (mainClass file (some selection) root asJson).run.run session =
      (((mainClass file none root asJson).run.run session).1,
        misreadSession ((mainClass file none root asJson).run.run session).2) := by
  have hopened := complaints_project root session
  rw [hquiet] at hopened
  rw [mainClass_eq, mainClass_eq, run_run_bind, run_run_bind]
  rcases hproject : (Running.project root).run.run session with ⟨outcome, opened⟩
  rw [hproject] at hopened
  cases outcome with
  | error failure => exact Prod.ext rfl (misreadSession_of_quiet hopened).symm
  | ok project =>
      have hget : (get : Running Session).run.run opened = (.ok opened, opened) := rfl
      dsimp only
      rw [run_run_bind, run_run_bind, hget]
      dsimp only
      -- From here on both commands look at the same names and the same hierarchy.
      rw [project.hierarchyFor_blank _ hblank, run_run_bind, run_run_bind, run_scan]
      dsimp only
      apply run_conclude_blank hblank hgiven
      exact hopened

end Running

/-! ## Reading the command line -/

/-- The command line for a file, with a selection or without one. -/
def selecting (file : String) (selection : Option String) (more : List String) : List String :=
  "main-class" :: file ::
    match selection with
    | some text => "-s" :: text :: more
    | none => more

/-- The arguments give no selection. -/
def SelectsNothing (more : List String) : Prop :=
  ∀ sorted, Verb.mainClass.grammar.sort more = .ok sorted → .selection ∉ sorted.1.map Prod.fst

/-- The arguments with a selection before the other options. -/
def Arguments.selecting (arguments : Arguments) (selection : Option String) : Arguments :=
  match selection with
  | some text => { arguments with options := (.selection, text) :: arguments.options }
  | none => arguments

variable {file : String} {more : List String}

theorem sort_operand (hfile : Grammar.isMention file.toList = false) (hdashes : file ≠ "--")
    (rest : List String) :
    Verb.mainClass.grammar.sort (file :: rest) =
      (Verb.mainClass.grammar.sort rest).map fun (options, operands) =>
        (options, file :: operands) := by
  rw [Grammar.sort, if_neg hdashes, hfile]
  rfl

theorem sort_selection (text : String) (rest : List String) :
    Verb.mainClass.grammar.sort ("-s" :: text :: rest) =
      (Verb.mainClass.grammar.sort rest).map fun (options, operands) =>
        ((.selection, text) :: options, operands) := by
  rfl

theorem read_mainClass (rest : List String) :
    Request.read ("main-class" :: rest) = Request.command false .mainClass rest := by
  rfl

/-- A command line that cannot be taken apart cannot be so with any selection.  Otherwise a
selection is one option more. -/
theorem read_selecting (hfile : Grammar.isMention file.toList = false) (hdashes : file ≠ "--")
    (hmore : SelectsNothing more) :
    (∃ error, ∀ selection, Request.read (selecting file selection more) = .error error) ∨
      ∃ arguments : Arguments, arguments.value? .selection = none ∧
        ∀ selection, Request.read (selecting file selection more) =
          if arguments.has .help then .ok .help
          else .ok (.run false .mainClass (arguments.selecting selection)) := by
  have hsort (selection : Option String) :
      Verb.mainClass.grammar.sort (selecting file selection more).tail =
        (Verb.mainClass.grammar.sort more).map fun (options, operands) =>
          (match selection with
            | some text => (.selection, text) :: options
            | none => options, file :: operands) := by
    unfold selecting
    rw [List.tail_cons, sort_operand hfile hdashes]
    cases selection with
    | none => rfl
    | some text =>
        dsimp only
        rw [sort_selection]
        cases Verb.mainClass.grammar.sort more <;> rfl
  have hread (selection : Option String) :
      Request.read (selecting file selection more) =
        Request.command false .mainClass (selecting file selection more).tail :=
    read_mainClass _
  cases hsorted : Verb.mainClass.grammar.sort more with
  | error error =>
      refine .inl ⟨.arguments error, fun selection => ?_⟩
      rw [hread, Request.command, Grammar.parse, hsort, hsorted]
      rfl
  | ok sorted =>
      obtain ⟨options, operands⟩ := sorted
      have hfresh : .selection ∉ options.map Prod.fst := hmore _ hsorted
      have hparse (selection : Option String) :
          Verb.mainClass.grammar.parse (selecting file selection more).tail =
            .ok (Arguments.selecting ⟨Keyed.update [] options, file :: operands⟩ selection) := by
        rw [Grammar.parse, hsort, hsorted]
        cases selection with
        | none => rfl
        | some text =>
            have hahead : Keyed.update [] ((.selection, text) :: options) =
                (.selection, text) :: Keyed.update [] options :=
              Keyed.update_cons_of_fresh hfresh text []
            show Except.ok (⟨Keyed.update [] ((.selection, text) :: options), file :: operands⟩ :
              Arguments) = _
            rw [hahead]
            rfl
      refine .inr ⟨⟨Keyed.update [] options, file :: operands⟩,
        Keyed.get?_update_nil_eq_none_iff.mpr hfresh, fun selection => ?_⟩
      rw [hread, Request.command, hparse]
      cases selection <;> rfl

/-- The checks of the arguments do not regard the selection. -/
theorem command_selecting (workspace : Workspace) {arguments : Arguments}
    (hnone : arguments.value? .selection = none) :
    (∃ error, ∀ selection,
        workspace.command .mainClass (arguments.selecting selection) = .error error) ∨
      ∃ path root asJson, ∀ selection,
        workspace.command .mainClass (arguments.selecting selection) =
          .ok (.mainClass path selection root asJson) := by
  have hcommand (selection : Option String) :
      workspace.command .mainClass (arguments.selecting selection) = (do
        arguments.options.forM workspace.checkOption
        let file ← arguments.operand
        workspace.checkFile file
        arguments.atMost 1
        return .mainClass (Path.ofString file) selection arguments.root (arguments.has .json)) := by
    cases selection with
    | none =>
        unfold Workspace.command Arguments.selecting
        dsimp only
        rw [hnone]
    | some text => rfl
  simp only [hcommand]
  cases arguments.options.forM workspace.checkOption with
  | error error => exact .inl ⟨error, fun _ => rfl⟩
  | ok _ =>
      cases arguments.operand with
      | error error => exact .inl ⟨error, fun _ => rfl⟩
      | ok file =>
          cases hcheck : workspace.checkFile file with
          | error error => exact .inl ⟨error, fun _ => by simp only [bind, Except.bind, hcheck]⟩
          | ok _ =>
              cases hcount : arguments.atMost 1 with
              | error error =>
                  exact .inl ⟨error, fun _ => by simp only [bind, Except.bind, hcheck]⟩
              | ok _ =>
                  exact .inr ⟨Path.ofString file, arguments.root, arguments.has .json,
                    fun _ => by simp only [bind, Except.bind, hcheck]; rfl⟩

/-- The outcome of a command that a command line has come to. -/
def Workspace.outcomeOf (workspace : Workspace) (act : Running Unit) : Outcome :=
  ⟨failureOf (act.run.run { workspace }).1, (act.run.run { workspace }).2.workspace,
    (act.run.run { workspace }).2.console⟩

/-- A command line never comes to its command, and then complains of nothing that has to do with it,
or runs it with the selection. -/
theorem run_selecting_cases (workspace : Workspace) (hfile : Grammar.isMention file.toList = false)
    (hdashes : file ≠ "--") (hmore : SelectsNothing more) :
    (∃ outcome : Outcome, outcome.console.complaints = [] ∧
        ∀ selection, workspace.run (selecting file selection more) = outcome) ∨
      ∃ path root asJson, ∀ selection, workspace.run (selecting file selection more) =
        workspace.outcomeOf (Running.mainClass path selection root asJson) := by
  simp only [Workspace.run_eq, Running.arguments]
  rcases read_selecting hfile hdashes hmore with ⟨error, hread⟩ | ⟨arguments, hnone, hread⟩
  · simp only [hread]
    exact .inl ⟨_, rfl, fun _ => rfl⟩
  · simp only [hread]
    cases arguments.has .help with
    | true =>
        simp only [if_true]
        exact .inl ⟨_, rfl, fun _ => rfl⟩
    | false =>
        simp only [Bool.false_eq_true, if_false, Running.run_request]
        rcases command_selecting workspace hnone with
          ⟨error, hcommand⟩ | ⟨path, root, asJson, hcommand⟩
        · simp only [hcommand]
          exact .inl ⟨_, rfl, fun _ => rfl⟩
        · simp only [hcommand]
          exact .inr ⟨path, root, asJson, fun _ => rfl⟩

/-- What the blanks of a selection make of a command line.  Around anything else they make no
difference, and the empty selection is none.  A selection of blanks only leads to what no selection
leads to, but for one line: where none of the names tried is declared, it is complained of an
invalid class, and there alone does the outcome differ. -/
theorem run_selecting_exact (workspace : Workspace)
    (hfile : Grammar.isMention file.toList = false) (hdashes : file ≠ "--")
    (hmore : SelectsNothing more) (text : String) :
    (Text.stripped text ≠ "" →
      workspace.run (selecting file (some text) more) =
        workspace.run (selecting file (some (Text.stripped text)) more)) ∧
      workspace.run (selecting file (some "") more) = workspace.run (selecting file none more) ∧
      (Text.stripped text = "" → text ≠ "" →
        workspace.run (selecting file (some text) more) =
            (workspace.run (selecting file none more)).misread ∧
          (workspace.run (selecting file (some text) more) =
              workspace.run (selecting file none more) ↔
            undetermined ∉ (workspace.run (selecting file none more)).console.complaints)) := by
  have hblank (hbare : Text.stripped text = "") (hgiven : text ≠ "") :
      workspace.run (selecting file (some text) more) =
        (workspace.run (selecting file none more)).misread := by
    rcases run_selecting_cases workspace hfile hdashes hmore with
      ⟨outcome, hquiet, hrun⟩ | ⟨path, root, asJson, hrun⟩
    · rw [hrun, hrun, Outcome.misread, Console.misread_of_quiet hquiet]
    · rw [hrun, hrun, Workspace.outcomeOf, Running.run_mainClass_blank hbare hgiven rfl]
      rfl
  refine ⟨fun hgiven => ?_, ?_, fun hbare hgiven => ⟨hblank hbare hgiven, ?_⟩⟩
  · rcases run_selecting_cases workspace hfile hdashes hmore with
      ⟨outcome, -, hrun⟩ | ⟨path, root, asJson, hrun⟩
    · rw [hrun, hrun]
    · rw [hrun, hrun, Running.mainClass_stripped hgiven]
  · rcases run_selecting_cases workspace hfile hdashes hmore with
      ⟨outcome, -, hrun⟩ | ⟨path, root, asJson, hrun⟩
    · rw [hrun, hrun]
    · rw [hrun, hrun, Running.mainClass_empty]
  · rw [hblank hbare hgiven, Outcome.misread_eq_self_iff]

/-- A workspace with one file of code. -/
def Workspace.opened (name text : String) : Workspace where
  store := Store.empty.put ⟨.root, ["p", name]⟩ (.file text.toUTF8.toList)
  current := ⟨.root, ["p"]⟩
  configPath := ⟨.root, ["config.toml"]⟩

theorem selectsNothing_json : SelectsNothing ["--json"] := by
  intro sorted hsorted
  have hsort : Verb.mainClass.grammar.sort ["--json"] = .ok ([(.json, "")], []) := rfl
  rw [hsort] at hsorted
  cases hsorted
  decide

theorem selectsNothing_nil : SelectsNothing [] := by
  intro sorted hsorted
  cases hsorted
  decide

/-- The second class of a file is found by its name with blanks around it.  With a selection of
blanks the first class is found, as it is without a selection.  Where none is found the complaints
differ. -/
theorem run_selecting_exact_opened :
    (Workspace.opened "card.js" "class Card {}\nclass Deck {}").run
        ["main-class", "card.js", "-s", " Deck\t", "--json"] =
      (Workspace.opened "card.js" "class Card {}\nclass Deck {}").run
        ["main-class", "card.js", "-s", "Deck", "--json"] ∧
    ((Workspace.opened "card.js" "class Card {}\nclass Deck {}").run
        ["main-class", "card.js", "-s", "Deck", "--json"]).failure = none ∧
    (Workspace.opened "card.js" "class Card {}\nclass Deck {}").run
        ["main-class", "card.js", "-s", " \t", "--json"] =
      (Workspace.opened "card.js" "class Card {}\nclass Deck {}").run
        ["main-class", "card.js", "--json"] ∧
    (Workspace.opened "a.js" "let x = 1").run ["main-class", "a.js", "-s", " \t"] ≠
      (Workspace.opened "a.js" "let x = 1").run ["main-class", "a.js"] := by
  have hfound : ((Workspace.opened "card.js" "class Card {}\nclass Deck {}").run
      ["main-class", "card.js", "-s", "Deck", "--json"]).failure = none := by
    decide +kernel
  have hquiet : undetermined ∉ ((Workspace.opened "card.js" "class Card {}\nclass Deck {}").run
      ["main-class", "card.js", "--json"]).console.complaints := by
    decide +kernel
  have hcomplains : undetermined ∈ ((Workspace.opened "a.js" "let x = 1").run
      ["main-class", "a.js"]).console.complaints := by
    decide +kernel
  have hcard : Grammar.isMention "card.js".toList = false ∧ "card.js" ≠ "--" := by decide
  have ha : Grammar.isMention "a.js".toList = false ∧ "a.js" ≠ "--" := by decide
  obtain ⟨hstripped, -, -⟩ := run_selecting_exact
    (.opened "card.js" "class Card {}\nclass Deck {}") hcard.1 hcard.2 selectsNothing_json " Deck\t"
  obtain ⟨-, -, hblank⟩ := run_selecting_exact
    (.opened "card.js" "class Card {}\nclass Deck {}") hcard.1 hcard.2 selectsNothing_json " \t"
  obtain ⟨-, -, hnamed⟩ := run_selecting_exact
    (.opened "a.js" "let x = 1") ha.1 ha.2 selectsNothing_nil " \t"
  refine ⟨hstripped (by decide), hfound, ?_, ?_⟩
  · exact (hblank (by decide) (by decide)).2.mpr hquiet
  · exact mt (hnamed (by decide) (by decide)).2.mp (not_not_intro hcomplains)

/-- With a selection of blanks it is complained of an invalid class where nothing was selected. -/
theorem complaints_of_blank_selection :
    Text.stripped " \t" = "" ∧
      ((Workspace.opened "a.js" "let x = 1").run
        ["main-class", "a.js", "-s", " \t"]).console.complaints =
          ["❌ '' does not appear to be a valid class"] ∧
      ((Workspace.opened "a.js" "let x = 1").run ["main-class", "a.js"]).console.complaints =
        ["❌ Could not determine class hierarchy"] := by
  decide +kernel

end Cli

end Lineage

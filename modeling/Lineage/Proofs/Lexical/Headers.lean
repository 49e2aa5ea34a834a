import Lineage.Proofs.Lexical.Overlaps

/-!
# Class headers with lists of bases, written out

The rule for lists of bases works on any text.  This module says what it reads off a text that is
made of class headers and of other lines: the classes whose lists name the parent, in their order,
each once.  Headers are described by what they are written with, down to the blanks and line feeds
within a list, and what is written so is read back piece by piece: the list by its commas, an entry
by its brackets and dots.

What keeps the other lines out of it is that a header starts its line.  There the rule asks for the
keyword behind an indent, and blanks behind the keyword, so the keyword is a word of the line.

## Main results

* `base?_text`: an entry counts as the last word of its path, and a keyword argument does not count.
* `headerAt?_closed`: the rule for headers reads back what a header is written with.
* `matchesFrom_written`: a scan of the whole text finds the headers.
* `children_of_passages`: the classes whose lists name a parent.
-/

namespace Lineage

namespace Lexical

/-- The word stands in the text, and not as a part of a longer one. -/
def HasWord (word text : List Char) : Prop :=
  ∃ lead rest, text = lead ++ (word ++ rest) ∧ isWordAt (charBefore none lead) = false ∧
    isWordAt rest.head? = false

/-- The word stands at the position, and not as a part of a longer one. -/
def hasWordAt (word : List Char) : Rule Bool := fun before text =>
  (afterKeyword? word before text).any fun rest => !isWordAt rest.head?

theorem hasWord_iff {word text : List Char} :
    HasWord word text ↔ existsAt (hasWordAt word) none text = true := by
  have hat (before : Option Char) (here : List Char) : hasWordAt word before here = true ↔
      ∃ rest, here = word ++ rest ∧ isWordAt before = false ∧ isWordAt rest.head? = false := by
    simp only [hasWordAt, Option.any_eq_true, afterKeyword?_eq_some_iff, Bool.not_eq_true',
      and_assoc]
  rw [existsAt_iff]
  constructor
  · rintro ⟨lead, rest, hcut, hstarts, hends⟩
    exact ⟨lead, word ++ rest, hcut, (hat _ _).mpr ⟨rest, rfl, hstarts, hends⟩⟩
  · rintro ⟨lead, here, hcut, hthere⟩
    obtain ⟨rest, rfl, hstarts, hends⟩ := (hat _ _).mp hthere
    exact ⟨lead, rest, hcut, hstarts, hends⟩

instance (word text : List Char) : Decidable (HasWord word text) :=
  decidable_of_iff _ hasWord_iff.symm

namespace BaseList

/-! ## What headers are written with -/

/-- A word: one or more word characters. -/
structure Word where
  chars : List Char
  ne_nil : chars ≠ []
  isWord : ∀ c ∈ chars, Unicode.isWord c = true

/-- Any number of blanks, line feeds among them. -/
structure Blanks where
  chars : List Char
  isBlank : ∀ c ∈ chars, Unicode.isBlank c = true

/-- A subscript in brackets, or behind blanks. -/
structure Subscript where
  blanks : Blanks
  inner : List Char
  isClear : ∀ c ∈ inner, c ≠ ',' ∧ c ≠ ')' ∧ c ≠ '='

/-- An argument that is given by a keyword and an equals sign. -/
structure Argument where
  chars : List Char
  equals_mem : '=' ∈ chars
  isClear : ∀ c ∈ chars, c ≠ ',' ∧ c ≠ ')'

/-- What stands in a list between commas. -/
inductive Entry where
  /-- A base: words with dots between them, the last of them the name, and a subscript if any. -/
  | base (qualifiers : List Word) (name : Word) (subscript : Option Subscript)
  | keyword (argument : Argument)
  /-- Nothing, as in an empty list or behind its last comma. -/
  | nothing

/-- An entry with the blanks around it. -/
structure Item where
  before : Blanks
  entry : Entry
  behind : Blanks

/-- The header of a class up to its colon. -/
structure Header where
  indent : List Char
  isIndent : ∀ c ∈ indent, BaseList.isIndent c = true
  gap : Blanks
  gap_ne_nil : gap.chars ≠ []
  name : Word
  space : Blanks
  items : List Item

/-- A part of a text that starts a line and ends before a line feed or with the text. -/
inductive Passage where
  /-- A line that does not have the word `class`. -/
  | plain (line : List Char) (oneLine : '\n' ∉ line)
      (wordless : ¬ HasWord Declaration.keyword line)
  /-- A header with whatever stands on its last line behind the colon. -/
  | opening (header : Header) (behind : List Char) (oneLine : '\n' ∉ behind)

/-! ## What they are written as -/

def Subscript.text (subscript : Subscript) : List Char :=
  subscript.blanks.chars ++ '[' :: (subscript.inner ++ [']'])

/-- The words of a base with dots between them. -/
def path (qualifiers : List Word) (name : Word) : List Char :=
  qualifiers.flatMap (fun qualifier => qualifier.chars ++ ['.']) ++ name.chars

def Entry.text : Entry → List Char
  | .base qualifiers name subscript => path qualifiers name ++ subscript.elim [] Subscript.text
  | .keyword argument => argument.chars
  | .nothing => []

def Item.text (item : Item) : List Char :=
  item.before.chars ++ (item.entry.text ++ item.behind.chars)

/-- The list between the parentheses. -/
def Header.list (header : Header) : List Char := [','].intercalate (header.items.map Item.text)

/-- The header up to the parenthesis that closes the list. -/
def Header.closed (header : Header) : List Char :=
  header.indent ++ (Declaration.keyword ++ (header.gap.chars ++ (header.name.chars ++
    (header.space.chars ++ '(' :: (header.list ++ [')'])))))

def Passage.text : Passage → List Char
  | .plain line _ _ => line
  | .opening header behind _ => header.closed ++ ':' :: behind

/-- The text of some passages, one after the other. -/
def written (passages : List Passage) : List Char := ['\n'].intercalate (passages.map Passage.text)

/-! ## What they say -/

/-- The name of a base; nothing else has one. -/
def Entry.name? : Entry → Option Word
  | .base _ name _ => some name
  | .keyword _ => none
  | .nothing => none

/-- The names of the bases of a class. -/
def Header.bases (header : Header) : List String :=
  header.items.filterMap fun item => item.entry.name?.map fun name => String.ofList name.chars

/-- The name of the class. -/
def Header.className (header : Header) : String := String.ofList header.name.chars

/-- The header that a passage has, if any. -/
def Passage.header? : Passage → Option Header
  | .plain _ _ _ => none
  | .opening header _ _ => some header

/-! ## Entries -/

theorem Word.ne_of_mem (word : Word) {c d : Char} (hc : c ∈ word.chars)
    (hd : Unicode.isWord d = false) : c ≠ d := by
  rintro rfl
  have hword := word.isWord c hc
  rw [hd] at hword
  cases hword

theorem Blanks.ne_of_mem (blanks : Blanks) {c d : Char} (hc : c ∈ blanks.chars)
    (hd : Unicode.isBlank d = false) : c ≠ d := by
  rintro rfl
  have hblank := blanks.isBlank c hc
  rw [hd] at hblank
  cases hblank

/-- The path of a base has no character but those of its words and dots. -/
theorem isWord_or_dot_of_mem_path {qualifiers : List Word} {name : Word} {c : Char}
    (hc : c ∈ path qualifiers name) : Unicode.isWord c = true ∨ c = '.' := by
  rw [path, List.mem_append, List.mem_flatMap] at hc
  rcases hc with ⟨qualifier, -, hc⟩ | hc
  · rw [List.mem_append, List.mem_singleton] at hc
    exact hc.imp_left (qualifier.isWord c)
  · exact .inl (name.isWord c hc)

/-- The last word of the path is behind its last dot. -/
theorem takeWhile_reverse_path (qualifiers : List Word) (name : Word) :
    ((path qualifiers name).reverse.takeWhile (· ≠ '.')).reverse = name.chars := by
  have hname : ∀ c ∈ name.chars.reverse, decide (c ≠ '.') = true := by
    intro c hc
    exact decide_eq_true (name.ne_of_mem (List.mem_reverse.mp hc) (by decide))
  rw [path, List.reverse_append]
  rcases List.eq_nil_or_concat qualifiers with rfl | ⟨others, last, rfl⟩
  · have hend : ([] : List Char).head?.any (· ≠ '.') = false := rfl
    simpa using congrArg List.reverse (takeWhile_run hname hend).1
  · let lead := others.flatMap (fun qualifier => qualifier.chars ++ ['.']) ++ last.chars
    have hend : ('.' :: lead.reverse).head?.any (· ≠ '.') = false := rfl
    simpa [lead] using congrArg List.reverse (takeWhile_run hname hend).1

/-- A base is written without the characters that a list or an argument is told by. -/
theorem isClear_base {qualifiers : List Word} {name : Word} {subscript : Option Subscript}
    {c : Char} (hc : c ∈ (Entry.base qualifiers name subscript).text) :
    c ≠ ',' ∧ c ≠ ')' ∧ c ≠ '=' := by
  rw [Entry.text, List.mem_append] at hc
  rcases hc with hpath | hsubscript
  · rcases isWord_or_dot_of_mem_path hpath with hword | rfl
    · refine ⟨?_, ?_, ?_⟩
      all_goals
        rintro rfl
        revert hword
        decide
    · decide
  · cases subscript with
    | none => cases hsubscript
    | some subscript =>
        simp only [Option.elim_some, Subscript.text, List.mem_append, List.mem_cons,
          List.not_mem_nil, or_false] at hsubscript
        rcases hsubscript with hblank | rfl | hinner | rfl
        · exact ⟨subscript.blanks.ne_of_mem hblank (by decide),
            subscript.blanks.ne_of_mem hblank (by decide),
            subscript.blanks.ne_of_mem hblank (by decide)⟩
        · decide
        · exact subscript.isClear c hinner
        · decide

theorem Entry.isClear (entry : Entry) {c : Char} (hc : c ∈ entry.text) : c ≠ ',' ∧ c ≠ ')' := by
  cases entry with
  | base qualifiers name subscript =>
      obtain ⟨hcomma, hparen, -⟩ := isClear_base hc
      exact ⟨hcomma, hparen⟩
  | keyword argument => exact argument.isClear c hc
  | nothing => cases hc

theorem Item.isClear (item : Item) {c : Char} (hc : c ∈ item.text) : c ≠ ',' ∧ c ≠ ')' := by
  rw [Item.text, List.mem_append, List.mem_append] at hc
  rcases hc with hbefore | hentry | hbehind
  · exact ⟨item.before.ne_of_mem hbefore (by decide), item.before.ne_of_mem hbefore (by decide)⟩
  · exact item.entry.isClear hentry
  · exact ⟨item.behind.ne_of_mem hbehind (by decide), item.behind.ne_of_mem hbehind (by decide)⟩

/-- No blank stands at either end of a base. -/
theorem isBlank_ends_base (qualifiers : List Word) (name : Word) (subscript : Option Subscript) :
    (Entry.base qualifiers name subscript).text.head?.any Unicode.isBlank = false ∧
      (Entry.base qualifiers name subscript).text.getLast?.any Unicode.isBlank = false := by
  rw [Entry.text]
  constructor
  · cases qualifiers with
    | nil => exact isBlank_head?_of_word name.ne_nil name.isWord _
    | cons first others =>
        rw [path, List.flatMap_cons, List.append_assoc, List.append_assoc, List.append_assoc]
        exact isBlank_head?_of_word first.ne_nil first.isWord _
  · rw [← List.head?_reverse]
    cases subscript with
    | none =>
        have hname : ∀ c ∈ name.chars.reverse, Unicode.isWord c = true :=
          fun c hc => name.isWord c (List.mem_reverse.mp hc)
        rw [Option.elim_none, List.append_nil, path, List.reverse_append]
        exact isBlank_head?_of_word (List.reverse_ne_nil_iff.mpr name.ne_nil) hname _
    | some subscript =>
        rw [Option.elim_some, Subscript.text]
        simp only [List.reverse_append, List.reverse_cons, List.append_assoc]
        have hbracket : Unicode.isBlank ']' = false := by decide
        exact hbracket

/-- The path of a base ends where a subscript begins. -/
theorem takeWhile_base (qualifiers : List Word) (name : Word) (subscript : Option Subscript) :
    (Entry.base qualifiers name subscript).text.takeWhile
        (fun c => c ≠ '[' && !Unicode.isBlank c) = path qualifiers name := by
  have hpath : ∀ c ∈ path qualifiers name, (c ≠ '[' && !Unicode.isBlank c) = true := by
    intro c hc
    rcases isWord_or_dot_of_mem_path hc with hword | rfl
    · have hbracket : c ≠ '[' := by
        rintro rfl
        revert hword
        decide
      simp [hbracket, isBlank_eq_false_of_isWord hword]
    · decide
  have hend : (subscript.elim [] Subscript.text).head?.any
      (fun c => c ≠ '[' && !Unicode.isBlank c) = false := by
    cases subscript with
    | none => rfl
    | some subscript =>
        rw [Option.elim_some, Subscript.text]
        cases hblanks : subscript.blanks.chars with
        | nil => rfl
        | cons c others =>
            have hblank := subscript.blanks.isBlank c (by rw [hblanks]; exact List.mem_cons_self)
            simp [hblank]
  exact (takeWhile_run hpath hend).1

/-- An entry counts as the last word of its path; an argument with a keyword does not count. -/
theorem base?_text (item : Item) : base? item.text = item.entry.name?.map Word.chars := by
  obtain ⟨before, entry, behind⟩ := item
  unfold base? Text.strip
  cases entry with
  | base qualifiers name subscript =>
      obtain ⟨hfirst, hlast⟩ := isBlank_ends_base qualifiers name subscript
      have hstrip := Text.trim_append_of_ends before.isBlank hfirst hlast behind.isBlank
      have hne : (Entry.base qualifiers name subscript).text.isEmpty = false := by
        have hname := name.ne_nil
        simp [Entry.text, path, hname]
      have hequals : (Entry.base qualifiers name subscript).text.contains '=' = false := by
        rw [Bool.eq_false_iff, ne_eq, List.contains_iff_mem]
        intro hmem
        exact (isClear_base hmem).2.2 rfl
      rw [Item.text, hstrip]
      simp only [hne, hequals, takeWhile_base, takeWhile_reverse_path]
      rfl
  | keyword argument =>
      have hequals : '=' ∈ Text.trim Unicode.isBlank
          (Item.text ⟨before, .keyword argument, behind⟩) := by
        refine Text.mem_trim_of_neg ?_ (by decide)
        have hmem := argument.equals_mem
        simp [Item.text, Entry.text, hmem]
      have hcontains := List.contains_iff_mem.mpr hequals
      simp only [hcontains, Bool.or_true, if_true]
      rfl
  | nothing =>
      have hstrip : Text.trim Unicode.isBlank (Item.text ⟨before, .nothing, behind⟩) = [] :=
        Text.trim_append_of_ends before.isBlank rfl rfl behind.isBlank
      simp [hstrip, Entry.name?]

/-! ## Lists -/

/-- The list is cut at its commas into its items. -/
theorem fields_list (header : Header) (hitems : header.items ≠ []) :
    Text.fields ',' header.list = header.items.map Item.text := by
  refine Text.fields_intercalate (by simpa using hitems) ?_
  intro part hpart hcomma
  obtain ⟨item, -, rfl⟩ := List.mem_map.mp hpart
  exact (item.isClear hcomma).1 rfl

theorem paren_not_mem_list (header : Header) : ∀ c ∈ header.list, c ≠ ')' := by
  intro c hc
  rcases Text.of_mem_intercalate hc with hcomma | ⟨part, hpart, hc⟩
  · rw [List.mem_singleton.mp hcomma]
    decide
  · obtain ⟨item, -, rfl⟩ := List.mem_map.mp hpart
    exact (item.isClear hc).2

/-- A list names the parent if one of its bases has that name. -/
theorem names_list (header : Header) (parent : String) :
    names header.list parent.toList = decide (parent ∈ header.bases) := by
  have hitem (item : Item) : base? item.text = some parent.toList ↔
      (item.entry.name?.map fun name => String.ofList name.chars) = some parent := by
    rw [base?_text]
    cases item.entry.name? with
    | none => simp
    | some name => simp [← String.toList_inj]
  rw [Bool.eq_iff_iff, decide_eq_true_iff, names, List.any_eq_true, Header.bases,
    List.mem_filterMap]
  by_cases hitems : header.items = []
  · have hnone : base? [] = none := rfl
    simp [Header.list, hitems, Text.fields, hnone]
  · simp only [fields_list header hitems, List.mem_map, beq_iff_eq, exists_exists_and_eq_and, hitem]

/-! ## Headers -/

/-- Behind the class name no word goes on. -/
theorem isWordAt_space (blanks : Blanks) (rest : List Char) :
    isWordAt (blanks.chars ++ '(' :: rest).head? = false := by
  by_cases hblanks : blanks.chars = []
  · have hparen : Unicode.isWord '(' = false := by decide
    rw [hblanks]
    exact hparen
  · exact isWordAt_head?_of_blanks hblanks blanks.isBlank _

theorem list?_text (header : Header) (rest : List Char) :
    list? (header.space.chars ++ '(' :: (header.list ++ ')' :: rest)) =
      some ⟨header.list, header.space.chars.length + header.list.length + 2⟩ := by
  have hparen : ∀ c ∈ header.list, decide (c ≠ ')') = true :=
    fun c hc => decide_eq_true (paren_not_mem_list header c hc)
  have hopen : ('(' :: (header.list ++ ')' :: rest)).head?.any Unicode.isBlank = false := rfl
  have hclose : (')' :: rest).head?.any (· ≠ ')') = false := rfl
  obtain ⟨hgap, hpast⟩ := takeWhile_run header.space.isBlank hopen
  obtain ⟨hinner, hrest⟩ := takeWhile_run hparen hclose
  unfold list? gap pastGap
  simp only [hgap, hpast, hinner, hrest]

/-- The rule for headers reads what a header is written with, up to the end of the list. -/
theorem headerAt?_closed (header : Header) {before : Option Char}
    (hstart : atLineStart before = true) (rest : List Char) :
    headerAt? before (header.closed ++ rest) =
      some ⟨(header.name.chars, header.list), header.closed.length⟩ := by
  let tail := header.space.chars ++ '(' :: (header.list ++ ')' :: rest)
  let declared := Declaration.keyword ++ (header.gap.chars ++ (header.name.chars ++ tail))
  have htext : header.closed ++ rest = header.indent ++ declared := by
    simp [Header.closed, declared, tail]
  have hhead : declared.head?.any isIndent = false := rfl
  obtain ⟨hindent, hdeclared⟩ := takeWhile_run header.isIndent hhead
  have hshape : Declaration.Shape none declared header.gap.chars header.name.chars tail :=
    ⟨rfl, header.gap_ne_nil, header.gap.isBlank, header.name.ne_nil, header.name.isWord, rfl,
      isWordAt_space header.space _⟩
  have hname : Declaration.nameAt? none declared = some ⟨header.name.chars,
      Declaration.keyword.length + header.gap.chars.length + header.name.chars.length⟩ :=
    Declaration.nameAt?_eq_some_iff.mpr ⟨_, _, hshape, rfl⟩
  have hdrop : (header.indent ++ declared).drop (header.indent.length +
      (Declaration.keyword.length + header.gap.chars.length + header.name.chars.length)) =
        tail := by
    rw [← List.drop_drop, List.drop_left, Declaration.drop_of_shape hshape]
  have hlength : header.closed.length = header.indent.length +
      (Declaration.keyword.length + header.gap.chars.length + header.name.chars.length) +
      (header.space.chars.length + header.list.length + 2) := by
    simp [Header.closed]
    omega
  rw [htext, headerAt?, if_pos hstart, hlength]
  simp only [hindent, hdeclared, hname, hdrop, tail, list?_text]

/-- A header starts a line. -/
theorem headerAt?_eq_none {before : Option Char} (h : atLineStart before = false)
    (here : List Char) : headerAt? before here = none := by
  rw [headerAt?, h]
  rfl

/-- The scan goes on to the end of a line within which it starts. -/
theorem matchesFrom_within_line {before : Option Char} {line : List Char}
    (hbefore : atLineStart before = false) (hline : '\n' ∉ line) (here : List Char) :
    matchesFrom headerAt? 0 before (line ++ here) =
      matchesFrom headerAt? 0 (charBefore before line) here := by
  refine matchesFrom_append fun earlier more hcut hne => headerAt?_eq_none ?_ _
  rw [charBefore]
  cases hlast : earlier.getLast? with
  | none => exact hbefore
  | some c =>
      have hc : c ∈ line := hcut ▸ List.mem_append_left _ (List.mem_of_getLast? hlast)
      have hfeed : c ≠ '\n' := fun hsame => hline (hsame ▸ hc)
      simp [atLineStart, hfeed]

/-- What a text starts with is within its first line if it has no line feed. -/
theorem line_eq_append {line here front further : List Char} (hline : '\n' ∉ line)
    (hhere : here.head?.any (· ≠ '\n') = false) (hfront : '\n' ∉ front)
    (htext : line ++ here = front ++ further) : line = front ++ further.takeWhile (· ≠ '\n') := by
  have hoff {chars : List Char} (h : '\n' ∉ chars) : ∀ c ∈ chars, decide (c ≠ '\n') = true :=
    fun c hc => decide_eq_true fun hfeed => h (hfeed ▸ hc)
  rw [← (takeWhile_run (hoff hline) hhere).1, htext, List.takeWhile_append_of_pos (hoff hfront)]

theorem isWordAt_takeWhile {text : List Char} (h : isWordAt text.head? = false)
    (p : Char → Bool) : isWordAt (text.takeWhile p).head? = false := by
  cases text with
  | nil => rfl
  | cons c others =>
      rw [List.takeWhile_cons]
      split
      · exact h
      · rfl

/-- A line that could be taken for a header has the keyword as a word, between its indent and the
blanks behind. -/
theorem hasWord_of_headerAt? {before : Option Char} {line here : List Char}
    {found : Found (List Char × List Char)} (hline : '\n' ∉ line)
    (hhere : here.head?.any (· ≠ '\n') = false) (h : headerAt? before (line ++ here) = some found) :
    HasWord Declaration.keyword line := by
  rw [headerAt?] at h
  split at h
  · dsimp only at h
    split at h
    · cases h
    · next declared hdeclared =>
        obtain ⟨blanks, rest, hshape, -⟩ := Declaration.nameAt?_eq_some_iff.mp hdeclared
        let indent := (line ++ here).takeWhile isIndent
        let further := blanks ++ (declared.value ++ rest)
        have hindent : ∀ c ∈ indent, isIndent c = true := fun c hc => List.mem_takeWhile_imp hc
        have htext : line ++ here = (indent ++ Declaration.keyword) ++ further := by
          rw [List.append_assoc, ← hshape.text_eq, List.takeWhile_append_dropWhile]
        have hfront : '\n' ∉ indent ++ Declaration.keyword := by
          intro hfeed
          rcases List.mem_append.mp hfeed with hfeed | hfeed
          · exact absurd (hindent _ hfeed) (by decide)
          · exact absurd hfeed (by decide)
        refine ⟨indent, further.takeWhile (· ≠ '\n'), ?_, ?_, ?_⟩
        · rw [← List.append_assoc]
          exact line_eq_append hline hhere hfront htext
        · exact isWordAt_charBefore_indent rfl hindent
        · exact isWordAt_takeWhile
            (isWordAt_head?_of_blanks hshape.blanks_ne_nil hshape.isBlank _) _
  · cases h

/-! ## Texts -/

/-- A line without the keyword has no header. -/
theorem matchesFrom_line {before : Option Char} {line : List Char} (hline : '\n' ∉ line)
    (hwordless : ¬ HasWord Declaration.keyword line) {here : List Char}
    (hhere : here.head?.any (· ≠ '\n') = false) :
    matchesFrom headerAt? 0 before (line ++ here) =
      matchesFrom headerAt? 0 (charBefore before line) here := by
  cases line with
  | nil => rfl
  | cons c line =>
      have hfirst : headerAt? before (c :: (line ++ here)) = none := by
        rw [Option.eq_none_iff_forall_not_mem]
        exact fun found hfound => hwordless (hasWord_of_headerAt? hline hhere hfound)
      obtain ⟨hfeed, hothers⟩ := List.ne_and_not_mem_of_not_mem_cons hline
      have hinside : atLineStart (some c) = false := by simpa [atLineStart] using hfeed.symm
      rw [charBefore_cons, ← matchesFrom_within_line hinside hothers here]
      simp [matchesFrom, hfirst]

/-- What the rule reads off a header: the name and the list. -/
def Header.reading (header : Header) : List Char × List Char := (header.name.chars, header.list)

/-- A scan that comes to a passage finds its header, if it has one. -/
theorem matchesFrom_passage (passage : Passage) {before : Option Char}
    (hstart : atLineStart before = true) {here : List Char}
    (hhere : here.head?.any (· ≠ '\n') = false) :
    matchesFrom headerAt? 0 before (passage.text ++ here) =
      passage.header?.toList.map Header.reading ++
        matchesFrom headerAt? 0 (charBefore before passage.text) here := by
  cases passage with
  | plain line oneLine wordless => exact matchesFrom_line oneLine wordless hhere
  | opening header behind oneLine =>
      have hne : header.closed ≠ [] := by simp [Header.closed]
      have hend : charBefore before header.closed = some ')' := by
        simp [charBefore, Header.closed, List.getLast?_cons]
      have hcolon : '\n' ∉ ':' :: behind := List.not_mem_cons_of_ne_of_not_mem (by decide) oneLine
      have hfound := headerAt?_closed header hstart (':' :: behind ++ here)
      rw [Passage.text, List.append_assoc, matchesFrom_of_eq_some hne hfound, charBefore_append,
        hend, matchesFrom_within_line rfl hcolon]
      rfl

/-- No header starts at a line feed. -/
theorem matchesFrom_feed (before : Option Char) (text : List Char) :
    matchesFrom headerAt? 0 before ('\n' :: text) = matchesFrom headerAt? 0 (some '\n') text := by
  have hnone : headerAt? before ('\n' :: text) = none := by
    rw [headerAt?]
    split <;> rfl
  simp [matchesFrom, hnone]

/-- A scan finds the headers of all passages. -/
theorem matchesFrom_written (passages : List Passage) :
    ∀ before, atLineStart before = true →
      matchesFrom headerAt? 0 before (written passages) =
        (passages.filterMap Passage.header?).map Header.reading := by
  induction passages with
  | nil =>
      intro before hstart
      rfl
  | cons passage passages ih =>
      intro before hstart
      have hend : ([] : List Char).head?.any (· ≠ '\n') = false := rfl
      cases passages with
      | nil =>
          have hpassage := matchesFrom_passage passage hstart hend
          rw [List.append_nil] at hpassage
          rw [written, List.map_singleton, List.intercalate_singleton, hpassage]
          cases hheader : passage.header? <;> simp [matchesFrom, hheader]
      | cons next others =>
          have hfeed (text : List Char) : ('\n' :: text).head?.any (· ≠ '\n') = false := rfl
          have hrest := ih (some '\n') rfl
          rw [written, List.map_cons, List.map_cons, List.intercalate_cons_cons, ← List.map_cons,
            ← written, List.append_assoc, List.singleton_append,
            matchesFrom_passage passage hstart (hfeed _), matchesFrom_feed, hrest]
          cases hheader : passage.header? <;> simp [hheader]

/-- The classes that a text of headers declares below a parent are those whose lists have a base of
that name, in the order of the text and each once. -/
theorem children_of_passages (passages : List Passage) (parent : String) :
    children (String.ofList (written passages)) parent =
      ((passages.filterMap Passage.header?).filter fun header =>
        parent ∈ header.bases).map Header.className := by
  rw [children, allMatches, String.toList_ofList, matchesFrom_written passages none rfl]
  have hchild (header : Header) :
      (if names header.list parent.toList then some header.className else none) =
        (Option.guard (fun header => decide (parent ∈ header.bases)) header).map
          Header.className := by
    rw [names_list, Option.guard]
    split <;> rfl
  rw [List.filterMap_map, ← List.filterMap_eq_filter, List.map_filterMap]
  exact congrArg (fun child => List.filterMap child _) (funext hchild)

/-- A header with a base in a module and an argument, and the line behind it. -/
example :
    let space : Blanks := ⟨[' '], List.all_eq_true.mp (by decide +kernel)⟩
    let tight : Blanks := ⟨[], List.forall_mem_nil _⟩
    let child : Word := ⟨['A'], by decide, List.all_eq_true.mp (by decide +kernel)⟩
    let qualifier : Word := ⟨['m'], by decide, List.all_eq_true.mp (by decide +kernel)⟩
    let parent : Word := ⟨['P'], by decide, List.all_eq_true.mp (by decide +kernel)⟩
    let argument : Argument := ⟨['k', '=', 'v'], by decide, by simp⟩
    let header : Header := ⟨[], List.forall_mem_nil _, space, by decide, child, tight,
      [⟨tight, .base [qualifier] parent none, tight⟩, ⟨space, .keyword argument, tight⟩]⟩
    String.ofList (written [.opening header [] (by decide),
        .plain "  subclass = 1".toList (by decide +kernel) (by decide +kernel)]) =
      "class A(m.P, k=v):\n  subclass = 1" ∧ header.bases = ["P"] ∧
      children "class A(m.P, k=v):\n  subclass = 1" "P" = ["A"] := by
  decide +kernel

end BaseList

end Lexical

end Lineage

import Lineage.Proofs.Export.Quotient
import Mathlib.Data.List.Forall2
import Mathlib.Data.List.Induction

/-!
# Reading a graph back

Whoever reads a graph has to find out where its quoted strings end.  Inside of one, a quote behind a
backslash is a character of the string, two backslashes are kept as they are, and any other quote is
the end.  The export puts a backslash before every quote and leaves backslashes alone.

Reading gives back what was written as long as backslashes come in pairs wherever it matters: before
a quote and at the end.  One backslash too many there makes a pair with the backslash that was put
before the quote, or else takes the quote at the end for a character, and the string ends too early
or too late.  Such a text is not what any quoted string is read as; but written as it stands it
takes along what comes after it, and then the other identifiers of the graph are lost as well.

## Main results

* `isQuotable_of_mem_tokens?`: what is read as a quoted string is quotable.
* `reads_quoted`: a quotable text is read as it was before it was written.
* `read_back_iff`: exactly when a graph is read back.
-/

namespace Lineage.Dot

variable {root : Tree} {project : Option Path} {text : String}

/-! ## Runs of backslashes -/

/-- Before every quote of the text the number of backslashes is even. -/
def IsClear (text : List Char) : Prop :=
  ∀ before after, text = before ++ '"' :: after → Text.finalBackslashes before % 2 = 0

/-- Backslashes come in pairs before every quote of the text and at its end. -/
def IsQuotable (text : List Char) : Prop := IsClear text ∧ Text.finalBackslashes text % 2 = 0

theorem finalBackslashes_concat (text : List Char) (c : Char) :
    Text.finalBackslashes (text ++ [c]) =
      if c = '\\' then Text.finalBackslashes text + 1 else 0 := by
  rw [Text.finalBackslashes, List.reverse_append, List.reverse_singleton, List.singleton_append,
    List.takeWhile_cons]
  by_cases hc : c = '\\'
  · rw [if_pos (by simpa using hc), if_pos hc, List.length_cons, Text.finalBackslashes]
  · rw [if_neg (by simpa using hc), if_neg hc, List.length_nil]

theorem isClear_concat_iff {text : List Char} {c : Char} :
    IsClear (text ++ [c]) ↔ IsClear text ∧ (c = '"' → Text.finalBackslashes text % 2 = 0) := by
  constructor
  · intro h
    constructor
    · rintro before after rfl
      exact h before (after ++ [c]) (by simp)
    · rintro rfl
      exact h text [] rfl
  · rintro ⟨htext, hlast⟩ before after hsplit
    rcases List.eq_nil_or_concat after with rfl | ⟨others, last, rfl⟩
    · obtain ⟨rfl, hquote⟩ := List.append_inj' hsplit rfl
      exact hlast (List.cons.inj hquote).1
    · rw [List.concat_eq_append, ← List.cons_append, ← List.append_assoc] at hsplit
      obtain ⟨hfront, -⟩ := List.append_inj' hsplit rfl
      exact htext before others hfront

/-- Whether a run of backslashes is odd after one more character; there is no going on with a quote
behind an odd run. -/
def parityStep : Option Bool → Char → Option Bool
  | none, _ => none
  | some odd, c =>
      if c = '\\' then some !odd
      else if c = '"' ∧ odd = true then none
      else some false

/-- Whether the run of backslashes at the end of a text is odd, unless there was no going on. -/
def parity (text : List Char) : Option Bool := text.foldl parityStep (some false)

theorem foldl_parityStep_none (text : List Char) : text.foldl parityStep none = none := by
  induction text with
  | nil => rfl
  | cons c text ih => exact ih

theorem parity_concat (text : List Char) (c : Char) :
    parity (text ++ [c]) = parityStep (parity text) c := by
  rw [parity, List.foldl_append]
  rfl

/-- A character of another kind ends a run of backslashes, so what follows it starts anew. -/
theorem parity_append_cons {c : Char} (hbackslash : c ≠ '\\') (hquote : c ≠ '"')
    (text rest : List Char) :
    parity (text ++ c :: rest) = (parity text).bind fun _ => parity rest := by
  rw [parity, List.foldl_append, List.foldl_cons, ← parity]
  cases parity text with
  | none => exact foldl_parityStep_none rest
  | some odd =>
      rw [parityStep, if_neg hbackslash, if_neg fun h => hquote h.1]
      rfl

/-- Characters of other kinds only are no run at all. -/
theorem parity_eq_some_false {text : List Char} (h : ∀ c ∈ text, c ≠ '\\' ∧ c ≠ '"') :
    parity text = some false := by
  induction text with
  | nil => rfl
  | cons c text ih =>
      obtain ⟨hbackslash, hquote⟩ := h c List.mem_cons_self
      have hothers := ih fun other hother => h other (List.mem_cons_of_mem c hother)
      have hcons := parity_append_cons hbackslash hquote [] text
      rw [List.nil_append, hothers] at hcons
      exact hcons

theorem parity_eq_some {text : List Char} (h : IsClear text) :
    parity text = some (decide (Text.finalBackslashes text % 2 = 1)) := by
  induction text using List.reverseRecOn with
  | nil => rfl
  | append_singleton text c ih =>
      obtain ⟨htext, hquote⟩ := isClear_concat_iff.mp h
      rw [parity_concat, ih htext, finalBackslashes_concat, parityStep]
      by_cases hbackslash : c = '\\'
      · rw [if_pos hbackslash, if_pos hbackslash]
        congr 1
        rw [← decide_not]
        exact decide_eq_decide.mpr (by omega)
      · have hgo : ¬ (c = '"' ∧ decide (Text.finalBackslashes text % 2 = 1) = true) := by
          rintro ⟨hc, hodd⟩
          have heven := hquote hc
          have hone := of_decide_eq_true hodd
          omega
        rw [if_neg hbackslash, if_neg hbackslash, if_neg hgo]
        rfl

theorem isClear_of_parity {text : List Char} {odd : Bool} (h : parity text = some odd) :
    IsClear text := by
  induction text using List.reverseRecOn generalizing odd with
  | nil =>
      intro before after hsplit
      exact absurd hsplit.symm (by simp)
  | append_singleton text c ih =>
      rw [parity_concat] at h
      cases hparity : parity text with
      | none =>
          rw [hparity] at h
          cases h
      | some before =>
          have htext := ih hparity
          refine isClear_concat_iff.mpr ⟨htext, ?_⟩
          rintro rfl
          rw [parity_eq_some htext] at h
          by_contra hodd
          have hone : Text.finalBackslashes text % 2 = 1 := by omega
          simp [parityStep, hone] at h

theorem isQuotable_iff_parity {text : List Char} :
    IsQuotable text ↔ parity text = some false := by
  constructor
  · rintro ⟨hclear, hfinal⟩
    rw [parity_eq_some hclear, hfinal]
    rfl
  · intro h
    have hclear := isClear_of_parity h
    rw [parity_eq_some hclear, Option.some.injEq, decide_eq_false_iff_not] at h
    exact ⟨hclear, by omega⟩

instance (text : List Char) : Decidable (IsQuotable text) :=
  decidable_of_iff _ isQuotable_iff_parity.symm

/-! ## Reading -/

/-- What a graph is read as: quoted strings, and the characters outside of them. -/
inductive Token where
  | quoted (text : String)
  | plain (c : Char)
  deriving Repr, DecidableEq

/-- How far reading has come, with the tokens read before. -/
inductive Reading where
  | outside (tokens : List Token)
  /-- Inside a quoted string, of which some has been read. -/
  | inside (tokens : List Token) (read : List Char)
  /-- The same, behind a backslash that has not been read yet. -/
  | escaping (tokens : List Token) (read : List Char)

namespace Reading

/-- Reading goes on with one character. -/
def step : Reading → Char → Reading
  | outside tokens, c =>
      if c = '"' then inside tokens [] else outside (tokens ++ [.plain c])
  | inside tokens read, c =>
      if c = '"' then outside (tokens ++ [.quoted (String.ofList read)])
      else if c = '\\' then escaping tokens read
      else inside tokens (read ++ [c])
  | escaping tokens read, c =>
      if c = '"' then inside tokens (read ++ ['"']) else inside tokens (read ++ ['\\', c])

/-- Reading goes on with a text. -/
def run (reading : Reading) (text : String) : Reading := text.toList.foldl step reading

theorem run_append (reading : Reading) (text other : String) :
    reading.run (text ++ other) = (reading.run text).run other := by
  rw [run, String.toList_append, List.foldl_append]
  rfl

/-- Everything quoted so far is quotable, and so is what has been read of a quoted string. -/
def IsSound : Reading → Prop
  | outside tokens => ∀ text, .quoted text ∈ tokens → IsQuotable text.toList
  | inside tokens read | escaping tokens read =>
      (∀ text, .quoted text ∈ tokens → IsQuotable text.toList) ∧ parity read = some false

theorem IsSound.step {reading : Reading} (h : reading.IsSound) (c : Char) :
    (reading.step c).IsSound := by
  cases reading with
  | outside tokens =>
      rw [Reading.step]
      split
      · exact ⟨h, rfl⟩
      · intro text htext
        rcases List.mem_append.mp htext with htext | htext
        · exact h text htext
        · cases List.mem_singleton.mp htext
  | inside tokens read =>
      obtain ⟨htokens, hread⟩ := h
      rw [Reading.step]
      split
      · intro text htext
        rcases List.mem_append.mp htext with htext | htext
        · exact htokens text htext
        · obtain rfl : text = String.ofList read := Token.quoted.inj (List.mem_singleton.mp htext)
          rw [String.toList_ofList]
          exact isQuotable_iff_parity.mpr hread
      · next hquote =>
          split
          · exact ⟨htokens, hread⟩
          · next hbackslash =>
              refine ⟨htokens, ?_⟩
              rw [parity_concat, hread]
              simp [parityStep, hbackslash]
  | escaping tokens read =>
      obtain ⟨htokens, hread⟩ := h
      rw [Reading.step]
      split
      · refine ⟨htokens, ?_⟩
        rw [parity_concat, hread]
        rfl
      · next hquote =>
          have hpair : read ++ ['\\', c] = (read ++ ['\\']) ++ [c] := by simp
          refine ⟨htokens, ?_⟩
          rw [hpair, parity_concat, parity_concat, hread]
          by_cases hbackslash : c = '\\'
          · simp [parityStep, hbackslash]
          · simp [parityStep, hbackslash, hquote]

theorem IsSound.run {reading : Reading} (h : reading.IsSound) (text : String) :
    (reading.run text).IsSound := by
  rw [Reading.run]
  induction text.toList generalizing reading with
  | nil => exact h
  | cons c chars ih => exact ih (h.step c)

end Reading

/-- The tokens of a text, unless it ends inside a quoted string. -/
def tokens? (text : String) : Option (List Token) :=
  match (Reading.outside []).run text with
  | .outside tokens => some tokens
  | _ => none

theorem tokens?_eq_some_iff {tokens : List Token} :
    tokens? text = some tokens ↔ (Reading.outside []).run text = .outside tokens := by
  rw [tokens?]
  cases (Reading.outside []).run text <;> simp

/-- Whatever is read as a quoted string is quotable. -/
theorem isQuotable_of_mem_tokens? {tokens : List Token} {quoted : String}
    (htokens : tokens? text = some tokens) (hquoted : .quoted quoted ∈ tokens) :
    IsQuotable quoted.toList := by
  have hstart : (Reading.outside []).IsSound := by
    intro text htext
    cases htext
  have hend := hstart.run text
  rw [tokens?_eq_some_iff.mp htokens] at hend
  exact hend quoted hquoted

/-! ## Reading what was written -/

namespace Reading

/-- Reading is inside a quoted string of which that much has been passed; if it ends in an odd run,
the last backslash has not been read yet. -/
inductive Within (tokens : List Token) : Reading → (passed : List Char) → (odd : Bool) → Prop
  | inside (read : List Char) : Within tokens (.inside tokens read) read false
  | escaping (read : List Char) : Within tokens (.escaping tokens read) (read ++ ['\\']) true

variable {tokens : List Token} {reading : Reading} {passed : List Char} {odd odd' : Bool}

theorem Within.eq_inside (h : Within tokens reading passed false) :
    reading = .inside tokens passed := by
  cases h
  rfl

theorem Within.step {c : Char} (h : Within tokens reading passed odd)
    (hparity : parityStep (some odd) c = some odd') :
    Within tokens ((escapeChar c).foldl Reading.step reading) (passed ++ [c]) odd' := by
  by_cases hquote : c = '"'
  · subst hquote
    cases h with
    | inside read =>
        cases hparity
        exact .inside (passed ++ ['"'])
    | escaping read => cases hparity
  · rw [escapeChar, if_neg hquote]
    by_cases hbackslash : c = '\\'
    · subst hbackslash
      cases h with
      | inside read =>
          cases hparity
          exact .escaping passed
      | escaping read =>
          cases hparity
          rw [List.append_assoc]
          exact .inside (read ++ ['\\', '\\'])
    · have heven : odd' = false := by
        simpa [parityStep, hquote, hbackslash] using hparity.symm
      subst heven
      cases h with
      | inside read =>
          rw [List.foldl_cons, List.foldl_nil, Reading.step, if_neg hquote, if_neg hbackslash]
          exact .inside (passed ++ [c])
      | escaping read =>
          rw [List.foldl_cons, List.foldl_nil, Reading.step, if_neg hquote, List.append_assoc]
          exact .inside (read ++ ['\\', c])

theorem Within.run {chars : List Char} (h : Within tokens reading passed odd)
    (hparity : chars.foldl parityStep (some odd) = some odd') :
    Within tokens ((chars.flatMap escapeChar).foldl Reading.step reading) (passed ++ chars)
      odd' := by
  induction chars generalizing reading passed odd with
  | nil =>
      obtain rfl : odd = odd' := Option.some.inj hparity
      rw [List.append_nil]
      exact h
  | cons c chars ih =>
      rw [List.foldl_cons] at hparity
      cases hnext : parityStep (some odd) c with
      | none =>
          rw [hnext, foldl_parityStep_none] at hparity
          cases hparity
      | some next =>
          rw [hnext] at hparity
          have hrest := ih (h.step hnext) hparity
          rw [List.append_assoc, List.singleton_append] at hrest
          rw [List.flatMap_cons, List.foldl_append]
          exact hrest

end Reading

/-- Reading a text outside of quoted strings gives the tokens and ends outside again. -/
def Reads (text : String) (tokens : List Token) : Prop :=
  ∀ before, (Reading.outside before).run text = .outside (before ++ tokens)

theorem tokens?_of_reads {tokens : List Token} (h : Reads text tokens) :
    tokens? text = some tokens := tokens?_eq_some_iff.mpr (h [])

theorem Reads.append {other : String} {tokens others : List Token} (h : Reads text tokens)
    (hother : Reads other others) : Reads (text ++ other) (tokens ++ others) := by
  intro before
  rw [Reading.run_append, h before, hother, List.append_assoc]

/-- A quotable text is read as what it was before it was written. -/
theorem reads_quoted (h : IsQuotable text.toList) :
    Reads ("\"" ++ escape text ++ "\"") [.quoted text] := by
  intro before
  have hstart : (Reading.outside before).run "\"" = .inside before [] := rfl
  have hread : (Reading.inside before []).run (escape text) = .inside before text.toList := by
    rw [Reading.run, toList_escape]
    exact ((Reading.Within.inside []).run (isQuotable_iff_parity.mp h)).eq_inside
  have hend : (Reading.inside before text.toList).run "\"" =
      .outside (before ++ [.quoted (String.ofList text.toList)]) := rfl
  rw [Reading.run_append, Reading.run_append, hstart, hread, hend, String.ofList_toList]

/-- A text without quotes, character by character. -/
def plains (text : String) : List Token := text.toList.map .plain

theorem reads_plains (h : '"' ∉ text.toList) : Reads text (plains text) := by
  intro before
  rw [Reading.run, plains]
  generalize text.toList = chars at h
  induction chars generalizing before with
  | nil => exact congrArg Reading.outside (List.append_nil before).symm
  | cons c chars ih =>
      obtain ⟨hne, hothers⟩ := List.ne_and_not_mem_of_not_mem_cons h
      rw [List.foldl_cons, Reading.step, if_neg hne.symm, ih _ hothers, List.map_cons,
        List.append_assoc, List.singleton_append]

theorem reads_intercalate {lines : List String} {tokens : List (List Token)}
    (h : List.Forall₂ Reads lines tokens) :
    Reads ("\n".intercalate lines) ((plains "\n").intercalate tokens) := by
  induction h with
  | nil => exact reads_plains (by decide)
  | cons hline hlines ih =>
      cases hlines with
      | nil =>
          rw [String.intercalate_singleton, List.intercalate_singleton]
          exact hline
      | cons hnext hothers =>
          rw [String.intercalate_cons_cons, List.intercalate_cons_cons]
          exact (hline.append (reads_plains (by decide))).append ih

/-! ## Reading a graph -/

/-- The tokens of a line with two quoted strings. -/
def pairTokens (first middle second tail : String) : List Token :=
  plains "  " ++ [.quoted first] ++ plains middle ++ [.quoted second] ++ plains tail

theorem reads_pair {first second : String} (hfirst : IsQuotable first.toList)
    (hsecond : IsQuotable second.toList) {middle tail : String} (hmiddle : '"' ∉ middle.toList)
    (htail : '"' ∉ tail.toList) :
    Reads ("  \"" ++ escape first ++ "\"" ++ middle ++ "\"" ++ escape second ++ "\"" ++ tail)
      (pairTokens first middle second tail) := by
  have hline : "  \"" ++ escape first ++ "\"" ++ middle ++ "\"" ++ escape second ++ "\"" ++ tail =
      "  " ++ ("\"" ++ escape first ++ "\"") ++ middle ++ ("\"" ++ escape second ++ "\"") ++
        tail := by
    simp [← String.toList_inj]
  rw [hline, pairTokens]
  refine .append (.append (.append (.append ?_ ?_) ?_) ?_) ?_
  · exact reads_plains (by decide)
  · exact reads_quoted hfirst
  · exact reads_plains hmiddle
  · exact reads_quoted hsecond
  · exact reads_plains htail

/-- The tokens of the line of a node: its identifier, and its label. -/
def nodeTokens (project : Option Path) (node : Tree) : List Token :=
  pairTokens (nodeId node) " [label=" (label node project) "];"

/-- The tokens of the line of an edge: the identifiers of its ends. -/
def edgeTokens (edge : String × String) : List Token := pairTokens edge.1 " -> " edge.2 ";"

/-- The tokens of a graph, line by line. -/
def graphTokens (root : Tree) (project : Option Path) : List Token :=
  (plains "\n").intercalate (header.map plains ++ (nodes root).map (nodeTokens project) ++
    (edges root).map edgeTokens ++ [plains "\x7d"])

theorem reads_nodeLine {node : Tree} (hid : IsQuotable (nodeId node).toList)
    (hlabel : IsQuotable (label node project).toList) :
    Reads (nodeLine project node) (nodeTokens project node) := by
  have hline : nodeLine project node = "  \"" ++ escape (nodeId node) ++ "\"" ++ " [label=" ++
      "\"" ++ escape (label node project) ++ "\"" ++ "];" := by
    simp [nodeLine, ← String.toList_inj]
  rw [hline]
  exact reads_pair hid hlabel (by decide) (by decide)

theorem reads_edgeLine {edge : String × String} (hparent : IsQuotable edge.1.toList)
    (hchild : IsQuotable edge.2.toList) : Reads (edgeLine edge) (edgeTokens edge) := by
  have hline : edgeLine edge = "  \"" ++ escape edge.1 ++ "\"" ++ " -> " ++ "\"" ++
      escape edge.2 ++ "\"" ++ ";" := by
    simp [edgeLine, ← String.toList_inj]
  rw [hline]
  exact reads_pair hparent hchild (by decide) (by decide)

/-- The path shown in a label stands at the end of the path, so it has no runs of its own. -/
theorem parity_displayPath {path : Path} (h : parity path.toString.toList = some false)
    (project : Option Path) : parity (displayPath path project).toList = some false := by
  obtain ⟨anchor, all⟩ := path
  have hlast {front names : List String} (hnames : names ≠ []) (hall : all = front ++ names) :
      parity ("/".intercalate names).toList = some false := by
    subst hall
    rcases Path.toString_append anchor front hnames with hwhole | ⟨lead, hlead⟩
    · rwa [hwhole] at h
    · have hslash : (lead ++ "/" ++ "/".intercalate names).toList =
          lead.toList ++ '/' :: ("/".intercalate names).toList := by
        simp
      rw [hlead, hslash, parity_append_cons (by decide) (by decide)] at h
      obtain ⟨odd, -, hrest⟩ := Option.bind_eq_some_iff.mp h
      exact hrest
  rw [displayPath]
  split
  · next rest hrest =>
      obtain ⟨base, -, hbelow⟩ := Option.bind_eq_some_iff.mp hrest
      obtain ⟨hrelative, hjoin⟩ := Path.relativeTo?_eq_some_iff.mp hbelow
      obtain ⟨restAnchor, names⟩ := rest
      obtain rfl : restAnchor = .relative := hrelative
      cases names with
      | nil => decide
      | cons name names =>
          exact hlast (List.cons_ne_nil name names) (congrArg Path.names hjoin)
  · rw [Path.name]
    rcases List.eq_nil_or_concat all with hnone | ⟨front, last, hall⟩
    · rw [hnone]
      rfl
    · rw [List.concat_eq_append] at hall
      have hname := hlast (List.cons_ne_nil last []) hall
      rw [String.intercalate_singleton] at hname
      simp only [hall, List.getLast?_concat, Option.getD_some]
      exact hname

/-- No run goes past the `n` of a line feed. -/
theorem parity_lineFeed {front : List Char} {odd : Bool} (h : parity front = some odd)
    (rest : List Char) : parity (front ++ '\\' :: 'n' :: rest) = parity rest := by
  have hsplit : front ++ '\\' :: 'n' :: rest = (front ++ ['\\']) ++ 'n' :: rest := by simp
  rw [hsplit, parity_append_cons (by decide) (by decide), parity_concat, h]
  rfl

theorem parity_usages (count : Nat) :
    parity (count.repr ++ " tag usage(s)").toList = some false := by
  refine parity_eq_some_false fun c hc => ?_
  rw [String.toList_append, List.mem_append, Nat.toList_repr] at hc
  rcases hc with hdigit | hword
  · have hisDigit := Nat.isDigit_of_mem_toDigits (by decide) (by decide) hdigit
    constructor
    · rintro rfl
      exact absurd hisDigit (by decide)
    · rintro rfl
      exact absurd hisDigit (by decide)
  · have hall : " tag usage(s)".toList.all (fun c => c ≠ '\\' ∧ c ≠ '"') = true := by decide
    exact of_decide_eq_true (List.all_eq_true.mp hall c hword)

/-- A label can be quoted if the identifier can. -/
theorem isQuotable_label {node : Tree} (hid : IsQuotable (nodeId node).toList)
    (project : Option Path) : IsQuotable (label node project).toList := by
  have hchars : (nodeId node).toList = node.name.toList ++ '@' :: node.path.toString.toList := by
    simp [nodeId]
  rw [isQuotable_iff_parity, hchars, parity_append_cons (by decide) (by decide)] at hid
  obtain ⟨odd, hname, hpath⟩ := Option.bind_eq_some_iff.mp hid
  have hshown := parity_displayPath hpath project
  rw [isQuotable_iff_parity]
  by_cases htags : node.tags.isEmpty = true
  · have hlabel : (label node project).toList =
        node.name.toList ++ '\\' :: 'n' :: (displayPath node.path project).toList := by
      simp [label, htags]
    rw [hlabel, parity_lineFeed hname, hshown]
  · have hlabel : (label node project).toList =
        node.name.toList ++ '\\' :: 'n' :: ((displayPath node.path project).toList ++
          '\\' :: 'n' :: (node.tags.length.repr ++ " tag usage(s)").toList) := by
      simp [label, htags]
    rw [hlabel, parity_lineFeed hname, parity_lineFeed hshown, parity_usages]

/-- Every identifier in the walk is that of a node of the graph. -/
theorem exists_mem_nodes {node : Tree} (hnode : node ∈ root.walk) :
    ∃ other ∈ nodes root, nodeId other = nodeId node := by
  have hids : (nodes root).map nodeId = firstsBy id (root.walk.map nodeId) :=
    map_firstsBy fun _ _ _ _ => Iff.rfl
  have hmem : nodeId node ∈ (nodes root).map nodeId := by
    rw [hids, mem_firstsBy_id]
    exact List.mem_map_of_mem hnode
  exact List.mem_map.mp hmem

/-- Both ends of an edge are identifiers of nodes in the walk. -/
theorem exists_of_mem_edges {edge : String × String} (h : edge ∈ edges root) :
    ∃ node ∈ root.walk, ∃ child ∈ root.walk, edge = (nodeId node, nodeId child) := by
  rw [edges, mem_firstsBy_id, List.mem_flatMap] at h
  obtain ⟨node, hnode, hedge⟩ := h
  obtain ⟨child, hchild, rfl⟩ := List.mem_map.mp hedge
  exact ⟨node, hnode, child, root.mem_walk_of_mem_children hnode hchild, rfl⟩

/-- Lines made from the members of a list are read one by one. -/
theorem forall₂_reads_map {α : Type} {members : List α} {line : α → String}
    {tokens : α → List Token} (h : ∀ a ∈ members, Reads (line a) (tokens a)) :
    List.Forall₂ Reads (members.map line) (members.map tokens) :=
  List.forall₂_map_left_iff.mpr (List.forall₂_map_right_iff.mpr (List.forall₂_same.mpr h))

theorem reads_render (h : ∀ node ∈ root.walk, IsQuotable (nodeId node).toList)
    (project : Option Path) : Reads (render root project) (graphTokens root project) := by
  have hheader : List.Forall₂ Reads header (header.map plains) := by
    have hplain : ∀ line ∈ header, '"' ∉ line.toList := by decide
    exact List.forall₂_map_right_iff.mpr
      (List.forall₂_same.mpr fun line hline => reads_plains (hplain line hline))
  have hnodes : List.Forall₂ Reads ((nodes root).map (nodeLine project))
      ((nodes root).map (nodeTokens project)) := by
    refine forall₂_reads_map fun node hnode => ?_
    have hid := h node (mem_walk_of_mem_nodes hnode)
    exact reads_nodeLine hid (isQuotable_label hid project)
  have hedges : List.Forall₂ Reads ((edges root).map edgeLine)
      ((edges root).map edgeTokens) := by
    refine forall₂_reads_map fun edge hedge => ?_
    obtain ⟨node, hnode, child, hchild, rfl⟩ := exists_of_mem_edges hedge
    exact reads_edgeLine (h node hnode) (h child hchild)
  have hbrace : List.Forall₂ Reads ["\x7d"] [plains "\x7d"] :=
    .cons (reads_plains (by decide)) .nil
  have hlines := List.rel_append (List.rel_append (List.rel_append hheader hnodes) hedges) hbrace
  exact reads_intercalate hlines

theorem mem_intercalate {α : Type} {separator part : List α} {parts : List (List α)} {a : α}
    (ha : a ∈ part) (hpart : part ∈ parts) : a ∈ separator.intercalate parts := by
  induction parts with
  | nil => cases hpart
  | cons first parts ih =>
      cases parts with
      | nil =>
          rw [List.intercalate_singleton, ← List.mem_singleton.mp hpart]
          exact ha
      | cons next others =>
          rw [List.intercalate_cons_cons, List.mem_append]
          rcases List.mem_cons.mp hpart with rfl | hpart
          · exact .inl (List.mem_append_left _ ha)
          · exact .inr (ih hpart)

/-- The identifier of every node is among the quoted strings of the graph. -/
theorem quoted_nodeId_mem_graphTokens {node : Tree} (hnode : node ∈ root.walk)
    (project : Option Path) : .quoted (nodeId node) ∈ graphTokens root project := by
  obtain ⟨other, hother, hid⟩ := exists_mem_nodes hnode
  have hline : .quoted (nodeId node) ∈ nodeTokens project other := by
    rw [← hid, nodeTokens, pairTokens]
    simp
  refine mem_intercalate hline ?_
  rw [List.append_assoc, List.append_assoc, List.mem_append, List.mem_append]
  exact .inr (.inl (List.mem_map_of_mem hother))

/-- A graph is read back exactly if backslashes come in pairs before the quotes and at the end of
all identifiers.  What is read then are the lines with the identifiers of the entities and of their
pairs, each once and in the order of the walk. -/
theorem read_back_iff (root : Tree) (project : Option Path) :
    (tokens? (render root project) = some (graphTokens root project) ↔
        ∀ node ∈ root.walk, IsQuotable (nodeId node).toList) ∧
      FirstsOf ((nodes root).map nodeId) (root.walk.map nodeId) ∧
      FirstsOf (edges root) (root.walk.flatMap fun node =>
        node.children.map fun child => (nodeId node, nodeId child)) := by
  refine ⟨⟨fun h node hnode => ?_, fun h => tokens?_of_reads (reads_render h project)⟩, ?_, ?_⟩
  · exact isQuotable_of_mem_tokens? h (quoted_nodeId_mem_graphTokens hnode project)
  · rw [nodes, map_firstsBy fun _ _ _ _ => Iff.rfl]
    exact firstsOf_firstsBy_id _
  · exact firstsOf_firstsBy_id _

/-- One file whose name ends in a backslash makes a whole graph unreadable, since the reader comes
to its end inside a quoted string.  A backslash before a quote ends an identifier too early. -/
theorem not_read_back_backslash :
    tokens? (render ⟨"A", ⟨.root, ["p", "x\\"]⟩, [],
        [⟨"B", ⟨.root, ["p", "b.js"]⟩, [], []⟩]⟩ none) = none ∧
      (tokens? (render ⟨"A", ⟨.root, ["p", "x\\\"y.js"]⟩, [], []⟩ none)).map
        (fun tokens => tokens.filter fun token => token matches .quoted _) =
          some [.quoted "A@/p/x\\\\", .quoted " [label=", .quoted "y.js"] := by
  decide +kernel

end Lineage.Dot

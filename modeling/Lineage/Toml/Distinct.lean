import Lineage.Toml.Document

/-!
# Keys of what is read

A configuration text may come back to a table again and again, by headers, by dotted keys and by
inline tables, but no table of what is read has a key twice: whatever is entered is set under its
key, and a set key takes the place of an equal one.  The statement is carried through the reader as
a postcondition: a part of the reader that gets values without repeated keys gives, if it gives any
result at all, a value without repeated keys.

## Main results

* `keysDistinct_of_value`: a value of an entry.
* `keysDistinct_of_line`: what has been read of a document, after one line more.
* `keysDistinct_of_parse`: the table that a configuration text stands for.
-/

namespace Lineage

/-- No table in the value has a key twice. -/
inductive Value.KeysDistinct : Value → Prop
  | scalar (value : Scalar) : KeysDistinct (.scalar value)
  | list {items : List Value} (hitems : ∀ item ∈ items, KeysDistinct item) :
      KeysDistinct (.list items)
  | table {entries : List (String × Value)} (hkeys : (entries.map Prod.fst).Nodup)
      (hvalues : ∀ entry ∈ entries, KeysDistinct entry.2) : KeysDistinct (.table entries)

namespace Value.KeysDistinct

theorem item {items : List Value} (h : KeysDistinct (.list items)) {item : Value}
    (hmem : item ∈ items) : KeysDistinct item := by
  cases h with
  | list hitems => exact hitems item hmem

theorem nodup_keys {table : Table} (h : KeysDistinct (.table table)) :
    (table.map Prod.fst).Nodup := by
  cases h with
  | table hkeys _ => exact hkeys

theorem empty : KeysDistinct (.table []) := .table .nil (by simp)

/-- A table with a value under a key. -/
theorem set {table : Table} {value : Value} (h : KeysDistinct (.table table))
    (hvalue : KeysDistinct value) (name : String) :
    KeysDistinct (.table (Keyed.set name value table)) := by
  cases h with
  | table hkeys hvalues =>
      refine .table (Keyed.nodup_set hkeys name value) ?_
      intro entry hentry
      rcases Keyed.mem_set hentry with rfl | hold
      · exact hvalue
      · exact hvalues entry hold

theorem member {table : Table} {name : String} {value : Value} (h : KeysDistinct (.table table))
    (hfound : Keyed.get? name table = some value) : KeysDistinct value := by
  cases h with
  | table _ hvalues => exact hvalues _ (Keyed.mem_of_get? hfound)

/-- The value under a key, where a missing one counts as an empty table. -/
theorem memberOrEmpty {table : Table} (h : KeysDistinct (.table table)) (name : String) :
    KeysDistinct ((Keyed.get? name table).getD (.table [])) := by
  cases hfound : Keyed.get? name table with
  | none => exact empty
  | some value => exact h.member hfound

/-- A list with another last item. -/
theorem replaceLast {items : List Value} {item : Value} (h : KeysDistinct (.list items))
    (hitem : KeysDistinct item) : KeysDistinct (.list (items.dropLast ++ [item])) := by
  refine .list ?_
  intro other hother
  rcases List.mem_append.mp hother with hother | hother
  · exact h.item (List.dropLast_subset items hother)
  · rw [List.mem_singleton.mp hother]
    exact hitem

/-- A list with one item more. -/
theorem concat {items : List Value} {item : Value} (h : KeysDistinct (.list items))
    (hitem : KeysDistinct item) : KeysDistinct (.list (items ++ [item])) := by
  refine .list ?_
  intro other hother
  rcases List.mem_append.mp hother with hother | hother
  · exact h.item hother
  · rw [List.mem_singleton.mp hother]
    exact hitem

end Value.KeysDistinct

namespace Toml

open Value

/-! ## Postconditions -/

/-- What is read, if it is read at all, has a property. -/
def Gives {α : Type} (P : α → Prop) (outcome : Except Fault α) : Prop :=
  ∀ a, outcome = .ok a → P a

namespace Gives

variable {α β : Type} {P : α → Prop} {Q : β → Prop}

theorem ok {a : α} (h : P a) : Gives P (.ok a) := by
  intro b hb
  cases hb
  exact h

theorem error (fault : Fault) : Gives P (.error fault) := by
  intro b hb
  cases hb

theorem anything (outcome : Except Fault α) : Gives (fun _ => True) outcome := fun _ _ => trivial

theorem bind {outcome : Except Fault α} {next : α → Except Fault β} (h : Gives P outcome)
    (hnext : ∀ a, P a → Gives Q (next a)) : Gives Q (outcome >>= next) := by
  intro b hb
  cases houtcome : outcome with
  | error fault =>
      rw [houtcome] at hb
      cases hb
  | ok a =>
      rw [houtcome] at hb
      exact hnext a (h a houtcome) b hb

theorem map {outcome : Except Fault α} {f : α → β} (h : Gives P outcome)
    (hf : ∀ a, P a → Q (f a)) : Gives Q (outcome.map f) := by
  intro b hb
  cases houtcome : outcome with
  | error fault =>
      rw [houtcome] at hb
      cases hb
  | ok a =>
      rw [houtcome] at hb
      cases hb
      exact hf a (h a houtcome)

end Gives

/-! ## Entries -/

/-- A change keeps keys apart. -/
def KeepsApart {α : Type} (change : Value → Except Fault (Value × α)) : Prop :=
  ∀ place, KeysDistinct place → Gives (fun result => KeysDistinct result.1) (change place)

theorem keepsApart_atLevels {α : Type} {change : Value → Except Fault (Value × α)}
    (hchange : KeepsApart change) (levels : List String) : KeepsApart (atLevels change levels) := by
  induction levels with
  | nil => exact hchange
  | cons level levels ih =>
      intro place hplace
      cases place with
      | scalar value => exact .error _
      | list items => exact .error _
      | table table =>
          rw [atLevels]
          refine (ih _ (hplace.memberOrEmpty level)).bind ?_
          intro result hresult
          exact .ok (hplace.set hresult level)

theorem gives_tableWithout (name : String) {place : Value} (hplace : KeysDistinct place) :
    Gives (fun table => KeysDistinct (.table table)) (tableWithout name place) := by
  cases place with
  | scalar value => exact .error _
  | list items => exact .error _
  | table table =>
      rw [tableWithout]
      split
      · exact .error _
      · exact .ok hplace

/-- A way to read values gives values without repeated keys. -/
def ReadsApart (read : ReadValue) : Prop := ∀ text proper, Gives KeysDistinct (read text proper)

variable {read : ReadValue}

theorem keepsApart_enter (hread : ReadsApart read) (line : List Char) :
    KeepsApart (enter read line) := by
  intro place hplace
  rw [enter]
  refine (Gives.anything _).bind ?_
  intro cut _
  refine (Gives.anything _).bind ?_
  rintro ⟨levels, name⟩ _
  refine keepsApart_atLevels ?_ levels place hplace
  intro place hplace
  refine (Gives.anything _).bind ?_
  intro opens _
  split
  · refine (Gives.anything _).bind ?_
    intro _ _
    split
    · exact .error _
    · exact .ok hplace
  · refine (hread _ _).bind ?_
    intro value hvalue
    refine (gives_tableWithout name hplace).bind ?_
    intro table htable
    exact .ok (htable.set hvalue name)

theorem gives_enterAll (hread : ReadsApart read) (entries : List (List Char)) {place : Value}
    (hplace : KeysDistinct place) : Gives KeysDistinct (enterAll read entries place) := by
  induction entries generalizing place with
  | nil => exact .ok hplace
  | cons entry entries ih =>
      rw [enterAll]
      refine (keepsApart_enter hread entry place hplace).bind ?_
      rintro ⟨place, rest⟩ hplace
      cases rest with
      | none => exact ih hplace
      | some entry => exact .ok hplace

theorem gives_inlineTable (hread : ReadsApart read) (text : List Char) {place : Value}
    (hplace : KeysDistinct place) : Gives KeysDistinct (inlineTable read text place) := by
  rw [inlineTable]
  refine (Gives.anything _).bind ?_
  intro entries _
  exact gives_enterAll hread entries hplace

/-! ## Values -/

theorem gives_readElements (hread : ReadsApart read) (kind : Option ValueKind)
    (texts : List (List Char)) :
    Gives (fun values => ∀ value ∈ values, KeysDistinct value) (readElements read kind texts) := by
  induction texts generalizing kind with
  | nil => exact .ok (by simp)
  | cons text texts ih =>
      rw [readElements]
      split
      · exact ih kind
      · refine (hread _ _).bind ?_
        intro value hvalue
        split
        · refine (ih _).bind ?_
          intro values hvalues
          exact .ok (List.forall_mem_cons.mpr ⟨hvalue, hvalues⟩)
        · exact .error _

theorem gives_array (hread : ReadsApart read) (text : List Char) :
    Gives KeysDistinct (array read text) := by
  rw [array]
  refine (Gives.anything _).bind ?_
  intro texts _
  refine (gives_readElements hread none texts).bind ?_
  intro values hvalues
  exact .ok (.list hvalues)

/-- Values nest, and what is nested is read with less room. -/
theorem readsApart_valueWithin (room : Nat) : ReadsApart (valueWithin room) := by
  induction room using Nat.strongRecOn with
  | ind room ih =>
      intro text proper
      match room with
      | 0 | 1 | 2 => exact .error _
      | room + 3 =>
          have hitems : ReadsApart (valueWithin (room + 1)) := ih (room + 1) (by omega)
          have hentries : ReadsApart (valueWithin room) := ih room (by omega)
          cases text with
          | nil => exact .error _
          | cons first rest =>
              rw [valueWithin]
              split
              · exact .ok (.scalar _)
              split
              · exact .ok (.scalar _)
              split
              · refine (Gives.anything _).map ?_
                intro chars _
                exact .scalar _
              split
              · exact gives_array hitems _
              split
              · exact gives_inlineTable hentries _ .empty
              · refine (Gives.anything _).map ?_
                intro plain _
                exact .scalar _

/-- The value of an entry has no key twice. -/
theorem keysDistinct_of_value : ReadsApart value := readsApart_valueWithin nestingRoom

/-! ## Headers -/

theorem keepsApart_alter {α : Type} {change : Value → Except Fault (Value × α)}
    (hchange : KeepsApart change) (steps : List Step) : KeepsApart (alter change steps) := by
  induction steps with
  | nil =>
      intro place hplace
      rw [alter]
      exact hchange place hplace
  | cons step steps ih =>
      intro place hplace
      rw [alter.eq_def]
      split
      · next heq => cases heq
      · next name others table heq =>
          cases heq
          split
          · exact .error _
          · next value hfound =>
              refine (ih value (hplace.member hfound)).bind ?_
              intro result hresult
              exact .ok (hplace.set hresult name)
      · next others items heq =>
          cases heq
          split
          · exact .error _
          · next item hlast =>
              refine (ih item (hplace.item (List.mem_of_getLast? hlast))).bind ?_
              intro result hresult
              exact .ok (hplace.replaceLast hresult)
      · exact .error _

/-- What a header is followed to keeps keys apart. -/
def FollowsApart (follow : Value → Except Fault Opened) : Prop :=
  ∀ value, KeysDistinct value → Gives (fun opened => KeysDistinct opened.value) (follow value)

variable {follow : Value → Except Fault Opened}

theorem gives_inLast (hfollow : FollowsApart follow) {items : List Value}
    (hitems : KeysDistinct (.list items)) :
    Gives (fun opened => KeysDistinct opened.value) (inLast items follow) := by
  rw [inLast]
  split
  · exact .error _
  · next item hlast =>
      refine (hfollow item (hitems.item (List.mem_of_getLast? hlast))).bind ?_
      intro opened hopened
      exact .ok (hitems.replaceLast hopened)

theorem gives_inMember (hfollow : FollowsApart follow) (adds : Bool) (name : String)
    {table : Table} (htable : KeysDistinct (.table table)) :
    Gives (fun opened => KeysDistinct opened.value) (inMember adds name table follow) := by
  have hmember := htable.memberOrEmpty name
  have hset : ∀ opened : Opened, KeysDistinct opened.value →
      Gives (fun opened => KeysDistinct opened.value) (.ok { opened with
        value := .table (Keyed.set name opened.value table)
        steps := .key name :: opened.steps }) := by
    intro opened hopened
    exact .ok (htable.set hopened name)
  -- However the member is reached, what it was followed to is set under its name in the end.
  unfold inMember
  dsimp only
  split
  · next items heq => exact (gives_inLast hfollow (heq ▸ hmember)).bind hset
  · split
    · exact .error _
    · exact (hfollow _ hmember).bind hset
  · exact .error _
  · exact (hfollow _ hmember).bind hset

theorem keysDistinct_newMember (adds : Bool) : KeysDistinct (newMember adds) := by
  cases adds with
  | true => exact .list (by simp [KeysDistinct.empty])
  | false => exact .empty

theorem gives_makeMember (adds isLast : Bool) (name : String) (implicit : List String)
    {table : Table} (htable : KeysDistinct (.table table)) :
    Gives (fun result => KeysDistinct (.table result.1))
      (makeMember adds isLast name implicit table) := by
  rw [makeMember]
  split
  · split
    · exact .ok (htable.set (keysDistinct_newMember adds) name)
    · exact .ok (htable.set .empty name)
  · next member hfound =>
      have hmember := htable.member hfound
      split
      · exact .ok htable
      split
      · split
        · exact .error _
        · exact .ok htable
      split
      · split
        · exact .ok (htable.set (hmember.concat .empty) name)
        · exact .error _
      · split <;> exact .error _

theorem keysDistinct_makeInItem (adds isLast : Bool) (name : String) {table : Table}
    (htable : KeysDistinct (.table table)) :
    KeysDistinct (.table (makeInItem adds isLast name table)) := by
  rw [makeInItem]
  split
  · exact htable
  · cases isLast with
    | true => exact htable.set (keysDistinct_newMember adds) name
    | false => exact htable.set .empty name

theorem followsApart_openTable (adds : Bool) (names implicit : List String) :
    FollowsApart (openTable adds names implicit) := by
  induction names generalizing implicit with
  | nil =>
      intro value hvalue
      rw [openTable]
      exact .ok hvalue
  | cons name names ih =>
      intro value hvalue
      unfold openTable
      split
      · exact .error _
      · split
        · refine (gives_makeMember adds names.isEmpty name implicit hvalue).bind ?_
          rintro ⟨table, implicit⟩ htable
          exact gives_inMember (ih implicit) adds name htable
        · refine gives_inLast ?_ hvalue
          intro item hitem
          dsimp only
          split
          · exact gives_inMember (ih implicit) adds name
              (keysDistinct_makeInItem adds names.isEmpty name hitem)
          · exact .error _
        · split <;> exact .error _
        · exact .error _

/-! ## Documents -/

namespace Reading

/-- No table of what has been read has a key twice. -/
def KeysDistinct (reading : Reading) : Prop := reading.root.KeysDistinct

variable {reading : Reading}

theorem gives_change {change : Value → Except Fault (Value × Option OpenEntry)}
    (h : reading.KeysDistinct) (hchange : KeepsApart change) :
    Gives KeysDistinct (reading.change change) := by
  rw [Reading.change]
  refine (keepsApart_alter hchange reading.steps reading.root h).bind ?_
  rintro ⟨root, openEntry⟩ hroot
  exact .ok hroot

theorem gives_continueEntry (h : reading.KeysDistinct) (entry : OpenEntry) (line : List Char) :
    Gives KeysDistinct (reading.continueEntry entry line) := by
  rw [continueEntry]
  refine (Gives.anything _).bind ?_
  intro closed _
  split
  · refine (keysDistinct_of_value _ _).bind ?_
    intro value hvalue
    refine gives_change h ?_
    intro place hplace
    dsimp only
    split
    · exact .ok (hplace.set hvalue _)
    · exact .error _
  · exact .ok h

theorem gives_statement (h : reading.KeysDistinct) (line : List Char) :
    Gives KeysDistinct (reading.statement line) := by
  rw [statement.eq_def]
  split
  · exact .ok h
  · split
    · refine (Gives.anything _).bind ?_
      intro header _
      refine (followsApart_openTable header.adds header.names reading.implicit _ h).bind ?_
      intro opened hopened
      exact .ok hopened
    split
    · split
      · refine gives_change h ?_
        intro place hplace
        refine (gives_inlineTable keysDistinct_of_value _ hplace).map ?_
        intro place hplace
        exact hplace
      · exact .error _
    split
    · exact gives_change h (keepsApart_enter keysDistinct_of_value _)
    · exact .ok h

theorem keysDistinct_of_line (h : reading.KeysDistinct) (line : List Char) :
    Gives KeysDistinct (reading.line line) := by
  rw [Reading.line]
  split
  · exact gives_statement h _
  · next entry _ =>
      have hrest : ∀ rest : List Char, Gives KeysDistinct
          (if rest.isEmpty && entry.continued then .ok reading
            else reading.continueEntry entry rest) := by
        intro rest
        split
        · exact .ok h
        · exact gives_continueEntry h entry rest
      exact hrest _

theorem keysDistinct_of_lines (h : reading.KeysDistinct) (lines : List (List Char)) :
    Gives KeysDistinct (lines.foldlM Reading.line reading) := by
  induction lines generalizing reading with
  | nil => exact .ok h
  | cons line lines ih =>
      rw [List.foldlM_cons]
      exact (keysDistinct_of_line h line).bind fun after hafter => ih hafter

end Reading

/-- No table of a configuration has a key twice. -/
theorem keysDistinct_of_parse (text : String) :
    Gives (fun table => KeysDistinct (.table table)) (parse text) := by
  have hnothing : Reading.KeysDistinct {} := KeysDistinct.empty
  rw [parse]
  refine (Gives.anything _).bind ?_
  intro lines _
  refine (Reading.keysDistinct_of_lines hnothing lines).bind ?_
  intro reading hreading
  split
  · next table hroot => exact .ok (hroot ▸ hreading)
  · exact .error _

end Toml

end Lineage

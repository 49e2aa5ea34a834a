import Lineage.Proofs.Export.JsonScanning

/-!
# Values read from a JSON text

The words of a text are read with a stack of the arrays and objects that are still open.  An object
may give the same name to several fields; all of them are kept, in their order.  Exports give each
name once, so that a reader that keeps only one field of a name reads the same from them.

## Main results

* `read_words`: the words of a value are read as the value.
* `decode?_render`: an exported value is read as it was, also with blanks behind it.
* `render_inj`: values that are exported alike are the same.
-/

namespace Lineage.Json

/-- An array or an object that is open, with what it has so far. -/
inductive Frame where
  | array (items : List Json)
  /-- An object whose next field has a name already. -/
  | object (fields : List (String × Json)) (name : String)

/-- What a reader of words waits for. -/
inductive Reading where
  | due (outer : List Frame)
  /-- The first item of an array, or its end. -/
  | dueItem (outer : List Frame)
  /-- The first field of an object, or its end. -/
  | dueField (outer : List Frame)
  /-- The name of a further field. -/
  | dueName (fields : List (String × Json)) (outer : List Frame)
  /-- The colon behind the name of a field. -/
  | dueColon (fields : List (String × Json)) (name : String) (outer : List Frame)
  /-- What may stand behind a value. -/
  | behind (value : Json) (outer : List Frame)

namespace Reading

/-- The effect of a word where a value is due. -/
def begin (outer : List Frame) : Word → Option Reading
  | .int value => some (behind (.int value) outer)
  | .text value => some (behind (.text value) outer)
  | .mark c =>
      if c = '[' then some (dueItem outer) else if c = '\x7b' then some (dueField outer) else none

/-- The effect of a word behind a value. -/
def finish (value : Json) : List Frame → Word → Option Reading
  | .array items :: outer, .mark c =>
      if c = ',' then some (due (.array (items ++ [value]) :: outer))
      else if c = ']' then some (behind (.array (items ++ [value])) outer)
      else none
  | .object fields name :: outer, .mark c =>
      if c = ',' then some (dueName (fields ++ [(name, value)]) outer)
      else if c = '\x7d' then some (behind (.object (fields ++ [(name, value)])) outer)
      else none
  | _, _ => none

/-- The effect of a word. -/
def step : Reading → Word → Option Reading
  | due outer, word => begin outer word
  | dueItem outer, word =>
      if word = .mark ']' then some (behind (.array []) outer)
      else begin (.array [] :: outer) word
  | dueField outer, .text name => some (dueColon [] name outer)
  | dueField outer, word => if word = .mark '\x7d' then some (behind (.object []) outer) else none
  | dueName fields outer, .text name => some (dueColon fields name outer)
  | dueName _ _, _ => none
  | dueColon fields name outer, word =>
      if word = .mark ':' then some (due (.object fields name :: outer)) else none
  | behind value outer, word => finish value outer word

/-- The value that has been read, if nothing is open. -/
def value? : Reading → Option Json
  | behind value [] => some value
  | _ => none

end Reading

/-- The value that a JSON text stands for. -/
def decode? (text : String) : Option Json := do
  let words ← scanFrom .between text.toList
  let reading ← words.foldlM Reading.step (.due [])
  reading.value?

/-! ## Reading the words of a value -/

section

variable {state next : Reading} {word : Word} {before after : List Word}

theorem read_cons (h : state.step word = some next) :
    (word :: after).foldlM Reading.step state = after.foldlM Reading.step next := by
  rw [List.foldlM_cons, h]
  rfl

theorem read_append (h : before.foldlM Reading.step state = some next) :
    (before ++ after).foldlM Reading.step state = after.foldlM Reading.step next := by
  rw [List.foldlM_append, h]
  rfl

end

/-- The words of a value do not start with the end of an array, so the first item is read as any
other. -/
theorem read_firstItem (value : Json) (outer : List Frame) :
    value.words.foldlM Reading.step (.dueItem outer) =
      value.words.foldlM Reading.step (.due (.array [] :: outer)) := by
  cases value with
  | int value => rfl
  | text value => rfl
  | array items => cases items <;> rfl
  | object fields => cases fields <;> rfl

/-- The first field is read as any other. -/
theorem read_firstField (field : String × Json) (outer : List Frame) :
    (wordsOfField field).foldlM Reading.step (.dueField outer) =
      (wordsOfField field).foldlM Reading.step (.dueName [] outer) := by
  obtain ⟨name, value⟩ := field
  rfl

mutual

/-- The words of a value are read as the value. -/
theorem read_words (value : Json) (outer : List Frame) :
    value.words.foldlM Reading.step (.due outer) = some (.behind value outer) := by
  match value with
  | int value => rfl
  | text value => rfl
  | array [] => rfl
  | array (item :: items) =>
      have hopen : Reading.step (.due outer) (.mark '[') = some (.dueItem outer) := rfl
      have hitem := read_words item (.array [] :: outer)
      rw [← read_firstItem] at hitem
      rw [words, read_cons hopen, read_append hitem]
      exact read_wordsOfItems items [] item outer
  | object [] => rfl
  | object (field :: fields) =>
      have hopen : Reading.step (.due outer) (.mark '\x7b') = some (.dueField outer) := rfl
      have hfield := read_wordsOfField field [] outer
      rw [← read_firstField] at hfield
      rw [words, read_cons hopen, read_append hfield]
      exact read_wordsOfFields fields [] field outer

/-- The further items of an array are read behind those that it has. -/
theorem read_wordsOfItems (items known : List Json) (last : Json) (outer : List Frame) :
    (wordsOfItems items ++ [Word.mark ']']).foldlM Reading.step
        (.behind last (.array known :: outer)) =
      some (.behind (.array (known ++ last :: items)) outer) := by
  match items with
  | [] => rfl
  | item :: items =>
      have hcomma : Reading.step (.behind last (.array known :: outer)) (.mark ',') =
          some (.due (.array (known ++ [last]) :: outer)) := rfl
      have hitem := read_words item (.array (known ++ [last]) :: outer)
      rw [wordsOfItems, List.cons_append, read_cons hcomma, List.append_assoc, read_append hitem,
        read_wordsOfItems items (known ++ [last]) item outer, List.append_assoc]
      rfl

theorem read_wordsOfField (field : String × Json) (known : List (String × Json))
    (outer : List Frame) :
    (wordsOfField field).foldlM Reading.step (.dueName known outer) =
      some (.behind field.2 (.object known field.1 :: outer)) := by
  match field with
  | (name, value) =>
      have hname : Reading.step (.dueName known outer) (.text name) =
          some (.dueColon known name outer) := rfl
      have hcolon : Reading.step (.dueColon known name outer) (.mark ':') =
          some (.due (.object known name :: outer)) := rfl
      rw [wordsOfField, read_cons hname, read_cons hcolon, read_words value]

/-- The further fields of an object are read behind those that it has. -/
theorem read_wordsOfFields (fields known : List (String × Json)) (last : String × Json)
    (outer : List Frame) :
    (wordsOfFields fields ++ [Word.mark '\x7d']).foldlM Reading.step
        (.behind last.2 (.object known last.1 :: outer)) =
      some (.behind (.object (known ++ last :: fields)) outer) := by
  match fields with
  | [] => rfl
  | field :: fields =>
      have hcomma : Reading.step (.behind last.2 (.object known last.1 :: outer)) (.mark ',') =
          some (.dueName (known ++ [last]) outer) := rfl
      have hfield := read_wordsOfField field (known ++ [last]) outer
      rw [wordsOfFields, List.cons_append, read_cons hcomma, List.append_assoc,
        read_append hfield, read_wordsOfFields fields (known ++ [last]) field outer,
        List.append_assoc]
      rfl

end

/-! ## Texts -/

/-- An exported value is read as it was, with any blanks behind it. -/
theorem decode?_of_blanks (value : Json) {level : Nat} {blanks : List Char}
    (h : ∀ c ∈ blanks, isBlank c = true) :
    decode? (String.ofList (value.write level ++ blanks)) = some value := by
  have hbreaks : BreaksOff blanks := fun c hc =>
    isDigit_eq_false_of_isBlank (h c (List.mem_of_head? hc))
  have hscan : scanFrom .between (value.write level ++ blanks) = some value.words := by
    have hblanks : scanFrom .between (blanks ++ []) = some [] := scanFrom_blanks h
    rw [List.append_nil] at hblanks
    rw [scanFrom_write level value hbreaks, hblanks, Option.map_some, List.append_nil]
  rw [decode?, String.toList_ofList, hscan]
  show ((value.words.foldlM Reading.step (.due [])).bind Reading.value?) = some value
  rw [read_words]
  rfl

/-- An exported value is read as it was. -/
theorem decode?_render (value : Json) : decode? value.render = some value := by
  have hread := @decode?_of_blanks value 0 [] (fun _ h => absurd h List.not_mem_nil)
  rwa [List.append_nil] at hread

/-- Texts in another layout are read as well, with escapes that exports do without. -/
example : decode? "\x7b\"a\\/\":[ \"\\u0041\",\n-7]\x7d\t" =
    some (.object [("a/", .array [.text "A", .int (-7)])]) := by rfl

/-- Values that are exported alike are the same. -/
theorem render_inj {value other : Json} : value.render = other.render ↔ value = other := by
  constructor
  · intro h
    have hread := decode?_render value
    rw [h, decode?_render] at hread
    exact (Option.some.inj hread).symm
  · rintro rfl
    rfl

end Lineage.Json

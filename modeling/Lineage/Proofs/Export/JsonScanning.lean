import Lineage.Export.Json

/-!
# The words of a JSON text

A reader of JSON first takes a text apart into its words: marks, integers and strings, with blanks
between them that mean nothing.  The characters are read one at a time.  A string is collected as
the UTF-16 units that its characters and escapes stand for, since a character beyond the first 65536
may be written as the escapes of two of them.  An integer ends with the first character that is no
digit, which is then read afresh.

The reader is one of JSON in general, with all its escapes and blanks, as far as there are values to
hold what it reads: it refuses texts with fractions, with `true`, `false` and `null`, and with
strings that are no sequences of characters.

## Main results

* `scanFrom_string`: an exported string is read as the string.
* `scanFrom_repr`: an exported integer is read as the integer, whatever stands behind it.
* `scanFrom_write`: an exported text is read as the words of its value.
-/

namespace Lineage.Json

/-- A word of a JSON text. -/
inductive Word where
  /-- A bracket, a brace, a comma or a colon. -/
  | mark (c : Char)
  | int (value : Int)
  | text (value : String)
  deriving Repr, DecidableEq

/-! ## UTF-16 -/

/-- The UTF-16 units of a character. -/
def units (c : Char) : List Nat :=
  if c.toNat < 0x10000 then [c.toNat]
  else [0xD800 + (c.toNat - 0x10000) / 0x400, 0xDC00 + (c.toNat - 0x10000) % 0x400]

/-- The characters of UTF-16 units, of which the first may belong to the unit before them.  A unit
of a pair does not stand alone. -/
def charsFrom? : (high : Option Nat) → (units : List Nat) → Option (List Char)
  | none, [] => some []
  | some _, [] => none
  | none, unit :: units =>
      if 0xD800 ≤ unit ∧ unit < 0xDC00 then charsFrom? (some unit) units
      else if 0xDC00 ≤ unit ∧ unit < 0xE000 then none
      else (charsFrom? none units).map (Char.ofNat unit :: ·)
  | some high, unit :: units =>
      if 0xDC00 ≤ unit ∧ unit < 0xE000 then
        (charsFrom? none units).map
          (Char.ofNat (0x10000 + (high - 0xD800) * 0x400 + (unit - 0xDC00)) :: ·)
      else none

theorem charsFrom?_units (c : Char) (rest : List Nat) :
    charsFrom? none (units c ++ rest) = (charsFrom? none rest).map (c :: ·) := by
  have hvalid : c.toNat < 0xD800 ∨ 0xDFFF < c.toNat ∧ c.toNat < 0x110000 := c.valid
  rw [units]
  split
  · next hsmall =>
      rw [List.singleton_append, charsFrom?, if_neg (by omega), if_neg (by omega),
        Char.ofNat_toNat]
  · next hlarge =>
      have hcode : 0x10000 + (0xD800 + (c.toNat - 0x10000) / 0x400 - 0xD800) * 0x400 +
          (0xDC00 + (c.toNat - 0x10000) % 0x400 - 0xDC00) = c.toNat := by omega
      show charsFrom? none (_ :: _ :: rest) = _
      rw [charsFrom?, if_pos (by omega), charsFrom?, if_pos (by omega), hcode, Char.ofNat_toNat]

theorem charsFrom?_flatMap_units (text : List Char) :
    charsFrom? none (text.flatMap units) = some text := by
  induction text with
  | nil => rfl
  | cons c text ih =>
      rw [List.flatMap_cons, charsFrom?_units, ih]
      rfl

/-! ## Scanning -/

/-- What a reader is in the middle of. -/
inductive Scanning where
  | between
  /-- Behind a minus sign. -/
  | sign
  /-- Behind digits. -/
  | numeral (negative : Bool) (value : Nat)
  /-- In a string, with the units of what precedes. -/
  | string (units : List Nat)
  /-- Behind a backslash. -/
  | escape (units : List Nat)
  /-- Before a hexadecimal digit of a unit, with the number of those that follow it and the value of
  those that precede. -/
  | code (units : List Nat) (following value : Nat)
  deriving Repr, DecidableEq

/-- A blank between words. -/
def isBlank (c : Char) : Bool := c = ' ' || c = '\t' || c = '\n' || c = '\r'

/-- A mark that is a word by itself. -/
def isMark (c : Char) : Bool :=
  c = '[' || c = ']' || c = '\x7b' || c = '\x7d' || c = ',' || c = ':'

/-- The value of a digit. -/
def digitValue (c : Char) : Nat := c.toNat - 0x30

/-- The integer of a sign and a value. -/
def signed (negative : Bool) (value : Nat) : Int := if negative then -value else value

/-- What the letter behind a backslash stands for. -/
def simpleEscape? (c : Char) : Option Char :=
  if c = '"' ∨ c = '\\' ∨ c = '/' then some c
  else if c = 'n' then some '\n'
  else if c = 'r' then some '\r'
  else if c = 't' then some '\t'
  else if c = 'f' then some '\x0c'
  else if c = 'b' then some '\x08'
  else none

/-- The words that are complete with a character between words, and what it starts. -/
def start (c : Char) : Option (List Word × Scanning) :=
  if isBlank c then some ([], .between)
  else if isMark c then some ([.mark c], .between)
  else if c = '"' then some ([], .string [])
  else if c = '-' then some ([], .sign)
  else if c.isDigit then some ([], .numeral false (digitValue c))
  else none

/-- The words that are complete before or with a character, and what the reader is in after it.
Digits do not follow a zero that they start with, and control characters do not stand in strings. -/
def step : Scanning → Char → Option (List Word × Scanning)
  | .between, c => start c
  | .sign, c => if c.isDigit then some ([], .numeral true (digitValue c)) else none
  | .numeral negative value, c =>
      if c.isDigit then
        if value = 0 then none else some ([], .numeral negative (value * 10 + digitValue c))
      else (start c).map fun (words, next) => (.int (signed negative value) :: words, next)
  | .string units, c =>
      if c = '"' then
        (charsFrom? none units).map fun text => ([.text (String.ofList text)], .between)
      else if c = '\\' then some ([], .escape units)
      else if c.toNat < 0x20 then none
      else some ([], .string (units ++ Json.units c))
  | .escape units, c =>
      if c = 'u' then some ([], .code units 3 0)
      else (simpleEscape? c).map fun c => ([], .string (units ++ Json.units c))
  | .code units following value, c =>
      (Text.hexValue? c).map fun digit =>
        match following with
        | 0 => ([], .string (units ++ [value * 16 + digit]))
        | following + 1 => ([], .code units following (value * 16 + digit))

/-- The words of a text, if it is one of words. -/
def scanFrom : Scanning → List Char → Option (List Word)
  | .between, [] => some []
  | .numeral negative value, [] => some [.int (signed negative value)]
  | _, [] => none
  | state, c :: rest =>
      (step state c).bind fun (words, next) => (scanFrom next rest).map (words ++ ·)

section

variable {state next : Scanning} {words : List Word} {c : Char} {rest : List Char}

theorem scanFrom_cons (h : step state c = some (words, next)) :
    scanFrom state (c :: rest) = (scanFrom next rest).map (words ++ ·) := by
  rw [scanFrom, h, Option.bind_some]

theorem scanFrom_silent (h : step state c = some ([], next)) :
    scanFrom state (c :: rest) = scanFrom next rest := by
  rw [scanFrom_cons h]
  exact Option.map_id'

/-! ## Blanks and marks -/

theorem scanFrom_blanks {blanks : List Char} (h : ∀ c ∈ blanks, isBlank c = true) :
    scanFrom .between (blanks ++ rest) = scanFrom .between rest := by
  induction blanks with
  | nil => rfl
  | cons c blanks ih =>
      have hc : step .between c = some ([], .between) := if_pos (h c List.mem_cons_self)
      rw [List.cons_append, scanFrom_silent hc, ih fun d hd => h d (List.mem_cons_of_mem c hd)]

theorem scanFrom_lineStart (level : Nat) :
    scanFrom .between (lineStart level ++ rest) = scanFrom .between rest := by
  refine scanFrom_blanks fun c hc => ?_
  rcases List.mem_cons.mp hc with rfl | hc
  · rfl
  · rw [List.eq_of_mem_replicate hc]
    rfl

theorem scanFrom_mark (h : step .between c = some ([.mark c], .between)) :
    scanFrom .between (c :: rest) = (scanFrom .between rest).map (.mark c :: ·) :=
  scanFrom_cons h

/-! ## Strings -/

theorem hexValue?_hexDigit {digit : Nat} (h : digit < 16) :
    Text.hexValue? (Text.hexDigit digit) = some digit := by
  have hdigits : ∀ digit < 16, Text.hexValue? (Text.hexDigit digit) = some digit := by decide
  exact hdigits digit h

theorem scanFrom_hexDigits (units : List Nat) (width following value read : Nat) :
    scanFrom (.code units (width + following) read) (Text.hexDigits width value ++ rest) =
      scanFrom (.code units following (read * Nat.pow 16 width + value % Nat.pow 16 width))
        rest := by
  induction width generalizing following value rest with
  | zero =>
      have hpower : Nat.pow 16 0 = 1 := rfl
      rw [Text.hexDigits, Nat.zero_add, List.nil_append, hpower, Nat.mul_one, Nat.mod_one,
        Nat.add_zero]
  | succ width ih =>
      have hdigit : Text.hexValue? (Text.hexDigit (value % 16)) = some (value % 16) :=
        hexValue?_hexDigit (Nat.mod_lt value (by decide))
      have hstep (read : Nat) :
          step (.code units (following + 1) read) (Text.hexDigit (value % 16)) =
            some ([], .code units following (read * 16 + value % 16)) := by
        rw [step, hdigit]
        rfl
      have hpower : Nat.pow 16 (width + 1) = 16 * Nat.pow 16 width := Nat.pow_succ'
      have hvalue : (read * Nat.pow 16 width + value / 16 % Nat.pow 16 width) * 16 + value % 16 =
          read * Nat.pow 16 (width + 1) + value % Nat.pow 16 (width + 1) := by
        rw [hpower, Nat.mod_mul, ← Nat.mul_assoc, Nat.mul_right_comm]
        omega
      have hcount : width + 1 + following = width + (following + 1) := by omega
      rw [Text.hexDigits, List.append_assoc, hcount, ih, List.singleton_append,
        scanFrom_silent (hstep _), hvalue]

theorem scanFrom_unitEscape (units : List Nat) {unit : Nat} (h : unit < 0x10000) :
    scanFrom (.string units) (unitEscape unit ++ rest) =
      scanFrom (.string (units ++ [unit])) rest := by
  have hbackslash : step (.string units) '\\' = some ([], .escape units) := rfl
  have hmark : step (.escape units) 'u' = some ([], .code units 3 0) := rfl
  have hdigit : Text.hexValue? (Text.hexDigit (unit % 16)) = some (unit % 16) :=
    hexValue?_hexDigit (Nat.mod_lt unit (by decide))
  have hlast : step (.code units 0 (unit / 16)) (Text.hexDigit (unit % 16)) =
      some ([], .string (units ++ [unit / 16 * 16 + unit % 16])) := by
    rw [step, hdigit]
    rfl
  have hvalue : 0 * Nat.pow 16 3 + unit / 16 % Nat.pow 16 3 = unit / 16 := by
    have hpower : Nat.pow 16 3 = 4096 := by decide
    rw [hpower]
    omega
  have hunit : unit / 16 * 16 + unit % 16 = unit := Nat.div_add_mod' unit 16
  rw [unitEscape, List.cons_append, scanFrom_silent hbackslash, List.cons_append,
    scanFrom_silent hmark, Text.hexDigits, List.append_assoc, scanFrom_hexDigits units 3 0,
    List.singleton_append, hvalue, scanFrom_silent hlast, hunit]

/-- An escaped character is read as its units. -/
theorem scanFrom_escapeChar (units : List Nat) (c : Char) :
    scanFrom (.string units) (escapeChar c ++ rest) =
      scanFrom (.string (units ++ Json.units c)) rest := by
  have hbackslash : step (.string units) '\\' = some ([], .escape units) := rfl
  have hsimple {c letter : Char} (h : step (.escape units) letter =
      some ([], .string (units ++ Json.units c))) :
      scanFrom (.string units) (['\\', letter] ++ rest) =
        scanFrom (.string (units ++ Json.units c)) rest := by
    rw [List.cons_append, scanFrom_silent hbackslash, List.singleton_append, scanFrom_silent h]
  rw [escapeChar]
  split
  · next hquoted =>
      rcases hquoted with rfl | rfl
      · exact hsimple rfl
      · exact hsimple rfl
  split
  · next hchar =>
      subst hchar
      exact hsimple rfl
  split
  · next hchar =>
      subst hchar
      exact hsimple rfl
  split
  · next hchar =>
      subst hchar
      exact hsimple rfl
  split
  · next hchar =>
      subst hchar
      exact hsimple rfl
  split
  · next hchar =>
      subst hchar
      exact hsimple rfl
  split
  · next hquoted _ _ _ _ _ hplain =>
      rw [not_or] at hquoted
      have hstep : step (.string units) c = some ([], .string (units ++ Json.units c)) := by
        rw [step, if_neg hquoted.1, if_neg hquoted.2, if_neg (by omega)]
      rw [List.singleton_append, scanFrom_silent hstep]
  split
  · next hsmall =>
      have hunits : Json.units c = [c.toNat] := if_pos hsmall
      rw [hunits, scanFrom_unitEscape units hsmall]
  · next hlarge =>
      have hvalid : c.toNat < 0xD800 ∨ 0xDFFF < c.toNat ∧ c.toNat < 0x110000 := c.valid
      have hunits : Json.units c = [0xD800 + (c.toNat - 0x10000) / 0x400] ++
          [0xDC00 + (c.toNat - 0x10000) % 0x400] := if_neg hlarge
      rw [hunits, List.append_assoc, scanFrom_unitEscape units (by omega),
        scanFrom_unitEscape _ (by omega), List.append_assoc]

theorem scanFrom_escaped (units : List Nat) (text : List Char) :
    scanFrom (.string units) (text.flatMap escapeChar ++ rest) =
      scanFrom (.string (units ++ text.flatMap Json.units)) rest := by
  induction text generalizing units with
  | nil => rw [List.flatMap_nil, List.flatMap_nil, List.append_nil, List.nil_append]
  | cons c text ih =>
      rw [List.flatMap_cons, List.flatMap_cons, List.append_assoc, scanFrom_escapeChar, ih,
        List.append_assoc]

/-- An exported string is read as the string. -/
theorem scanFrom_string (text : String) :
    scanFrom .between (string text ++ rest) = (scanFrom .between rest).map (.text text :: ·) := by
  have hopen : step .between '"' = some ([], .string []) := rfl
  have hclose : step (.string (text.toList.flatMap units)) '"' =
      some ([.text text], .between) := by
    rw [step, if_pos rfl, charsFrom?_flatMap_units, Option.map_some, String.ofList_toList]
  rw [string, List.cons_append, List.cons_append, scanFrom_silent hopen, List.append_assoc,
    scanFrom_escaped, List.nil_append, List.singleton_append, scanFrom_cons hclose]
  rfl

/-! ## Integers -/

/-- A text that does not go on with a digit. -/
def BreaksOff (rest : List Char) : Prop := ∀ c ∈ rest.head?, c.isDigit = false

theorem isDigit_eq_false_of_isBlank {c : Char} (h : isBlank c = true) : c.isDigit = false := by
  simp only [isBlank, Bool.or_eq_true, decide_eq_true_eq] at h
  obtain ((rfl | rfl) | rfl) | rfl := h <;> rfl

theorem digitValue_digitChar {digit : Nat} (h : digit < 10) : digitValue digit.digitChar = digit :=
  Nat.toNat_digitChar_sub_48_of_lt_ten h

theorem isDigit_digitChar_of_lt {digit : Nat} (h : digit < 10) :
    digit.digitChar.isDigit = true := by
  rw [Nat.isDigit_digitChar]
  exact decide_eq_true h

/-- Where digits can start they can go on. -/
theorem scanFrom_toDigits {negative : Bool}
    (hstart : ∀ digit < 10, step state digit.digitChar = some ([], .numeral negative digit))
    (n : Nat) :
    scanFrom state (Nat.toDigits 10 n ++ rest) = scanFrom (.numeral negative n) rest := by
  induction n using Nat.strongRecOn generalizing rest with
  | ind n ih =>
      by_cases hsmall : n < 10
      · rw [Nat.toDigits_of_lt_base hsmall, List.singleton_append,
          scanFrom_silent (hstart n hsmall)]
      · have hdigit : n % 10 < 10 := Nat.mod_lt n (by decide)
        have hmore : step (.numeral negative (n / 10)) (n % 10).digitChar =
            some ([], .numeral negative (n / 10 * 10 + n % 10)) := by
          rw [step, if_pos (isDigit_digitChar_of_lt hdigit), if_neg (by omega),
            digitValue_digitChar hdigit]
        have hvalue : n / 10 * 10 + n % 10 = n := by omega
        rw [Nat.toDigits_of_base_le (by decide) (by omega), List.append_assoc,
          ih (n / 10) (by omega), List.singleton_append, scanFrom_silent hmore, hvalue]

theorem scanFrom_numeral (negative : Bool) (n : Nat) (h : BreaksOff rest) :
    scanFrom (.numeral negative n) rest =
      (scanFrom .between rest).map (.int (signed negative n) :: ·) := by
  cases rest with
  | nil => rfl
  | cons c rest =>
      have hdigit : c.isDigit = false := h c rfl
      have hstep : step (.numeral negative n) c =
          (start c).map fun (words, next) => (.int (signed negative n) :: words, next) :=
        if_neg (by simp [hdigit])
      rw [scanFrom, scanFrom, hstep, step]
      cases start c with
      | none => rfl
      | some started =>
          show (scanFrom started.2 rest).map _ = ((scanFrom started.2 rest).map _).map _
          rw [Option.map_map]
          rfl

/-- An exported integer is read as the integer. -/
theorem scanFrom_repr (value : Int) (h : BreaksOff rest) :
    scanFrom .between (value.repr.toList ++ rest) =
      (scanFrom .between rest).map (.int value :: ·) := by
  rw [Int.repr_eq_if]
  split
  · next hpositive =>
      have hstart : ∀ digit < 10, step .between digit.digitChar =
          some ([], .numeral false digit) := by decide
      have hvalue : signed false value.toNat = value := Int.toNat_of_nonneg hpositive
      rw [Nat.toList_repr, scanFrom_toDigits hstart, scanFrom_numeral false _ h, hvalue]
  · next hnegative =>
      have hminus : step .between '-' = some ([], .sign) := rfl
      have hstart : ∀ digit < 10, step .sign digit.digitChar =
          some ([], .numeral true digit) := by decide
      have hvalue : signed true (-value).toNat = value := by
        rw [signed, if_pos rfl]
        omega
      rw [String.toList_append, List.append_assoc]
      show scanFrom .between ('-' :: ((-value).toNat.repr.toList ++ rest)) = _
      rw [scanFrom_silent hminus, Nat.toList_repr, scanFrom_toDigits hstart,
        scanFrom_numeral true _ h, hvalue]

end

/-! ## Values -/

mutual

/-- The words of a value. -/
def words : Json → List Word
  | int value => [.int value]
  | text value => [.text value]
  | array [] => [.mark '[', .mark ']']
  | array (item :: items) =>
      .mark '[' :: (words item ++ (wordsOfItems items ++ [.mark ']']))
  | object [] => [.mark '\x7b', .mark '\x7d']
  | object (field :: fields) =>
      .mark '\x7b' :: (wordsOfField field ++ (wordsOfFields fields ++ [.mark '\x7d']))

/-- The words of the items of an array after the first one. -/
def wordsOfItems : List Json → List Word
  | [] => []
  | item :: items => .mark ',' :: (words item ++ wordsOfItems items)

/-- The words of a name and its value. -/
def wordsOfField : String × Json → List Word
  | (name, value) => .text name :: .mark ':' :: words value

/-- The words of the fields of an object after the first one. -/
def wordsOfFields : List (String × Json) → List Word
  | [] => []
  | field :: fields => .mark ',' :: (wordsOfField field ++ wordsOfFields fields)

end

theorem breaksOff_lineStart (level : Nat) (rest : List Char) :
    BreaksOff (lineStart level ++ rest) := by
  intro c hc
  cases hc
  rfl

theorem breaksOff_writeItems {rest : List Char} (h : BreaksOff rest) (level : Nat)
    (items : List Json) : BreaksOff (writeItems level items ++ rest) := by
  cases items with
  | nil =>
      rw [writeItems]
      exact h
  | cons item items =>
      rw [writeItems]
      intro c hc
      cases hc
      rfl

theorem breaksOff_writeFields {rest : List Char} (h : BreaksOff rest) (level : Nat)
    (fields : List (String × Json)) : BreaksOff (writeFields level fields ++ rest) := by
  cases fields with
  | nil =>
      rw [writeFields]
      exact h
  | cons field fields =>
      rw [writeFields]
      intro c hc
      cases hc
      rfl

mutual

/-- An exported value is read as its words. -/
theorem scanFrom_write (level : Nat) (value : Json) {rest : List Char} (h : BreaksOff rest) :
    scanFrom .between (value.write level ++ rest) =
      (scanFrom .between rest).map (value.words ++ ·) := by
  match value with
  | int value =>
      rw [write, words, scanFrom_repr value h]
      rfl
  | text value =>
      rw [write, words, scanFrom_string]
      rfl
  | array [] =>
      rw [write, words]
      show scanFrom .between ('[' :: ']' :: rest) = _
      rw [scanFrom_mark rfl, scanFrom_mark rfl, Option.map_map]
      rfl
  | array (item :: items) =>
      have hclose := breaksOff_lineStart level (']' :: rest)
      have hitems := breaksOff_writeItems hclose (level + 1) items
      rw [write, words]
      simp only [List.append_assoc, List.cons_append, List.nil_append]
      rw [scanFrom_mark rfl, scanFrom_lineStart, scanFrom_write (level + 1) item hitems,
        scanFrom_writeItems (level + 1) items hclose, scanFrom_lineStart, scanFrom_mark rfl]
      simp only [Option.map_map, Function.comp_def]
  | object [] =>
      rw [write, words]
      show scanFrom .between ('\x7b' :: '\x7d' :: rest) = _
      rw [scanFrom_mark rfl, scanFrom_mark rfl, Option.map_map]
      rfl
  | object (field :: fields) =>
      have hclose := breaksOff_lineStart level ('\x7d' :: rest)
      have hfields := breaksOff_writeFields hclose (level + 1) fields
      rw [write, words]
      simp only [List.append_assoc, List.cons_append, List.nil_append]
      rw [scanFrom_mark rfl, scanFrom_lineStart, scanFrom_writeField (level + 1) field hfields,
        scanFrom_writeFields (level + 1) fields hclose, scanFrom_lineStart, scanFrom_mark rfl]
      simp only [Option.map_map, Function.comp_def]

theorem scanFrom_writeItems (level : Nat) (items : List Json) {rest : List Char}
    (h : BreaksOff rest) :
    scanFrom .between (writeItems level items ++ rest) =
      (scanFrom .between rest).map (wordsOfItems items ++ ·) := by
  match items with
  | [] =>
      rw [writeItems, wordsOfItems]
      exact Option.map_id'.symm
  | item :: items =>
      have hitems := breaksOff_writeItems h level items
      rw [writeItems, wordsOfItems]
      simp only [List.append_assoc, List.cons_append]
      rw [scanFrom_mark rfl, scanFrom_lineStart, scanFrom_write level item hitems,
        scanFrom_writeItems level items h]
      simp only [Option.map_map, Function.comp_def]

theorem scanFrom_writeField (level : Nat) (field : String × Json) {rest : List Char}
    (h : BreaksOff rest) :
    scanFrom .between (writeField level field ++ rest) =
      (scanFrom .between rest).map (wordsOfField field ++ ·) := by
  match field with
  | (name, value) =>
      have hblank : step .between ' ' = some ([], .between) := rfl
      rw [writeField, wordsOfField]
      simp only [List.append_assoc, List.cons_append]
      rw [scanFrom_string, scanFrom_mark rfl, scanFrom_silent hblank, scanFrom_write level value h]
      simp only [Option.map_map, Function.comp_def]

theorem scanFrom_writeFields (level : Nat) (fields : List (String × Json)) {rest : List Char}
    (h : BreaksOff rest) :
    scanFrom .between (writeFields level fields ++ rest) =
      (scanFrom .between rest).map (wordsOfFields fields ++ ·) := by
  match fields with
  | [] =>
      rw [writeFields, wordsOfFields]
      exact Option.map_id'.symm
  | field :: fields =>
      have hfields := breaksOff_writeFields h level fields
      rw [writeFields, wordsOfFields]
      simp only [List.append_assoc, List.cons_append]
      rw [scanFrom_mark rfl, scanFrom_lineStart, scanFrom_writeField level field hfields,
        scanFrom_writeFields level fields h]
      simp only [Option.map_map, Function.comp_def]

end

end Lineage.Json

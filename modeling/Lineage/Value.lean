import Lineage.Keyed
import Lineage.Text.Quoted

/-!
# Configuration values

What a configuration can hold: scalars, lists and tables. Tables keep the order in which their
entries were made. Settings that expect a text take any value by its written form, and settings that
expect several texts take any value that has members.

Numbers with a fraction, dates and times are of no use to any setting. A configuration holds them
for others, and no more is known of them than what becomes visible: their forms, their truth value
and which of them are equal.
-/

namespace Lineage

/-- What tells scalars apart as members of a set. Truth values count as zero and one, and every
number that is whole counts as an integer. -/
inductive Key where
  | null
  | number (value : Int)
  | text (value : String)
  | measure (mark : String)
  deriving Repr, DecidableEq

/-- The kinds of measures, which an array does not mix. -/
inductive Measure.Kind where
  /-- A number with a fraction or an exponent, an infinity, or what is not a number. -/
  | fraction
  /-- A day, or a point of time. -/
  | date
  /-- A time of any day. -/
  | time
  deriving Repr, DecidableEq

/--
A number with a fraction, a date or a time. A point of time that is a day or more ahead of universal
time, or behind it, has no written form, and cannot be told apart from others.
-/
structure Measure where
  kind : Measure.Kind
  written? : Option String
  /-- The form as a part of a larger value. -/
  inner : String
  /-- The truth value. -/
  isGiven : Bool
  key : Key
  written_ne_empty : written? ≠ some ""
  deriving Repr, DecidableEq

/-- The measure that some characters are the written form of. -/
def Measure.ofChars (kind : Measure.Kind) (chars : List Char) (inner : String) (isGiven : Bool)
    (key : Key) (h : chars ≠ []) : Measure where
  kind := kind
  written? := some (String.ofList chars)
  inner := inner
  isGiven := isGiven
  key := key
  written_ne_empty := by
    intro hempty
    exact h (String.ofList_inj.mp (Option.some.inj hempty))

/-- A value without parts. -/
inductive Scalar where
  | null
  | bool (value : Bool)
  | int (value : Int)
  | text (value : String)
  | measure (value : Measure)
  deriving Repr, DecidableEq

/-- A configuration value. -/
inductive Value where
  | scalar (value : Scalar)
  | list (items : List Value)
  | table (entries : List (String × Value))
  deriving Inhabited

/-- Named values in the order in which they were entered. -/
abbrev Table := Keyed String Value

namespace Scalar

/-- What tells a scalar apart as a member of a set. -/
def key : Scalar → Key
  | null => .null
  | bool value => .number (if value then 1 else 0)
  | int value => .number value
  | text value => .text value
  | measure value => value.key

/-- The scalar can be a member of a set. -/
def isMember : Scalar → Bool
  | measure value => value.written?.isSome
  | _ => true

/-- The number of digits up to which integers are written out. -/
def digitLimit : Nat := 4300

/-- The written form, which an integer of too many digits does not have, and not every measure. -/
def written? : Scalar → Option String
  | null => some "None"
  | bool true => some "True"
  | bool false => some "False"
  | int value => if value.natAbs < Nat.pow 10 digitLimit then some value.repr else none
  | text value => some value
  | measure value => value.written?

/-- The form as a part of a larger value, where texts stand in quotes. -/
def inner? : Scalar → Option String
  | text value => some (Text.quoted value)
  | measure value => some value.inner
  | scalar => scalar.written?

end Scalar

namespace Value

mutual

/-- The form of a value as a part of a larger one. -/
def inner? : Value → Option String
  | scalar value => value.inner?
  | list items => (innerItems? items).map fun forms => "[" ++ ", ".intercalate forms ++ "]"
  | table entries =>
      (innerEntries? entries).map fun forms => "\x7b" ++ ", ".intercalate forms ++ "\x7d"

/-- The forms of the members of a list. -/
def innerItems? : List Value → Option (List String)
  | [] => some []
  | item :: items => do
      let form ← inner? item
      let forms ← innerItems? items
      return form :: forms

/-- The forms of the entries of a table. -/
def innerEntries? : List (String × Value) → Option (List String)
  | [] => some []
  | (key, value) :: entries => do
      let form ← inner? value
      let forms ← innerEntries? entries
      return (Text.quoted key ++ ": " ++ form) :: forms

end

/-- The written form, which a value does not have if a scalar in it has none. -/
def written? : Value → Option String
  | scalar value => value.written?
  | value => value.inner?

/-- A value that a setting takes as given: neither null, false nor zero, and not empty. -/
def isGiven : Value → Bool
  | scalar .null => false
  | scalar (.bool value) => value
  | scalar (.int value) => value != 0
  | scalar (.text value) => !value.isEmpty
  | scalar (.measure value) => value.isGiven
  | list items => !items.isEmpty
  | table entries => !entries.isEmpty

/-- The members of a value: the items of a list, the keys of a table, the characters of a text. -/
def members? : Value → Option (List Value)
  | scalar (.text value) => some (value.toList.map fun c => scalar (.text c.toString))
  | scalar _ => none
  | list items => some items
  | table entries => some (entries.map fun entry => scalar (.text entry.1))

end Value

end Lineage

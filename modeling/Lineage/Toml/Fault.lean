/-!
# Why a configuration text cannot be read or written

Most texts that are no configuration are refused as malformed. A few break off where the reader
needs another character, go on as if a value were a table or an array that is none, or ask for what
does not exist; these are told apart because only malformed texts are passed over when the
configuration is loaded.
-/

namespace Lineage.Toml

/-- Why a text cannot be read, or a table cannot be written. -/
inductive Fault where
  | malformed
  /-- The text ends, or a value is empty, where a character must follow. -/
  | cutShort
  /-- A key leads into a value that is no table. -/
  | notTable
  /-- A table is to be added to a value that is no array. -/
  | notArray
  /-- Arrays and inline tables are nested too deep. -/
  | tooDeep
  /-- An escape gives a number of 2³¹ or more for a character. -/
  | codeTooLarge
  /-- The fraction in a point of time is too large to be brought to millionths. -/
  | fractionTooLarge
  /-- A string that goes on in the following lines is to be entered under an empty key. -/
  | unnamed
  /-- A value to be written out has no written form. -/
  | noForm
  /-- A table to be written has a key that is no text; it is given in its written form. -/
  | keyNotText (key : String)
  deriving Repr, DecidableEq

end Lineage.Toml

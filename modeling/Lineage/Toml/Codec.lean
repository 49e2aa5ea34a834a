import Lineage.Toml.Distinct
import Lineage.Toml.Printer

/-!
# Codecs of configuration texts

The program leaves it to others to read and to write configuration texts. Whatever it is taken to do
with its configuration holds for any reader and any writer of which two things are known: an empty
text is an empty configuration, and a configuration that is read has no key twice. Nothing is said
of how the two fit together; where that matters it is asked for of the configurations in question.

The codec that the program runs with is one of them.
-/

namespace Lineage.Toml

/-- A reader and a writer of configuration texts. -/
structure Codec where
  parse : String → Except Fault Table
  print : Draft → Except Fault String
  parse_empty : parse "" = .ok []
  keysDistinct_of_parse : ∀ text table, parse text = .ok table → Value.KeysDistinct (.table table)

/-- The codec by which configurations are read and written. -/
def codec : Codec where
  parse := parse
  print := print
  parse_empty := rfl
  keysDistinct_of_parse := keysDistinct_of_parse

end Lineage.Toml

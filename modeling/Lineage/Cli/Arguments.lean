import Lineage.Keyed
import Lineage.Text.Basic

/-!
# Arguments

The arguments of a command are options and operands. An argument that starts with a dash and goes on
names options: one by its long name, perhaps with a value after an equals sign, or several by their
letters, where the first that takes a value takes what is left of the argument. A value that is not
in the argument itself is the next argument, whatever it looks like. Two dashes alone end the
options, a dash alone is an operand.

When an option is given twice the last value counts, in the place of the first.

## Main results

* `parse_operands`: arguments that name no options are the operands, whatever the grammar.
* `parse_dashes`: after two dashes everything is an operand.
-/

namespace Lineage.Cli

/--
The options of all commands. Two more options could stand before every command, to install the
completion of command lines in a shell and to show it. They come with the library that takes command
lines apart, do nothing that the program is for, and are left out here: they count as unknown.
-/
inductive Opt where
  | help
  | version
  | verbose
  | root
  | json
  | paths
  | selection
  | format
  | output
  /-- The home of imported components. -/
  | home
  deriving Repr, DecidableEq

namespace Opt

/-- The long name. -/
def long : Opt → String
  | help => "--help"
  | version => "--version"
  | verbose => "--verbose"
  | root => "--root"
  | json => "--json"
  | paths => "--paths"
  | selection => "--selection"
  | format => "--format"
  | output => "--output"
  | home => "--namespace"

/-- The letter that stands for the option. -/
def letter? : Opt → Option Char
  | help | json | home => none
  | version => some 'v'
  | verbose => some 'V'
  | root => some 'r'
  | paths => some 'p'
  | selection => some 's'
  | format => some 'f'
  | output => some 'o'

/-- The option takes a value; one that takes none is either given or not. -/
def takesValue : Opt → Bool
  | root | selection | format | output | home => true
  | help | version | verbose | json | paths => false

end Opt

/-- Why a list of arguments is none that a command takes. -/
inductive ArgumentError where
  /-- The command has no option of that name or letter. -/
  | unknownOption (name : String)
  | missingValue (option : Opt)
  /-- A value is given to an option that takes none. -/
  | unexpectedValue (option : Opt)
  deriving Repr, DecidableEq

/-- What arguments a command takes. -/
structure Grammar where
  options : List Opt
  /-- Options may still follow an operand. -/
  mixed : Bool

/-- Arguments taken apart. -/
structure Arguments where
  /-- The options given, with their values; those without a value have the empty text. -/
  options : Keyed Opt String := []
  operands : List String := []
  deriving Repr, DecidableEq

/-- The options that one argument names. -/
structure Mention where
  /-- Options that need no more than the argument itself. -/
  given : List (Opt × String) := []
  /-- An option that takes the next argument as its value. -/
  awaiting : Option Opt := none

namespace Grammar

/-- The argument names options. -/
def isMention : List Char → Bool
  | '-' :: _ :: _ => true
  | _ => false

/-- The option of a long name. -/
def ofLong? (grammar : Grammar) (name : List Char) : Option Opt :=
  grammar.options.find? fun option => option.long.toList = name

/-- The option of a letter. -/
def ofLetter? (grammar : Grammar) (letter : Char) : Option Opt :=
  grammar.options.find? fun option => option.letter? = some letter

/-- The options named by letters. -/
def letters (grammar : Grammar) : List Char → Except ArgumentError Mention
  | [] => .ok {}
  | letter :: rest =>
      match grammar.ofLetter? letter with
      | none => .error (.unknownOption (String.ofList ['-', letter]))
      | some option =>
          if option.takesValue then
            if rest.isEmpty then .ok ⟨[], some option⟩
            else .ok ⟨[(option, String.ofList rest)], none⟩
          else
            (grammar.letters rest).map fun mention =>
              { mention with given := (option, "") :: mention.given }

/-- The text at its first equals sign. -/
def splitAtEquals (text : List Char) : List Char × Option (List Char) :=
  match text.dropWhile (· ≠ '=') with
  | [] => (text, none)
  | _equals :: value => (text.takeWhile (· ≠ '='), some value)

/-- The option of a long name with the value, if any, that stands in the same argument. -/
def longOption (option : Opt) (value : Option (List Char)) : Except ArgumentError Mention :=
  match option.takesValue, value with
  | true, some value => .ok ⟨[(option, String.ofList value)], none⟩
  | true, none => .ok ⟨[], some option⟩
  | false, some _ => .error (.unexpectedValue option)
  | false, none => .ok ⟨[(option, "")], none⟩

/-- The options that an argument names: by a long name if it is one, else by letters. -/
def mention (grammar : Grammar) (text : List Char) : Except ArgumentError Mention :=
  let (name, value) := splitAtEquals text
  match grammar.ofLong? name with
  | some option => longOption option value
  | none =>
      match text with
      | '-' :: '-' :: _ => .error (.unknownOption (String.ofList name))
      | _ => grammar.letters text.tail

/-- Options given in the order of the arguments, and the operands. -/
abbrev Sorted := List (Opt × String) × List String

/-- Takes arguments apart, keeping every option as often as it is given. -/
def sort (grammar : Grammar) : List String → Except ArgumentError Sorted
  | [] => .ok ([], [])
  | argument :: rest =>
      if argument = "--" then .ok ([], rest)
      else if isMention argument.toList then
        match grammar.mention argument.toList with
        | .error error => .error error
        | .ok ⟨given, none⟩ => (grammar.sort rest).map fun (options, operands) =>
            (given ++ options, operands)
        | .ok ⟨given, some option⟩ =>
            match rest with
            | [] => .error (.missingValue option)
            | value :: rest => (grammar.sort rest).map fun (options, operands) =>
                (given ++ (option, value) :: options, operands)
      else if grammar.mixed then
        (grammar.sort rest).map fun (options, operands) => (options, argument :: operands)
      else .ok ([], argument :: rest)

/-- Takes arguments apart. -/
def parse (grammar : Grammar) (arguments : List String) : Except ArgumentError Arguments :=
  (grammar.sort arguments).map fun (options, operands) => ⟨Keyed.update [] options, operands⟩

theorem sort_operands {grammar : Grammar} {arguments : List String}
    (plain : ∀ argument ∈ arguments, isMention argument.toList = false ∧ argument ≠ "--") :
    grammar.sort arguments = .ok ([], arguments) := by
  induction arguments with
  | nil => rfl
  | cons argument rest ih =>
      obtain ⟨noMention, noDashes⟩ := plain argument List.mem_cons_self
      have others := ih fun argument member => plain argument (List.mem_cons_of_mem _ member)
      rw [sort, if_neg noDashes, noMention]
      cases grammar.mixed <;> simp [others, Except.map]

theorem parse_operands {grammar : Grammar} {arguments : List String}
    (plain : ∀ argument ∈ arguments, isMention argument.toList = false ∧ argument ≠ "--") :
    grammar.parse arguments = .ok ⟨[], arguments⟩ := by
  simp [parse, sort_operands plain, Except.map, Keyed.update]

theorem parse_dashes (grammar : Grammar) (arguments : List String) :
    grammar.parse ("--" :: arguments) = .ok ⟨[], arguments⟩ := by
  simp [parse, sort, Except.map, Keyed.update]

end Grammar

namespace Arguments

/-- The option is given. -/
def has (arguments : Arguments) (option : Opt) : Bool :=
  (arguments.options.get? option).isSome

/-- The value of an option. -/
def value? (arguments : Arguments) (option : Opt) : Option String :=
  arguments.options.get? option

/-- The first of some options that is given. -/
def firstOf (arguments : Arguments) (options : List Opt) : Option Opt :=
  (arguments.options.map Prod.fst).find? fun option => options.contains option

end Arguments

end Lineage.Cli

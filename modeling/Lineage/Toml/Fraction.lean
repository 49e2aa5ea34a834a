import Lineage.Toml.Literal

/-!
# Numbers with a fraction

A number with a fraction or an exponent stands for the nearest binary number of 64 bits, or for an
infinity if that is out of range. It is written with the fewest digits that still stand for it, the
nearest of these if there are several. A zero has no sign.
-/

namespace Lineage.Toml

open Float.Model (UnpackedFloat totalExponent)

/-- A binary number: its mantissa and its exponent of two. -/
abbrev Binary := Nat × Int

/-- The binary number nearest to some digits with an exponent of ten, if there is one in range. -/
def nearest? (digits : Nat) (exponent : Int) : Option Binary :=
  match UnpackedFloat.ofScientific .binary64 digits exponent with
  | .zero _ => some (0, 0)
  | .finite _ mantissa exponent _ =>
      if totalExponent mantissa exponent ≤ 1024 then some (mantissa, exponent) else none
  | _ => none

/-- A binary number times a power of ten, as a numerator and a denominator. -/
def scaled (number : Binary) (power : Int) : Nat × Nat :=
  (number.1 * Nat.pow 2 number.2.toNat * Nat.pow 10 power.toNat,
    Nat.pow 2 (-number.2).toNat * Nat.pow 10 (-power).toNat)

/--
How many digits a positive number has before its point; fewer than none if it starts with zeros
behind the point. A power of ten makes it at least one, as that is no less than the power of two.
-/
def pointPlace (number : Binary) : Int :=
  let power := (-number.2).toNat
  let (numerator, denominator) := scaled number power
  (Nat.toDigits 10 (numerator / denominator)).length - power

/-- The nearest of the numbers with so many digits that stand for a positive number. -/
def digitsOf? (number : Binary) (count : Nat) : Option (Nat × Int) :=
  let exponent := pointPlace number - count
  let (numerator, denominator) := scaled number (-exponent)
  let (below, rest) := (numerator / denominator, numerator % denominator)
  let isNearBelow := 2 * rest < denominator || 2 * rest = denominator && below % 2 = 0
  let candidates := if isNearBelow then [below, below + 1] else [below + 1, below]
  (candidates.find? fun digits => nearest? digits exponent = some number).map (·, exponent)

/-- The fewest digits that stand for a positive number, and their exponent of ten. -/
def shortest (number : Binary) : Nat × Int :=
  ((List.range 17).findSome? fun count => digitsOf? number (count + 1)).getD (0, 0)

/-- The digits of an exponent, two at least. -/
def exponentText (exponent : Nat) : List Char :=
  if exponent < 10 then '0' :: Nat.toDigits 10 exponent else Nat.toDigits 10 exponent

/-- Digits with a point after so many of them, or with an exponent if that takes too many zeros. -/
def pointedText (digits : List Char) (place : Int) : List Char :=
  if place ≤ -4 || 16 < place then
    let fraction := if digits.length = 1 then [] else '.' :: digits.drop 1
    let sign := if place ≤ 0 then '-' else '+'
    digits.take 1 ++ fraction ++ 'e' :: sign :: exponentText (place - 1).natAbs
  else if place ≤ 0 then '0' :: '.' :: List.replicate (-place).toNat '0' ++ digits
  else
    let whole := digits.take place.toNat ++ List.replicate (place.toNat - digits.length) '0'
    let fraction := digits.drop place.toNat
    whole ++ '.' :: (if fraction.isEmpty then ['0'] else fraction)

/-- A binary number in digits. -/
def binaryText (number : Binary) : List Char :=
  if number.1 = 0 then ['0', '.', '0']
  else
    let (value, exponent) := shortest number
    let digits := Nat.toDigits 10 value
    pointedText ((digits.reverse.dropWhile (· = '0')).reverse) (digits.length + exponent)

/-- The integer that a binary number is, if it is one. -/
def whole? (number : Binary) : Option Nat :=
  let (numerator, denominator) := scaled number 0
  if numerator % denominator = 0 then some (numerator / denominator) else none

/-- A measure of a fraction that is written in some way. -/
def fractionOf (first : Char) (rest : List Char) (isGiven : Bool) (whole : Option Int) : Measure :=
  let written := String.ofList (first :: rest)
  let key :=
    match whole with
    | some value => .number value
    | none => .measure written
  .ofChars .fraction (first :: rest) written isGiven key (List.cons_ne_nil _ _)

/-- A measure of a binary number with a sign, or of an infinity. -/
def signedFraction (negative : Bool) (number : Option Binary) : Measure :=
  let text := (number.map binaryText).getD "inf".toList
  let isGiven := number ≠ some (0, 0)
  let whole := (number.bind whole?).map fun value => if negative then -(value : Int) else value
  if negative && isGiven then fractionOf '-' text isGiven whole
  else fractionOf (text.headD '0') (text.drop 1) isGiven whole

/-- The value of an exponent that stands behind a number, zero if there is none. -/
def exponentValue? (text : List Char) : Option Int :=
  match text with
  | [] => some 0
  | e :: rest =>
      let (negative, digits) := signed rest
      if e = 'e' || e = 'E' then
        if digits.all Char.isDigit then
          (digitsValue? 10 digits).map fun value => if negative then -(value : Int) else value
        else none
      else none

/-- The digits of a decimal number, and their exponent of ten. -/
def decimal? (text : List Char) : Option (Nat × Int) :=
  let (whole, rest) := (numeral text).span Char.isDigit
  let (fraction, rest) :=
    match rest with
    | '.' :: rest => rest.span Char.isDigit
    | _ => ([], rest)
  match digitsValue? 10 (whole ++ fraction), exponentValue? rest with
  | some digits, some exponent => some (digits, exponent - fraction.length)
  | _, _ => none

/-- A number with a point or an exponent starts with a digit, and something follows the point. -/
def isFraction (text : List Char) : Bool :=
  (text.contains '.' || hasExponent text) && text.head?.any Char.isDigit &&
    text.getLast? ≠ some '.'

/-- The measure that a text stands for as a number with a fraction. -/
def fraction? (text : List Char) : Option Measure :=
  let (negative, unsigned) := signed text
  let plain := unsigned.filter (· ≠ '_')
  if isFraction plain then
    (decimal? plain).map fun (digits, exponent) =>
      signedFraction negative (nearest? digits exponent)
  else if plain.map Char.toLower = "inf".toList then some (signedFraction negative none)
  else if plain.map Char.toLower = "nan".toList then some (fractionOf 'n' ['a', 'n'] true none)
  else none

/-- The number that a text stands for. -/
def number? (text : List Char) : Option Scalar :=
  match fraction? text with
  | some value => some (.measure value)
  | none => (integer? text).map .int

end Lineage.Toml

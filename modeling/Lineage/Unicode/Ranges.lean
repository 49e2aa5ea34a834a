/-!
# Sets of characters as sorted ranges

A character class of the Unicode standard is a few hundred runs of consecutive code points. This
module keeps such a class as the array of its runs and decides membership by bisection, so that a
test costs about ten comparisons and needs no table per character.
-/

namespace Lineage.Unicode

/-- A set of code points: closed ranges in increasing order, no two of which touch. -/
structure Ranges where
  bounds : Array (Nat × Nat)

namespace Ranges

/--
Bisection among the ranges numbered from `low` up to, and without, `high`. Each round halves that
span, so `rounds` need not exceed the binary length of the array's size.
-/
def search (ranges : Ranges) (code : Nat) : (rounds low high : Nat) → Bool
  | 0, _, _ => false
  | rounds + 1, low, high =>
      if low < high then
        let middle := (low + high) / 2
        match ranges.bounds[middle]? with
        | none => false
        | some (first, last) =>
            if code < first then ranges.search code rounds low middle
            else if last < code then ranges.search code rounds (middle + 1) high
            else true
      else false

/-- Membership of a character in the set. -/
def contains (ranges : Ranges) (c : Char) : Bool :=
  ranges.search c.toNat (ranges.bounds.size.log2 + 1) 0 ranges.bounds.size

end Ranges

end Lineage.Unicode

/-
The shortest decimal that reads back. For one, two, … seventeen significant digits the two neighbours of a double on that
decimal grid are tried; the first grid with a neighbour that reads back decides, of two the nearer, and the even one
when both are equally near.
-/
import DiagramText.Number.Binary64
import DiagramText.Text.Basic

namespace DiagramText

/-- significant digits of a positive number: `coefficient` is written with `count` digits, of which the first stands for
ten to the power `exponent` -/
structure Significant where
  coefficient : Nat
  count : Nat
  exponent : Int
deriving DecidableEq, Repr

namespace Shortest

/-- the number of decimal digits -/
def digitCount (n : Nat) : Nat := (Nat.toDigits 10 n).length

/-- the number of tenfold enlargements, at most `fuel`, that bring `num / den` up to one -/
def enlargements (den : Nat) : Nat → Nat → Nat
  | 0, _ => 0
  | fuel + 1, num => if den ≤ num then 0 else enlargements den fuel (num * 10) + 1

/-- the power of ten of the first digit of a positive magnitude in units; no double is below 10^-324 -/
def firstPlace (units : Nat) : Int :=
  if Binary64.unitsInOne ≤ units then digitCount (units / Binary64.unitsInOne) - 1
  else -(enlargements Binary64.unitsInOne 330 units : Int)

/-- the rank of the double nearest to `coefficient` times ten to the power `place` -/
def rankAt (coefficient : Nat) (place : Int) : Nat :=
  Binary64.nearestRank (coefficient * Nat.pow 10 place.toNat) (Nat.pow 10 (-place).toNat)

/-- of the whole numbers next to a quotient the one that reads back, when both do the nearest -/
def neighbour? (below nearest : Nat) : (belowReads aboveReads : Bool) → Option Nat
  | true, true => some nearest
  | true, false => some below
  | false, true => some (below + 1)
  | false, false => none

/-- the neighbour of a magnitude on the grid of ten to the power `place` that reads back as the given rank -/
def onGrid? (rank : Nat) (place : Int) : Option Nat :=
  let num := Binary64.unitsOfRank rank * Nat.pow 10 (-place).toNat
  let den := Binary64.unitsInOne * Nat.pow 10 place.toNat
  let below := num / den
  neighbour? below (Binary64.roundQuotient num den) (rankAt below place == rank) (rankAt (below + 1) place == rank)

/-- the first grid of one to seventeen digits with a neighbour that reads back: the neighbour and the number of digits -/
def search (rank : Nat) (first : Int) : Option (Nat × Nat) :=
  (List.range' 1 17).findSome? fun count : Nat => (onGrid? rank (first - count + 1)).map fun n => (n, count)

/-- digits from what is found; a neighbour above may have one more digit, a zero, which moves the first place -/
def significant (first : Int) : Option (Nat × Nat) → Significant
  | some (n, count) => if n = Nat.pow 10 count then ⟨1, 1, first + 1⟩ else ⟨n, count, first⟩
  | none => ⟨0, 1, first⟩

/-- the shortest digits that read back as the double of a rank between zero and infinity -/
def digits (rank : Nat) : Significant :=
  let first := firstPlace (Binary64.unitsOfRank rank)
  significant first (search rank first)

end Shortest

end DiagramText

/-
How numbers are written: whole numbers with all their digits, others with the shortest digits that read back, between
two powers of ten positionally and outside them with an exponent.
-/
import DiagramText.Number.Decimal
import DiagramText.Number.Shortest

namespace DiagramText

/-- the choices that turn significant digits into a text -/
structure NumberLayout where
  /-- the first place from which a number is written positionally -/
  lowestPositional : Int
  /-- the first place from which a number is written with an exponent again -/
  lowestExponential : Int
  /-- the least number of digits of an exponent -/
  exponentDigits : Nat
deriving DecidableEq, Repr

/-- positional from 10^-4 up to 10^16, the exponent always with a sign and two digits -/
def numberLayout : NumberLayout := ⟨-4, 16, 2⟩

namespace NumberLayout

/-- digits with a point after the first, or without a point when there is only one -/
def pointed : Text → Text
  | [] => []
  | [d] => [d]
  | d :: ds => d :: '.' :: ds

/-- a mark, a sign and at least `exponentDigits` digits -/
def exponentText (l : NumberLayout) (e : Int) : Text :=
  let digits := Text.ofNat e.natAbs
  ['e', if e < 0 then '-' else '+'] ++ List.replicate (l.exponentDigits - digits.length) '0' ++ digits

/-- positional digits with at least one on either side of the point -/
def positional (digits : Text) (first : Int) : Text :=
  if first < 0 then "0." ++ List.replicate ((-first).toNat - 1) '0' ++ digits
  else
    let whole := first.toNat + 1
    let fraction := digits.drop whole
    digits.take whole ++ List.replicate (whole - digits.length) '0' ++ ['.']
      ++ if fraction = [] then ['0'] else fraction

/-- significant digits as text -/
def write (l : NumberLayout) (s : Significant) : Text :=
  let digits := Text.ofNat s.coefficient
  if l.lowestPositional ≤ s.exponent ∧ s.exponent < l.lowestExponential then positional digits s.exponent
  else pointed digits ++ l.exponentText s.exponent

end NumberLayout

namespace Binary64

/-- the shortest text that reads back, always with a point or an exponent when the number is finite -/
def toText (x : Binary64) : Text :=
  if x.isNaN then "nan"
  else
    let magnitude : Text :=
      if !x.isFinite then "inf"
      else if x.rank = 0 then "0.0"
      else numberLayout.write (Shortest.digits x.rank)
    if x.negative then '-' :: magnitude else magnitude

/-- a whole number -/
def isWhole (x : Binary64) : Bool := x.isFinite && x.units % unitsInOne == 0

/-- the text of a number in a diagram: a whole number without a point, zero without a sign -/
def format (x : Binary64) : Text :=
  if x.isWhole then
    let digits := Text.ofNat (x.units / unitsInOne)
    if x.negative && x.rank ≠ 0 then '-' :: digits else digits
  else x.toText

/-- the number a text of its own writes: a numeral, or the name of a value that is not finite -/
def ofText? (t : Text) : Option Binary64 :=
  let (negative, magnitude) := Decimal.sign t
  if magnitude = "inf" then some ⟨negative, infinityRank⟩
  else if magnitude = "nan" then some ⟨negative, infinityRank + octave / 2⟩
  else (Decimal.ofText? t).map Decimal.value

end Binary64

end DiagramText

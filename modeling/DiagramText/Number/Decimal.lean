/-
Decimal numerals: a sign, digits of any script with an optional fraction, and an optional exponent. A numeral denotes
the double nearest to its exact value.
-/
import DiagramText.Number.Binary64
import DiagramText.Text.Scan

namespace DiagramText

/-- a decimal numeral: the digits form a whole number, to be taken times a power of ten -/
structure Decimal where
  negative : Bool
  digits : List Nat
  exponent : Int
deriving DecidableEq, Repr

namespace Decimal

/-- the number that a list of decimal digits writes -/
def ofDigits (digits : List Nat) : Nat := digits.foldl (fun n d => 10 * n + d) 0

/-- the rank of the double nearest to the magnitude; a numeral beyond the range of doubles is told from the place of
its first digit alone -/
def rank (d : Decimal) : Nat :=
  let digits := d.digits.dropWhile (· = 0)
  let top := (digits.length : Int) + d.exponent
  if digits = [] ∨ top < -330 then 0
  else if 310 < top then Binary64.infinityRank
  else Binary64.nearestRank (ofDigits digits * Nat.pow 10 d.exponent.toNat) (Nat.pow 10 (-d.exponent).toNat)

/-- the double nearest to the numeral -/
def value (d : Decimal) : Binary64 := ⟨d.negative, d.rank⟩

/-! ## Reading -/

/-- an optional sign: whether it is a minus, and the rest -/
def sign : Text → Bool × Text
  | '-' :: r => (true, r)
  | '+' :: r => (false, r)
  | t => (false, t)

/-- the decimal digits at the beginning, and the rest -/
def digitRun (t : Text) : List Nat × Text :=
  let (run, rest) := Text.span isDigit t
  (run.filterMap digitValue?, rest)

/-- a mark `e`, an optional sign and at least one digit; without these the exponent is zero -/
def exponentPart : Text → Int × Text
  | [] => (0, [])
  | c :: r =>
    if c = 'e' ∨ c = 'E' then
      let (negative, afterSign) := sign r
      match digitRun afterSign with
      | ([], _) => (0, c :: r)
      | (ds, rest) => (if negative then -(ofDigits ds : Int) else ofDigits ds, rest)
    else (0, c :: r)

/-- whole digits with an optional fraction, or a fraction alone: all digits, the number of those in the fraction, and
the rest -/
def significand? (t : Text) : Option (List Nat × Nat × Text) :=
  match digitRun t with
  | ([], '.' :: r) =>
    match digitRun r with
    | ([], _) => none
    | (fraction, rest) => some (fraction, fraction.length, rest)
  | ([], _) => none
  | (whole, '.' :: r) =>
    let (fraction, rest) := digitRun r
    some (whole ++ fraction, fraction.length, rest)
  | (whole, rest) => some (whole, 0, rest)

/-- the longest numeral at the beginning of a text, and the rest -/
def read? (t : Text) : Option (Decimal × Text) :=
  let (negative, afterSign) := sign t
  (significand? afterSign).map fun (digits, places, rest) =>
    let (exponent, rest) := exponentPart rest
    (⟨negative, digits, exponent - places⟩, rest)

/-- a text that is a numeral and nothing else -/
def ofText? (t : Text) : Option Decimal :=
  match read? t with
  | some (d, []) => some d
  | _ => none

end Decimal

end DiagramText

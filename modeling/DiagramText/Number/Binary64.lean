/-
Double-precision numbers as exact values. A finite magnitude is named by its rank among the doubles, counted from zero,
and is a whole number of units of 2^-1074; rounding a quotient to the nearest double, ties to the even rank, is exact
arithmetic on natural numbers.
-/

namespace DiagramText

/-- a double: its sign and the rank of its magnitude, where ranks above `infinityRank` are not numbers -/
structure Binary64 where
  negative : Bool
  rank : Nat
deriving DecidableEq, Repr

namespace Binary64

/-- the number of doubles from one power of two up to the next -/
def octave : Nat := Nat.pow 2 52

/-- the weight of the sign bit in the interchange format -/
def signBit : Nat := Nat.pow 2 63

/-- the rank after the largest finite magnitude -/
def infinityRank : Nat := 0x7ff * octave

/-- plus zero -/
def zero : Binary64 := ⟨false, 0⟩

/-- neither infinite nor a not-a-number -/
def isFinite (x : Binary64) : Bool := x.rank < infinityRank

/-- not a number -/
def isNaN (x : Binary64) : Bool := infinityRank < x.rank

/-- the magnitude of a rank, in units of 2^-1074: below 2^52 the rank itself, above it a mantissa of 53 bits shifted -/
def unitsOfRank (rank : Nat) : Nat :=
  if rank < octave then rank else (rank % octave + octave) * Nat.pow 2 (rank / octave - 1)

/-- the magnitude in units of 2^-1074 -/
def units (x : Binary64) : Nat := unitsOfRank x.rank

/-- the number of units in one; it has more than three hundred digits and is not to be computed in passing -/
@[irreducible] def unitsInOne : Nat := Nat.pow 2 1074

/-- the quotient rounded to the nearest whole number, a half to the even one -/
def roundQuotient (num den : Nat) : Nat :=
  let q := num / den
  let r := num % den
  if den < 2 * r ∨ (2 * r = den ∧ q % 2 = 1) then q + 1 else q

/-- the rank of the double nearest to `num / den`, of two the even one; too large a quotient has the rank of infinity -/
def nearestRank (num den : Nat) : Nat :=
  let scaled := num * unitsInOne
  let shift := (scaled / den).log2 - 52
  min (shift * octave + roundQuotient scaled (den * Nat.pow 2 shift)) infinityRank

/-- the encoding in the 64 bits of the interchange format -/
def toBits (x : Binary64) : UInt64 := UInt64.ofNat (x.rank + if x.negative then signBit else 0)

/-- the value of 64 bits of the interchange format -/
def ofBits (b : UInt64) : Binary64 := ⟨signBit ≤ b.toNat, b.toNat % signBit⟩

/-- the machine number with the same value -/
def toFloat (x : Binary64) : Float := Float.ofBits x.toBits

/-- the exact value of a machine number -/
def ofFloat (f : Float) : Binary64 := ofBits f.toBits

end Binary64

end DiagramText

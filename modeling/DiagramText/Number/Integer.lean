/-
Whole numbers written in decimal digits of any script. A text may look like a number without being one (a raised two is
a digit mark, not a decimal digit), and a text with more than 4300 digits is refused.
-/
import DiagramText.Text.Literal

namespace DiagramText

/-- why a text of digits has no value -/
inductive IntegerError where
  | notDecimal (text : Text)
  | tooLong (digits : Nat)
deriving DecidableEq, Repr

namespace IntegerError

/-- the wording of the error -/
def message : IntegerError → Text
  | notDecimal t => "invalid literal for int() with base 10: " ++ (literal t).take 200
  | tooLong n =>
    "Exceeds the limit (4300 digits) for integer string conversion: value has " ++ Text.ofNat n
      ++ " digits; use sys.set_int_max_str_digits() to increase the limit"

end IntegerError

/-- raised, lowered, circled and other forms of single digits that are not decimal digits -/
def digitMarkRanges : List (Nat × Nat) :=
  [(0xb2, 0xb3), (0xb9, 0xb9), (0x1369, 0x1371), (0x19da, 0x19da), (0x2070, 0x2070), (0x2074, 0x2079),
    (0x2080, 0x2089), (0x2460, 0x2468), (0x2474, 0x247c), (0x2488, 0x2490), (0x24ea, 0x24ea), (0x24f5, 0x24fd),
    (0x24ff, 0x24ff), (0x2776, 0x277e), (0x2780, 0x2788), (0x278a, 0x2792), (0x10a40, 0x10a43), (0x10e60, 0x10e68),
    (0x11052, 0x1105a), (0x1f100, 0x1f10a)]

/-- a decimal digit or a digit mark -/
def isDigitLike (c : Char) : Bool := isDigit c || inRanges digitMarkRanges c.toNat

namespace Integer

/-- not empty, and nothing but decimal digits and digit marks -/
def looksLike (t : Text) : Bool := t ≠ [] && t.all isDigitLike

/-- the value of decimal digits -/
def ofDigits (t : Text) : Nat := (t.filterMap digitValue?).foldl (fun n d => 10 * n + d) 0

/-- the value of a text -/
def read (t : Text) : Except IntegerError Nat :=
  let run := t.takeWhile isDigit
  if 4300 < run.length then .error (.tooLong run.length)
  else if t ≠ [] ∧ run = t then .ok (ofDigits t)
  else .error (.notDecimal t)

end Integer

end DiagramText

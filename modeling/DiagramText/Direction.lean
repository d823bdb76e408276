/-
The direction in which a diagram or a part of it grows.
-/
import DiagramText.Source.Line

namespace DiagramText

/-- top to bottom (two spellings), bottom to top, right to left, left to right -/
inductive Direction where
  | tb
  | td
  | bt
  | rl
  | lr
deriving DecidableEq, Repr

namespace Direction

/-- the five directions -/
def all : List Direction := [tb, td, bt, rl, lr]

/-- the written form -/
def toText : Direction → Text
  | tb => "TB"
  | td => "TD"
  | bt => "BT"
  | rl => "RL"
  | lr => "LR"

/-- a direction in any letter case -/
def ofText? (t : Text) : Option Direction := all.find? fun d => d.toText = Text.upperAscii t

/-- the word after the keyword of a direction statement, and its offset in the line -/
def statement? (line : Text) : Option (Text × Nat) :=
  match Scan.keyword? "direction" line with
  | none => none
  | some rest => if rest ≠ [] ∧ rest.all isWord then some (rest, line.length - rest.length) else none

/-- along the writing line -/
def isHorizontal (d : Direction) : Bool := d == lr || d == rl

/-- against the usual sense -/
def isReversed (d : Direction) : Bool := d == bt || d == rl

end Direction

end DiagramText

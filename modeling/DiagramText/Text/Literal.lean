/-
How messages show a piece of text: in quotes, on one line, with everything invisible spelled out.
-/
import DiagramText.Text.Classes

namespace DiagramText

/-- the last `n` lower-case hexadecimal digits of a number -/
def hexDigits (n : Nat) (v : Nat) : Text :=
  (List.range n).reverse.map fun i => Nat.digitChar (v / Nat.pow 16 i % 16)

/-- one character inside the quotes: the quote and the backslash are escaped, the usual controls have letters, other
unprintable characters are written in the shortest of two, four or eight hexadecimal digits -/
def escapeChar (quote c : Char) : Text :=
  if c = quote ∨ c = '\\' then ['\\', c]
  else if c = '\n' then "\\n"
  else if c = '\r' then "\\r"
  else if c = '\t' then "\\t"
  else if isPrintable c then [c]
  else if c.toNat < 0x100 then "\\x" ++ hexDigits 2 c.toNat
  else if c.toNat < 0x10000 then "\\u" ++ hexDigits 4 c.toNat
  else "\\U" ++ hexDigits 8 c.toNat

/-- single quotes are preferred; a text that holds one, and no double quote, stands in double quotes -/
def literalQuote (t : Text) : Char := if t.contains '\'' && !t.contains '"' then '"' else '\''

/-- the text as a message shows it -/
def literal (t : Text) : Text :=
  let q := literalQuote t
  q :: t.flatMap (escapeChar q) ++ [q]

/-- a value that a message may have to show -/
inductive Shown where
  | text (t : Text)
  | integer (n : Int)
  | truth (b : Bool)
  | absent
deriving DecidableEq, Repr

/-- the value as a message shows it -/
def Shown.literal : Shown → Text
  | text t => DiagramText.literal t
  | integer n => Text.ofInt n
  | truth b => if b then "True" else "False"
  | absent => "None"

/-- the message about a value that no case covers -/
def unhandled (noun : Text) (value : Shown) : Text := "Unhandled " ++ noun ++ ": " ++ value.literal

end DiagramText

/-
Choices of the canonical printer. The indentation of one nesting level is white space, since nesting is read back from
it.
-/
import DiagramText.Text.Literal

namespace DiagramText

/-- one nesting level, as given: a text, or a number of spaces -/
inductive Indent where
  | text (t : Text)
  | spaces (n : Int)
deriving DecidableEq, Repr

namespace Indent

/-- the indentation of one level; the word `tab` stands for a tab -/
def unit : Indent → Text
  | text t => if t = "tab" then "\t" else t
  | spaces n => List.replicate n.toNat ' '

/-- at least one character, and white space only -/
def isValid (i : Indent) : Bool := i.unit ≠ [] && i.unit.all isBlank

/-- the indentation as a message shows it -/
def literal : Indent → Text
  | text t => DiagramText.literal t
  | spaces n => Text.ofInt n

end Indent

/-- the choices of a printer -/
structure RenderOptions where
  indent : Indent
  /-- write the only style class of a node where the node is declared -/
  inlineClasses : Bool
  /-- write links that continue each other on one line -/
  compactLinks : Bool
  /-- write entities in the order of their ids -/
  sortEntities : Bool
  valid : indent.isValid = true
deriving DecidableEq

/-- an indentation that is not white space -/
structure IndentError where
  indent : Indent
deriving DecidableEq, Repr

/-- the wording of the error -/
def IndentError.message (e : IndentError) : Text :=
  "indent must be one or more whitespace characters, got " ++ e.indent.literal

/-- changes to some of the choices -/
structure RenderOverrides where
  indent : Option Indent := none
  inlineClasses : Option Bool := none
  compactLinks : Option Bool := none
  sortEntities : Option Bool := none
deriving DecidableEq, Repr

namespace RenderOptions

/-- four spaces, everything else off -/
def default : RenderOptions := ⟨.text "    ", false, false, false, by decide⟩

instance : Inhabited RenderOptions := ⟨default⟩

/-- the indentation of one level -/
def unit (o : RenderOptions) : Text := o.indent.unit

/-- the indentation of a number of levels -/
def levels (o : RenderOptions) (depth : Nat) : Text := Text.times depth o.unit

/-- changed choices, refused when the indentation would not be white space -/
def merged (o : RenderOptions) (c : RenderOverrides) : Except IndentError RenderOptions :=
  let indent := c.indent.getD o.indent
  if h : indent.isValid = true then
    .ok ⟨indent, c.inlineClasses.getD o.inlineClasses, c.compactLinks.getD o.compactLinks,
      c.sortEntities.getD o.sortEntities, h⟩
  else .error ⟨indent⟩

end RenderOptions

end DiagramText

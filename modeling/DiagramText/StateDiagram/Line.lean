/-
The lines of a state diagram: what each says outside the body of a note.
-/
import DiagramText.StateDiagram.Basic
import DiagramText.Source.Line
import DiagramText.Text.Quoted

namespace DiagramText.StateDiagram

/-- what a line says -/
inductive Line where
  | accessibility (line : AccessibilityLine)
  | direction (d : Direction)
  | openComposite (id : Text) (label : Option Text)
  | closeComposite
  | label (id label : Text)
  | pseudo (id marker : Text)
  | declare (id : Text)
  | note (n : Note)
  | openNote (stateId position : Text)
  | classDef (name : Text) (style : Style)
  | assignClass (ids : List Text) (name : Text)
  | transition (source target : Text) (label : Option Text)

/-- the id of a state, and the rest -/
def stateId? (t : Text) : Option (Text × Text) := Scan.run? isWordOrHyphen t

/-- one of the five directions, alone on the line after its keyword -/
def direction? (t : Text) : Option Direction := (Scan.keyword? "direction" t).bind Direction.ofText?

/-- a label in quotes and the word `as`, and the rest -/
def aliased? (t : Text) : Option (Text × Text) :=
  (Scan.quoted? t).bind fun (token, rest) => ((Scan.blanks? rest).bind (Scan.word? "as")).map (unquote token, ·)

/-- an id before an opening brace -/
def opened? (t : Text) : Option Text :=
  (stateId? t).bind fun (id, rest) => if Scan.blanks rest = ['\x7b'] then some id else none

/-- the line that opens a composite state, perhaps with a label -/
def composite? (t : Text) : Option Line :=
  (Scan.word? "state" t).bind fun r =>
    ((aliased? r).bind fun (label, rest) => (opened? rest).map fun id => .openComposite id (some label))
      <|> (opened? r).map fun id => .openComposite id none

/-- a state with a label -/
def alias? (t : Text) : Option Line :=
  ((Scan.word? "state" t).bind aliased?).bind fun (label, rest) =>
    (Scan.whole? isWordOrHyphen rest).map fun id => .label id label

/-- the marker of a pseudo-state in any letter case: the marker in small letters, and the rest -/
def marker? (t : Text) : Option (Text × Text) :=
  (["fork", "join", "choice"] : List Text).findSome? fun m =>
    (dropKeyword? m t).map fun rest => (Text.lower (t.take m.length), rest)

/-- a pseudo-state -/
def pseudo? (t : Text) : Option Line :=
  ((Scan.keyword? "state" t).bind stateId?).bind fun (id, rest) =>
    ((Text.dropPrefix? "<<" (Scan.blanks rest)).bind marker?).bind fun (marker, rest) =>
      if rest = ">>" then some (.pseudo id marker) else none

/-- a place of a note in any letter case: the place in small letters, and the rest -/
def notePlace? (t : Text) : Option (Text × Text) :=
  (["left of", "right of"] : List Text).findSome? fun place =>
    (dropKeyword? place t).map fun rest => (Text.lower (t.take place.length), rest)

/-- a note, or the line that opens one -/
def note? (t : Text) : Option Line :=
  ((Scan.keyword? "note" t).bind notePlace?).bind fun (place, rest) =>
    ((Scan.blanks? rest).bind stateId?).bind fun (id, rest) =>
      match Scan.blanks rest with
      | [] => some (.openNote id place)
      | ':' :: text => some (.note ⟨id, Text.trim text, place⟩)
      | _ => none

/-- the line that closes a note -/
def isEndNote (t : Text) : Bool := (Scan.keyword? "end" t).bind (dropKeyword? "note") == some []

/-- the definition of a style class -/
def classDef? (t : Text) : Option Line :=
  ((Scan.word? "classDef" t).bind stateId?).bind fun (name, rest) =>
    (Scan.optionalRest? rest).map fun props => .classDef name (Style.ofText props)

/-- a style class for states -/
def assignClass? (t : Text) : Option Line :=
  (Scan.word? "class" t).bind fun r =>
    (Scan.lists stateId? r).findSome? fun (ids, rest) =>
      ((Scan.blanks? rest).bind (Scan.whole? isWordOrHyphen)).map fun name => .assignClass ids name

/-- one end of a transition, and the rest -/
def endpoint? (t : Text) : Option (Text × Text) :=
  ((Text.dropPrefix? terminal t).map (terminal, ·)) <|> stateId? t

/-- what follows the source of a transition -/
def transitionTail? (source t : Text) : Option Line :=
  ((Text.dropPrefix? "-->" (Scan.blanks t)).bind fun r => endpoint? (Scan.blanks r)).bind fun (target, rest) =>
    (Scan.optionalLabel? rest).map fun label => .transition source target (Text.present (label.map Text.trim))

/-- a transition; the id of its source is the longest after which an arrow can be read -/
def transition? (t : Text) : Option Line :=
  match Text.dropPrefix? terminal t with
  | some rest => transitionTail? terminal rest
  | none => Scan.longest isWordOrHyphen (fun source rest => if source = [] then none else transitionTail? source rest) t

/-- a state and its label after a colon -/
def description? (t : Text) : Option Line :=
  (stateId? t).bind fun (id, rest) => (Scan.afterColon? rest).map fun label => .label id (Text.trim label)

/-- what a line says -/
def Line.read? (t : Text) : Option Line :=
  (Accessibility.line? t).map .accessibility
    <|> (direction? t).map .direction
    <|> composite? t
    <|> (if t = "\x7d" then some .closeComposite else none)
    <|> alias? t
    <|> pseudo? t
    <|> ((Scan.word? "state" t).bind (Scan.whole? isWordOrHyphen)).map .declare
    <|> note? t
    <|> classDef? t
    <|> assignClass? t
    <|> transition? t
    <|> description? t
    <|> (Scan.whole? isWordOrHyphen t).map .declare

end DiagramText.StateDiagram

/-
Accessibility texts: the title and the description that every line dialect but the mind map and the sankey diagram takes.
-/
import DiagramText.Text.Scan

namespace DiagramText

/-- a title and a description for readers who do not see the picture -/
structure Accessibility where
  title : Option Text := none
  description : Option Text := none
deriving DecidableEq, Repr

/-- one line that sets a title or a description -/
inductive AccessibilityLine where
  | title (value : Text)
  | description (value : Text)
deriving DecidableEq, Repr

namespace Accessibility

/-- the value of a line that is a keyword, a colon and a text -/
def value? (keyword t : Text) : Option Text :=
  (Text.dropPrefix? keyword t).bind fun rest =>
    match Scan.blanks rest with
    | ':' :: r => (Scan.line? (Scan.blanks r)).map Text.trim
    | _ => none

/-- reads a line that sets a title or a description -/
def line? (t : Text) : Option AccessibilityLine :=
  (value? "accTitle" t).map .title <|> (value? "accDescr" t).map .description

/-- takes a line over, in place of an earlier one of its kind -/
def put (a : Accessibility) : AccessibilityLine → Accessibility
  | .title v => { a with title := some v }
  | .description v => { a with description := some v }

/-- the lines that set the title and the description -/
def lines (indent : Text) (a : Accessibility) : List Text :=
  ((Text.present a.title).map (indent ++ "accTitle: " ++ ·)).toList
    ++ ((Text.present a.description).map (indent ++ "accDescr: " ++ ·)).toList

end Accessibility

end DiagramText

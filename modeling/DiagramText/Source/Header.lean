/-
The line that names the dialect. It is optional: a text without it is read as a bare body.
-/
import DiagramText.Source.Line

namespace DiagramText

/-- a keyword ends where the line does, or before white space or a semicolon -/
def endsKeyword : Text → Bool
  | [] => true
  | c :: r => isBlank c || c = ';' || (c = '\n' && r = [])

/-- what follows the opening keyword of a dialect, written in any letter case -/
def Dialect.header? (d : Dialect) (line : Text) : Option Text :=
  d.keywords.findSome? fun k =>
    (dropKeyword? k line).bind fun rest => if endsKeyword rest then Scan.line? rest else none

/-- separates the header, of which what follows the keyword is kept, from the body -/
def splitHeader (d : Dialect) : List SourceLine → Option (SourceLine × Text) × List SourceLine
  | [] => (none, [])
  | l :: ls =>
    match d.header? l.text with
    | some rest => (some (l, rest), ls)
    | none => (none, l :: ls)

/-- nothing may follow the keyword of a header -/
def checkHeader (d : Dialect) : Option (SourceLine × Text) → Except ParseError Unit
  | none => .ok ()
  | some (l, rest) => if Text.trim rest = [] then .ok () else .error (l.error (.textAfterHeader d))

/-- the first meaningful line, empty when there is none -/
def firstLine (text : Text) : Text :=
  match sourceLines false text with
  | [] => []
  | l :: _ => l.text

/-- whether a text opens with a keyword of the dialect -/
def Dialect.opens (d : Dialect) (text : Text) : Bool := (d.header? (firstLine text)).isSome

/-- the first dialect one of whose keywords opens the text -/
def detect (text : Text) : Option Dialect := Dialect.all.find? fun d => d.opens text

end DiagramText

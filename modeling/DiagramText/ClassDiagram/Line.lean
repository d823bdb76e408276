/-
The lines of a class diagram: what each says outside a class body, and what it says inside one.
-/
import DiagramText.ClassDiagram.Member
import DiagramText.ClassDiagram.Relation

namespace DiagramText.ClassDiagram

/-- what a line outside class bodies says -/
inductive Line where
  | accessibility (line : AccessibilityLine)
  | direction (token : Text)
  | openNamespace (name : Text)
  | closeBrace
  | declare (id : Text) (generic label : Option Text) (opensBody : Bool)
  | annotate (id stereotype : Text)
  | note (n : Note)
  | classDef (name : Text) (style : Style)
  | cssClass (ids : List Text) (name : Text)
  | relate (r : Relationship)
  | member (id : Text) (m : Option Member)

/-- what a line in a class body says -/
inductive BodyLine where
  | close
  | stereotype (text : Text)
  | member (m : Option Member)

/-- an id and the rest of a line -/
def classId? (t : Text) : Option (Text × Text) := Scan.run? isWordOrHyphen t

/-- a generic parameter between tildes, if there is one -/
def generic (t : Text) : Option Text × Text :=
  match t with
  | '~' :: r =>
    match Text.span (· ≠ '~') r with
    | (c :: param, '~' :: rest) => (some (c :: param), rest)
    | _ => (none, t)
  | _ => (none, t)

/-- a quoted label in square brackets, if there is one -/
def bracketedLabel (t : Text) : Option Text × Text :=
  match Scan.blanks t with
  | '[' :: r =>
    match Scan.quoted? r with
    | some (token, ']' :: rest) => (some (unquote token), rest)
    | _ => (none, t)
  | _ => (none, t)

/-- a brace, if there is one, and the white space before it dropped -/
def optionalBrace (brace : Char) (t : Text) : Bool × Text :=
  match Scan.blanks t with
  | c :: r => if c = brace then (true, r) else (false, c :: r)
  | [] => (false, [])

/-- the declaration of a class; it opens a body unless the brace is closed on the line -/
def declaration? (t : Text) : Option Line :=
  ((Scan.word? "class" t).bind classId?).bind fun (id, rest) =>
    let (parameter, rest) := generic rest
    let (label, rest) := bracketedLabel rest
    let (opens, rest) := optionalBrace '\x7b' rest
    let (closes, rest) := optionalBrace '\x7d' rest
    if rest = [] then some (.declare id parameter label (opens && !closes)) else none

/-- the line that opens a namespace -/
def namespace? (t : Text) : Option Line :=
  ((Scan.word? "namespace" t).bind (Scan.run? fun c => isWordOrHyphen c || c = '.')).bind fun (name, rest) =>
    if Scan.blanks rest = ['\x7b'] then some (.openNamespace name) else none

/-- a stereotype in double angle brackets, and the rest -/
def stereotype? (t : Text) : Option (Text × Text) :=
  (Text.dropPrefix? "<<" t).bind fun r =>
    match Text.span (· ≠ '>') r with
    | (c :: text, '>' :: '>' :: rest) => some (Text.trim (c :: text), rest)
    | _ => none

/-- a stereotype of a class -/
def outerStereotype? (t : Text) : Option Line :=
  (stereotype? t).bind fun (text, rest) =>
    ((Scan.blanks? rest).bind (Scan.whole? isWordOrHyphen)).map fun id => .annotate id text

/-- a text in quotes and nothing else -/
def soleQuoted? (t : Text) : Option Text :=
  (Scan.quoted? t).bind fun (token, rest) => if rest = [] then some (unquote token) else none

/-- a note for a class -/
def noteFor? (t : Text) : Option Line :=
  (((Scan.word? "note" t).bind (Scan.word? "for")).bind classId?).bind fun (id, rest) =>
    ((Scan.blanks? rest).bind soleQuoted?).map fun text => .note ⟨text, some id⟩

/-- a note on its own -/
def freeNote? (t : Text) : Option Line :=
  ((Scan.word? "note" t).bind soleQuoted?).map fun text => .note ⟨text, none⟩

/-- the definition of a style class -/
def classDef? (t : Text) : Option Line :=
  ((Scan.word? "classDef" t).bind classId?).bind fun (name, rest) =>
    (Scan.optionalRest? rest).map fun props => .classDef name (Style.ofText props)

/-- a style class for the classes of a quoted list -/
def cssClass? (t : Text) : Option Line :=
  ((Scan.word? "cssClass" t).bind Scan.quoted?).bind fun (token, rest) =>
    if token.length ≤ 2 then none
    else
      ((Scan.blanks? rest).bind (Scan.whole? isWordOrHyphen)).map fun name =>
        .cssClass (Text.items ',' token.tail.dropLast) name

/-- a member of a class after a colon -/
def inlineMember? (t : Text) : Option Line :=
  (classId? t).bind fun (id, rest) =>
    (Scan.afterColon? rest).bind fun text => if text = [] then none else some (.member id (Member.read? text))

/-- what a line outside class bodies says -/
def Line.read? (t : Text) : Option Line :=
  (Accessibility.line? t).map .accessibility
    <|> (Direction.statement? t).map (fun (token, _) => .direction token)
    <|> namespace? t
    <|> (if t = "\x7d" then some .closeBrace else none)
    <|> declaration? t
    <|> outerStereotype? t
    <|> noteFor? t
    <|> freeNote? t
    <|> classDef? t
    <|> cssClass? t
    <|> (Relationship.read? t).map .relate
    <|> inlineMember? t

/-- what a line in a class body says -/
def BodyLine.read (t : Text) : BodyLine :=
  if t = "\x7d" then .close
  else
    match stereotype? t with
    | some (text, []) => .stereotype text
    | _ => .member (Member.read? t)

end DiagramText.ClassDiagram

/-
Timelines: periods with their events, in sections. Periods before the first section line form a section without a name.
-/
import DiagramText.Accessibility
import DiagramText.Options
import DiagramText.Source.Header

namespace DiagramText

namespace Timeline

/-- a time and what happened in it -/
structure Period where
  name : Text
  events : List Text
deriving DecidableEq, Repr

/-- periods under a heading -/
structure Section where
  name : Option Text
  periods : List Period
deriving DecidableEq, Repr

end Timeline

/-- a timeline -/
structure Timeline where
  title : Option Text := none
  sections : List Timeline.Section := []
  accessibility : Accessibility := {}
deriving DecidableEq, Repr

namespace Timeline

/-! ## Reading -/

/-- what a line says -/
inductive Line where
  | accessibility (line : AccessibilityLine)
  | title (text : Text)
  | heading (name : Text)
  | events (events : List Text)
  | period (p : Period)
deriving DecidableEq, Repr

/-- a period with its events after colons -/
def periodOf (t : Text) : Period :=
  let (name, events) := (Text.cut? ":" t).getD (t, [])
  ⟨Text.trim name, Text.items ':' events⟩

/-- what a line says; every line says something -/
def Line.read (t : Text) : Line :=
  let special : Option Line := (Accessibility.line? t).map .accessibility
    <|> (Scan.keywordText? "title" t).map .title
    <|> (Scan.keywordText? "section" t).map .heading
    <|> (Text.dropPrefix? ":" t).map fun rest => .events (Text.items ':' rest)
  special.getD (.period (periodOf t))

/-- adds a period to the last section, which is one without a name when there is none -/
def addPeriod (p : Period) : List Section → List Section
  | [] => [⟨none, [p]⟩]
  | [s] => [{ s with periods := s.periods ++ [p] }]
  | s :: rest => s :: addPeriod p rest

/-- adds events to the last of some periods -/
def addEvents? (events : List Text) : List Period → Option (List Period)
  | [] => none
  | [p] => some [{ p with events := p.events ++ events }]
  | p :: rest => (addEvents? events rest).map (p :: ·)

/-- adds events to the last period of the last section -/
def continue? (events : List Text) : List Section → Option (List Section)
  | [] => none
  | [s] => (addEvents? events s.periods).map fun periods => [{ s with periods := periods }]
  | s :: rest => (continue? events rest).map (s :: ·)

/-- reads a line into a timeline -/
def readLine (d : Timeline) (l : SourceLine) : Except ParseError Timeline :=
  match Line.read l.text with
  | .accessibility line => .ok { d with accessibility := d.accessibility.put line }
  | .title text => .ok { d with title := some text }
  | .heading name => .ok { d with sections := d.sections ++ [⟨some name, []⟩] }
  | .period p => .ok { d with sections := addPeriod p d.sections }
  | .events events =>
    match continue? events d.sections with
    | some sections => .ok { d with sections := sections }
    | none => .error (l.error .eventWithoutPeriod)

/-- reads a timeline -/
def read (text : Text) : Except ParseError Timeline :=
  (splitHeader .timeline (sourceLines false text)).2.foldlM readLine {}

/-! ## Printing -/

/-- a period and its events on a line -/
def Period.toText (p : Period) : Text := Text.join " : " (p.name :: p.events)

/-- a section; only the periods of a named one are indented further -/
def Section.lines (o : RenderOptions) (s : Section) : List Text :=
  match s.name with
  | some name => (o.unit ++ "section " ++ name) :: s.periods.map (o.levels 2 ++ ·.toText)
  | none => s.periods.map (o.levels 1 ++ ·.toText)

/-- the canonical text of a timeline -/
def render (d : Timeline) (o : RenderOptions) : Text :=
  Text.ofLines
    (("timeline" : Text) :: ((Text.present d.title).map (o.unit ++ "title " ++ ·)).toList
      ++ d.accessibility.lines o.unit
      ++ d.sections.flatMap (Section.lines o))

end Timeline

end DiagramText

/-
User journeys: scored tasks and who takes part in them, in sections. Tasks before the first section line form a section
without a name.
-/
import DiagramText.Accessibility
import DiagramText.Number.Format
import DiagramText.Options
import DiagramText.Source.Header

namespace DiagramText

namespace Journey

/-- something to do, how well it goes, and who does it -/
structure Task where
  name : Text
  score : Binary64
  actors : List Text
deriving DecidableEq, Repr

/-- tasks under a heading -/
structure Section where
  name : Option Text
  tasks : List Task
deriving DecidableEq, Repr

end Journey

/-- a user journey -/
structure Journey where
  title : Option Text := none
  sections : List Journey.Section := []
  accessibility : Accessibility := {}
deriving DecidableEq, Repr

namespace Journey

/-! ## Reading -/

/-- the parts of a task line: the name, the score, what is left of the line from the score on, and the actors -/
structure TaskText where
  name : Text
  score : Text
  fromScore : Text
  actors : Text
deriving DecidableEq, Repr

/-- what a line says -/
inductive Line where
  | accessibility (line : AccessibilityLine)
  | title (text : Text)
  | heading (name : Text)
  | task (t : TaskText)
deriving DecidableEq, Repr

/-- any character but a colon -/
def notColon (c : Char) : Bool := c ≠ ':'

/-- what may follow a score: nothing, or a colon and actors -/
def actorsText? (t : Text) : Option Text :=
  match Scan.blanks t with
  | [] => some []
  | ':' :: r => some (Scan.blanks r)
  | _ => none

/-- a task: its name ends before the first colon; a score has at least one character, if need be white space -/
def task? (t : Text) : Option TaskText :=
  match Text.span notColon t with
  | ([], _) => none
  | (name, ':' :: r) =>
    Scan.longest isBlank
      (fun _ fromScore =>
        Scan.shortest notColon
          (fun score rest =>
            if score = [] then none
            else (actorsText? rest).map fun actors => ⟨Text.trim name, score, fromScore, actors⟩)
          fromScore)
      r
  | _ => none

/-- what a line says; `none` when it says nothing -/
def Line.read? (t : Text) : Option Line :=
  (Accessibility.line? t).map .accessibility
    <|> (Scan.keywordText? "title" t).map .title
    <|> (Scan.keywordText? "section" t).map .heading
    <|> (task? t).map .task

/-- the task of a line -/
def TaskText.task (l : SourceLine) (t : TaskText) : Except ParseError Task :=
  (l.number? ((l.text.length : Int) - t.fromScore.length) t.score).map (⟨t.name, ·, Text.items ',' t.actors⟩)

/-- adds a task to the last section, which is one without a name when there is none -/
def addTask (t : Task) : List Section → List Section
  | [] => [⟨none, [t]⟩]
  | [s] => [{ s with tasks := s.tasks ++ [t] }]
  | s :: rest => s :: addTask t rest

/-- reads a line into a journey -/
def readLine (d : Journey) (l : SourceLine) : Except ParseError Journey :=
  match Line.read? l.text with
  | some (.accessibility line) => .ok { d with accessibility := d.accessibility.put line }
  | some (.title text) => .ok { d with title := some text }
  | some (.heading name) => .ok { d with sections := d.sections ++ [⟨some name, []⟩] }
  | some (.task t) => (t.task l).map fun task => { d with sections := addTask task d.sections }
  | none => .error (l.error (.invalidTask l.text))

/-- reads a user journey -/
def read (text : Text) : Except ParseError Journey :=
  (splitHeader .journey (sourceLines false text)).2.foldlM readLine {}

/-! ## Printing -/

/-- a task on a line -/
def Task.toText (t : Task) : Text :=
  let scored := t.name ++ ": " ++ t.score.format
  if t.actors = [] then scored else scored ++ ": " ++ Text.join ", " t.actors

/-- a section; only the tasks of a named one are indented further -/
def Section.lines (o : RenderOptions) (s : Section) : List Text :=
  match s.name with
  | some name => (o.unit ++ "section " ++ name) :: s.tasks.map (o.levels 2 ++ ·.toText)
  | none => s.tasks.map (o.levels 1 ++ ·.toText)

/-- the canonical text of a user journey -/
def render (d : Journey) (o : RenderOptions) : Text :=
  Text.ofLines
    (("journey" : Text) :: ((Text.present d.title).map (o.unit ++ "title " ++ ·)).toList
      ++ d.accessibility.lines o.unit
      ++ d.sections.flatMap (Section.lines o))

end Journey

end DiagramText

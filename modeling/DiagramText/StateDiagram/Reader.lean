/-
Reading a state diagram. Composite states that are open stand on a stack, the innermost first, and give their id as the
scope of what is read; the lines of an open note belong to the note.
-/
import DiagramText.Source.Header
import DiagramText.StateDiagram.Assembly
import DiagramText.StateDiagram.Line

namespace DiagramText.StateDiagram

/-- a note that is not closed yet -/
structure OpenNote where
  stateId : Text
  position : Text
  openedAt : SourceLine
  lines : List Text

/-- a diagram with its open composite states and its open note -/
structure Progress where
  assembly : Assembly
  composites : List (Text × SourceLine)
  note : Option OpenNote

namespace Progress

/-- the innermost open composite state -/
def scope (p : Progress) : Option Text := p.composites.head?.map Prod.fst

/-- changes the diagram -/
def update (f : Assembly → Assembly) (p : Progress) : Progress := { p with assembly := f p.assembly }

/-- sets the direction of the innermost open composite state, or of the diagram -/
def setDirection (d : Direction) (p : Progress) : Progress :=
  match p.scope with
  | some id => p.update (·.alterState id fun s => { s with direction := some d })
  | none => p.update fun a => { a with diagram := { a.diagram with direction := d } }

/-- opens a composite state -/
def openComposite (l : SourceLine) (id : Text) (label : Option Text) (p : Progress) : Progress :=
  let p' := p.update (·.declareAs id p.scope fun s => { s with kind := .composite, label := label <|> s.label })
  { p' with composites := (id, l) :: p.composites }

/-- adds a transition, and the states it names where they are not known -/
def addTransition (source target : Text) (label : Option Text) (p : Progress) : Progress :=
  p.update fun a =>
    ((a.reference source p.scope).reference target p.scope).addTransition ⟨source, target, label, p.scope⟩

/-- what a line outside notes does -/
def apply (l : SourceLine) (p : Progress) : Line → Except ParseError Progress
  | .accessibility line => .ok (p.update (·.describe line))
  | .direction d => .ok (p.setDirection d)
  | .openComposite id label => .ok (p.openComposite l id label)
  | .closeComposite =>
    match p.composites with
    | [] => .error (l.error .braceOutsideComposite)
    | _ :: rest => .ok { p with composites := rest }
  | .label id label => .ok (p.update (·.declareAs id p.scope fun s => { s with label := some label }))
  | .pseudo id marker => .ok (p.update (·.declareAs id p.scope fun s => { s with kind := .pseudo marker }))
  | .declare id => .ok (p.update (·.declare id p.scope))
  | .note n => .ok (p.update (·.addNote n))
  | .openNote id position => .ok { p with note := some ⟨id, position, l, []⟩ }
  | .classDef name style => .ok (p.update (·.defineClass name style))
  | .assignClass ids name => .ok (p.update fun a => ids.foldl (fun a id => a.assignClass id name) a)
  | .transition source target label => .ok (p.addTransition source target label)

/-- reads a line -/
def readLine (p : Progress) (l : SourceLine) : Except ParseError Progress :=
  match p.note with
  | some n =>
    if isEndNote l.text then
      .ok { p.update (·.addNote ⟨n.stateId, Text.join "\n" n.lines, n.position⟩) with note := none }
    else .ok { p with note := some { n with lines := n.lines ++ [l.text] } }
  | none =>
    match Line.read? l.text with
    | some line => p.apply l line
    | none => .error (l.error (.invalidStatement .state l.text))

/-- the diagram, unless a note or a composite state is still open -/
def finish (p : Progress) : Except ParseError StateDiagram :=
  match p.note, p.composites with
  | some n, _ => .error (n.openedAt.error .unclosedNote)
  | none, (id, l) :: _ => .error (l.error (.unclosedComposite id))
  | none, [] => .ok p.assembly.diagram

end Progress

/-- reads a state diagram -/
def read (text : Text) : Except ParseError StateDiagram := do
  let (header, body) := splitHeader .state (sourceLines true text)
  checkHeader .state header
  let p ← body.foldlM Progress.readLine ⟨⟨{}, []⟩, [], none⟩
  p.finish

end DiagramText.StateDiagram

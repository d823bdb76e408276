/-
Reading a class diagram: lines outside class bodies change the diagram, lines in a body change its class. A namespace
holds the classes that are declared until it is closed.
-/
import DiagramText.ClassDiagram.Line
import DiagramText.Source.Header

namespace DiagramText.ClassDiagram

/-- a namespace that is not closed yet -/
structure OpenNamespace where
  openedAt : SourceLine
  name : Text
  classIds : List Text

/-- a diagram with its open namespace and its open class body -/
structure Progress where
  diagram : ClassDiagram
  openNamespace : Option OpenNamespace
  body : Option (Text × SourceLine)

namespace Progress

/-- adds a class to a namespace, once -/
def include_ (id : Text) (n : OpenNamespace) : OpenNamespace :=
  if n.classIds.contains id then n else { n with classIds := n.classIds ++ [id] }

/-- a declaration gives the class what it names and leaves the rest -/
def declare (id : Text) (generic label : Option Text) (c : Class) : Class :=
  { c with id := id, generic := generic <|> c.generic, label := label.getD c.label }

/-- closes the open namespace -/
def closeNamespace (l : SourceLine) (p : Progress) : Except ParseError Progress :=
  match p.openNamespace with
  | none => .error (l.error .unexpectedBrace)
  | some n =>
    .ok { p with
      diagram := { p.diagram with namespaces := p.diagram.namespaces ++ [⟨n.name, n.classIds⟩] }
      openNamespace := none }

/-- what a line outside class bodies does -/
def apply (l : SourceLine) (p : Progress) : Line → Except ParseError Progress
  | .accessibility line =>
    .ok { p with diagram := { p.diagram with accessibility := p.diagram.accessibility.put line } }
  | .direction token =>
    match Direction.ofText? token with
    | some d => .ok { p with diagram := { p.diagram with direction := d } }
    | none => .error (l.error (.unknownDirection token))
  | .openNamespace name =>
    match p.openNamespace with
    | some _ => .error (l.error .nestedNamespace)
    | none => .ok { p with openNamespace := some ⟨l, name, []⟩ }
  | .closeBrace => p.closeNamespace l
  | .declare id generic label opensBody =>
    .ok {
      diagram := p.diagram.alterClass id (declare id generic label)
      openNamespace := p.openNamespace.map (include_ id)
      body := if opensBody then some (id, l) else none }
  | .annotate id text =>
    .ok { p with diagram := p.diagram.alterClass id fun c => { c with stereotype := some text } }
  | .note n => .ok { p with diagram := { p.diagram with notes := p.diagram.notes ++ [n] } }
  | .classDef name style =>
    .ok { p with diagram := { p.diagram with classDefs := p.diagram.classDefs.insert name style } }
  | .cssClass ids name =>
    .ok { p with
      diagram := { p.diagram with cssClasses := ids.foldl (fun e id => e.assign id name) p.diagram.cssClasses } }
  | .relate r =>
    let known := (p.diagram.ensureClass r.source).ensureClass r.target
    .ok { p with diagram := { known with relationships := known.relationships ++ [r] } }
  | .member id m =>
    .ok { p with diagram := p.diagram.alterClass id fun c => (m.map c.addMember).getD c }

/-- what a line in the body of a class does -/
def applyInBody (id : Text) (p : Progress) : BodyLine → Progress
  | .close => { p with body := none }
  | .stereotype text => { p with diagram := p.diagram.alterClass id fun c => { c with stereotype := some text } }
  | .member m => { p with diagram := p.diagram.alterClass id fun c => (m.map c.addMember).getD c }

/-- reads a line -/
def readLine (p : Progress) (l : SourceLine) : Except ParseError Progress :=
  match p.body with
  | some (id, _) => .ok (p.applyInBody id (BodyLine.read l.text))
  | none =>
    match Line.read? l.text with
    | some line => p.apply l line
    | none => .error (l.error (.invalidStatement .classDiagram l.text))

/-- the diagram, unless a class body or a namespace is still open -/
def finish (p : Progress) : Except ParseError ClassDiagram :=
  match p.body, p.openNamespace with
  | some (id, l), _ => .error (l.error (.unclosedClassBody id))
  | none, some n => .error (n.openedAt.error (.unclosedNamespace n.name))
  | none, none => .ok p.diagram

end Progress

/-- reads a class diagram -/
def read (text : Text) : Except ParseError ClassDiagram := do
  let (_, body) := splitHeader .classDiagram (sourceLines true text)
  let p ← body.foldlM Progress.readLine ⟨{}, none, none⟩
  p.finish

end DiagramText.ClassDiagram

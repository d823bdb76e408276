/-
Reading an entity-relationship diagram. Entities are there as soon as they are named; in an open block every line but the
closing brace is a column.
-/
import DiagramText.EntityDiagram.Line
import DiagramText.Source.Header

namespace DiagramText.EntityDiagram

/-- a diagram with the entity whose block is open -/
structure Progress where
  diagram : EntityDiagram
  block : Option (Text × SourceLine)

/-- changes an entity, which is created when it is not known -/
def alterEntity (id : Text) (f : Entity → Entity) (d : EntityDiagram) : EntityDiagram :=
  { d with entities := d.entities.alter id { id := id, label := id } f }

/-- the cardinality of a symbol in one of its spellings -/
def cardinality? (symbol : Cardinality → Text × Text) (t : Text) : Option Cardinality :=
  Cardinality.all.find? fun c => (symbol c).1 = t || (symbol c).2 = t

/-- the relationship of a line, unless a cardinality is unknown -/
def RelationText.read (l : SourceLine) (r : RelationText) : Except ParseError Relationship :=
  let unknown (symbol rest : Text) : ParseError :=
    l.errorAt ((l.text.length : Int) - rest.length) (.unknownCardinality symbol)
  match cardinality? Cardinality.left r.sourceSymbol, cardinality? Cardinality.right r.targetSymbol with
  | none, _ => .error (unknown r.sourceSymbol r.fromSourceSymbol)
  | some _, none => .error (unknown r.targetSymbol r.fromTargetSymbol)
  | some left, some right => .ok ⟨r.source, r.target, left, right, r.label, r.isIdentifying⟩

namespace Progress

/-- what a line outside entity blocks does -/
def apply (l : SourceLine) (p : Progress) : Line → Except ParseError Progress
  | .accessibility line =>
    .ok { p with diagram := { p.diagram with accessibility := p.diagram.accessibility.put line } }
  | .direction token =>
    match Direction.ofText? token with
    | some d => .ok { p with diagram := { p.diagram with direction := d } }
    | none => .error (l.error (.unknownDirection token))
  | .declare id label opensBlock =>
    .ok {
      diagram := alterEntity id (fun e => { e with label := label.getD e.label }) p.diagram
      block := if opensBlock then some (id, l) else none }
  | .relate text =>
    (text.read l).map fun r =>
      let known := alterEntity r.target id (alterEntity r.source id p.diagram)
      { p with diagram := { known with relationships := known.relationships ++ [r] } }

/-- reads a column into the entity whose block is open -/
def addColumn (l : SourceLine) (id : Text) (p : Progress) : Except ParseError Progress :=
  match Column.read l.text with
  | .ok c => .ok { p with diagram := alterEntity id (fun e => { e with columns := e.columns ++ [c] }) p.diagram }
  | .error cause => .error (l.error cause)

/-- reads a line -/
def readLine (p : Progress) (l : SourceLine) : Except ParseError Progress :=
  match p.block with
  | some (id, _) => if l.text = "\x7d" then .ok { p with block := none } else p.addColumn l id
  | none =>
    match Line.read? l.text with
    | some line => p.apply l line
    | none => .error (l.error (.invalidStatement .er l.text))

/-- the diagram, unless a block is still open -/
def finish (p : Progress) : Except ParseError EntityDiagram :=
  match p.block with
  | some (id, l) => .error (l.error (.unclosedEntity id))
  | none => .ok p.diagram

end Progress

/-- reads an entity-relationship diagram -/
def read (text : Text) : Except ParseError EntityDiagram := do
  let p ← (splitHeader .er (sourceLines true text)).2.foldlM Progress.readLine ⟨{}, none⟩
  p.finish

end DiagramText.EntityDiagram

/-
Diagrams of every dialect behind one reader and one printer. Text is read as the dialect that the caller names, or as
the one its first line shows.
-/
import DiagramText.ClassDiagram.Printer
import DiagramText.ClassDiagram.Reader
import DiagramText.EntityDiagram.Printer
import DiagramText.EntityDiagram.Reader
import DiagramText.Flowchart.Printer
import DiagramText.Flowchart.Reader
import DiagramText.Journey
import DiagramText.MindMap
import DiagramText.PieChart
import DiagramText.QuadrantChart
import DiagramText.SankeyDiagram
import DiagramText.Sequence.Printer
import DiagramText.Sequence.Reader
import DiagramText.StateDiagram.Printer
import DiagramText.StateDiagram.Reader
import DiagramText.Timeline
import DiagramText.XYChart

namespace DiagramText

/-- a diagram of some dialect -/
inductive Diagram where
  | flowchart (d : Flowchart)
  | sequence (d : Sequence)
  | classDiagram (d : ClassDiagram)
  | state (d : StateDiagram)
  | pie (d : PieChart)
  | er (d : EntityDiagram)
  | mindmap (d : MindMap)
  | quadrant (d : QuadrantChart)
  | sankey (d : SankeyDiagram)
  | timeline (d : Timeline)
  | journey (d : Journey)
  | xychart (d : XYChart)

/-- reads text as a diagram of a dialect -/
def Dialect.read : Dialect → Text → Except ReadError Diagram
  | .flowchart, t => ((Flowchart.read t).map .flowchart).mapError .malformed
  | .sequence, t => (Sequence.read t).map .sequence
  | .classDiagram, t => ((ClassDiagram.read t).map .classDiagram).mapError .malformed
  | .state, t => ((StateDiagram.read t).map .state).mapError .malformed
  | .pie, t => ((PieChart.read t).map .pie).mapError .malformed
  | .er, t => ((EntityDiagram.read t).map .er).mapError .malformed
  | .mindmap, t => ((MindMap.read t).map .mindmap).mapError .malformed
  | .quadrant, t => ((QuadrantChart.read t).map .quadrant).mapError .malformed
  | .sankey, t => ((SankeyDiagram.read t).map .sankey).mapError .malformed
  | .timeline, t => ((Timeline.read t).map .timeline).mapError .malformed
  | .journey, t => ((Journey.read t).map .journey).mapError .malformed
  | .xychart, t => ((XYChart.read t).map .xychart).mapError .malformed

namespace Diagram

/-- the dialect of a diagram -/
def dialect : Diagram → Dialect
  | flowchart _ => .flowchart
  | sequence _ => .sequence
  | .classDiagram _ => .classDiagram
  | state _ => .state
  | pie _ => .pie
  | er _ => .er
  | mindmap _ => .mindmap
  | quadrant _ => .quadrant
  | sankey _ => .sankey
  | timeline _ => .timeline
  | journey _ => .journey
  | xychart _ => .xychart

/-- the canonical text -/
def render (o : RenderOptions) : Diagram → Except IntegerError Text
  | flowchart d => d.render o
  | sequence d => .ok (d.render o)
  | .classDiagram d => .ok (d.render o)
  | state d => .ok (d.render o)
  | pie d => .ok (d.render o)
  | er d => .ok (d.render o)
  | mindmap d => .ok (d.render o)
  | quadrant d => .ok (d.render o)
  | sankey d => .ok d.render
  | timeline d => .ok (d.render o)
  | journey d => .ok (d.render o)
  | xychart d => .ok (d.render o)

end Diagram

/-- the dialect of the text's first line -/
def detectOrFail (text : Text) : Except ReadError Dialect :=
  match detect text with
  | some d => .ok d
  | none => .error (.undetected text)

/-- the dialect that is named, or the one the text shows -/
def chooseDialect (text : Text) : Option Text → Except ReadError Dialect
  | none => detectOrFail text
  | some tag =>
    match Dialect.ofTag? tag with
    | some d => .ok d
    | none => .error (.unknownDialect tag)

/-- reads a diagram of any dialect -/
def readDiagram (text : Text) (hint : Option Text) : Except ReadError Diagram := do
  let d ← chooseDialect text hint
  d.read text

/-- reads a diagram of a dialect with a synchronous reader -/
def readDiagramSync (text : Text) (hint : Option Text) : Except ReadError Diagram := do
  let d ← chooseDialect text hint
  if d.isAsync then .error (.asynchronous d) else d.read text

end DiagramText

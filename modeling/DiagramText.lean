import DiagramText.Number.Format
import DiagramText.Reference
import DiagramText.Diagram
import DiagramText.Flowchart.Builder
import DiagramText.Sequence.Builder
import DiagramText.ClassDiagram.Builder
import DiagramText.StateDiagram.Builder
import DiagramText.Layout.Placement
import DiagramText.Proofs.Text.Lines
import DiagramText.Proofs.Text.Quoted
import DiagramText.Proofs.Text.Names
import DiagramText.Proofs.Accessibility
import DiagramText.Proofs.Entries
import DiagramText.Proofs.Flowchart.Accepted
import DiagramText.Proofs.Flowchart.RoundTrip
import DiagramText.Proofs.Sequence.Line
import DiagramText.Proofs.Sequence.RoundTrip
import DiagramText.Proofs.StateDiagram.Line
import DiagramText.Proofs.StateDiagram.Replay
import DiagramText.Proofs.StateDiagram.Meaning
import DiagramText.Proofs.StateDiagram.RoundTrip
import DiagramText.Proofs.ClassDiagram.Member
import DiagramText.Proofs.Text.Statement
import DiagramText.Proofs.ClassDiagram.Relation
import DiagramText.Proofs.ClassDiagram.Line
import DiagramText.Proofs.ClassDiagram.Replay
import DiagramText.Proofs.ClassDiagram.RoundTrip
import DiagramText.Proofs.Text.LetterCase
import DiagramText.Proofs.StateDiagram.Accepted
import DiagramText.Proofs.StateDiagram.WellFormed
import DiagramText.Proofs.Number.Format
import DiagramText.Proofs.Record
import DiagramText.Proofs.SankeyDiagram
import DiagramText.Proofs.MindMap.RoundTrip
import DiagramText.Proofs.EntityDiagram.RoundTrip
import DiagramText.Proofs.Number.Numeral
import DiagramText.Proofs.PieChart.Line
import DiagramText.Proofs.PieChart.Document
import DiagramText.Proofs.PieChart.RoundTrip
import DiagramText.Proofs.Journey
import DiagramText.Proofs.XYChart
import DiagramText.Proofs.Timeline
import DiagramText.Proofs.QuadrantChart.RoundTrip
import DiagramText.Proofs.Indentation.Diagram
import DiagramText.Proofs.Building
import DiagramText.Proofs.StateDiagram.Builder
import DiagramText.Proofs.Sequence.Accepted
import DiagramText.Proofs.Sequence.Legible
import DiagramText.Proofs.Closed
import DiagramText.Proofs.StateDiagram.Forest
import DiagramText.Proofs.LineNumbers.Lines
import DiagramText.Proofs.LineNumbers.Reading
import DiagramText.Proofs.LineNumbers.PieChart
import DiagramText.Proofs.LineNumbers.Diagram
import DiagramText.Proofs.Sequence.Cross
import DiagramText.Proofs.Flowchart.Groups
import DiagramText.Proofs.Flowchart.LinkOrder
import DiagramText.Proofs.Detection
import DiagramText.Proofs.Sorting
import DiagramText.Proofs.MindMap.Ancestry
import DiagramText.Proofs.Columns.Lines
import DiagramText.Proofs.Columns.Fields
import DiagramText.Proofs.Columns.Links
import DiagramText.Proofs.Columns.View
import DiagramText.Proofs.Nesting.Unclosed
import DiagramText.Proofs.Number.Overflow
import DiagramText.Proofs.Flowchart.LinkText
import DiagramText.Proofs.Text.Entity
import DiagramText.Proofs.Style.Spelling
import DiagramText.Proofs.Sequence.DocumentOrder
import DiagramText.Proofs.Flowchart.ShapedNode
import DiagramText.Proofs.Layout.Components
import DiagramText.Proofs.Layout.Listing
import DiagramText.Proofs.StateDiagram.Settled
import DiagramText.Proofs.Flowchart.Notation
import DiagramText.Proofs.Flowchart.Settled
import DiagramText.Proofs.ClassDiagram.Settled
import DiagramText.Proofs.Captions

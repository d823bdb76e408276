/-
Sankey diagrams: weighted flows between nodes, one record of three fields for each. A node exists because a flow names
it.
-/
import DiagramText.Number.Format
import DiagramText.Entries
import DiagramText.Source.Header
import DiagramText.Source.Record

namespace DiagramText

namespace SankeyDiagram

/-- a place that flows leave or reach -/
structure Node where
  id : Text
  label : Text
deriving DecidableEq, Repr

/-- an amount that flows from one node to another -/
structure Link where
  source : Text
  target : Text
  value : Binary64
deriving DecidableEq, Repr

end SankeyDiagram

/-- a Sankey diagram -/
structure SankeyDiagram where
  nodes : Entries SankeyDiagram.Node := .empty
  links : List SankeyDiagram.Link := []
deriving DecidableEq, Repr

namespace SankeyDiagram

/-! ## Reading -/

/-- a node that is named is there -/
def ensureNode (id : Text) (d : SankeyDiagram) : SankeyDiagram := { d with nodes := d.nodes.insertNew id ⟨id, id⟩ }

/-- the flow that a record describes -/
def linkOf (l : SourceLine) : List Text → Except ParseError Link
  | [source, target, value] =>
    if source = [] ∨ target = [] then .error (l.error .emptyEndpoint)
    else (l.number? 0 value).map (⟨source, target, ·⟩)
  | fields => .error (l.error (.fieldCount fields.length))

/-- the flow of a line -/
def link (l : SourceLine) : Except ParseError Link := (Record.split "," l 0 l.text).bind (linkOf l)

/-- adds a flow and the nodes it names -/
def addLink (d : SankeyDiagram) (k : Link) : SankeyDiagram :=
  let known := (d.ensureNode k.source).ensureNode k.target
  { known with links := known.links ++ [k] }

/-- reads a Sankey diagram -/
def read (text : Text) : Except ParseError SankeyDiagram := do
  let (header, body) := splitHeader .sankey (sourceLines true text)
  checkHeader .sankey header
  let links ← body.mapM link
  .ok (links.foldl addLink {})

/-! ## Printing -/

/-- the record of a flow -/
def Link.toText (k : Link) : Text :=
  Text.join "," [Record.formatField "," k.source, Record.formatField "," k.target, k.value.format]

/-- the canonical text of a Sankey diagram; records are never indented -/
def render (d : SankeyDiagram) : Text := Text.ofLines (("sankey-beta" : Text) :: [] :: d.links.map Link.toText)

end SankeyDiagram

end DiagramText

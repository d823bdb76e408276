/-
A flowchart being put together: what is known of the chart, and the subgraphs that are open, the innermost first.
-/
import DiagramText.Flowchart.Basic

namespace DiagramText.Flowchart

/-- a subgraph that is not closed yet, with a mark for what opened it -/
structure OpenSubgraph (ω : Type) where
  opener : ω
  subgraph : Subgraph

/-- a chart with its open subgraphs -/
structure Assembly (ω : Type) where
  chart : Flowchart
  open_ : List (OpenSubgraph ω)

namespace Assembly

variable {ω : Type}

/-- changes the innermost open subgraph -/
def inInnermost (f : Subgraph → Subgraph) (a : Assembly ω) : Assembly ω :=
  match a.open_ with
  | [] => a
  | o :: os => { a with open_ := { o with subgraph := f o.subgraph } :: os }

/-- makes a node a member of the innermost open subgraph -/
def mention (id : Text) (a : Assembly ω) : Assembly ω :=
  a.inInnermost fun s => if s.nodeIds.contains id then s else { s with nodeIds := s.nodeIds ++ [id] }

/-- defines a node anew, in its place when it has one -/
def defineNode (n : Node) (a : Assembly ω) : Assembly ω :=
  { a with chart := { a.chart with nodes := a.chart.nodes.insert n.id n } }.mention n.id

/-- a node that is only mentioned shows its id, unless it has been defined -/
def ensureNode (id : Text) (a : Assembly ω) : Assembly ω :=
  { a with chart := { a.chart with nodes := a.chart.nodes.insertNew id ⟨id, id, .default⟩ } }.mention id

/-- gives a style class to a node -/
def assignClass (id name : Text) (a : Assembly ω) : Assembly ω :=
  { a with chart := { a.chart with classAssignments := a.chart.classAssignments.assign id name } }

/-- adds a link -/
def link (l : Link) (a : Assembly ω) : Assembly ω := { a with chart := { a.chart with links := a.chart.links ++ [l] } }

/-- opens a subgraph in the innermost open one -/
def openSubgraph (opener : ω) (s : Subgraph) (a : Assembly ω) : Assembly ω :=
  { a with open_ := ⟨opener, s⟩ :: a.open_ }

/-- closes the innermost open subgraph; `none` when there is none -/
def closeSubgraph? (a : Assembly ω) : Option (Assembly ω) :=
  match a.open_ with
  | [] => none
  | [o] => some { chart := { a.chart with subgraphs := a.chart.subgraphs ++ [o.subgraph] }, open_ := [] }
  | o :: p :: os =>
    some { a with open_ := { p with subgraph := { p.subgraph with children := p.subgraph.children ++ [o.subgraph] } } :: os }

/-- sets the direction of the innermost open subgraph, or of the chart -/
def setDirection (d : Direction) (a : Assembly ω) : Assembly ω :=
  match a.open_ with
  | [] => { a with chart := { a.chart with direction := d } }
  | _ => a.inInnermost fun s => { s with direction := some d }

/-- adds properties to the style of a node -/
def styleNode (id : Text) (style : Style) (a : Assembly ω) : Assembly ω :=
  { a with chart := { a.chart with nodeStyles := a.chart.nodeStyles.alter id .empty (·.update style.toList) } }

/-- adds properties to the style of a link -/
def styleLink (key : Text) (style : Style) (a : Assembly ω) : Assembly ω :=
  { a with chart := { a.chart with linkStyles := a.chart.linkStyles.alter key .empty (·.update style.toList) } }

/-- defines a style class -/
def defineClass (name : Text) (style : Style) (a : Assembly ω) : Assembly ω :=
  { a with chart := { a.chart with classDefs := a.chart.classDefs.insert name style } }

/-- adds a reaction to a click -/
def click (c : Click) (a : Assembly ω) : Assembly ω := { a with chart := { a.chart with clicks := a.chart.clicks ++ [c] } }

/-- takes an accessibility text over -/
def describe (line : AccessibilityLine) (a : Assembly ω) : Assembly ω :=
  { a with chart := { a.chart with accessibility := a.chart.accessibility.put line } }

end Assembly

end DiagramText.Flowchart

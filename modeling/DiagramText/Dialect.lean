/-
The twelve diagram dialects: their tags, the keywords that open them, and which of them needs the grammar engine that
runs asynchronously.
-/
import DiagramText.Text.Basic

namespace DiagramText

/-- the kinds of diagram -/
inductive Dialect where
  | flowchart
  | sequence
  | classDiagram
  | state
  | pie
  | er
  | mindmap
  | quadrant
  | sankey
  | timeline
  | journey
  | xychart
deriving DecidableEq, Repr

namespace Dialect

/-- every dialect, in the order detection tries them -/
def all : List Dialect :=
  [flowchart, sequence, classDiagram, state, pie, er, mindmap, quadrant, sankey, timeline, journey, xychart]

/-- the name by which callers ask for a dialect -/
def tag : Dialect → Text
  | flowchart => "flowchart"
  | sequence => "sequence"
  | classDiagram => "class"
  | state => "state"
  | pie => "pie"
  | er => "er"
  | mindmap => "mindmap"
  | quadrant => "quadrant"
  | sankey => "sankey"
  | timeline => "timeline"
  | journey => "journey"
  | xychart => "xychart"

/-- the dialect of a tag -/
def ofTag? (t : Text) : Option Dialect := all.find? fun d => d.tag = t

/-- the words that may open a diagram, the first of them that stands alone being the one that is read -/
def keywords : Dialect → List Text
  | flowchart => ["flowchart", "graph"]
  | sequence => ["sequenceDiagram"]
  | classDiagram => ["classDiagram-v2", "classDiagram"]
  | state => ["stateDiagram-v2", "stateDiagram"]
  | pie => ["pie"]
  | er => ["erDiagram"]
  | mindmap => ["mindmap"]
  | quadrant => ["quadrantChart"]
  | sankey => ["sankey-beta", "sankey"]
  | timeline => ["timeline"]
  | journey => ["journey"]
  | xychart => ["xychart-beta", "xychart"]

/-- read only by the asynchronous entry point -/
def isAsync (d : Dialect) : Bool := d == pie

end Dialect

end DiagramText

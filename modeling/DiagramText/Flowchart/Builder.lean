/-
Building a flowchart call by call. Links, styles, classes and clicks may name nodes that are declared later; a validated
build refuses the first name that never is. A refused call ends every call around it, and what was done before it stays
done, subgraphs that it leaves open included.
-/
import DiagramText.Flowchart.Assembly
import DiagramText.Number.Integer
import DiagramText.Reference

namespace DiagramText.Flowchart

/-- the number of a link as a caller gives it -/
inductive LinkIndex where
  | number (n : Int)
  | text (t : Text)
deriving DecidableEq, Repr

/-- the text under which styles of the link are kept -/
def LinkIndex.key : LinkIndex → Text
  | number n => Text.ofInt n
  | text t => t

/-- the index as a message shows it -/
def LinkIndex.literal : LinkIndex → Text
  | number n => Text.ofInt n
  | text t => DiagramText.literal t

/-- why a call is refused -/
inductive CallError where
  | linkLength (length : Int)
  | bidirectional
  | linkIndex (index : LinkIndex)
deriving DecidableEq, Repr

/-- the wording of the error -/
def CallError.message : CallError → Text
  | linkLength n => "Link length must be at least 1, got " ++ Text.ofInt n
  | bidirectional => "Only arrow_point links can be bidirectional"
  | linkIndex i => "Link style index must be a number or 'default', got " ++ i.literal

/-- a call on the chart or on a subgraph of it -/
inductive ScopeCall where
  | node (id : Text) (label : Option Text) (shape : Option NodeShape)
  | link (l : Link)
  | subgraph (id : Text) (title : Option Text) (direction : Option Direction) (body : List ScopeCall)
  /-- makes a node a member of the subgraph -/
  | member (id : Text)
  | direction (d : Direction)

/-- a call on the chart -/
inductive Call where
  | scope (c : ScopeCall)
  | defineClass (name : Text) (style : Style)
  | assignClass (ids : List Text) (name : Text)
  | styleNode (id : Text) (style : Style)
  | click (c : Click)
  | styleLink (index : LinkIndex) (style : Style)
  | describe (line : AccessibilityLine)

/-- a chart under construction, and every name that a call has mentioned -/
structure Builder where
  assembly : Assembly Unit
  log : List Reference

namespace Builder

/-- nothing but a direction -/
def start (d : Direction) : Builder := ⟨⟨{ direction := d }, []⟩, []⟩

/-- changes the chart -/
def update (f : Assembly Unit → Assembly Unit) (b : Builder) : Builder := { b with assembly := f b.assembly }

/-- notes mentions -/
def mention (refs : List Reference) (b : Builder) : Builder := { b with log := b.log ++ refs }

/-- declares a node: with a label it is a square one unless it has a shape, without one it shows its id -/
def node (id : Text) (label : Option Text) (shape : Option NodeShape) (b : Builder) : Builder :=
  let usual : NodeShape := if label.isSome then .square else .default
  b.update (·.defineNode ⟨id, label.getD id, shape.getD usual⟩)

/-- why a link is refused -/
def linkError? (l : Link) : Option CallError :=
  if l.form.length < 1 then some (.linkLength l.form.length)
  else if l.form.bidirectional ∧ l.form.arrow ≠ .point then some .bidirectional
  else none

/-- adds a link; its ends become members of the open subgraph -/
def link (l : Link) (b : Builder) : Builder :=
  let construct := "link " ++ l.source ++ " --> " ++ l.target
  (b.mention [.entity construct l.source, .entity construct l.target]).update fun a =>
    ((a.mention l.source).mention l.target).link l

/-- gives a style class to a node -/
def assignClass (name : Text) (b : Builder) (id : Text) : Builder :=
  let construct := "class " ++ id ++ " " ++ name
  (b.mention [.entity construct id, .classDef construct name]).update (·.assignClass id name)

/-- opens a subgraph -/
def openSubgraph (id : Text) (title : Option Text) (direction : Option Direction) (b : Builder) : Builder :=
  b.update (·.openSubgraph () ⟨id, title.getD id, [], [], direction⟩)

/-- closes the innermost open subgraph -/
def closeSubgraph (b : Builder) : Builder := b.update fun a => a.closeSubgraph?.getD a

/-- makes a node a member of the open subgraph -/
def member (id : Text) (b : Builder) : Builder :=
  (b.mention [.entity ("subgraph member " ++ id) id]).update (·.mention id)

end Builder

mutual

/-- the state after a call on a scope, and why the call was refused -/
def ScopeCall.run (b : Builder) : ScopeCall → Builder × Option CallError
  | .node id label shape => (b.node id label shape, none)
  | .link l =>
    match Builder.linkError? l with
    | some e => (b, some e)
    | none => (b.link l, none)
  | .subgraph id title direction body =>
    match runAll (b.openSubgraph id title direction) body with
    | (b', none) => (b'.closeSubgraph, none)
    | (b', some e) => (b', some e)
  | .member id => (b.member id, none)
  | .direction d => (b.update (·.inInnermost fun s => { s with direction := some d }), none)

/-- the state after calls one after another, up to the first that is refused -/
def runAll (b : Builder) : List ScopeCall → Builder × Option CallError
  | [] => (b, none)
  | c :: cs =>
    match c.run b with
    | (b', none) => runAll b' cs
    | (b', some e) => (b', some e)

end

/-- the state after a call, and why the call was refused -/
def Call.run (b : Builder) : Call → Builder × Option CallError
  | .scope c => c.run b
  | .defineClass name style => (b.update (·.defineClass name style), none)
  | .assignClass ids name => (ids.foldl (Builder.assignClass name) b, none)
  | .styleNode id style => ((b.mention [.entity ("style " ++ id) id]).update (·.styleNode id style), none)
  | .click c => ((b.mention [.entity ("click " ++ c.nodeId) c.nodeId]).update (·.click c), none)
  | .styleLink index style =>
    if index.key = "default" ∨ Integer.looksLike index.key then (b.update (·.styleLink index.key style), none)
    else (b, some (.linkIndex index))
  | .describe line => (b.update (·.describe line), none)

namespace Builder

/-- the state after calls, those that are refused included -/
def run (b : Builder) (calls : List Call) : Builder := calls.foldl (fun b c => (c.run b).1) b

/-- the chart as it stands, without the subgraphs that are open -/
def chart (b : Builder) : Flowchart := b.assembly.chart

/-- the chart, unless a mentioned name is not declared -/
def build (b : Builder) : Except Reference Flowchart :=
  Reference.check b.chart.nodes.keys b.chart.classDefs.keys b.log b.chart

end Builder

end DiagramText.Flowchart

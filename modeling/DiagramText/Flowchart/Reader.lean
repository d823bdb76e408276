/-
Reading a flowchart: each statement changes the chart under construction, and every subgraph has to be closed.
-/
import DiagramText.Flowchart.Assembly
import DiagramText.Flowchart.Statement
import DiagramText.Source.Header

namespace DiagramText.Flowchart

/-- defines or merely mentions a node, and gives it its style class -/
def Assembly.meet {ω : Type} (a : Assembly ω) (m : Mention) : Assembly ω :=
  let defined := match m.shaped with
    | some (label, shape) => a.defineNode ⟨m.id, label, shape⟩
    | none => a.ensureNode m.id
  match m.className with
  | some name => defined.assignClass m.id name
  | none => defined

/-- meets the nodes of a group -/
def Assembly.meetGroup {ω : Type} (a : Assembly ω) (g : Group) : Assembly ω := g.foldl Assembly.meet a

/-- the links from every node of a group to every node of the next, source by source -/
def product (form : LinkForm) (sources targets : Group) : List Link :=
  sources.flatMap fun s => targets.map fun t => ⟨s.id, t.id, form⟩

/-- adds the links of a chain after its first group -/
def Assembly.follow {ω : Type} (a : Assembly ω) (from_ : Group) : List (LinkForm × Group) → Assembly ω
  | [] => a
  | (form, group) :: rest => ((product form from_ group).foldl (fun a l => a.link l) (a.meetGroup group)).follow group rest

/-- what a statement does to the chart -/
def Assembly.apply (l : SourceLine) (a : Assembly SourceLine) : Statement → Except ParseError (Assembly SourceLine)
  | .accessibility line => .ok (a.describe line)
  | .classDef names style => .ok (names.foldl (fun a n => a.defineClass n style) a)
  | .assignClass ids name => .ok (ids.foldl (fun a id => a.assignClass id name) a)
  | .style ids style => .ok (ids.foldl (fun a id => a.styleNode id style) a)
  | .linkStyle keys style => .ok (keys.foldl (fun a k => a.styleLink k style) a)
  | .click c => .ok (a.click c)
  | .direction d => .ok (a.setDirection d)
  | .openSubgraph id title => .ok (a.openSubgraph l ⟨id, title, [], [], none⟩)
  | .closeSubgraph =>
    match a.closeSubgraph? with
    | some closed => .ok closed
    | none => .error (l.error .endOutsideSubgraph)
  | .chain c => .ok ((a.meetGroup c.first).follow c.first c.links)

/-- reads a line into the chart under construction -/
def Assembly.readLine (a : Assembly SourceLine) (l : SourceLine) : Except ParseError (Assembly SourceLine) :=
  (Statement.read l).bind (a.apply l)

/-- the direction in the header, if there is one -/
def headerDirection : Option (SourceLine × Text) → Except ParseError Direction
  | none => .ok .tb
  | some (l, rest) =>
    let token := Text.trim rest
    if token = [] then .ok .tb else directionAt l token ((l.text.length : Int) - token.length)

/-- the chart, unless a subgraph is still open -/
def Assembly.finish (a : Assembly SourceLine) : Except ParseError Flowchart :=
  match a.open_ with
  | [] => .ok a.chart
  | o :: _ => .error (o.opener.error (.unclosedSubgraph o.subgraph.id))

/-- reads a flowchart -/
def read (text : Text) : Except ParseError Flowchart := do
  let (header, body) := splitHeader .flowchart (sourceLines true text)
  let direction ← headerDirection header
  let assembled ← body.foldlM Assembly.readLine ⟨{ direction := direction }, []⟩
  assembled.finish

end DiagramText.Flowchart

/-
The canonical text of a flowchart: subgraphs, node declarations, links, then style classes, styles, clicks and link
styles. A node is declared where it first appears; a link whose two ends are direct members of a subgraph is written in
the first such subgraph, so links may change places and link styles follow them.
-/
import DiagramText.Flowchart.Operator
import DiagramText.Number.Integer
import DiagramText.Options

namespace DiagramText.Flowchart

/-- one pass of the printer over a chart -/
structure Page where
  chart : Flowchart
  options : RenderOptions

/-- what has been written so far: the nodes met, and the numbers of the links still to write -/
structure Pending where
  met : List Text
  links : List Nat

/-- lines, and the numbers of the links in them in the order of writing -/
structure Written where
  lines : List Text
  order : List Nat

namespace Page

/-- the style class to write with the declaration of a node: its only one -/
def inlineClass (p : Page) (id : Text) : Option Text :=
  if p.options.inlineClasses && p.chart.nodes.contains id then
    match p.chart.classAssignments.get? id with
    | some [name] => Text.present (some name)
    | _ => none
  else none

/-- the declaration of a node -/
def nodeText (p : Page) (n : Node) : Text :=
  let (opening, closing) := n.shape.delimiters
  let text := if n.isBare then n.id else n.id ++ opening ++ labelText n.label ++ closing
  match p.inlineClass n.id with
  | some name => text ++ ":::" ++ name
  | none => text

/-- the link of a number -/
def link? (p : Page) (i : Nat) : Option Link := p.chart.links[i]?

/-- links one under another, or those that continue each other on one line -/
def linkLines (compact : Bool) : List Link → List Text
  | [] => []
  | [l] => [l.source ++ " " ++ l.form.toText ++ " " ++ l.target]
  | l :: m :: rest =>
    match linkLines compact (m :: rest) with
    | line :: lines =>
      if compact && m.source = l.target then (l.source ++ " " ++ l.form.toText ++ " " ++ line) :: lines
      else (l.source ++ " " ++ l.form.toText ++ " " ++ l.target) :: line :: lines
    | [] => []

/-- the lines of the links of some numbers -/
def links (p : Page) (numbers : List Nat) (margin : Text) : List Text :=
  (linkLines p.options.compactLinks (numbers.filterMap p.link?)).map (margin ++ ·)

/-- a member of a subgraph, declared when it is met for the first time -/
def memberText (p : Page) (met : List Text) (id : Text) : Text :=
  match p.chart.nodes.get? id with
  | some n => if met.contains id then id else p.nodeText n
  | none => id

/-- the members of a subgraph, and the nodes met after them -/
def members (p : Page) (margin : Text) : List Text → List Text → List Text × List Text
  | met, [] => ([], met)
  | met, id :: ids =>
    let (lines, met') := members p margin (id :: met) ids
    ((margin ++ p.memberText met id) :: lines, met')

/-- the title of a subgraph in brackets, unless it is the id -/
def subgraphTitle (s : Subgraph) : Text := if s.title = s.id then [] else "[" ++ labelText s.title ++ "]"

/-- the line that opens a subgraph -/
def subgraphHead (s : Subgraph) : Text := "subgraph " ++ s.id ++ subgraphTitle s

/-- the pending links that both start and end at direct members -/
def inside (p : Page) (s : Subgraph) (i : Nat) : Bool :=
  match p.link? i with
  | some l => s.lists l
  | none => false

mutual

/-- a subgraph: its direction, members, children, and the links it takes before its children do -/
def subgraph (p : Page) (depth : Nat) (pending : Pending) : Subgraph → Written × Pending
  | s@⟨_, _, nodeIds, children, direction⟩ =>
    let margin := p.options.levels depth
    let inner := p.options.levels (depth + 1)
    let own := pending.links.filter (p.inside s)
    let (memberLines, met) := p.members inner pending.met nodeIds
    let (below, pending) := p.subgraphs (depth + 1) ⟨met, pending.links.filter fun i => !p.inside s i⟩ children
    (⟨(margin ++ subgraphHead s)
          :: (direction.map fun d => inner ++ "direction " ++ d.toText).toList
          ++ memberLines ++ below.lines ++ p.links own inner ++ [margin ++ "end"],
        below.order ++ own⟩, pending)

/-- subgraphs one after another -/
def subgraphs (p : Page) (depth : Nat) (pending : Pending) : List Subgraph → Written × Pending
  | [] => (⟨[], []⟩, pending)
  | s :: rest =>
    let (first, pending) := p.subgraph depth pending s
    let (others, pending) := p.subgraphs depth pending rest
    (⟨first.lines ++ others.lines, first.order ++ others.order⟩, pending)

end

/-- the node is the end of a link -/
def isLinked (p : Page) (id : Text) : Bool := p.chart.links.any fun l => l.source == id || l.target == id

/-- the declarations of the nodes that no subgraph has and that no link alone can introduce -/
def declarations (p : Page) (met : List Text) : List Node → List Text
  | [] => []
  | n :: rest =>
    if !met.contains n.id && (!n.isBare || !p.isLinked n.id || (p.inlineClass n.id).isSome) then
      (p.options.unit ++ p.nodeText n) :: p.declarations (n.id :: met) rest
    else p.declarations met rest

/-- the nodes in the order of their declarations -/
def nodes (p : Page) : List Node :=
  if p.options.sortEntities then p.chart.nodes.values.mergeSort fun a b => Text.le a.id b.id else p.chart.nodes.values

/-- subgraphs, declarations and links -/
def body (p : Page) : Written :=
  let (grouped, pending) := p.subgraphs 1 ⟨[], List.range p.chart.links.length⟩ p.chart.subgraphs
  ⟨grouped.lines ++ p.declarations pending.met p.nodes ++ p.links pending.links p.options.unit,
    grouped.order ++ pending.links⟩

/-- the key of a link style once the links have changed places -/
def linkStyleKey (p : Page) (order : List Nat) (key : Text) : Except IntegerError Text :=
  if Integer.looksLike key then
    (Integer.read key).map fun n => if n < p.chart.links.length then Text.ofNat (order.idxOf n) else key
  else .ok key

end Page

/-- a click statement -/
def Click.toText : Click → Text
  | .href node target tooltip linkTarget =>
    "click " ++ node ++ " href " ++ quote target
      ++ (match tooltip with | some t => ' ' :: quote t | none => [])
      ++ (match Text.present linkTarget with | some t => ' ' :: t | none => [])
  | .callback node function args tooltip =>
    "click " ++ node ++ " call " ++ function ++ "(" ++ args.getD [] ++ ")"
      ++ (match tooltip with | some t => ' ' :: quote t | none => [])

/-- the canonical text of a flowchart; a link style can have a key that is no number -/
def render (d : Flowchart) (o : RenderOptions) : Except IntegerError Text := do
  let p : Page := ⟨d, o⟩
  let margin := o.unit
  let body := p.body
  let linkStyles ← d.linkStyles.toList.mapM fun (key, style) =>
    (p.linkStyleKey body.order key).map fun k => margin ++ "linkStyle " ++ k ++ " " ++ style.toText
  .ok (Text.ofLines
    (("flowchart " ++ d.direction.toText) :: d.accessibility.lines margin
      ++ body.lines
      ++ d.classDefs.toList.map (fun (name, style) => Text.trimRight (margin ++ "classDef " ++ name ++ " " ++ style.toText))
      ++ d.classAssignments.toList.flatMap (fun (id, names) =>
          if (p.inlineClass id).isSome then [] else names.map fun name => margin ++ "class " ++ id ++ " " ++ name)
      ++ d.nodeStyles.toList.map (fun (id, style) => margin ++ "style " ++ id ++ " " ++ style.toText)
      ++ d.clicks.map (fun c => margin ++ c.toText)
      ++ linkStyles))

end DiagramText.Flowchart

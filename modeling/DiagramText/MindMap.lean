/-
Mind maps: one tree of nodes, read from indentation alone. The parent of a node line is the last line before it that is
indented less; icon and class lines decorate the node line before them.
-/
import DiagramText.Options
import DiagramText.Source.Header
import DiagramText.Text.Quoted

namespace DiagramText

namespace MindMap

/-- the outline of a node -/
inductive Shape where
  | default
  | square
  | rounded
  | circle
  | bang
  | cloud
  | hexagon
deriving DecidableEq, Repr

namespace Shape

/-- the name of the shape -/
def tag : Shape → Text
  | default => "default"
  | square => "square"
  | rounded => "rounded"
  | circle => "circle"
  | bang => "bang"
  | cloud => "cloud"
  | hexagon => "hexagon"

/-- the shapes that have delimiters, in the order in which a reader tries them: longer delimiters first -/
def delimited : List Shape := [circle, bang, hexagon, square, rounded, cloud]

/-- what stands before and after the label; a default node has a label alone -/
def delimiters : Shape → Text × Text
  | default => ([], [])
  | square => ("[", "]")
  | rounded => ("(", ")")
  | circle => ("((", "))")
  | bang => ("))", "((")
  | cloud => (")", "(")
  | hexagon => ("\x7b\x7b", "\x7d\x7d")

end Shape

/-- a node apart from its children -/
structure Topic where
  id : Text
  label : Text
  shape : Shape
  icon : Option Text := none
  cssClass : Option Text := none
deriving DecidableEq, Repr

/-- a node and all below it -/
inductive Node where
  | node (topic : Topic) (children : List Node)
deriving Repr

end MindMap

/-- a mind map; it may be empty -/
structure MindMap where
  root : Option MindMap.Node := none
deriving Repr

namespace MindMap

/-! ## Lines -/

/-- what a line says -/
inductive Line where
  | icon (name : Text)
  | cssClass (name : Text)
  | topic (t : Topic)
deriving DecidableEq, Repr

/-- a bracket, a parenthesis or a brace -/
def isBracket (c : Char) : Bool :=
  c = '[' || c = ']' || c = '(' || c = ')' || c = '\x7b' || c = '\x7d'

/-- what stands before a known ending, unless that is empty -/
def beforeEnding? (ending t : Text) : Option Text :=
  (Text.dropPrefix? ending.reverse t.reverse).bind fun r => Text.present (some r.reverse)

/-- a node in the delimiters of a shape; without an id of its own its label is its id -/
def shaped? (t : Text) (shape : Shape) : Option Topic :=
  let (id, rest) := Text.span (fun c => !isBlank c && !isBracket c) t
  ((Text.dropPrefix? shape.delimiters.1 rest).bind (beforeEnding? shape.delimiters.2)).map fun raw =>
    let label := unquote (Text.trim raw)
    ⟨if id = [] then label else id, label, shape, none, none⟩

/-- the node of a line; text in no delimiters is the label of a default node -/
def Topic.read (t : Text) : Topic := (Shape.delimited.findSome? (shaped? t)).getD ⟨t, t, .default, none, none⟩

/-- the name of an icon -/
def icon? (t : Text) : Option Text :=
  (Text.dropPrefix? "::icon(" t).bind fun rest =>
    if rest.getLast? = some ')' then some (Text.trim rest.dropLast) else none

/-- the name of a style class -/
def cssClass? (t : Text) : Option Text :=
  (Text.dropPrefix? ":::" t).bind fun rest => Text.present (some (Text.trim rest))

/-- what a line says -/
def Line.read (t : Text) : Line :=
  let decoration : Option Line := (icon? t).map .icon <|> (cssClass? t).map .cssClass
  decoration.getD (.topic (Topic.read t))

/-! ## Trees from indentation -/

/-- a node line with its decorations -/
structure Item where
  line : SourceLine
  topic : Topic
deriving DecidableEq, Repr

/-- the width of the white space before the node -/
def Item.width (i : Item) : Nat := i.line.indent.length

/-- a tree whose root stands on a line -/
structure Rooted where
  item : Item
  node : Node
deriving Repr

/-- puts a node before a forest: the trees before it that are indented more become its children -/
def plant (i : Item) (forest : List Rooted) : List Rooted :=
  let isBelow (r : Rooted) : Bool := i.width < r.item.width
  ⟨i, .node i.topic ((forest.takeWhile isBelow).map Rooted.node)⟩ :: forest.dropWhile isBelow

/-- the trees of some node lines: the parent of each is the last one before it that is indented less -/
def forest (items : List Item) : List Rooted := items.foldr plant []

/-! ## Reading -/

/-- changes the last of the node lines, which are in reverse order -/
def decorate (l : SourceLine) (cause : Cause) (f : Topic → Topic) : List Item → Except ParseError (List Item)
  | [] => .error (l.error cause)
  | i :: rest => .ok ({ i with topic := f i.topic } :: rest)

/-- reads a line after node lines, which are in reverse order -/
def readLine (items : List Item) (l : SourceLine) : Except ParseError (List Item) :=
  match Line.read l.text with
  | .icon name => decorate l .iconWithoutNode (fun t => { t with icon := some name }) items
  | .cssClass name => decorate l .classWithoutNode (fun t => { t with cssClass := some name }) items
  | .topic t => .ok (⟨l, t⟩ :: items)

/-- the map whose root is the only tree -/
def ofForest : List Rooted → Except ParseError MindMap
  | [] => .ok {}
  | [r] => .ok { root := some r.node }
  | _ :: second :: _ => .error (second.item.line.error .secondRoot)

/-- reads a mind map -/
def read (text : Text) : Except ParseError MindMap := do
  let items ← (splitHeader .mindmap (sourceLines false text)).2.foldlM readLine []
  ofForest (forest items.reverse)

/-! ## Printing -/

/-- a character that cannot stand at the edge of a bare label -/
def isEdge (c : Option Char) : Bool := c.all fun c => isBlank c || isBracket c || c = '"'

/-- a label that would be read differently without quotes -/
def needsQuotes (label : Text) : Bool := isEdge label.head? || isEdge label.getLast?

/-- a node on a line -/
def Topic.toText (t : Topic) : Text :=
  if t.shape = .default then t.label
  else
    let label := if needsQuotes t.label then quote t.label else t.label
    (if t.id = t.label then [] else t.id) ++ t.shape.delimiters.1 ++ label ++ t.shape.delimiters.2

/-- a node with its decorations, each on a line -/
def Topic.lines (o : RenderOptions) (depth : Nat) (t : Topic) : List Text :=
  let margin := o.levels depth
  (margin ++ t.toText) :: ((Text.present t.icon).map fun (name : Text) => margin ++ "::icon(" ++ name ++ ")").toList
    ++ ((Text.present t.cssClass).map (margin ++ ":::" ++ ·)).toList

mutual

/-- the lines of a node and of all below it -/
def Node.lines (o : RenderOptions) (depth : Nat) : Node → List Text
  | .node t children => t.lines o depth ++ linesOf o (depth + 1) children

/-- the lines of nodes of one depth and of all below them -/
def linesOf (o : RenderOptions) (depth : Nat) : List Node → List Text
  | [] => []
  | n :: rest => n.lines o depth ++ linesOf o depth rest

end

/-- the canonical text of a mind map -/
def render (m : MindMap) (o : RenderOptions) : Text :=
  Text.ofLines (("mindmap" : Text) :: linesOf o 1 m.root.toList)

end MindMap

end DiagramText

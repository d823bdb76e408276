/-
Quadrant charts: named points in a square whose two axes and four quarters have labels.
-/
import DiagramText.Accessibility
import DiagramText.Entries
import DiagramText.Number.Format
import DiagramText.Options
import DiagramText.Source.Header
import DiagramText.Text.Quoted

namespace DiagramText

namespace QuadrantChart

/-- the labels at the two ends of an axis -/
structure Axis where
  low : Option Text := none
  high : Option Text := none
deriving DecidableEq, Repr

/-- the labels of the four quarters -/
structure Quarters where
  first : Option Text := none
  second : Option Text := none
  third : Option Text := none
  fourth : Option Text := none
deriving DecidableEq, Repr

/-- the labels with the numbers of their quarters -/
def Quarters.toList (q : Quarters) : List (Text × Option Text) :=
  [("1", q.first), ("2", q.second), ("3", q.third), ("4", q.fourth)]

/-- a point with its place -/
structure Point where
  name : Text
  x : Binary64
  y : Binary64
  className : Option Text
  styles : List Text
deriving DecidableEq, Repr

end QuadrantChart

/-- a quadrant chart -/
structure QuadrantChart where
  title : Option Text := none
  xAxis : QuadrantChart.Axis := {}
  yAxis : QuadrantChart.Axis := {}
  quarters : QuadrantChart.Quarters := {}
  points : List QuadrantChart.Point := []
  classDefs : Entries (List Text) := .empty
  accessibility : Accessibility := {}
deriving DecidableEq, Repr

namespace QuadrantChart

/-! ## Lines -/

/-- one of the four quarters -/
inductive Quarter where
  | first
  | second
  | third
  | fourth
deriving DecidableEq, Repr

/-- what a line says -/
inductive Line where
  | accessibility (line : AccessibilityLine)
  | title (text : Text)
  | xAxis (a : Axis)
  | yAxis (a : Axis)
  | quarter (q : Quarter) (label : Text)
  | classDef (name : Text) (styles : List Text)
  | point (p : Point)
deriving DecidableEq, Repr

/-- a label that may stand in quotes; an empty one is none -/
def label? (t : Text) : Option Text := Text.present (some (unquote (Text.trim t)))

/-- the labels before and after an arrow, or the one before it alone -/
def Axis.ofText (t : Text) : Axis :=
  match Text.cut? "-->" t with
  | some (low, high) => ⟨label? low, label? high⟩
  | none => ⟨label? t, none⟩

/-- the label of a quarter, after its keyword and its number -/
def quarter? (t : Text) : Option Line :=
  ([("1", .first), ("2", .second), ("3", .third), ("4", .fourth)] : List (Text × Quarter)).findSome? fun (digit, q) =>
    (dropKeyword? "quadrant-" t).bind fun rest => (Scan.keywordText? digit rest).map fun text => .quarter q (unquote text)

/-- the definition of a style class -/
def classDef? (t : Text) : Option Line :=
  ((Scan.word? "classDef" t).bind (Scan.run? isWordOrHyphen)).bind fun (name, rest) =>
    (Scan.optionalRest? rest).map fun styles => .classDef name (Text.items ',' styles)

/-- what follows a known character, which white space may surround -/
def afterMark? (mark : Char) (t : Text) : Option Text :=
  match Scan.blanks t with
  | c :: r => if c = mark then some (Scan.blanks r) else none
  | [] => none

/-- a colon, the two coordinates in square brackets, and styles -/
def place? (t : Text) : Option (Binary64 × Binary64 × List Text) :=
  ((afterMark? ':' t).bind fun r => (afterMark? '[' r).bind Decimal.read?).bind fun (x, rest) =>
    ((afterMark? ',' rest).bind Decimal.read?).bind fun (y, rest) =>
      (afterMark? ']' rest).map fun styles => (x.value, y.value, Text.items ',' styles)

/-- what follows the name of a point: perhaps a style class, and the place -/
def pointTail? (name t : Text) : Option Point :=
  let classed := ((Text.dropPrefix? ":::" t).bind (Scan.run? isWordOrHyphen)).bind fun (className, rest) =>
    (place? rest).map fun (x, y, styles) => ⟨name, x, y, some className, styles⟩
  classed <|> (place? t).map fun (x, y, styles) => ⟨name, x, y, none, styles⟩

/-- a point; its name is the shortest after which the rest can be read -/
def point? (t : Text) : Option Point :=
  Scan.shortest (fun _ => true)
    (fun name rest => if name = [] then none else pointTail? (unquote (Text.trim name)) rest) t

/-- what a line says; `none` when it says nothing -/
def Line.read? (t : Text) : Option Line :=
  (Accessibility.line? t).map .accessibility
    <|> (Scan.keywordText? "title" t).map .title
    <|> (Scan.keywordText? "x-axis" t).map (fun text => .xAxis (Axis.ofText text))
    <|> (Scan.keywordText? "y-axis" t).map (fun text => .yAxis (Axis.ofText text))
    <|> quarter? t
    <|> classDef? t
    <|> (point? t).map .point

/-! ## Reading -/

/-- labels a quarter -/
def Quarters.put (q : Quarters) (label : Text) : Quarter → Quarters
  | .first => { q with first := some label }
  | .second => { q with second := some label }
  | .third => { q with third := some label }
  | .fourth => { q with fourth := some label }

/-- what a line does to the chart -/
def apply (c : QuadrantChart) : Line → QuadrantChart
  | .accessibility line => { c with accessibility := c.accessibility.put line }
  | .title text => { c with title := some text }
  | .xAxis a => { c with xAxis := a }
  | .yAxis a => { c with yAxis := a }
  | .quarter q label => { c with quarters := c.quarters.put label q }
  | .classDef name styles => { c with classDefs := c.classDefs.insert name styles }
  | .point p => { c with points := c.points ++ [p] }

/-- reads a line into a chart -/
def readLine (c : QuadrantChart) (l : SourceLine) : Except ParseError QuadrantChart :=
  match Line.read? l.text with
  | some line => .ok (c.apply line)
  | none => .error (l.error (.invalidStatement .quadrant l.text))

/-- reads a quadrant chart -/
def read (text : Text) : Except ParseError QuadrantChart :=
  (splitHeader .quadrant (sourceLines true text)).2.foldlM readLine {}

/-! ## Printing -/

/-- an axis on a line, unless it has no labels -/
def Axis.toText? (name : Text) (a : Axis) : Option Text :=
  match a.low, a.high with
  | none, none => none
  | some low, none => some (name ++ " " ++ quote low)
  | low, some high => some (name ++ " " ++ quote (low.getD []) ++ " --> " ++ quote high)

/-- a name that would be read differently without quotes -/
def needsQuotes (name : Text) : Bool := name.contains ':' || name.contains '"' || Text.trim name ≠ name

/-- a point on a line -/
def Point.toText (p : Point) : Text :=
  let name := if needsQuotes p.name then quote p.name else p.name
  let className : Text := match Text.present p.className with
    | some c => ":::" ++ c
    | none => []
  let styles : Text := if p.styles = [] then [] else ' ' :: Text.join ", " p.styles
  name ++ className ++ ": [" ++ p.x.format ++ ", " ++ p.y.format ++ "]" ++ styles

/-- the points in the order of writing -/
def orderedPoints (c : QuadrantChart) (o : RenderOptions) : List Point :=
  if o.sortEntities then c.points.mergeSort fun a b => Text.le a.name b.name else c.points

/-- the canonical text of a quadrant chart -/
def render (c : QuadrantChart) (o : RenderOptions) : Text :=
  let margin := o.unit
  Text.ofLines
    (("quadrantChart" : Text) :: ((Text.present c.title).map (margin ++ "title " ++ ·)).toList
      ++ c.accessibility.lines margin
      ++ (c.xAxis.toText? "x-axis").toList.map (margin ++ ·)
      ++ (c.yAxis.toText? "y-axis").toList.map (margin ++ ·)
      ++ c.quarters.toList.filterMap (fun (number, label) =>
          (Text.present label).map fun (label : Text) => margin ++ "quadrant-" ++ number ++ " " ++ label)
      ++ (orderedPoints c o).map (margin ++ ·.toText)
      ++ c.classDefs.toList.map (fun (name, styles) =>
          Text.trimRight (margin ++ "classDef " ++ name ++ " " ++ Text.join ", " styles)))

end QuadrantChart

end DiagramText

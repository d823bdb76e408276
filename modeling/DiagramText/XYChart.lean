/-
Charts of series over two axes. The x-axis has categories or a range of numbers, the y-axis a range.
-/
import DiagramText.Accessibility
import DiagramText.Number.Format
import DiagramText.Options
import DiagramText.Source.Header
import DiagramText.Source.Record
import DiagramText.Text.Quoted

namespace DiagramText

namespace XYChart

/-- an axis of numbers; without bounds they follow from the values -/
structure Range where
  title : Option Text := none
  low : Option Binary64 := none
  high : Option Binary64 := none
deriving DecidableEq, Repr

/-- an axis: categories, or numbers -/
inductive Axis where
  | band (title : Option Text) (categories : List Text)
  | range (r : Range)
deriving DecidableEq, Repr

/-- values drawn together; the kind is `line` or `bar` in small letters -/
structure Series where
  kind : Text
  values : List Binary64
  label : Option Text
deriving DecidableEq, Repr

end XYChart

/-- a chart of series over two axes -/
structure XYChart where
  isHorizontal : Bool := false
  title : Option Text := none
  xAxis : Option XYChart.Axis := none
  yAxis : Option XYChart.Range := none
  series : List XYChart.Series := []
  accessibility : Accessibility := {}
deriving DecidableEq, Repr

namespace XYChart

/-! ## Lines -/

/-- a series as it stands on a line; `fromValues` is what is left of the line from the values on -/
structure SeriesText where
  kind : Text
  label : Option Text
  values : Text
  fromValues : Text
deriving DecidableEq, Repr

/-- what a line says -/
inductive Line where
  | accessibility (line : AccessibilityLine)
  | title (text : Text)
  | xAxis (text : Text)
  | yAxis (text : Text)
  | series (s : SeriesText)
deriving DecidableEq, Repr

/-- an axis keyword, alone or with a text after white space -/
def axis? (keyword t : Text) : Option Text := ((dropKeyword? keyword t).bind Scan.optionalRest?).map Text.trim

/-- what follows the keyword of a series -/
def seriesTail? (kind t : Text) : Option SeriesText :=
  let (label, rest) := Scan.optionalQuoted (Scan.blanks t)
  match rest with
  | '[' :: r =>
    if r.getLast? = some ']' then some ⟨Text.lower kind, label.map unquote, r.dropLast, r⟩ else none
  | _ => none

/-- a series: a kind in any letter case, perhaps a label, and values in square brackets -/
def series? (t : Text) : Option SeriesText :=
  (["line", "bar"] : List Text).findSome? fun keyword =>
    (dropKeyword? keyword t).bind (seriesTail? (t.take keyword.length))

/-- what a line says; `none` when it says nothing -/
def Line.read? (t : Text) : Option Line :=
  (Accessibility.line? t).map .accessibility
    <|> (Scan.keywordText? "title" t).map (fun text => .title (unquote text))
    <|> (axis? "x-axis" t).map .xAxis
    <|> (axis? "y-axis" t).map .yAxis
    <|> (series? t).map .series

/-! ## Axes and values -/

/-- the title of an axis, and what follows it: a text in quotes, or a first word that is not a number -/
def axisTitle (l : SourceLine) (t : Text) : Except ParseError (Option Text × Text) :=
  match t with
  | [] => .ok (none, [])
  | '[' :: _ => .ok (none, t)
  | '"' :: _ =>
    match Scan.quoted? t with
    | some (token, rest) => .ok (some (unquote token), Text.trim rest)
    | none => .error (l.error .unterminatedAxisTitle)
  | _ =>
    let (word, rest) := Text.span (· ≠ ' ') t
    if (Decimal.ofText? word).isSome then .ok (none, t) else .ok (some word, Text.trim rest)

/-- nothing, or two numbers with an arrow between them -/
def range (l : SourceLine) (title : Option Text) (t : Text) : Except ParseError Range :=
  if t = [] then .ok { title := title }
  else
    let bounds := (Decimal.read? t).bind fun (low, rest) =>
      (Text.dropPrefix? "-->" (Scan.blanks rest)).bind fun rest =>
        (Decimal.ofText? (Scan.blanks rest)).map fun high => (low, high)
    match bounds with
    | some (low, high) => .ok ⟨title, some low.value, some high.value⟩
    | none => .error (l.error (.invalidRange t))

/-- a list of categories after its opening bracket -/
def categories (l : SourceLine) (t : Text) : Except ParseError (List Text) :=
  if t.getLast? = some ']' then
    if Text.trim t.dropLast = [] then .ok [] else Record.split "," l 0 t.dropLast
  else .error (l.error .unterminatedCategories)

/-- an axis that may have categories -/
def readXAxis (l : SourceLine) (t : Text) : Except ParseError Axis :=
  (axisTitle l t).bind fun (title, body) =>
    match body with
    | '[' :: r => (categories l r).map (.band title)
    | _ => (range l title body).map .range

/-- an axis that has none -/
def readYAxis (l : SourceLine) (t : Text) : Except ParseError Range :=
  (axisTitle l t).bind fun (title, body) =>
    match body with
    | '[' :: _ => .error (l.error .categoriesOffXAxis)
    | _ => range l title body

/-- the values of a series -/
def SeriesText.read (l : SourceLine) (s : SeriesText) : Except ParseError Series :=
  let offset := (l.text.length : Int) - s.fromValues.length
  let values := if Text.trim s.values = [] then .ok [] else (Text.splitOn ',' s.values).mapM (l.number? offset)
  values.map fun values => ⟨s.kind, values, s.label⟩

/-! ## Reading -/

/-- reads a line into a chart -/
def readLine (c : XYChart) (l : SourceLine) : Except ParseError XYChart :=
  match Line.read? l.text with
  | some (.accessibility line) => .ok { c with accessibility := c.accessibility.put line }
  | some (.title text) => .ok { c with title := some text }
  | some (.xAxis text) => (readXAxis l text).map fun a => { c with xAxis := some a }
  | some (.yAxis text) => (readYAxis l text).map fun r => { c with yAxis := some r }
  | some (.series s) => (s.read l).map fun s => { c with series := c.series ++ [s] }
  | none => .error (l.error (.invalidStatement .xychart l.text))

/-- whether the header says that the chart lies on its side -/
def headerIsHorizontal : Option (SourceLine × Text) → Except ParseError Bool
  | none => .ok false
  | some (l, rest) =>
    let word := Text.lower (Text.trim rest)
    if word = "horizontal" then .ok true
    else if word = "vertical" ∨ word = [] then .ok false
    else .error (l.error (.unknownOrientation word))

/-- reads a chart -/
def read (text : Text) : Except ParseError XYChart := do
  let (header, body) := splitHeader .xychart (sourceLines true text)
  let isHorizontal ← headerIsHorizontal header
  body.foldlM readLine { isHorizontal := isHorizontal }

/-! ## Printing -/

/-- the title of an axis in quotes, after a blank -/
def titleText (title : Option Text) : Text :=
  match title with
  | some t => ' ' :: quote t
  | none => []

/-- a category in quotes, the quotes inside it doubled -/
def categoryText (category : Text) : Text := '"' :: Text.replace "\"" "\"\"" category ++ ['"']

/-- a range on a line; bounds are only written together -/
def Range.toText (name : Text) (r : Range) : Text :=
  let bounds : Text := match r.low, r.high with
    | some low, some high => ' ' :: low.format ++ " --> " ++ high.format
    | _, _ => []
  name ++ titleText r.title ++ bounds

/-- an axis on a line -/
def Axis.toText (name : Text) : Axis → Text
  | .band title categories => name ++ titleText title ++ " [" ++ Text.join ", " (categories.map categoryText) ++ "]"
  | .range r => r.toText name

/-- a series on a line -/
def Series.toText (s : Series) : Text :=
  s.kind ++ titleText s.label ++ " [" ++ Text.join ", " (s.values.map Binary64.format) ++ "]"

/-- the canonical text of a chart -/
def render (c : XYChart) (o : RenderOptions) : Text :=
  let margin := o.unit
  Text.ofLines
    ((if c.isHorizontal then "xychart-beta horizontal" else "xychart-beta" : Text)
      :: ((Text.present c.title).map (margin ++ "title " ++ quote ·)).toList
      ++ c.accessibility.lines margin
      ++ c.xAxis.toList.map (margin ++ ·.toText "x-axis")
      ++ c.yAxis.toList.map (margin ++ ·.toText "y-axis")
      ++ c.series.map (margin ++ ·.toText))

end XYChart

end DiagramText

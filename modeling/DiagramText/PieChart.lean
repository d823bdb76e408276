/-
Pie charts, read by the rules of a parsing expression grammar: of several readings the first that fits is taken, and what
an option or a repetition has taken is not given back.

    document  <- blank* header? line*
    header    <- padding "pie" data? heading? lineEnd
    line      <- blank / statement
    statement <- padding (accTitle / accDescr / title / slice) lineEnd
    blank     <- padding comment? lineEnd
    lineEnd   <- padding ";"? padding "\n"

A document never fails: it stops before the first line that is of none of these kinds, and what it leaves is reported.
-/
import DiagramText.Accessibility
import DiagramText.Number.Format
import DiagramText.Options
import DiagramText.Source.Error
import DiagramText.Text.Quoted

namespace DiagramText

/-- a labelled share of the whole -/
structure PieChart.Slice where
  label : Text
  value : Binary64
deriving DecidableEq, Repr

/-- a pie chart -/
structure PieChart where
  title : Option Text := none
  /-- values are shown beside the labels -/
  showData : Bool := false
  slices : List PieChart.Slice := []
  accessibility : Accessibility := {}
deriving DecidableEq, Repr

namespace PieChart

/-! ## The ends of lines -/

/-- drops leading spaces and tabs -/
def unpad (t : Text) : Text := t.dropWhile isPadding

/-- drops leading spaces and tabs, of which there has to be one -/
def unpad? : Text → Option Text
  | [] => none
  | c :: r => if isPadding c then some (unpad r) else none

/-- letter case as the keywords of a pie chart ignore it: as elsewhere, but a dotless i is a letter of its own -/
def foldLetter (c : Char) : Char := if c = 'ı' then c else foldCase c

/-- what follows a keyword of a pie chart -/
def dropWord? (keyword t : Text) : Option Text := dropFolded? foldLetter keyword t

/-- the line ends here, perhaps after spaces, tabs and a semicolon -/
def lineEnd? (t : Text) : Option Text :=
  let t := unpad t
  Text.dropPrefix? "\n" (unpad ((Text.dropPrefix? ";" t).getD t))

/-- what is left of a line before its end, as short as can be, and trimmed -/
def remark? (t : Text) : Option (Text × Text) :=
  Scan.shortest Scan.notLineFeed
    (fun run rest => if (lineEnd? rest).isSome then some (Text.trim run, rest) else none) t

/-! ## Lines -/

/-- what a line below the header says -/
inductive Line where
  | blank
  | accessibility (line : AccessibilityLine)
  | title (text : Text)
  | slice (s : Slice)
deriving DecidableEq, Repr

/-- a comment is all that is left of its line -/
def comment? (t : Text) : Option Text := (Text.dropPrefix? "%%" t).map (·.dropWhile Scan.notLineFeed)

/-- a line without meaning: a comment, or nothing -/
def blank? (t : Text) : Option (Line × Text) :=
  let t := unpad t
  (lineEnd? ((comment? t).getD t)).map (.blank, ·)

/-- the text after a keyword and a colon -/
def accessible? (keyword t : Text) : Option (Text × Text) :=
  (Text.dropPrefix? keyword t).bind fun t => (Text.dropPrefix? ":" (unpad t)).bind fun t => remark? (unpad t)

/-- the text after the keyword of a title -/
def title? (t : Text) : Option (Text × Text) := ((dropWord? "title" t).bind unpad?).bind remark?

/-- a label: a text in quotes, on one line -/
def label? (t : Text) : Option (Text × Text) := (Scan.quoted? t).filter fun (token, _) => !token.contains '\n'

/-- a label, a colon and a number -/
def slice? (t : Text) : Option (Slice × Text) :=
  (label? t).bind fun (token, t) =>
    (Text.dropPrefix? ":" (unpad t)).bind fun t =>
      (Decimal.read? (unpad t)).map fun (number, t) => (⟨unquote token, number.value⟩, t)

/-- what a line says; the first kind that fits decides, whatever the line goes on with -/
def said? (t : Text) : Option (Line × Text) :=
  (accessible? "accTitle" t).map (fun (v, t) => (.accessibility (.title v), t))
    <|> (accessible? "accDescr" t).map (fun (v, t) => (.accessibility (.description v), t))
    <|> (title? t).map (fun (v, t) => (.title v, t))
    <|> (slice? t).map (fun (s, t) => (.slice s, t))

/-- a line that says something -/
def statement? (t : Text) : Option (Line × Text) :=
  (said? (unpad t)).bind fun (line, t) => (lineEnd? t).map (line, ·)

/-- a line below the header -/
def line? (t : Text) : Option (Line × Text) := blank? t <|> statement? t

/-- the chart that a header begins: the keyword alone in any letter case, whether data is shown, and a title -/
def header? (t : Text) : Option (PieChart × Text) :=
  (dropWord? "pie" (unpad t)).bind fun t =>
    if Scan.startsWith isWordOrHyphen t then none
    else
      let data := (unpad? t).bind (dropWord? "showData")
      let t := data.getD t
      let heading := (unpad? t).bind title?
      let t := (heading.map Prod.snd).getD t
      (lineEnd? t).map ({ title := heading.map Prod.fst, showData := data.isSome }, ·)

/-! ## Reading -/

/-- what a line does to the chart -/
def apply (c : PieChart) : Line → PieChart
  | .blank => c
  | .accessibility line => { c with accessibility := c.accessibility.put line }
  | .title text => { c with title := some text }
  | .slice s => { c with slices := c.slices ++ [s] }

/-- the chart of the lines at the beginning of a text, and the rest -/
def document (t : Text) : PieChart × Text :=
  let (_, t) := Scan.many blank? t
  let (c, t) := (header? t).getD ({}, t)
  let (lines, t) := Scan.many line? t
  (lines.foldl apply c, t)

/-- the text with every line end as a line feed -/
def unifyLineEnds (t : Text) : Text := (Text.replace "\r\n" "\n" t).map fun c => if c = '\r' then '\n' else c

/-- the text with its last line ended as well -/
def terminated (t : Text) : Text := if t.getLast? = some '\n' then t else t ++ ['\n']

/-- the error at the place of a text where the rest begins; its message shows the beginning of what is left of that line -/
def unexpected (text rest : Text) : ParseError :=
  let before := text.take (text.length - rest.length)
  ⟨before.count '\n' + 1, (before.reverse.takeWhile (· ≠ '\n')).length + 1,
    .unexpectedText ((rest.takeWhile (· ≠ '\n')).take 40)⟩

/-- reads a pie chart -/
def read (text : Text) : Except ParseError PieChart :=
  let t := terminated (unifyLineEnds text)
  match document t with
  | (c, []) => .ok c
  | (_, rest) => .error (unexpected t rest)

/-! ## Printing -/

/-- a slice on a line -/
def Slice.toText (s : Slice) : Text := quote s.label ++ " : " ++ s.value.format

/-- the canonical text of a pie chart -/
def render (c : PieChart) (o : RenderOptions) : Text :=
  let margin := o.unit
  Text.ofLines
    ((if c.showData then "pie showData" else "pie" : Text)
      :: ((Text.present c.title).map (margin ++ "title " ++ ·)).toList
      ++ c.accessibility.lines margin
      ++ c.slices.map (margin ++ ·.toText))

end PieChart

end DiagramText

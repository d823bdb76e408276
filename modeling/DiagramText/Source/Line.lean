/-
The meaningful lines of a text: what is left after blank lines, comments and surrounding white space are taken away,
each with its place in the text.
-/
import DiagramText.Source.Error
import DiagramText.Number.Decimal

namespace DiagramText

/-- one meaningful line: its number counted from one, the column of its first character, the trimmed text, and the
white space before it -/
structure SourceLine where
  number : Nat
  column : Nat
  text : Text
  indent : Text
deriving DecidableEq, Repr

namespace SourceLine

/-- an error at a character of the line, counted from the line's first one -/
def errorAt (l : SourceLine) (offset : Int) (cause : Cause) : ParseError :=
  ⟨l.number, l.column + offset, cause⟩

/-- an error at the beginning of the line -/
def error (l : SourceLine) (cause : Cause) : ParseError := l.errorAt 0 cause

/-- a meaningful line, unless nothing is left of it -/
def ofRaw? (stripSemicolon : Bool) (number : Nat) (raw : Text) : Option SourceLine :=
  let body := Text.dropRightWhile (· = '\r') raw
  let indent := body.takeWhile isBlank
  let stripped := Text.trim body
  let text := if stripSemicolon && stripped.getLast? == some ';' then Text.trimRight stripped.dropLast else stripped
  if (Text.dropPrefix? "%%" stripped).isSome ∨ text = [] then none
  else some ⟨number, indent.length + 1, text, indent⟩

/-- the meaningful ones of some lines, the first of which has the given number -/
def ofRaws (stripSemicolon : Bool) : Nat → List Text → List SourceLine
  | _, [] => []
  | number, raw :: raws =>
    match ofRaw? stripSemicolon number raw with
    | none => ofRaws stripSemicolon (number + 1) raws
    | some l => l :: ofRaws stripSemicolon (number + 1) raws

/-- a number in a line, white space around it allowed -/
def number? (l : SourceLine) (offset : Int) (token : Text) : Except ParseError Binary64 :=
  let numeral := Text.trim token
  match Decimal.ofText? numeral with
  | some d => .ok d.value
  | none => .error (l.errorAt offset (.expectedNumber numeral))

end SourceLine

/-- the meaningful lines of a text; with `stripSemicolon` a line may end with one semicolon that is not part of it -/
def sourceLines (stripSemicolon : Bool) (text : Text) : List SourceLine :=
  SourceLine.ofRaws stripSemicolon 1 (Text.splitOn '\n' text)

end DiagramText

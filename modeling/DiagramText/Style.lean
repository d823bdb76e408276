/-
Style properties: names with values, written `name:value` and separated by commas.
-/
import DiagramText.Entries

namespace DiagramText

/-- style properties in the order in which their names first came -/
abbrev Style := Entries Text

namespace Style

/-- one `name:value` pair; a pair without a name or a value is none -/
def property? (pair : Text) : Option (Text × Text) :=
  match Text.cut? ":" pair with
  | none => none
  | some (before, after) =>
    let name := Text.trim before
    let value := Text.trim after
    if name = [] ∨ value = [] then none else some (name, value)

/-- the properties of a text; malformed pairs are passed over -/
def ofText (t : Text) : Style := Entries.ofList ((Text.splitOn ',' t).filterMap property?)

/-- the properties as text -/
def toText (s : Style) : Text := Text.join "," (s.toList.map fun p => p.1 ++ ":" ++ p.2)

end Style

end DiagramText

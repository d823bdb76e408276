/-
Quoted text: double quotes around it, and an entity for each double quote inside. `quote` and `unquote` are inverse on
every text that does not spell the entity itself.
-/
import DiagramText.Text.Basic

namespace DiagramText

/-- what stands for a double quote inside quotes -/
def quoteEntity : Text := "#quot;"

/-- the text in double quotes -/
def quote (t : Text) : Text := '"' :: Text.replace "\"" quoteEntity t ++ ['"']

/-- starts and ends with a double quote, two different ones -/
def isQuoted : Text → Bool
  | '"' :: r => r.getLast? == some '"'
  | _ => false

/-- strips one pair of double quotes and reads the entities; text without such a pair is its own value -/
def unquote (t : Text) : Text :=
  if isQuoted t then Text.replace quoteEntity "\"" t.tail.dropLast else t

end DiagramText

/-
Members of a class as text: `+String name` is an attribute, `+eat(food) bool` a method; `$` marks static members and `*`
abstract ones.
-/
import DiagramText.ClassDiagram.Basic
import DiagramText.Text.Scan

namespace DiagramText.ClassDiagram.Member

/-- the visibility that a mark gives, and the text after the mark -/
def visibilityMark (t : Text) : Visibility × Text :=
  match t with
  | '+' :: r => (.public, Text.trim r)
  | '-' :: r => (.private, Text.trim r)
  | '#' :: r => (.protected, Text.trim r)
  | '~' :: r => (.package, Text.trim r)
  | _ => (.unmarked, t)

/-- the mark after a name or after parameters: whether it says static, whether it says abstract -/
def classifier (t : Text) : (Bool × Bool) × Text :=
  match t with
  | '$' :: r => ((true, false), r)
  | '*' :: r => ((false, true), r)
  | _ => ((false, false), t)

/-- a method: a name, parameters in parentheses, a mark and a result -/
def method? (v : Visibility) (t : Text) : Option Member :=
  match Text.span (· ≠ '(') t with
  | (name, '(' :: r) =>
    match Text.span (· ≠ ')') r with
    | (params, ')' :: r) =>
      let ((isStatic, isAbstract), r) := classifier r
      (Scan.line? (Scan.blanks r)).map fun result =>
        ⟨v, Text.trim name, Text.present (some (Text.trim result)), some (Text.trim params), isStatic, isAbstract⟩
    | _ => none
  | _ => none

/-- a name without its mark, and whether the mark says static or abstract -/
def markedName (t : Text) : Text × Bool × Bool :=
  match t.getLast? with
  | some '$' => (t.dropLast, true, false)
  | some '*' => (t.dropLast, false, true)
  | _ => (t, false, false)

/-- an attribute: a type and a name, or a name alone -/
def attributeOf (v : Visibility) (t : Text) : Member :=
  match Text.words isBlank t with
  | type :: w :: ws =>
    let (name, isStatic, isAbstract) := markedName (Text.join " " (w :: ws))
    ⟨v, name, some type, none, isStatic, isAbstract⟩
  | ws =>
    let (name, isStatic, isAbstract) := markedName (ws.headD t)
    ⟨v, name, none, none, isStatic, isAbstract⟩

/-- reads a member; a blank text is none -/
def read? (t : Text) : Option Member :=
  let body := Text.trim (Text.dropRightWhile (· = ';') (Text.trim t))
  if body = [] then none
  else
    let (v, rest) := visibilityMark body
    some ((method? v rest).getD (attributeOf v rest))

/-- a member as text -/
def toText (m : Member) : Text :=
  let mark : Text := if m.isStatic then "$" else if m.isAbstract then "*" else []
  match m.params with
  | some params =>
    let text := m.visibility.mark ++ m.name ++ "(" ++ params ++ ")" ++ mark
    match Text.present m.type with
    | some type => text ++ " " ++ type
    | none => text
  | none =>
    let type : Text := match Text.present m.type with
      | some type => type ++ " "
      | none => []
    m.visibility.mark ++ type ++ m.name ++ mark

end DiagramText.ClassDiagram.Member

/-
The canonical text of a sequence diagram. Every actor is declared before the first statement, those in boxes first, so
the order of actors survives.
-/
import DiagramText.Options
import DiagramText.Sequence.Basic

namespace DiagramText.Sequence

/-- the declaration of an actor -/
def Actor.toText (a : Actor) : Text :=
  if a.label = a.id then a.kind.keyword ++ " " ++ a.id else a.kind.keyword ++ " " ++ a.id ++ " as " ++ a.label

/-- the line that opens a box -/
def Box.head (b : Box) : Text :=
  Text.join " " (("box" : Text) :: (Text.present b.color).toList ++ (Text.present b.label).toList)

/-- a message on a line -/
def Message.toText (m : Message) : Text :=
  let mark : Text := if m.activate then "+" else if m.deactivate then "-" else []
  let head := m.source ++ m.arrow.toText ++ mark ++ m.target
  match Text.trim m.text with
  | [] => head
  | text => head ++ ": " ++ text

/-- numbering on a line; a step is only written after a start -/
def Autonumber.toText (a : Autonumber) : Text :=
  if a.enabled then
    match a.start, a.step with
    | none, _ => "autonumber"
    | some start, none => "autonumber " ++ Text.ofInt start
    | some start, some step => "autonumber " ++ Text.ofInt start ++ " " ++ Text.ofInt step
  else "autonumber off"

mutual

/-- the lines of a statement at a depth -/
def statementLines (o : RenderOptions) (depth : Nat) : Statement → List Text
  | .message m => [o.levels depth ++ m.toText]
  | .note n =>
    [Text.trimRight (o.levels depth ++ "Note " ++ n.position ++ " " ++ Text.join "," n.actorIds ++ ": " ++ n.text)]
  | .activation actor active => [o.levels depth ++ (if active then "activate " else "deactivate ") ++ actor]
  | .autonumber a => [o.levels depth ++ a.toText]
  | .block kind label body =>
    Text.trimRight (o.levels depth ++ kind.keyword ++ " " ++ label) :: statementsLines o (depth + 1) body
      ++ [o.levels depth ++ "end"]
  | .sectioned kind sections => sectionsLines o depth kind.divider kind.keyword sections ++ [o.levels depth ++ "end"]

/-- the lines of statements at a depth -/
def statementsLines (o : RenderOptions) (depth : Nat) : List Statement → List Text
  | [] => []
  | s :: rest => statementLines o depth s ++ statementsLines o depth rest

/-- the lines of sections, the first opened by `keyword` and the others by `divider` -/
def sectionsLines (o : RenderOptions) (depth : Nat) (divider keyword : Text) : List (Text × List Statement) → List Text
  | [] => []
  | (label, body) :: rest =>
    Text.trimRight (o.levels depth ++ keyword ++ " " ++ label) :: statementsLines o (depth + 1) body
      ++ sectionsLines o depth divider divider rest

end

/-- the lines of a box -/
def boxLines (d : Sequence) (o : RenderOptions) (b : Box) : List Text :=
  (o.unit ++ b.head) :: b.actorIds.map (fun id =>
      o.levels 2 ++ ((d.actors.get? id).getD ⟨id, id, .participant⟩).toText)
    ++ [o.unit ++ "end"]

/-- the actors that no box declares, in the order of their declarations -/
def freeActors (d : Sequence) (o : RenderOptions) : List Actor :=
  let boxed := d.boxes.flatMap Box.actorIds
  let free := d.actors.values.filter fun a => !boxed.contains a.id
  if o.sortEntities then free.mergeSort fun a b => Text.le a.id b.id else free

/-- the canonical text of a sequence diagram -/
def render (d : Sequence) (o : RenderOptions) : Text :=
  Text.ofLines
    (("sequenceDiagram" : Text) :: ((Text.present d.title).map (o.unit ++ "title " ++ ·)).toList
      ++ d.accessibility.lines o.unit
      ++ d.boxes.flatMap (boxLines d o)
      ++ (freeActors d o).map (fun a => o.unit ++ a.toText)
      ++ statementsLines o 1 d.statements)

end DiagramText.Sequence

/-
The canonical text of an entity-relationship diagram. An entity that has neither columns nor a label of its own is left
out where a relationship names it.
-/
import DiagramText.EntityDiagram.Basic
import DiagramText.Options
import DiagramText.Text.Quoted
import DiagramText.Text.Scan

namespace DiagramText.EntityDiagram

/-- a column on a line -/
def Column.toText (c : Column) : Text :=
  let keys := if c.keys = [] then [] else [Text.join ", " (c.keys.map Key.toText)]
  Text.join " " ([c.type, c.name] ++ keys ++ (c.comment.map quote).toList)

/-- a label that is one word stands without quotes -/
def isBareLabel (t : Text) : Bool :=
  match Scan.run? isWordOrHyphen t with
  | some (_, rest) => Scan.atEnd rest
  | none => false

/-- a relationship on a line -/
def Relationship.toText (r : Relationship) : Text :=
  let line : Text := if r.isIdentifying then "--" else ".."
  let label := if isBareLabel r.label then r.label else quote r.label
  r.source ++ " " ++ r.sourceCardinality.left.1 ++ line ++ r.targetCardinality.right.1 ++ " " ++ r.target ++ " : " ++ label

/-- the declaration of an entity without its columns -/
def Entity.head (e : Entity) : Text := if e.label = e.id then e.id else e.id ++ "[" ++ quote e.label ++ "]"

/-- an entity with its columns in a block -/
def Entity.lines (o : RenderOptions) (e : Entity) : List Text :=
  if e.columns = [] then [o.unit ++ e.head]
  else
    (o.unit ++ e.head ++ " \x7b") :: e.columns.map (o.levels 2 ++ ·.toText) ++ [o.unit ++ "\x7d"]

/-- the entity is more than the name that a relationship gives -/
def needsDeclaration (d : EntityDiagram) (e : Entity) : Bool :=
  e.columns ≠ [] || e.label ≠ e.id || !d.relationships.any fun r => r.source == e.id || r.target == e.id

/-- the entities in the order of writing -/
def orderedEntities (d : EntityDiagram) (o : RenderOptions) : List Entity :=
  if o.sortEntities then d.entities.values.mergeSort fun a b => Text.le a.id b.id else d.entities.values

/-- the canonical text of an entity-relationship diagram -/
def render (d : EntityDiagram) (o : RenderOptions) : Text :=
  let margin := o.unit
  Text.ofLines
    (("erDiagram" : Text)
      :: (if d.direction = .tb then [] else [margin ++ "direction " ++ d.direction.toText])
      ++ d.accessibility.lines margin
      ++ ((orderedEntities d o).filter (needsDeclaration d)).flatMap (Entity.lines o)
      ++ d.relationships.map (fun r => margin ++ r.toText))

end DiagramText.EntityDiagram

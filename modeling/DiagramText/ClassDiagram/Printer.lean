/-
The canonical text of a class diagram. Namespaces come first and hold the full declaration of their classes; a plain
class that a relationship names is not declared.
-/
import DiagramText.ClassDiagram.Member
import DiagramText.ClassDiagram.Relation
import DiagramText.Options

namespace DiagramText.ClassDiagram

/-- the class has something to write between braces -/
def Class.hasBody (c : Class) : Bool :=
  (Text.present c.stereotype).isSome || !c.attributes.isEmpty || !c.methods.isEmpty

/-- the declaration of a class without its body -/
def Class.head (c : Class) : Text :=
  let generic : Text := match Text.present c.generic with
    | some g => "~" ++ g ++ "~"
    | none => []
  let label : Text := if c.label = c.id then [] else "[" ++ quote c.label ++ "]"
  "class " ++ c.id ++ generic ++ label

/-- the lines between the braces of a class -/
def Class.bodyLines (c : Class) : List Text :=
  ((Text.present c.stereotype).map fun (a : Text) => "<<" ++ a ++ ">>").toList
    ++ c.attributes.map Member.toText ++ c.methods.map Member.toText

/-- a class with a margin -/
def Class.lines (o : RenderOptions) (margin : Text) (c : Class) : List Text :=
  if c.hasBody then
    (margin ++ c.head ++ " \x7b") :: c.bodyLines.map (margin ++ o.unit ++ ·) ++ [margin ++ "\x7d"]
  else [margin ++ c.head]

/-- the class is more than the name that a relationship gives -/
def needsDeclaration (d : ClassDiagram) (c : Class) : Bool :=
  c.hasBody || (Text.present c.generic).isSome || c.label ≠ c.id
    || !d.relationships.any fun r => r.source == c.id || r.target == c.id

/-- the classes of a namespace; `declared` are those that an earlier line declares -/
def memberLines (d : ClassDiagram) (o : RenderOptions) : List Text → List Text → List Text × List Text
  | declared, [] => ([], declared)
  | declared, id :: ids =>
    match if declared.contains id then none else d.classes.get? id with
    | none =>
      let (lines, declared) := memberLines d o declared ids
      ((o.levels 2 ++ "class " ++ id) :: lines, declared)
    | some c =>
      let (lines, declared) := memberLines d o (id :: declared) ids
      (c.lines o (o.levels 2) ++ lines, declared)

/-- the ids of a namespace in the order of writing -/
def Namespace.ordered (o : RenderOptions) (n : Namespace) : List Text :=
  if o.sortEntities then n.classIds.mergeSort Text.le else n.classIds

/-- the namespaces, and the classes declared in them -/
def namespaceLines (d : ClassDiagram) (o : RenderOptions) : List Text → List Namespace → List Text × List Text
  | declared, [] => ([], declared)
  | declared, n :: ns =>
    let (members, declared) := memberLines d o declared (n.ordered o)
    let (lines, declared) := namespaceLines d o declared ns
    ((o.unit ++ "namespace " ++ n.name ++ " \x7b") :: members ++ [o.unit ++ "\x7d"] ++ lines, declared)

/-- the classes in the order of their declarations -/
def orderedClasses (d : ClassDiagram) (o : RenderOptions) : List Class :=
  if o.sortEntities then d.classes.values.mergeSort fun a b => Text.le a.id b.id else d.classes.values

/-- a note on a line -/
def Note.toText (n : Note) : Text :=
  match n.forClass with
  | some id => "note for " ++ id ++ " " ++ quote n.text
  | none => "note " ++ quote n.text

/-- the canonical text of a class diagram -/
def render (d : ClassDiagram) (o : RenderOptions) : Text :=
  let margin := o.unit
  let (grouped, declared) := namespaceLines d o [] d.namespaces
  let free := (orderedClasses d o).filter fun c => !declared.contains c.id && needsDeclaration d c
  Text.ofLines
    (("classDiagram" : Text)
      :: (if d.direction = .tb then [] else [margin ++ "direction " ++ d.direction.toText])
      ++ d.accessibility.lines margin
      ++ grouped
      ++ free.flatMap (Class.lines o margin)
      ++ d.relationships.map (fun r => margin ++ r.toText)
      ++ d.notes.map (fun n => margin ++ n.toText)
      ++ d.classDefs.toList.map (fun (name, style) =>
          Text.trimRight (margin ++ "classDef " ++ name ++ " " ++ style.toText))
      ++ d.cssClasses.toList.flatMap (fun (id, names) =>
          names.map fun name => margin ++ "cssClass \"" ++ id ++ "\" " ++ name))

end DiagramText.ClassDiagram

/-
Class diagrams: classes with members, relationships between them, namespaces that group them, and notes.
-/
import DiagramText.Accessibility
import DiagramText.Direction
import DiagramText.Style

namespace DiagramText

namespace ClassDiagram

/-- who may use a member -/
inductive Visibility where
  | unmarked
  | «public»
  | «private»
  | «protected»
  | package
deriving DecidableEq, Repr

/-- the mark before a member -/
def Visibility.mark : Visibility → Text
  | unmarked => []
  | .public => "+"
  | .private => "-"
  | .protected => "#"
  | package => "~"

/-- an attribute, or, with parameters, a method -/
structure Member where
  visibility : Visibility
  name : Text
  /-- the type of an attribute, the result of a method -/
  type : Option Text
  params : Option Text
  isStatic : Bool
  isAbstract : Bool
deriving DecidableEq, Repr

/-- a member with parameters is a method -/
def Member.isMethod (m : Member) : Bool := m.params.isSome

/-- a class -/
structure Class where
  id : Text
  label : Text
  generic : Option Text := none
  stereotype : Option Text := none
  attributes : List Member := []
  methods : List Member := []
deriving DecidableEq, Repr

/-- what a relationship line has at one end -/
inductive RelationEnd where
  | none
  | extension
  | composition
  | aggregation
  | dependency
  | lollipop
deriving DecidableEq, Repr

namespace RelationEnd

/-- the name of the end -/
def tag : RelationEnd → Text
  | none => "none"
  | extension => "extension"
  | composition => "composition"
  | aggregation => "aggregation"
  | dependency => "dependency"
  | lollipop => "lollipop"

/-- every end, in the order in which a reader tries them -/
def all : List RelationEnd := [extension, composition, aggregation, dependency, lollipop, none]

/-- the marker at the left end of a line -/
def left : RelationEnd → Text
  | none => []
  | extension => "<|"
  | composition => "*"
  | aggregation => "o"
  | dependency => "<"
  | lollipop => "()"

/-- the marker at the right end of a line -/
def right : RelationEnd → Text
  | none => []
  | extension => "|>"
  | composition => "*"
  | aggregation => "o"
  | dependency => ">"
  | lollipop => "()"

end RelationEnd

/-- a relationship between two classes -/
structure Relationship where
  source : Text
  target : Text
  sourceEnd : RelationEnd
  targetEnd : RelationEnd
  /-- a dotted line, not a solid one -/
  isDotted : Bool
  label : Option Text
  sourceCardinality : Option Text
  targetCardinality : Option Text
deriving DecidableEq, Repr

/-- a named group of classes -/
structure Namespace where
  name : Text
  classIds : List Text
deriving DecidableEq, Repr

/-- a note, for a class or on its own -/
structure Note where
  text : Text
  forClass : Option Text
deriving DecidableEq, Repr

/-- adds a member among the attributes or the methods -/
def Class.addMember (c : Class) (m : Member) : Class :=
  if m.isMethod then { c with methods := c.methods ++ [m] } else { c with attributes := c.attributes ++ [m] }

end ClassDiagram

/-- a class diagram -/
structure ClassDiagram where
  direction : Direction := .tb
  classes : Entries ClassDiagram.Class := .empty
  relationships : List ClassDiagram.Relationship := []
  namespaces : List ClassDiagram.Namespace := []
  notes : List ClassDiagram.Note := []
  classDefs : Entries Style := .empty
  /-- style classes of each class id -/
  cssClasses : Entries (List Text) := .empty
  accessibility : Accessibility := {}
deriving Repr

namespace ClassDiagram

/-- a class that is only named shows its id, unless it is known -/
def ensureClass (id : Text) (d : ClassDiagram) : ClassDiagram :=
  { d with classes := d.classes.insertNew id { id := id, label := id } }

/-- changes a class, which is created when it is not known -/
def alterClass (id : Text) (f : Class → Class) (d : ClassDiagram) : ClassDiagram :=
  { d with classes := d.classes.alter id { id := id, label := id } f }

end ClassDiagram

end DiagramText

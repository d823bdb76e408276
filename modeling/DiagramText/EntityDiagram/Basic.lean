/-
Entity-relationship diagrams: entities with attributes, and relationships between them with a cardinality at either end.
-/
import DiagramText.Accessibility
import DiagramText.Direction
import DiagramText.Entries

namespace DiagramText

namespace EntityDiagram

/-- the kinds of key an attribute may belong to -/
inductive Key where
  | primary
  | foreign
  | unique
deriving DecidableEq, Repr

/-- the written form of a key -/
def Key.toText : Key → Text
  | primary => "PK"
  | foreign => "FK"
  | unique => "UK"

/-- a column of an entity -/
structure Column where
  type : Text
  name : Text
  keys : List Key
  comment : Option Text
deriving DecidableEq, Repr

/-- an entity -/
structure Entity where
  id : Text
  label : Text
  columns : List Column := []
deriving DecidableEq, Repr

/-- how many entities may stand at one end of a relationship -/
inductive Cardinality where
  | one
  | zeroOne
  | many
  | zeroMany
deriving DecidableEq, Repr

namespace Cardinality

/-- every cardinality -/
def all : List Cardinality := [one, zeroOne, many, zeroMany]

/-- the name of the cardinality -/
def tag : Cardinality → Text
  | one => "one"
  | zeroOne => "zero-one"
  | many => "many"
  | zeroMany => "zero-many"

/-- the symbol at the left end of a line, and a second spelling of it -/
def left : Cardinality → Text × Text
  | one => ("||", "||")
  | zeroOne => ("|o", "o|")
  | many => ("\x7d|", "|\x7d")
  | zeroMany => ("\x7do", "o\x7d")

/-- the symbol at the right end of a line, and a second spelling of it -/
def right : Cardinality → Text × Text
  | one => ("||", "||")
  | zeroOne => ("o|", "|o")
  | many => ("|\x7b", "\x7b|")
  | zeroMany => ("o\x7b", "\x7bo")

end Cardinality

/-- a relationship between two entities -/
structure Relationship where
  source : Text
  target : Text
  sourceCardinality : Cardinality
  targetCardinality : Cardinality
  label : Text
  /-- a solid line, not a dashed one -/
  isIdentifying : Bool
deriving DecidableEq, Repr

end EntityDiagram

/-- an entity-relationship diagram -/
structure EntityDiagram where
  direction : Direction := .tb
  entities : Entries EntityDiagram.Entity := .empty
  relationships : List EntityDiagram.Relationship := []
  accessibility : Accessibility := {}
deriving DecidableEq, Repr

end DiagramText

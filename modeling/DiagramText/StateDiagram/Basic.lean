/-
State diagrams: states, some of them composite with further states inside, and transitions between them. A state knows
its enclosing state, a transition the one it is written in.
-/
import DiagramText.Accessibility
import DiagramText.Direction
import DiagramText.Style

namespace DiagramText

namespace StateDiagram

/-- the pseudo-state that stands for both the beginning and the end -/
def terminal : Text := "[*]"

/-- what a state is: a plain one, a composite one, or a pseudo-state with its marker (`fork`, `join` or `choice`) in
small letters -/
inductive StateKind where
  | plain
  | composite
  | pseudo (marker : Text)
deriving DecidableEq, Repr

/-- the name of the kind -/
def StateKind.tag : StateKind → Text
  | plain => "default"
  | composite => "composite"
  | pseudo marker => marker

/-- a state; its parent is the composite state around it -/
structure State where
  id : Text
  label : Option Text := none
  kind : StateKind := .plain
  parent : Option Text := none
  direction : Option Direction := none
deriving DecidableEq, Repr

/-- a transition; its scope is the composite state it is written in -/
structure Transition where
  source : Text
  target : Text
  label : Option Text
  scope : Option Text
deriving DecidableEq, Repr

/-- a note beside a state; the position is `left of` or `right of` in small letters -/
structure Note where
  stateId : Text
  text : Text
  position : Text
deriving DecidableEq, Repr

end StateDiagram

/-- a state diagram -/
structure StateDiagram where
  direction : Direction := .tb
  states : Entries StateDiagram.State := .empty
  transitions : List StateDiagram.Transition := []
  notes : List StateDiagram.Note := []
  classDefs : Entries Style := .empty
  classAssignments : Entries (List Text) := .empty
  accessibility : Accessibility := {}
deriving Repr

/-- the states directly inside a composite state, or at the top -/
def StateDiagram.childrenOf (d : StateDiagram) (parent : Option Text) : List StateDiagram.State :=
  d.states.values.filter fun s => s.parent == parent

end DiagramText

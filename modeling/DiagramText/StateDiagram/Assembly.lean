/-
A state diagram being put together. A state that a transition names before it is declared stays provisional: its
declaration moves it to the place and into the scope of the declaration.
-/
import DiagramText.StateDiagram.Basic

namespace DiagramText.StateDiagram

/-- a diagram, and the ids of the states that have been declared -/
structure Assembly where
  diagram : StateDiagram
  declared : List Text

namespace Assembly

/-- changes a state that is known -/
def alterState (id : Text) (f : State → State) (a : Assembly) : Assembly :=
  match a.diagram.states.get? id with
  | none => a
  | some s => { a with diagram := { a.diagram with states := a.diagram.states.insert id (f s) } }

/-- declares a state in a scope -/
def declare (id : Text) (scope : Option Text) (a : Assembly) : Assembly :=
  if a.declared.contains id then a
  else
    let s := (a.diagram.states.get? id).getD { id := id }
    { diagram := { a.diagram with states := (a.diagram.states.erase id).insert id { s with parent := scope } }
      declared := id :: a.declared }

/-- declares a state and changes it -/
def declareAs (id : Text) (scope : Option Text) (f : State → State) (a : Assembly) : Assembly :=
  (a.declare id scope).alterState id f

/-- a state that a transition names is created where it is named, unless it is known -/
def reference (id : Text) (scope : Option Text) (a : Assembly) : Assembly :=
  if id = terminal then a
  else { a with diagram := { a.diagram with states := a.diagram.states.insertNew id { id := id, parent := scope } } }

/-- adds a transition -/
def addTransition (t : Transition) (a : Assembly) : Assembly :=
  { a with diagram := { a.diagram with transitions := a.diagram.transitions ++ [t] } }

/-- adds a note -/
def addNote (n : Note) (a : Assembly) : Assembly :=
  { a with diagram := { a.diagram with notes := a.diagram.notes ++ [n] } }

/-- defines a style class -/
def defineClass (name : Text) (style : Style) (a : Assembly) : Assembly :=
  { a with diagram := { a.diagram with classDefs := a.diagram.classDefs.insert name style } }

/-- gives a style class to a state -/
def assignClass (id name : Text) (a : Assembly) : Assembly :=
  { a with diagram := { a.diagram with classAssignments := a.diagram.classAssignments.assign id name } }

/-- takes an accessibility text over -/
def describe (line : AccessibilityLine) (a : Assembly) : Assembly :=
  { a with diagram := { a.diagram with accessibility := a.diagram.accessibility.put line } }

end Assembly

end DiagramText.StateDiagram

/-
Building a state diagram call by call. Transitions create no states; a validated build refuses the first name that is
never declared. No call is refused.
-/
import DiagramText.Reference
import DiagramText.StateDiagram.Assembly

namespace DiagramText.StateDiagram

/-- a call on the diagram or on a composite state of it -/
inductive ScopeCall where
  | state (id : Text) (label : Option Text)
  | pseudo (id marker : Text)
  | composite (id : Text) (label : Option Text) (direction : Option Direction) (body : List ScopeCall)
  | transition (source target : Text) (label : Option Text)
  | note (n : Note)
  /-- sets the direction of the composite state -/
  | direction (d : Direction)

namespace ScopeCall

/-- the transition from the beginning -/
def initial (target : Text) (label : Option Text) : ScopeCall := .transition terminal target label

/-- the transition to the end -/
def final (source : Text) (label : Option Text) : ScopeCall := .transition source terminal label

end ScopeCall

/-- a call on the diagram -/
inductive Call where
  | scope (c : ScopeCall)
  | defineClass (name : Text) (style : Style)
  | assignClass (ids : List Text) (name : Text)
  | describe (line : AccessibilityLine)

/-- a diagram under construction, and every name that a call has mentioned -/
structure Builder where
  assembly : Assembly
  log : List Reference

namespace Builder

/-- nothing but a direction -/
def start (d : Direction) : Builder := ⟨⟨{ direction := d }, []⟩, []⟩

/-- changes the diagram -/
def update (f : Assembly → Assembly) (b : Builder) : Builder := { b with assembly := f b.assembly }

/-- notes mentions -/
def mention (refs : List Reference) (b : Builder) : Builder := { b with log := b.log ++ refs }

/-- declares a state in a scope and changes it -/
def declareAs (id : Text) (scope : Option Text) (f : State → State) (b : Builder) : Builder :=
  b.update (·.declareAs id scope f)

/-- adds a transition, which creates no state -/
def transition (t : Transition) (b : Builder) : Builder :=
  let construct := "transition " ++ t.source ++ " --> " ++ t.target
  (b.mention [.entity construct t.source, .entity construct t.target]).update (·.addTransition t)

/-- adds a note -/
def note (n : Note) (b : Builder) : Builder :=
  (b.mention [.entity ("note " ++ n.position ++ " " ++ n.stateId) n.stateId]).update (·.addNote n)

/-- gives a style class to a state -/
def assignClass (name : Text) (b : Builder) (id : Text) : Builder :=
  let construct := "class " ++ id ++ " " ++ name
  (b.mention [.entity construct id, .classDef construct name]).update (·.assignClass id name)

/-- sets the direction of a composite state -/
def setDirection (d : Direction) (scope : Option Text) (b : Builder) : Builder :=
  match scope with
  | some id => b.update (·.alterState id fun s => { s with direction := some d })
  | none => b

end Builder

mutual

/-- the state after a call on a scope -/
def ScopeCall.run (scope : Option Text) (b : Builder) : ScopeCall → Builder
  | .state id label => b.declareAs id scope fun s => { s with label := label <|> s.label }
  | .pseudo id marker => b.declareAs id scope fun s => { s with kind := .pseudo marker }
  | .composite id label direction body =>
    runAll (some id)
      (b.declareAs id scope fun s =>
        { s with kind := .composite, label := label <|> s.label, direction := direction <|> s.direction })
      body
  | .transition source target label => b.transition ⟨source, target, label, scope⟩
  | .note n => b.note n
  | .direction d => b.setDirection d scope

/-- the state after calls on a scope one after another -/
def runAll (scope : Option Text) (b : Builder) : List ScopeCall → Builder
  | [] => b
  | c :: cs => runAll scope (c.run scope b) cs

end

/-- the state after a call -/
def Call.run (b : Builder) : Call → Builder
  | .scope c => c.run none b
  | .defineClass name style => b.update (·.defineClass name style)
  | .assignClass ids name => ids.foldl (Builder.assignClass name) b
  | .describe line => b.update (·.describe line)

namespace Builder

/-- the state after calls -/
def run (b : Builder) (calls : List Call) : Builder := calls.foldl Call.run b

/-- the diagram as it stands -/
def diagram (b : Builder) : StateDiagram := b.assembly.diagram

/-- the diagram, unless a mentioned name is neither declared nor the beginning or the end -/
def build (b : Builder) : Except Reference StateDiagram :=
  Reference.check (terminal :: b.diagram.states.keys) b.diagram.classDefs.keys b.log b.diagram

end Builder

end DiagramText.StateDiagram

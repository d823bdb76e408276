/-
The canonical text of a state diagram, one scope at a time: its states, its transitions, its notes. A plain state
without a label is left out where the transitions of its own scope, and no others, name it.
-/
import DiagramText.Options
import DiagramText.StateDiagram.Basic
import DiagramText.Text.Quoted

namespace DiagramText.StateDiagram

/-- a transition on a line -/
def Transition.toText (t : Transition) : Text :=
  match Text.present t.label with
  | some label => t.source ++ " --> " ++ t.target ++ " : " ++ label
  | none => t.source ++ " --> " ++ t.target

/-- a note: on one line, or with a line for each of its lines -/
def Note.lines (o : RenderOptions) (margin : Text) (n : Note) : List Text :=
  let head := margin ++ "note " ++ n.position ++ " " ++ n.stateId
  match ((Text.splitOn '\n' n.text).map Text.trim).filter (· ≠ []) with
  | [] => [head ++ " :"]
  | [line] => [head ++ " : " ++ line]
  | lines => head :: lines.map (margin ++ o.unit ++ ·) ++ [margin ++ "end note"]

/-- the scope in which a note is written: that of its state -/
def noteScope (d : StateDiagram) (n : Note) : Option Text := (d.states.get? n.stateId).bind State.parent

/-- transitions name the state, all of them in its own scope -/
def isImplied (d : StateDiagram) (s : State) : Bool :=
  let naming := d.transitions.filter fun t => t.source == s.id || t.target == s.id
  !naming.isEmpty && naming.all fun t => t.scope == s.parent

/-- the line that opens a composite state -/
def compositeHead (s : State) : Text :=
  match s.label with
  | some label => "state " ++ quote label ++ " as " ++ s.id ++ " \x7b"
  | none => "state " ++ s.id ++ " \x7b"

/-- the states of a scope in the order of writing -/
def scopeStates (d : StateDiagram) (o : RenderOptions) (scope : Option Text) : List State :=
  if o.sortEntities then (d.childrenOf scope).mergeSort fun a b => Text.le a.id b.id else d.childrenOf scope

/-- the lines of a scope. No chain of nested states is longer than the number of states, which is the `fuel` -/
def scopeLines (d : StateDiagram) (o : RenderOptions) : Nat → Option Text → Nat → List Text
  | 0, _, _ => []
  | fuel + 1, scope, depth =>
    let margin := o.levels depth
    let stateLines (s : State) : List Text :=
      match s.kind with
      | .composite =>
        (margin ++ compositeHead s) :: (s.direction.map fun dir => margin ++ o.unit ++ "direction " ++ dir.toText).toList
          ++ scopeLines d o fuel (some s.id) (depth + 1) ++ [margin ++ "\x7d"]
      | .pseudo marker => [margin ++ "state " ++ s.id ++ " <<" ++ marker ++ ">>"]
      | .plain =>
        match s.label with
        | some label => [Text.trimRight (margin ++ s.id ++ " : " ++ label)]
        | none => if isImplied d s then [] else [margin ++ s.id]
    (scopeStates d o scope).flatMap stateLines
      ++ (d.transitions.filter fun t => t.scope == scope).map (fun t => margin ++ t.toText)
      ++ (d.notes.filter fun n => noteScope d n == scope).flatMap (Note.lines o margin)

/-- the canonical text of a state diagram -/
def render (d : StateDiagram) (o : RenderOptions) : Text :=
  let margin := o.unit
  Text.ofLines
    (("stateDiagram-v2" : Text)
      :: (if d.direction = .tb then [] else [margin ++ "direction " ++ d.direction.toText])
      ++ d.accessibility.lines margin
      ++ scopeLines d o (d.states.toList.length + 1) none 1
      ++ d.classDefs.toList.map (fun (name, style) =>
          Text.trimRight (margin ++ "classDef " ++ name ++ " " ++ style.toText))
      ++ d.classAssignments.toList.flatMap (fun (id, names) =>
          names.map fun name => margin ++ "class " ++ id ++ " " ++ name))

end DiagramText.StateDiagram

/-
What a layout reads out of a diagram: entities with a label and a shape, relations between them, and the connected
components they form. Every scope of a state diagram has a beginning and an end of its own.
-/
import DiagramText.Diagram

namespace DiagramText.Layout

/-- something to place -/
structure Entity where
  label : Text
  shape : Text
deriving DecidableEq, Repr

/-- something to draw between two entities -/
structure Relation where
  source : Text
  target : Text
  label : Option Text
deriving DecidableEq, Repr

/-- entities by id and the relations between them -/
structure Graph where
  direction : Direction
  entities : Entries Entity := .empty
  relations : List Relation := []
deriving DecidableEq, Repr

namespace Graph

/-! ## Reading a diagram -/

/-- adds an entity, in place of an earlier one with its id -/
def addEntity (id label shape : Text) (g : Graph) : Graph :=
  { g with entities := g.entities.insert id ⟨label, shape⟩ }

/-- a graph of entities and relations -/
def of {α : Type} (direction : Direction) (things : List α) (id label shape : α → Text) (relations : List Relation) :
    Graph :=
  things.foldl (fun g a => g.addEntity (id a) (label a) (shape a)) { direction := direction, relations := relations }

/-- the node that stands for the beginning or the end of a scope -/
def terminalId (role : Text) (scope : Option Text) : Text := StateDiagram.terminal ++ role ++ ":" ++ scope.getD []

/-- one end of a transition; a beginning or an end is placed where it is first used -/
def addEndpoint (id role : Text) (scope : Option Text) (g : Graph) : Text × Graph :=
  if id = StateDiagram.terminal then
    let terminal := terminalId role scope
    (terminal, { g with entities := g.entities.insertNew terminal ⟨[], "state-" ++ role⟩ })
  else (id, g)

/-- adds a transition -/
def addTransition (g : Graph) (t : StateDiagram.Transition) : Graph :=
  let (source, g) := g.addEndpoint t.source "start" t.scope
  let (target, g) := g.addEndpoint t.target "end" t.scope
  { g with relations := g.relations ++ [⟨source, target, t.label⟩] }

/-- the graph of a diagram of a dialect that has one -/
def ofDiagram? : Diagram → Option Graph
  | .flowchart d =>
    some (of d.direction d.nodes.values (·.id) (·.label) (·.shape.tag)
      (d.links.map fun l => ⟨l.source, l.target, l.form.label⟩))
  | .classDiagram d =>
    some (of d.direction d.classes.values (·.id) (·.label) (fun _ => "class")
      (d.relationships.map fun r => ⟨r.source, r.target, r.label⟩))
  | .state d =>
    let states := of d.direction d.states.values (·.id) (fun s => (Text.present s.label).getD s.id) (·.kind.tag) []
    some (d.transitions.foldl addTransition states)
  | .er d =>
    some (of d.direction d.entities.values (·.id) (·.label) (fun _ => "entity")
      (d.relationships.map fun r => ⟨r.source, r.target, Text.present (some r.label)⟩))
  | .sankey d =>
    some (of .lr d.nodes.values (·.id) (·.label) (fun _ => "default")
      (d.links.map fun l => ⟨l.source, l.target, none⟩))
  | _ => none

/-! ## Components -/

/-- a pair that ties two different known entities -/
def ties (g : Graph) (pair : Text × Text) : Bool :=
  g.entities.contains pair.1 && g.entities.contains pair.2 && pair.1 ≠ pair.2

/-- the pairs of entities that relations tie, each once, where it first stands -/
def pairs (g : Graph) : List (Text × Text) :=
  g.relations.foldl (fun kept r =>
    let pair := (r.source, r.target)
    if g.ties pair && !kept.contains pair then kept ++ [pair] else kept) []

/-- joins the component of the target to that of the source -/
def joinComponents (components : List (List Text)) (pair : Text × Text) : List (List Text) :=
  match components.find? (·.contains pair.1), components.find? (·.contains pair.2) with
  | some a, some b =>
    if a = b then components
    else (components.filter fun c => !c.contains pair.2).map fun c => if c.contains pair.1 then c ++ b else c
  | _, _ => components

/-- the connected components: one for each entity, joined pair by pair -/
def components (g : Graph) : List (List Text) := g.pairs.foldl joinComponents (g.entities.keys.map ([·]))

end Graph

end DiagramText.Layout

/-
Flowcharts: nodes by id, links between them, and a forest of subgraphs that list their direct members.
-/
import DiagramText.Accessibility
import DiagramText.Direction
import DiagramText.Style

namespace DiagramText

namespace Flowchart

/-- the outline of a node -/
inductive NodeShape where
  | default
  | square
  | round
  | circle
  | doublecircle
  | ellipse
  | stadium
  | subroutine
  | cylinder
  | diamond
  | hexagon
  | odd
  | trapezoid
  | invTrapezoid
  | leanRight
  | leanLeft
deriving DecidableEq, Repr

namespace NodeShape

/-- the shapes that have delimiters, in the order in which a reader tries them: longer openings first -/
def delimited : List NodeShape :=
  [doublecircle, circle, stadium, cylinder, subroutine, ellipse, hexagon, trapezoid, invTrapezoid, leanRight, leanLeft,
    square, round, diamond, odd]

/-- what stands before and after the label; a default node that needs a label is written as a square -/
def delimiters : NodeShape → Text × Text
  | default => ("[", "]")
  | square => ("[", "]")
  | round => ("(", ")")
  | circle => ("((", "))")
  | doublecircle => ("(((", ")))")
  | ellipse => ("(-", "-)")
  | stadium => ("([", "])")
  | subroutine => ("[[", "]]")
  | cylinder => ("[(", ")]")
  | diamond => ("\x7b", "\x7d")
  | hexagon => ("\x7b\x7b", "\x7d\x7d")
  | odd => (">", "]")
  | trapezoid => ("[/", "\\]")
  | invTrapezoid => ("[\\", "/]")
  | leanRight => ("[/", "/]")
  | leanLeft => ("[\\", "\\]")

/-- the name of the shape -/
def tag : NodeShape → Text
  | default => "default"
  | square => "square"
  | round => "round"
  | circle => "circle"
  | doublecircle => "doublecircle"
  | ellipse => "ellipse"
  | stadium => "stadium"
  | subroutine => "subroutine"
  | cylinder => "cylinder"
  | diamond => "diamond"
  | hexagon => "hexagon"
  | odd => "odd"
  | trapezoid => "trapezoid"
  | invTrapezoid => "inv_trapezoid"
  | leanRight => "lean_right"
  | leanLeft => "lean_left"

end NodeShape

/-- a node with its label -/
structure Node where
  id : Text
  label : Text
  shape : NodeShape
deriving DecidableEq, Repr

/-- written as its id alone -/
def Node.isBare (n : Node) : Bool := n.shape == .default && n.label == n.id

/-- how the line of a link is drawn -/
inductive Stroke where
  | normal
  | thick
  | dotted
deriving DecidableEq, Repr

/-- what a link has at its end -/
inductive Arrow where
  | point
  | circle
  | cross
  | open
deriving DecidableEq, Repr

/-- what a link is apart from its ends -/
structure LinkForm where
  stroke : Stroke
  arrow : Arrow
  /-- stroke characters beyond the shortest operator, which has length one -/
  length : Int
  /-- an arrow head at either end -/
  bidirectional : Bool
  label : Option Text
deriving DecidableEq, Repr

/-- a link between two nodes -/
structure Link where
  source : Text
  target : Text
  form : LinkForm
deriving DecidableEq, Repr

/-- a named group of nodes and of further groups -/
structure Subgraph where
  id : Text
  title : Text
  nodeIds : List Text
  children : List Subgraph
  direction : Option Direction
deriving Repr

mutual

/-- subgraphs are compared part by part -/
def Subgraph.decEq : (s t : Subgraph) → Decidable (s = t)
  | ⟨id, title, nodeIds, children, direction⟩, ⟨id', title', nodeIds', children', direction'⟩ =>
    have := decEqAll children children'
    decidable_of_iff (id = id' ∧ title = title' ∧ nodeIds = nodeIds' ∧ children = children' ∧ direction = direction')
      (by simp)

/-- forests are compared subgraph by subgraph -/
def decEqAll : (ss ts : List Subgraph) → Decidable (ss = ts)
  | [], [] => isTrue rfl
  | [], _ :: _ | _ :: _, [] => isFalse nofun
  | s :: ss, t :: ts =>
    have := s.decEq t
    have := decEqAll ss ts
    decidable_of_iff (s = t ∧ ss = ts) (by simp)

end

instance : DecidableEq Subgraph := Subgraph.decEq

/-- a reaction to a click on a node: a page to open, or a function to call -/
inductive Click where
  | href (node target : Text) (tooltip linkTarget : Option Text)
  | callback (node function : Text) (args tooltip : Option Text)
deriving DecidableEq, Repr

/-- the node that is clicked -/
def Click.nodeId : Click → Text
  | href node _ _ _ => node
  | callback node _ _ _ => node

mutual

/-- a subgraph and all below it, each before its children -/
def Subgraph.walk : Subgraph → List Subgraph
  | s@⟨_, _, _, children, _⟩ => s :: walkAll children

/-- the subgraphs of a forest, each before its children -/
def walkAll : List Subgraph → List Subgraph
  | [] => []
  | s :: rest => s.walk ++ walkAll rest

end

theorem walkAll_append (ss ts : List Subgraph) : walkAll (ss ++ ts) = walkAll ss ++ walkAll ts := by
  induction ss with
  | nil => rw [walkAll]; rfl
  | cons s ss ih => rw [List.cons_append, walkAll, walkAll, ih, List.append_assoc]

theorem mem_walk_iff {s t : Subgraph} : t ∈ s.walk ↔ t = s ∨ t ∈ walkAll s.children := by
  obtain ⟨id, title, nodeIds, children, direction⟩ := s
  rw [Subgraph.walk, List.mem_cons]

theorem forall_mem_walk {P : Subgraph → Prop} {s : Subgraph} : (∀ t ∈ s.walk, P t) ↔ P s ∧ ∀ t ∈ walkAll s.children, P t := by
  simp only [mem_walk_iff, forall_eq_or_imp]

theorem mem_walkAll_singleton {s t : Subgraph} : t ∈ walkAll [s] ↔ t ∈ s.walk := by
  rw [walkAll, walkAll, List.append_nil]

/-- both ends of the link are direct members -/
def Subgraph.lists (s : Subgraph) (l : Link) : Bool := s.nodeIds.contains l.source && s.nodeIds.contains l.target

end Flowchart

/-- a flowchart -/
structure Flowchart where
  direction : Direction := .tb
  nodes : Entries Flowchart.Node := .empty
  links : List Flowchart.Link := []
  subgraphs : List Flowchart.Subgraph := []
  classDefs : Entries Style := .empty
  /-- style classes of each node id, in the order in which they were given -/
  classAssignments : Entries (List Text) := .empty
  nodeStyles : Entries Style := .empty
  clicks : List Flowchart.Click := []
  /-- styles by the number of a link in the order of links, or for `default` -/
  linkStyles : Entries Style := .empty
  accessibility : Accessibility := {}
deriving DecidableEq, Repr

end DiagramText

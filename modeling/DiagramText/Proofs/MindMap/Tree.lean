/-
Trees and their outlines. The outline of a tree is its topics in the order of their lines, each with its depth
(`linesOf_eq`). Trees are planted again from their outline: of the lines of a tree one more level is one more unit of
indentation, so the children of a node are the trees after it up to the next one that is not indented more
(`foldr_plant`).
-/
import DiagramText.MindMap
import Mathlib.Data.List.TakeWhile
import Mathlib.Tactic

namespace DiagramText.MindMap

mutual

/-- the topics of a tree in the order of their lines, each with its depth -/
def Node.outline (depth : Nat) : Node → List (Nat × Topic)
  | .node t children => (depth, t) :: outlineOf (depth + 1) children

/-- the topics of trees of one depth -/
def outlineOf (depth : Nat) : List Node → List (Nat × Topic)
  | [] => []
  | n :: rest => n.outline depth ++ outlineOf depth rest

end

mutual

/-- the tree with every topic changed -/
def Node.map (f : Topic → Topic) : Node → Node
  | .node t children => .node (f t) (mapAll f children)

/-- the trees with every topic changed -/
def mapAll (f : Topic → Topic) : List Node → List Node
  | [] => []
  | n :: rest => n.map f :: mapAll f rest

end

mutual

theorem Node.lines_eq (o : RenderOptions) (depth : Nat) :
    ∀ n : Node, n.lines o depth = (n.outline depth).flatMap fun x => x.2.lines o x.1
  | .node t children => by rw [Node.lines, Node.outline, List.flatMap_cons, linesOf_eq]

theorem linesOf_eq (o : RenderOptions) (depth : Nat) :
    ∀ ns : List Node, linesOf o depth ns = (outlineOf depth ns).flatMap fun x => x.2.lines o x.1
  | [] => by rw [linesOf, outlineOf, List.flatMap_nil]
  | n :: rest => by rw [linesOf, outlineOf, List.flatMap_append, Node.lines_eq, linesOf_eq]

end

mutual

theorem Node.outline_map (f : Topic → Topic) (depth : Nat) :
    ∀ n : Node, (n.map f).outline depth = (n.outline depth).map fun x => (x.1, f x.2)
  | .node t children => by rw [Node.map, Node.outline, Node.outline, List.map_cons, outlineOf_mapAll]

theorem outlineOf_mapAll (f : Topic → Topic) (depth : Nat) :
    ∀ ns : List Node, outlineOf depth (mapAll f ns) = (outlineOf depth ns).map fun x => (x.1, f x.2)
  | [] => by rw [mapAll, outlineOf, List.map_nil]
  | n :: rest => by rw [mapAll, outlineOf, outlineOf, List.map_append, Node.outline_map, outlineOf_mapAll]

end

/-! ## Planting -/

/-- a forest whose first tree is indented at most so much -/
def StartsWithin (width : Nat) (forest : List Rooted) : Prop := ∀ r ∈ forest.head?, r.item.width ≤ width

/-- what a node line shows: how much it is indented, and its topic -/
def Item.shown (i : Item) : Nat × Topic := (i.width, i.topic)

/-- what is taken of the trees before a forest that is not indented more -/
theorem StartsWithin.span_append {width : Nat} {rest : List Rooted} (h : StartsWithin width rest) (first : List Rooted) :
    (first ++ rest).takeWhile (fun r => width < r.item.width) = first.takeWhile (fun r => width < r.item.width) ∧
      (first ++ rest).dropWhile (fun r => width < r.item.width) = first.dropWhile (fun r => width < r.item.width) ++ rest := by
  induction first with
  | nil =>
    cases rest with
    | nil => exact ⟨rfl, rfl⟩
    | cons r rest =>
      have hr : ¬ width < r.item.width := not_lt.2 (h r rfl)
      exact ⟨List.takeWhile_cons_of_neg (by simpa using hr), List.dropWhile_cons_of_neg (by simpa using hr)⟩
  | cons r first ih =>
    rw [List.cons_append, List.takeWhile_cons, List.takeWhile_cons, List.dropWhile_cons, List.dropWhile_cons, ih.1, ih.2]
    split <;> exact ⟨rfl, rfl⟩

/-- a node takes nothing of a forest that is not indented more -/
theorem plant_append_right {i : Item} {rest : List Rooted} (h : StartsWithin i.width rest) (first : List Rooted) :
    plant i (first ++ rest) = plant i first ++ rest := by
  obtain ⟨htake, hdrop⟩ := h.span_append first
  unfold plant
  dsimp only
  rw [htake, hdrop]
  rfl

/-- trees that stand before a forest are taken under a node that is indented less, the forest is not -/
theorem plant_append {i : Item} {below rest : List Rooted} (hbelow : ∀ r ∈ below, i.width < r.item.width)
    (hrest : StartsWithin i.width rest) : plant i (below ++ rest) = ⟨i, .node i.topic (below.map Rooted.node)⟩ :: rest := by
  have hall : ∀ r ∈ below, decide (i.width < r.item.width) = true := fun r hr => decide_eq_true (hbelow r hr)
  have htake : below.takeWhile (fun r => i.width < r.item.width) = below := List.takeWhile_eq_self_iff.2 hall
  have hdrop : below.dropWhile (fun r => i.width < r.item.width) = [] := List.dropWhile_eq_nil_iff.2 hall
  rw [plant_append_right hrest, plant, htake, hdrop]
  rfl

mutual

theorem Node.foldr_plant {unit : Nat} (hunit : 0 < unit) (depth : Nat) (forest : List Rooted)
    (hforest : StartsWithin (depth * unit) forest) : ∀ (n : Node) (items : List Item),
    items.map Item.shown = (n.outline depth).map (fun x => (x.1 * unit, x.2)) →
      ∃ r, items.foldr plant forest = r :: forest ∧ r.node = n ∧ r.item.width = depth * unit
  | .node t children, items, h => by
    rw [Node.outline, List.map_cons, List.map_eq_cons_iff] at h
    obtain ⟨i, below, rfl, hi, hbelow⟩ := h
    obtain ⟨hwidth, rfl⟩ := Prod.mk.inj hi
    have hlt : depth * unit < (depth + 1) * unit := by
      rw [Nat.add_one_mul]
      exact Nat.lt_add_of_pos_right hunit
    obtain ⟨rs, hrs, hnodes, hwidths⟩ := foldr_plant hunit (depth + 1) forest (fun r hr => (hforest r hr).trans hlt.le) children
      below hbelow
    refine ⟨⟨i, .node i.topic children⟩, ?_, rfl, hwidth⟩
    have hdeeper : ∀ r ∈ rs, i.width < r.item.width := fun r hr => by
      rw [hwidth, hwidths r hr]
      exact hlt
    rw [List.foldr_cons, hrs, plant_append hdeeper (hwidth ▸ hforest), hnodes]

/-- **trees are planted again from their outline**, whatever follows that is not indented more -/
theorem foldr_plant {unit : Nat} (hunit : 0 < unit) (depth : Nat) (forest : List Rooted)
    (hforest : StartsWithin (depth * unit) forest) : ∀ (ns : List Node) (items : List Item),
    items.map Item.shown = (outlineOf depth ns).map (fun x => (x.1 * unit, x.2)) →
      ∃ rs : List Rooted, items.foldr plant forest = rs ++ forest ∧ rs.map Rooted.node = ns ∧
        ∀ r ∈ rs, r.item.width = depth * unit
  | [], items, h => by
    rw [outlineOf, List.map_nil, List.map_eq_nil_iff] at h
    subst h
    exact ⟨[], rfl, rfl, fun r hr => absurd hr List.not_mem_nil⟩
  | n :: rest, items, h => by
    rw [outlineOf, List.map_append, List.map_eq_append_iff] at h
    obtain ⟨first, others, rfl, hfirst, hothers⟩ := h
    obtain ⟨rs, hrs, hnodes, hwidths⟩ := foldr_plant hunit depth forest hforest rest others hothers
    have hstart : StartsWithin (depth * unit) (rs ++ forest) := by
      intro r hr
      cases rs with
      | nil => exact hforest r hr
      | cons r' rs => exact Option.some.inj hr ▸ (hwidths r' List.mem_cons_self).le
    obtain ⟨r, hr, hnode, hwidth⟩ := Node.foldr_plant hunit depth _ hstart n first hfirst
    refine ⟨r :: rs, ?_, ?_, ?_⟩
    · rw [List.foldr_append, hrs, hr]
      rfl
    · rw [List.map_cons, hnode, hnodes]
    · intro r' hr'
      rcases List.mem_cons.1 hr' with rfl | hr'
      · exact hwidth
      · exact hwidths r' hr'

end

/-! ## What is planted -/

theorem mem_outlineOf {depth : Nat} {x : Nat × Topic} {ns : List Node} :
    x ∈ outlineOf depth ns ↔ ∃ n ∈ ns, x ∈ n.outline depth := by
  induction ns with
  | nil => simp [outlineOf]
  | cons n rest ih => simp [outlineOf, ih]

/-- the topics of a forest are those of its lines -/
theorem topic_of_mem_forest {P : Topic → Prop} {items : List Item} (h : ∀ i ∈ items, P i.topic) :
    ∀ r ∈ forest items, ∀ depth, ∀ x ∈ r.node.outline depth, P x.2 := by
  induction items with
  | nil => exact fun r hr => absurd hr List.not_mem_nil
  | cons i items ih =>
    have hrest := ih fun i' hi' => h i' (List.mem_cons_of_mem i hi')
    intro r hr depth x hx
    rcases List.mem_cons.1 hr with rfl | hr
    · rcases List.mem_cons.1 hx with rfl | hx
      · exact h i List.mem_cons_self
      · obtain ⟨n, hn, hx⟩ := mem_outlineOf.1 hx
        obtain ⟨r, hr, rfl⟩ := List.mem_map.1 hn
        exact hrest r ((List.takeWhile_sublist _).subset hr) _ x hx
    · exact hrest r ((List.dropWhile_sublist _).subset hr) depth x hx

end DiagramText.MindMap

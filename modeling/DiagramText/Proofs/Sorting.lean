/-
Printing in the order of ids. Sorting changes the order in which a printer visits entities, at every level of nesting, and
some printers keep account of what they have declared on the way: a class is written in full where it comes first and by
its name elsewhere, a node is declared where nothing before it does. No decision depends on the order. What is written of
an id depends on the entities of that id alone, and sorting is stable (`declared_perm`); the members of a namespace are
exchanged one pair at a time (`memberLines_perm`), nested scopes by induction (`scopeLines_perm`). So the texts have the
same lines in another order (`Diagram.sorting_moves_lines`).
-/
import DiagramText.Proofs.ClassDiagram.RoundTrip
import DiagramText.Proofs.EntityDiagram.RoundTrip
import DiagramText.Proofs.Flowchart.LinkStyles
import DiagramText.Proofs.Indentation.Printing
import DiagramText.Proofs.MindMap.Tree
import DiagramText.Proofs.StateDiagram.Scopes

namespace DiagramText

open DiagramText.Text

/-- the same choices, with or without sorting -/
def RenderOptions.sorting (o : RenderOptions) (sort : Bool) : RenderOptions := { o with sortEntities := sort }

/-- texts with the same lines, perhaps in another order -/
def SameLines (s t : Text) : Prop := (splitOn '\n' s).Perm (splitOn '\n' t)

theorem SameLines.ofLines {raws raws' : List Text} (h : raws.Perm raws') : SameLines (Text.ofLines raws) (Text.ofLines raws') := by
  by_cases hne : raws = []
  · subst hne
    rw [List.nil_perm.1 h]
    exact List.Perm.refl _
  · have hne' : raws' ≠ [] := fun e => hne (List.perm_nil.1 (e ▸ h))
    rw [SameLines, splitOn_ofLines_eq_flatMap hne, splitOn_ofLines_eq_flatMap hne']
    exact h.flatMap_right _

theorem contains_congr {ids ids' : List Text} {id : Text} (h : id ∈ ids ↔ id ∈ ids') :
    ids.contains id = ids'.contains id := by
  rw [Bool.eq_iff_iff, List.contains_iff_mem, List.contains_iff_mem, h]

variable (o : RenderOptions) (b b' : Bool)

/-! ## Points, entities and actors -/

theorem QuadrantChart.sameLines_render (c : QuadrantChart) : SameLines (c.render (o.sorting b)) (c.render (o.sorting b')) := by
  have hpoints : (orderedPoints c (o.sorting b)).Perm (orderedPoints c (o.sorting b')) :=
    (perm_ite_mergeSort _ _ c.points).trans (perm_ite_mergeSort _ _ c.points).symm
  exact .ofLines (.append (.append (.refl _) (hpoints.map _)) (.refl _))

theorem EntityDiagram.sameLines_render (d : EntityDiagram) : SameLines (d.render (o.sorting b)) (d.render (o.sorting b')) := by
  have hentities : (orderedEntities d (o.sorting b)).Perm (orderedEntities d (o.sorting b')) :=
    (perm_orderedEntities d _).trans (perm_orderedEntities d _).symm
  exact .ofLines (.append (.append (.refl _) ((hentities.filter _).flatMap_right _)) (.refl _))

theorem Sequence.sameLines_render (d : Sequence) : SameLines (d.render (o.sorting b)) (d.render (o.sorting b')) := by
  have hactors : (freeActors d (o.sorting b)).Perm (freeActors d (o.sorting b')) :=
    (perm_ite_mergeSort _ _ _).trans (perm_ite_mergeSort _ _ _).symm
  rw [render, render, statementsLines_eq, statementsLines_eq]
  exact .ofLines (.append (.append (.refl _) (hactors.map _)) (.refl _))

/-! ## States -/

namespace StateDiagram

/-- one scope, by induction on the levels that can still be opened below it -/
theorem scopeLines_perm (d : StateDiagram) (fuel : Nat) (scope : Option Text) (depth : Nat) :
    (scopeLines d (o.sorting b) fuel scope depth).Perm (scopeLines d (o.sorting b') fuel scope depth) := by
  induction fuel generalizing scope depth with
  | zero => exact .refl _
  | succ fuel ih =>
    have hstates : (scopeStates d (o.sorting b) scope).Perm (scopeStates d (o.sorting b') scope) :=
      (perm_scopeStates d _ scope).trans (perm_scopeStates d _ scope).symm
    rw [scopeLines, scopeLines]
    refine .append (.append (hstates.flatMap fun s _ => ?_) (.refl _)) (.refl _)
    cases s.kind with
    | composite => exact .append (.append (.refl _) (ih (some s.id) (depth + 1))) (.refl _)
    | pseudo marker => exact .refl _
    | plain => exact .refl _

theorem sameLines_render (d : StateDiagram) : SameLines (d.render (o.sorting b)) (d.render (o.sorting b')) :=
  .ofLines (.append (.append (.append (.refl _) (scopeLines_perm o b b' d _ none 1)) (.refl _)) (.refl _))

end StateDiagram

/-! ## Classes -/

namespace ClassDiagram

variable (d : ClassDiagram)

/-- the lines of a member of a namespace; `declared` are the classes that an earlier line declares -/
def memberText (declared : List Text) (id : Text) : List Text :=
  match if declared.contains id then none else d.classes.get? id with
  | none => [o.levels 2 ++ "class " ++ id]
  | some c => c.lines o (o.levels 2)

variable {d}

theorem memberText_congr {declared declared' : List Text} {id : Text} (h : id ∈ declared ↔ id ∈ declared') :
    memberText o d declared id = memberText o d declared' id := by
  rw [memberText, memberText, contains_congr h]

/-- the lines of the members one after another, each with what is declared before it -/
theorem memberLines_cons (declared : List Text) (id : Text) (ids : List Text) : (memberLines d o declared (id :: ids)).1
    = memberText o d declared id ++ (memberLines d o (memberLines d o declared [id]).2 ids).1 := by
  rw [memberLines, memberLines, memberText]
  cases if declared.contains id then none else d.classes.get? id <;> rfl

theorem mem_declared_congr {declared declared' : List Text} (h : ∀ id, id ∈ declared ↔ id ∈ declared') (ids : List Text)
    (id : Text) : id ∈ (memberLines d o declared ids).2 ↔ id ∈ (memberLines d o declared' ids).2 := by
  rw [mem_memberLines_iff, mem_memberLines_iff, h]

theorem memberLines_congr {declared declared' : List Text} (h : ∀ id, id ∈ declared ↔ id ∈ declared') (ids : List Text) :
    (memberLines d o declared ids).1 = (memberLines d o declared' ids).1 := by
  induction ids generalizing declared declared' with
  | nil => rfl
  | cons id ids ih =>
    rw [memberLines_cons, memberLines_cons, memberText_congr o (h id), ih (mem_declared_congr o h [id])]

/-- **the members of a namespace in another order** -/
theorem memberLines_perm {ids ids' : List Text} (hids : ids.Perm ids') {declared declared' : List Text}
    (h : ∀ id, id ∈ declared ↔ id ∈ declared') : (memberLines d o declared ids).1.Perm (memberLines d o declared' ids').1 := by
  induction hids generalizing declared declared' with
  | nil => exact .refl _
  | cons id _ ih =>
    rw [memberLines_cons, memberLines_cons, memberText_congr o (h id)]
    exact (ih (mem_declared_congr o h [id])).append_left _
  | swap x y ids =>
    by_cases hxy : x = y
    · rw [hxy, memberLines_congr o h]
    · -- neither of two members decides how the other is written
      have hx : x ∈ (memberLines d o declared [y]).2 ↔ x ∈ declared' := by
        rw [mem_memberLines_iff, List.mem_singleton, h]
        exact or_iff_left fun hkey => hxy hkey.1
      have hy : y ∈ declared ↔ y ∈ (memberLines d o declared' [x]).2 := by
        rw [mem_memberLines_iff, List.mem_singleton, h]
        exact (or_iff_left fun hkey => hxy hkey.1.symm).symm
      have hrest : ∀ id, id ∈ (memberLines d o (memberLines d o declared [y]).2 [x]).2 ↔
          id ∈ (memberLines d o (memberLines d o declared' [x]).2 [y]).2 := by
        intro id
        simp only [mem_memberLines_iff, List.mem_singleton, h]
        tauto
      simp only [memberLines_cons]
      rw [memberText_congr o hx, memberText_congr o hy, memberLines_congr o hrest]
      exact List.perm_append_comm_assoc _ _ _
  | trans _ _ ih ih' => exact (ih h).trans (ih' fun _ => Iff.rfl)

theorem memberLines_sorting (declared ids : List Text) :
    memberLines d (o.sorting b) declared ids = memberLines d o declared ids := by
  induction ids generalizing declared with
  | nil => rfl
  | cons id ids ih =>
    rw [memberLines, memberLines, ih, ih]
    rfl

theorem namespaceLines_perm (ns : List Namespace) {declared declared' : List Text} (h : ∀ id, id ∈ declared ↔ id ∈ declared') :
    (namespaceLines d (o.sorting b) declared ns).1.Perm (namespaceLines d (o.sorting b') declared' ns).1 ∧
      ∀ id, id ∈ (namespaceLines d (o.sorting b) declared ns).2 ↔ id ∈ (namespaceLines d (o.sorting b') declared' ns).2 := by
  induction ns generalizing declared declared' with
  | nil => exact ⟨.refl _, h⟩
  | cons n ns ih =>
    have hids : (n.ordered (o.sorting b)).Perm (n.ordered (o.sorting b')) := (n.perm_ordered _).trans (n.perm_ordered _).symm
    have hdeclared : ∀ id, id ∈ (memberLines d o declared (n.ordered (o.sorting b))).2 ↔
        id ∈ (memberLines d o declared' (n.ordered (o.sorting b'))).2 := by
      intro id
      rw [mem_memberLines_iff, mem_memberLines_iff, h, hids.mem_iff]
    rw [namespaceLines, namespaceLines, memberLines_sorting, memberLines_sorting]
    exact ⟨.append (.append (.cons _ (memberLines_perm o hids h)) (.refl _)) (ih hdeclared).1, (ih hdeclared).2⟩

theorem sameLines_render (d : ClassDiagram) : SameLines (d.render (o.sorting b)) (d.render (o.sorting b')) := by
  have hnothing : ∀ id : Text, id ∈ ([] : List Text) ↔ id ∈ ([] : List Text) := fun _ => Iff.rfl
  obtain ⟨hgrouped, hdeclared⟩ := namespaceLines_perm o b b' (d := d) d.namespaces hnothing
  have hclasses : (orderedClasses d (o.sorting b)).Perm (orderedClasses d (o.sorting b')) :=
    (perm_orderedClasses d _).trans (perm_orderedClasses d _).symm
  have hfree : (fun c : Class => !(namespaceLines d (o.sorting b) [] d.namespaces).2.contains c.id && needsDeclaration d c)
      = fun c => !(namespaceLines d (o.sorting b') [] d.namespaces).2.contains c.id && needsDeclaration d c := by
    funext c
    rw [contains_congr (hdeclared c.id)]
  have hlines := (hclasses.filter fun c : Class =>
    !(namespaceLines d (o.sorting b) [] d.namespaces).2.contains c.id && needsDeclaration d c).flatMap_right (Class.lines o o.unit)
  rw [render, render]
  dsimp only
  rw [← hfree]
  refine .ofLines (.append (.append (.append (.append (.append (.append (.refl _) hgrouped) hlines) ?_) ?_) ?_) ?_)
  all_goals exact .refl _

end ClassDiagram

/-! ## Nodes -/

namespace Flowchart

namespace Page

variable (p : Page) {ns ns' : List Node}

theorem declared_congr_met {met met' : List Text} (h : ∀ n ∈ ns, n.id ∈ met ↔ n.id ∈ met') :
    p.declared met ns = p.declared met' ns := by
  induction ns generalizing met met' with
  | nil => rfl
  | cons n ns ih =>
    rw [List.forall_mem_cons] at h
    have hmet : p.declared (n.id :: met) ns = p.declared (n.id :: met') ns :=
      ih fun m hm => by rw [List.mem_cons, List.mem_cons, h.2 m hm]
    rw [declared, declared, contains_congr h.1, hmet, ih h.2]

/-- whether a node is declared depends on the nodes of its id alone -/
theorem filter_declared (met : List Text) (id : Text) (ns : List Node) :
    (p.declared met ns).filter (fun n => n.id = id) = p.declared met (ns.filter fun n => n.id = id) := by
  induction ns generalizing met with
  | nil => rfl
  | cons n ns ih =>
    by_cases hid : n.id = id
    · rw [List.filter_cons_of_pos (by simpa using hid), declared, declared]
      split
      · rw [List.filter_cons_of_pos (by simpa using hid), ih]
      · exact ih met
    · -- another id is met, which does not count for the nodes that are left
      have hmet : p.declared (n.id :: met) (ns.filter fun m => m.id = id) = p.declared met (ns.filter fun m => m.id = id) := by
        refine p.declared_congr_met fun m hm => ?_
        have hm : m.id = id := by simpa using (List.mem_filter.1 hm).2
        rw [List.mem_cons, or_iff_right fun e => hid (e.symm.trans hm)]
      rw [List.filter_cons_of_neg (by simpa using hid), declared]
      split
      · rw [List.filter_cons_of_neg (by simpa using hid), ih, hmet]
      · exact ih met

/-- **nodes in another order**, those of one id in the same -/
theorem declared_perm (met : List Text) (h : ∀ id, (ns.filter fun n => n.id = id) = ns'.filter fun n => n.id = id) :
    (p.declared met ns).Perm (p.declared met ns') := by
  refine List.perm_iff_count.2 fun n => ?_
  have hcount : ∀ ms : List Node, ms.count n = (ms.filter fun m => m.id = n.id).count n := fun ms =>
    (List.count_filter (by simp)).symm
  rw [hcount, hcount (p.declared met ns'), filter_declared, filter_declared, h]

end Page

variable (d : Flowchart)

/-- sorting keeps the nodes of one id in their order -/
theorem filter_nodes_sorting (id : Text) : ((Page.nodes ⟨d, o.sorting b⟩).filter fun n => n.id = id)
    = d.nodes.values.filter fun n => n.id = id := by
  rw [Page.nodes]
  split
  · exact filter_mergeSort Node.id d.nodes.values id
  · rfl

/-- the statements of a page in another order -/
theorem script_perm (styles : List (Text × Style)) :
    (Page.script ⟨d, o.sorting b⟩ styles).Perm (Page.script ⟨d, o.sorting b'⟩ styles) := by
  have hinline : (o.sorting b).inlineClasses = (o.sorting b').inlineClasses := rfl
  have hcompact : (o.sorting b).compactLinks = (o.sorting b').compactLinks := rfl
  have hdeclared : (Page.declared ⟨d, o.sorting b⟩ (Page.grouped ⟨d, o⟩).reverse (Page.nodes ⟨d, o.sorting b⟩)).Perm
      (Page.declared ⟨d, o.sorting b'⟩ (Page.grouped ⟨d, o⟩).reverse (Page.nodes ⟨d, o.sorting b'⟩)) := by
    rw [Page.declared_congr d hinline]
    exact Page.declared_perm _ _ fun id => (filter_nodes_sorting o b d id).trans (filter_nodes_sorting o b' d id).symm
  have hbody : (Page.bodyScript ⟨d, o.sorting b⟩).Perm (Page.bodyScript ⟨d, o.sorting b'⟩) := by
    rw [Page.bodyScript, Page.bodyScript, Page.forestScript_congr d hinline hcompact, Page.nodeMention_congr d hinline,
      Page.linksAt_congr d hcompact]
    exact .append (.append (.refl _) (((hdeclared.map _).map _).map _)) (.refl _)
  rw [Page.script, Page.script, Page.tailScript, Page.tailScript, Page.assignments_congr d hinline]
  exact .append (.append (.refl _) hbody) (.refl _)

/-- link styles keep their keys, and a key that cannot be printed stops both -/
theorem render_sorting : (∃ s t, d.render (o.sorting b) = .ok s ∧ d.render (o.sorting b') = .ok t ∧ SameLines s t) ∨
    ∃ e, d.render (o.sorting b) = .error e ∧ d.render (o.sorting b') = .error e := by
  rw [Page.render_eq, Page.render_eq, Page.printedStyles_congr d (o.sorting b) (o.sorting b')]
  cases Page.printedStyles ⟨d, o.sorting b'⟩ with
  | error e => exact .inr ⟨e, rfl, rfl⟩
  | ok styles => exact .inl ⟨_, _, rfl, rfl, .ofLines (.cons _ ((script_perm o b b' d styles).map _))⟩

end Flowchart

/-! ## Diagrams -/

/-- topics stand in their tree in an order of their own -/
theorem MindMap.render_sorting (m : MindMap) : m.render (o.sorting b) = m.render (o.sorting b') := by
  rw [render, render, linesOf_eq, linesOf_eq]
  rfl

/-- **sorting only moves lines**: with and without it the texts have the same lines, unless the number of a link style, in a
flowchart, cannot be printed in either -/
theorem Diagram.sorting_moves_lines (x : Diagram) :
    (∃ s t, x.render (o.sorting true) = .ok s ∧ x.render (o.sorting false) = .ok t ∧ SameLines s t) ∨
      ∃ c e, x = .flowchart c ∧ (∃ key ∈ c.linkStyles.keys, ¬ Flowchart.IsPrintableKey key) ∧
        x.render (o.sorting true) = .error e ∧ x.render (o.sorting false) = .error e := by
  cases x with
  | flowchart c =>
    refine (c.render_sorting o true false).imp_right ?_
    rintro ⟨e, he, he'⟩
    have hkey : ¬ ∀ key ∈ c.linkStyles.keys, Flowchart.IsPrintableKey key := by
      rw [← Flowchart.exists_render_iff c (o.sorting true)]
      rintro ⟨t, ht⟩
      exact absurd (he.symm.trans ht) nofun
    push Not at hkey
    exact ⟨c, e, rfl, hkey, he, he'⟩
  | sequence d => exact .inl ⟨_, _, rfl, rfl, d.sameLines_render o true false⟩
  | classDiagram d => exact .inl ⟨_, _, rfl, rfl, d.sameLines_render o true false⟩
  | state d => exact .inl ⟨_, _, rfl, rfl, d.sameLines_render o true false⟩
  | er d => exact .inl ⟨_, _, rfl, rfl, d.sameLines_render o true false⟩
  | quadrant c => exact .inl ⟨_, _, rfl, rfl, c.sameLines_render o true false⟩
  | mindmap m => exact .inl ⟨_, _, rfl, rfl, .of_eq (congrArg _ (m.render_sorting o true false))⟩
  | _ => exact .inl ⟨_, _, rfl, rfl, .of_eq rfl⟩

end DiagramText

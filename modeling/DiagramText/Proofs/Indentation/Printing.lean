/-
Printed lines say the same however far they are indented. White space before a line is no part of what it says
(`contents_margin`), and no printer looks at the indentation for anything but to put it there; so each text is printed with the
same lines, each in another margin (`contents_render_congr` in the namespace of every dialect that indents).
-/
import DiagramText.Diagram
import DiagramText.Proofs.Accessibility
import DiagramText.Proofs.Flowchart.Script
import DiagramText.Proofs.Options
import DiagramText.Proofs.Sequence.RoundTrip
import DiagramText.Proofs.Text.Contents

namespace DiagramText

open DiagramText.Text

/-- options that differ at most in how far lines are indented -/
structure RenderOptions.IsReindented (o o' : RenderOptions) : Prop where
  inlineClasses : o.inlineClasses = o'.inlineClasses
  compactLinks : o.compactLinks = o'.compactLinks
  sortEntities : o.sortEntities = o'.sortEntities

/-- what printed lines say -/
def said (strip : Bool) (raws : List Text) : List Text := raws.flatMap (contents strip)

variable {strip : Bool} {o o' : RenderOptions} {m m' t : Text} {raws : List Text}

theorem said_append (raws raws' : List Text) : said strip (raws ++ raws') = said strip raws ++ said strip raws' :=
  List.flatMap_append

theorem said_cons (raw : Text) (raws : List Text) : said strip (raw :: raws) = contents strip raw ++ said strip raws :=
  List.flatMap_cons

theorem said_singleton (raw : Text) : said strip [raw] = contents strip raw := List.flatMap_singleton _ raw

theorem said_map_congr {α : Type} {xs : List α} {f f' : α → Text} (h : ∀ x ∈ xs, contents strip (f x) = contents strip (f' x)) :
    said strip (xs.map f) = said strip (xs.map f') := by
  rw [said, said, List.flatMap_map, List.flatMap_map]
  exact List.flatMap_congr h

theorem said_flatMap_congr {α : Type} {xs : List α} {f f' : α → List Text} (h : ∀ x ∈ xs, said strip (f x) = said strip (f' x)) :
    said strip (xs.flatMap f) = said strip (xs.flatMap f') := by
  rw [said, said, List.flatMap_assoc, List.flatMap_assoc]
  exact List.flatMap_congr h

theorem said_toList_map_congr {α : Type} {x : Option α} {f f' : α → Text} (h : ∀ y, contents strip (f y) = contents strip (f' y)) :
    said strip (x.map f).toList = said strip (x.map f').toList := by
  cases x with
  | none => rfl
  | some y => exact (said_singleton (f y)).trans ((h y).trans (said_singleton (f' y)).symm)

theorem contents_ofLines_congr {raws raws' : List Text} (h : said strip raws = said strip raws') :
    contents strip (ofLines raws) = contents strip (ofLines raws') :=
  (contents_ofLines strip raws).trans (h.trans (contents_ofLines strip raws').symm)

/-! ## Margins -/

section

variable (hm : m.all isBlank = true) (hm' : m'.all isBlank = true)
include hm hm'

/-- **a line says the same in another margin** -/
theorem contents_margin (t : Text) : contents strip (m ++ t) = contents strip (m' ++ t) :=
  (contents_blank_append hm t).trans (contents_blank_append hm' t).symm

theorem said_margin {α : Type} (text : α → Text) (xs : List α) :
    said strip (xs.map (m ++ text ·)) = said strip (xs.map (m' ++ text ·)) :=
  said_map_congr fun x _ => contents_margin hm hm' (text x)

/-- what is trimmed at the end of a line does not depend on its margin -/
theorem contents_trimRight_margin (t : Text) : contents strip (trimRight (m ++ t)) = contents strip (trimRight (m' ++ t)) := by
  by_cases ht : trimRight t = []
  · -- nothing is left of white space in a margin
    have hnil : ∀ {m : Text}, m.all isBlank = true → trimRight (m ++ t) = [] := by
      intro m hm
      obtain ⟨b, hb, hblank⟩ := exists_trimRight_append t
      rw [ht, List.nil_append] at hb
      have hall : (m ++ t).all isBlank = true := by rw [List.all_append, hm, ← hb, hblank, Bool.and_self]
      exact trimRight_append (t := []) hall
    rw [hnil hm, hnil hm']
  · rw [trimRight_append_of_ne_nil m ht, trimRight_append_of_ne_nil m' ht]
    exact contents_margin hm hm' _

theorem said_accessibility (a : Accessibility) : said strip (a.lines m) = said strip (a.lines m') := by
  rw [Accessibility.lines_eq, Accessibility.lines_eq]
  exact said_margin hm hm' accessibilityText a.written

theorem said_title (title : Option Text) :
    said strip (title.map (m ++ "title " ++ ·)).toList = said strip (title.map (m' ++ "title " ++ ·)).toList := by
  refine said_toList_map_congr fun t => ?_
  rw [List.append_assoc, List.append_assoc]
  exact contents_margin hm hm' _

theorem said_direction (d : Direction) : said strip (if d = .tb then [] else [m ++ "direction " ++ d.toText])
    = said strip (if d = .tb then [] else [m' ++ "direction " ++ d.toText]) := by
  split
  · rfl
  · rw [said_singleton, said_singleton, List.append_assoc, List.append_assoc]
    exact contents_margin hm hm' _

theorem said_classDefs {α : Type} (text : α → Text) (classDefs : List (Text × α)) :
    said strip (classDefs.map fun (name, style) => trimRight (m ++ "classDef " ++ name ++ " " ++ text style))
      = said strip (classDefs.map fun (name, style) => trimRight (m' ++ "classDef " ++ name ++ " " ++ text style)) := by
  refine said_map_congr ?_
  rintro ⟨name, style⟩ -
  simp only [List.append_assoc]
  exact contents_trimRight_margin hm hm' _

theorem said_assignments (opening closing : Text) (assigned : List (Text × List Text)) :
    said strip (assigned.flatMap fun (id, names) => names.map fun name => m ++ opening ++ id ++ closing ++ name)
      = said strip (assigned.flatMap fun (id, names) => names.map fun name => m' ++ opening ++ id ++ closing ++ name) := by
  refine said_flatMap_congr ?_
  rintro ⟨id, names⟩ -
  refine said_map_congr fun name _ => ?_
  simp only [List.append_assoc]
  exact contents_margin hm hm' _

end

theorem RenderOptions.all_isBlank_unit (o : RenderOptions) : o.unit.all isBlank = true := o.levels_one ▸ o.all_isBlank_levels 1

/-! ## Charts, journeys and timelines -/

theorem Timeline.contents_render_congr (d : Timeline) (o o' : RenderOptions) :
    contents strip (d.render o) = contents strip (d.render o') := by
  have hsection : ∀ s ∈ d.sections, said strip (Section.lines o s) = said strip (Section.lines o' s) := by
    intro s _
    rw [Section.lines, Section.lines]
    cases s.name with
    | none => exact said_margin (o.all_isBlank_levels 1) (o'.all_isBlank_levels 1) Period.toText s.periods
    | some name =>
      dsimp only
      rw [said_cons, said_cons, List.append_assoc, List.append_assoc, contents_margin o.all_isBlank_unit o'.all_isBlank_unit,
        said_margin (o.all_isBlank_levels 2) (o'.all_isBlank_levels 2) Period.toText]
  refine contents_ofLines_congr ?_
  simp only [said_append, said_cons, said_title o.all_isBlank_unit o'.all_isBlank_unit,
    said_accessibility o.all_isBlank_unit o'.all_isBlank_unit, said_flatMap_congr hsection]

theorem Journey.contents_render_congr (d : Journey) (o o' : RenderOptions) :
    contents strip (d.render o) = contents strip (d.render o') := by
  have hsection : ∀ s ∈ d.sections, said strip (Section.lines o s) = said strip (Section.lines o' s) := by
    intro s _
    rw [Section.lines, Section.lines]
    cases s.name with
    | none => exact said_margin (o.all_isBlank_levels 1) (o'.all_isBlank_levels 1) Task.toText s.tasks
    | some name =>
      dsimp only
      rw [said_cons, said_cons, List.append_assoc, List.append_assoc, contents_margin o.all_isBlank_unit o'.all_isBlank_unit,
        said_margin (o.all_isBlank_levels 2) (o'.all_isBlank_levels 2) Task.toText]
  refine contents_ofLines_congr ?_
  simp only [said_append, said_cons, said_title o.all_isBlank_unit o'.all_isBlank_unit,
    said_accessibility o.all_isBlank_unit o'.all_isBlank_unit, said_flatMap_congr hsection]

theorem XYChart.contents_render_congr (c : XYChart) (o o' : RenderOptions) :
    contents strip (c.render o) = contents strip (c.render o') := by
  have hunit := o.all_isBlank_unit
  have hunit' := o'.all_isBlank_unit
  have htitle : said strip ((present c.title).map (o.unit ++ "title " ++ quote ·)).toList
      = said strip ((present c.title).map (o'.unit ++ "title " ++ quote ·)).toList := by
    refine said_toList_map_congr fun t => ?_
    rw [List.append_assoc, List.append_assoc]
    exact contents_margin hunit hunit' _
  refine contents_ofLines_congr ?_
  simp only [said_append, said_cons, htitle, said_accessibility hunit hunit', said_margin hunit hunit']

theorem QuadrantChart.Quarters.said_lines (q : Quarters) (hm : m.all isBlank = true) (hm' : m'.all isBlank = true) :
    said strip (q.toList.filterMap fun (number, label) =>
      (present label).map fun (label : Text) => m ++ "quadrant-" ++ number ++ " " ++ label)
        = said strip (q.toList.filterMap fun (number, label) =>
          (present label).map fun (label : Text) => m' ++ "quadrant-" ++ number ++ " " ++ label) := by
  rw [List.filterMap_eq_flatMap_toList, List.filterMap_eq_flatMap_toList]
  refine said_flatMap_congr ?_
  rintro ⟨number, label⟩ -
  refine said_toList_map_congr fun label => ?_
  simp only [List.append_assoc]
  exact contents_margin hm hm' _

theorem QuadrantChart.contents_render_congr (c : QuadrantChart) (h : o.IsReindented o') :
    contents strip (c.render o) = contents strip (c.render o') := by
  have hunit := o.all_isBlank_unit
  have hunit' := o'.all_isBlank_unit
  have hpoints : orderedPoints c o = orderedPoints c o' := by rw [orderedPoints, orderedPoints, h.sortEntities]
  refine contents_ofLines_congr ?_
  simp only [said_append, said_cons, said_title hunit hunit', said_accessibility hunit hunit', said_margin hunit hunit',
    c.quarters.said_lines hunit hunit', said_classDefs hunit hunit' (join ", "), hpoints]

/-! ## Diagrams with parts that are opened and closed -/

theorem EntityDiagram.contents_render_congr (d : EntityDiagram) (h : o.IsReindented o') :
    contents strip (d.render o) = contents strip (d.render o') := by
  have hunit := o.all_isBlank_unit
  have hunit' := o'.all_isBlank_unit
  have hentity : ∀ e ∈ (orderedEntities d o').filter (needsDeclaration d),
      said strip (Entity.lines o e) = said strip (Entity.lines o' e) := by
    intro e _
    rw [Entity.lines, Entity.lines]
    split
    · rw [said_singleton, said_singleton, contents_margin hunit hunit']
    · simp only [said_append, said_cons, List.append_assoc, contents_margin hunit hunit',
        said_margin (o.all_isBlank_levels 2) (o'.all_isBlank_levels 2) Column.toText]
  have hentities : orderedEntities d o = orderedEntities d o' := by rw [orderedEntities, orderedEntities, h.sortEntities]
  refine contents_ofLines_congr ?_
  simp only [said_append, said_cons, said_direction hunit hunit', said_accessibility hunit hunit', hentities,
    said_flatMap_congr hentity, said_margin hunit hunit']

namespace ClassDiagram

theorem said_class (c : Class) (hm : m.all isBlank = true) (hm' : m'.all isBlank = true) :
    said strip (c.lines o m) = said strip (c.lines o' m') := by
  have hinner : (m ++ o.unit).all isBlank = true := by rw [List.all_append, hm, o.all_isBlank_unit, Bool.and_self]
  have hinner' : (m' ++ o'.unit).all isBlank = true := by rw [List.all_append, hm', o'.all_isBlank_unit, Bool.and_self]
  rw [Class.lines, Class.lines]
  split
  · have hbody : said strip (c.bodyLines.map (m ++ o.unit ++ ·)) = said strip (c.bodyLines.map (m' ++ o'.unit ++ ·)) :=
      said_margin hinner hinner' id c.bodyLines
    rw [said_append, said_append, said_cons, said_cons, hbody]
    simp only [said_cons, List.append_assoc, contents_margin hm hm']
  · rw [said_singleton, said_singleton, contents_margin hm hm']

theorem said_memberLines (strip : Bool) (o o' : RenderOptions) (d : ClassDiagram) (declared ids : List Text) :
    said strip (memberLines d o declared ids).1 = said strip (memberLines d o' declared ids).1 ∧
      (memberLines d o declared ids).2 = (memberLines d o' declared ids).2 := by
  induction ids generalizing declared with
  | nil => exact ⟨rfl, rfl⟩
  | cons id ids ih =>
    rw [memberLines, memberLines]
    cases if declared.contains id then none else d.classes.get? id with
    | none =>
      refine ⟨?_, (ih declared).2⟩
      dsimp only
      rw [said_cons, said_cons, (ih declared).1, List.append_assoc, List.append_assoc,
        contents_margin (o.all_isBlank_levels 2) (o'.all_isBlank_levels 2)]
    | some c =>
      refine ⟨?_, (ih (id :: declared)).2⟩
      dsimp only
      rw [said_append, said_append, (ih (id :: declared)).1, said_class c (o.all_isBlank_levels 2) (o'.all_isBlank_levels 2)]

theorem said_namespaceLines (strip : Bool) (d : ClassDiagram) (h : o.IsReindented o') (declared : List Text) (ns : List Namespace) :
    said strip (namespaceLines d o declared ns).1 = said strip (namespaceLines d o' declared ns).1 ∧
      (namespaceLines d o declared ns).2 = (namespaceLines d o' declared ns).2 := by
  induction ns generalizing declared with
  | nil => exact ⟨rfl, rfl⟩
  | cons n ns ih =>
    have hordered : n.ordered o = n.ordered o' := by rw [Namespace.ordered, Namespace.ordered, h.sortEntities]
    obtain ⟨hlines, hdeclared⟩ := said_memberLines strip o o' d declared (n.ordered o')
    rw [namespaceLines, namespaceLines, hordered]
    dsimp only
    rw [hdeclared]
    refine ⟨?_, (ih _).2⟩
    simp only [said_append, said_cons, List.append_assoc, contents_margin o.all_isBlank_unit o'.all_isBlank_unit, hlines, (ih _).1]

theorem contents_render_congr (d : ClassDiagram) (h : o.IsReindented o') :
    contents strip (d.render o) = contents strip (d.render o') := by
  have hunit := o.all_isBlank_unit
  have hunit' := o'.all_isBlank_unit
  obtain ⟨hgrouped, hdeclared⟩ := said_namespaceLines strip d h [] d.namespaces
  have hclasses : orderedClasses d o = orderedClasses d o' := by rw [orderedClasses, orderedClasses, h.sortEntities]
  have hclass (cs : List Class) : said strip (cs.flatMap (Class.lines o o.unit)) = said strip (cs.flatMap (Class.lines o' o'.unit)) :=
    said_flatMap_congr fun c _ => said_class c hunit hunit'
  refine contents_ofLines_congr ?_
  rw [hdeclared, hclasses]
  simp only [said_append, said_cons, said_direction hunit hunit', said_accessibility hunit hunit', hgrouped, said_margin hunit hunit',
    hclass, said_classDefs hunit hunit' Style.toText, said_assignments hunit hunit']

end ClassDiagram

namespace Sequence

theorem said_box (d : Sequence) (b : Box) : said strip (boxLines d o b) = said strip (boxLines d o' b) := by
  have hactors : said strip (b.actorIds.map fun id => o.levels 2 ++ ((d.actors.get? id).getD ⟨id, id, .participant⟩).toText)
      = said strip (b.actorIds.map fun id => o'.levels 2 ++ ((d.actors.get? id).getD ⟨id, id, .participant⟩).toText) :=
    said_margin (o.all_isBlank_levels 2) (o'.all_isBlank_levels 2) _ b.actorIds
  rw [boxLines, boxLines, said_append, said_append, said_cons, said_cons, hactors]
  simp only [said_cons, contents_margin o.all_isBlank_unit o'.all_isBlank_unit]

theorem contents_render_congr (d : Sequence) (h : o.IsReindented o') :
    contents strip (d.render o) = contents strip (d.render o') := by
  have hunit := o.all_isBlank_unit
  have hunit' := o'.all_isBlank_unit
  have hactors : freeActors d o = freeActors d o' := by rw [freeActors, freeActors, h.sortEntities]
  have hstatements : said strip (statementsLines o 1 d.statements) = said strip (statementsLines o' 1 d.statements) := by
    rw [statementsLines_eq, statementsLines_eq]
    exact said_map_congr fun x _ => contents_margin (o.all_isBlank_levels x.1) (o'.all_isBlank_levels x.1) x.2.toText
  have hboxes : said strip (d.boxes.flatMap (boxLines d o)) = said strip (d.boxes.flatMap (boxLines d o')) :=
    said_flatMap_congr fun b _ => said_box d b
  refine contents_ofLines_congr ?_
  simp only [said_append, said_cons, said_title hunit hunit', said_accessibility hunit hunit', hboxes, hactors,
    said_margin hunit hunit' Actor.toText, hstatements]

end Sequence

namespace StateDiagram

theorem said_note (n : Note) (hm : m.all isBlank = true) (hm' : m'.all isBlank = true) :
    said strip (n.lines o m) = said strip (n.lines o' m') := by
  have hinner : (m ++ o.unit).all isBlank = true := by rw [List.all_append, hm, o.all_isBlank_unit, Bool.and_self]
  have hinner' : (m' ++ o'.unit).all isBlank = true := by rw [List.all_append, hm', o'.all_isBlank_unit, Bool.and_self]
  have hlines (lines : List Text) : said strip (lines.map (m ++ o.unit ++ ·)) = said strip (lines.map (m' ++ o'.unit ++ ·)) :=
    said_margin hinner hinner' id lines
  rw [Note.lines, Note.lines]
  split
  · simp only [List.append_assoc, said_cons, contents_margin hm hm']
  · simp only [List.append_assoc, said_cons, contents_margin hm hm']
  · rw [said_append, said_append, said_cons, said_cons, hlines]
    simp only [List.append_assoc, said_cons, contents_margin hm hm']

/-- one scope, by induction on the levels that can still be opened below it -/
theorem said_scope (d : StateDiagram) (h : o.IsReindented o') (fuel : Nat) (scope : Option Text) (depth : Nat) :
    said strip (scopeLines d o fuel scope depth) = said strip (scopeLines d o' fuel scope depth) := by
  induction fuel generalizing scope depth with
  | zero => rfl
  | succ fuel ih =>
    have hm := o.all_isBlank_levels depth
    have hm' := o'.all_isBlank_levels depth
    have hinner : (o.levels depth ++ o.unit).all isBlank = true := by rw [List.all_append, hm, o.all_isBlank_unit, Bool.and_self]
    have hinner' : (o'.levels depth ++ o'.unit).all isBlank = true := by
      rw [List.all_append, hm', o'.all_isBlank_unit, Bool.and_self]
    have hstates : scopeStates d o scope = scopeStates d o' scope := by rw [scopeStates, scopeStates, h.sortEntities]
    rw [scopeLines, scopeLines]
    rw [said_append, said_append, said_append, said_append, hstates, said_margin hm hm' Transition.toText,
      said_flatMap_congr fun n _ => said_note n hm hm']
    congr 2
    refine said_flatMap_congr fun s _ => ?_
    cases s.kind with
    | composite =>
      have hdirection : said strip (s.direction.map fun dir => o.levels depth ++ o.unit ++ "direction " ++ dir.toText).toList
          = said strip (s.direction.map fun dir => o'.levels depth ++ o'.unit ++ "direction " ++ dir.toText).toList := by
        refine said_toList_map_congr fun dir => ?_
        rw [List.append_assoc, List.append_assoc _ "direction ".toList]
        exact contents_margin hinner hinner' _
      dsimp only
      rw [said_append, said_append, said_append, said_append, said_cons, said_cons, hdirection, ih]
      simp only [said_cons, contents_margin hm hm']
    | pseudo marker =>
      dsimp only
      simp only [List.append_assoc, said_cons, contents_margin hm hm']
    | plain =>
      dsimp only
      cases s.label with
      | none =>
        dsimp only
        split
        · rfl
        · rw [said_singleton, said_singleton, contents_margin hm hm']
      | some label =>
        dsimp only
        rw [said_singleton, said_singleton, List.append_assoc, List.append_assoc, List.append_assoc, List.append_assoc]
        exact contents_trimRight_margin hm hm' _

theorem contents_render_congr (d : StateDiagram) (h : o.IsReindented o') :
    contents strip (d.render o) = contents strip (d.render o') := by
  have hunit := o.all_isBlank_unit
  have hunit' := o'.all_isBlank_unit
  refine contents_ofLines_congr ?_
  simp only [said_append, said_cons, said_direction hunit hunit', said_accessibility hunit hunit', said_scope d h,
    said_classDefs hunit hunit' Style.toText, said_assignments hunit hunit']

end StateDiagram

/-! ## Flowcharts -/

namespace Flowchart.Page

section

variable (d : Flowchart) (hinline : o.inlineClasses = o'.inlineClasses)
include hinline

theorem inlineClass_congr : inlineClass ⟨d, o⟩ = inlineClass ⟨d, o'⟩ := by
  funext id
  rw [inlineClass, inlineClass, hinline]

theorem nodeMention_congr : nodeMention ⟨d, o⟩ = nodeMention ⟨d, o'⟩ := by
  funext n
  rw [nodeMention, nodeMention, inlineClass_congr d hinline]

theorem memberMentions_congr (met ids : List Text) : memberMentions ⟨d, o⟩ met ids = memberMentions ⟨d, o'⟩ met ids := by
  induction ids generalizing met with
  | nil => rfl
  | cons id ids ih => rw [memberMentions, memberMentions, ih, memberMention, memberMention, nodeMention_congr d hinline]

theorem declared_congr (met : List Text) (ns : List Node) : declared ⟨d, o⟩ met ns = declared ⟨d, o'⟩ met ns := by
  induction ns generalizing met with
  | nil => rfl
  | cons n ns ih =>
    rw [declared, declared, inlineClass_congr d hinline, ih, ih]
    rfl

theorem assignments_congr : assignments ⟨d, o⟩ = assignments ⟨d, o'⟩ := by
  rw [assignments, assignments, inlineClass_congr d hinline]

end

theorem linksAt_congr (d : Flowchart) (hcompact : o.compactLinks = o'.compactLinks) : linksAt ⟨d, o⟩ = linksAt ⟨d, o'⟩ := by
  funext depth numbers
  rw [linksAt, linksAt, hcompact]
  rfl

theorem nodes_congr (d : Flowchart) (hsort : o.sortEntities = o'.sortEntities) : nodes ⟨d, o⟩ = nodes ⟨d, o'⟩ := by
  rw [nodes, nodes, hsort]

/-- subgraphs take the same links -/
theorem takenAll_congr (d : Flowchart) (o o' : RenderOptions) (pending : List Nat) (ss : List Subgraph) :
    takenAll ⟨d, o⟩ pending ss = takenAll ⟨d, o'⟩ pending ss := by
  have hmap := takenAll_map (p := ⟨d, o'⟩) (q := ⟨d, o⟩) (f := id) (fun _ (_ : _ ∈ pending) _ => rfl) ss
  rwa [List.map_id, List.map_id] at hmap

mutual

theorem blockScript_congr (d : Flowchart) (hinline : o.inlineClasses = o'.inlineClasses)
    (hcompact : o.compactLinks = o'.compactLinks) (depth : Nat) (met : List Text) (pending : List Nat) :
    (s : Subgraph) → blockScript ⟨d, o⟩ depth met pending s = blockScript ⟨d, o'⟩ depth met pending s
  | ⟨id, title, nodeIds, children, direction⟩ => by
    rw [blockScript, blockScript, memberMentions_congr d hinline, linksAt_congr d hcompact,
      forestScript_congr d hinline hcompact (depth + 1) _ _ children]
    rfl

theorem forestScript_congr (d : Flowchart) (hinline : o.inlineClasses = o'.inlineClasses)
    (hcompact : o.compactLinks = o'.compactLinks) (depth : Nat) (met : List Text) (pending : List Nat) :
    (ss : List Subgraph) → forestScript ⟨d, o⟩ depth met pending ss = forestScript ⟨d, o'⟩ depth met pending ss
  | [] => by rw [forestScript, forestScript]
  | s :: rest => by
    rw [forestScript, forestScript, blockScript_congr d hinline hcompact depth met pending s,
      forestScript_congr d hinline hcompact depth _ _ rest]
    rfl

end

/-- links keep their places, so link styles keep their keys -/
theorem printedStyles_congr (d : Flowchart) (o o' : RenderOptions) : printedStyles ⟨d, o⟩ = printedStyles ⟨d, o'⟩ := by
  have horder : order ⟨d, o⟩ = order ⟨d, o'⟩ := congrArg (· ++ loose ⟨d, o⟩) (takenAll_congr d o o' _ d.subgraphs)
  rw [printedStyles, printedStyles, horder]
  rfl

/-- **a page has the same statements at the same depths** -/
theorem script_congr (d : Flowchart) (h : o.IsReindented o') (styles : List (Text × Style)) :
    script ⟨d, o⟩ styles = script ⟨d, o'⟩ styles := by
  have hbody : bodyScript ⟨d, o⟩ = bodyScript ⟨d, o'⟩ := by
    rw [bodyScript, bodyScript, forestScript_congr d h.inlineClasses h.compactLinks, declared_congr d h.inlineClasses,
      nodeMention_congr d h.inlineClasses, linksAt_congr d h.compactLinks, nodes_congr d h.sortEntities]
    rfl
  rw [script, script, hbody, tailScript, tailScript, assignments_congr d h.inlineClasses]
  rfl

end Flowchart.Page

theorem Flowchart.contents_render_congr (d : Flowchart) (h : o.IsReindented o') :
    (d.render o).map (contents strip) = (d.render o').map (contents strip) := by
  rw [Page.render_eq, Page.render_eq, Page.printedStyles_congr d o o']
  cases Page.printedStyles ⟨d, o'⟩ with
  | error e => rfl
  | ok styles =>
    refine congrArg Except.ok (contents_ofLines_congr ?_)
    rw [said_cons, said_cons, Page.script_congr d h]
    refine congrArg _ (said_map_congr fun x _ => ?_)
    exact contents_margin (o.all_isBlank_levels x.1) (o'.all_isBlank_levels x.1) x.2.toText

end DiagramText

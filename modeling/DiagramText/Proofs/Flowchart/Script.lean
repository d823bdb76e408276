/-
The printed page as statements. `Page.script` lists what the printer writes below the header, each statement with its
depth, so that the canonical text is the header and the lines of that script. The nodes met and the
links left after a subgraph are given in closed form: all members below it, and the links that no subgraph below it
takes. `order_perm` says that the order of writing only moves the links.
-/
import DiagramText.Proofs.Flowchart.Reading
import DiagramText.Proofs.Options

namespace DiagramText.Flowchart

open DiagramText.Text

/-! ## Links -/

/-- a node mentioned by its id alone -/
def bare (id : Text) : Mention := ⟨id, none, none⟩

/-- a link on a line of its own -/
def Link.chain (l : Link) : Chain := ⟨[bare l.source], [(l.form, [bare l.target])]⟩

/-- links one under another, or those that continue each other on one line -/
def linkChains (compact : Bool) : List Link → List Chain
  | [] => []
  | [l] => [l.chain]
  | l :: m :: rest =>
    match linkChains compact (m :: rest) with
    | c :: cs =>
      if compact && m.source = l.target then ⟨[bare l.source], (l.form, c.first) :: c.links⟩ :: cs
      else l.chain :: c :: cs
    | [] => []

theorem mention_bare (id : Text) : (bare id).toText = id := by
  simp [bare, Mention.toText, Mention.suffix, shapeText, classText]

theorem isPlain_bare {id : Text} (h : Scan.isName isWord id = true) : (bare id).IsPlain where
  id := h
  label _ _ e := absurd e (by simp [bare])
  className _ e := absurd e (by simp [bare])

theorem groupText_bare (id : Text) : groupText [bare id] = id := by
  rw [groupText, List.map_singleton, join_singleton, mention_bare]

theorem Chain.toText_single (m : Mention) : Chain.toText ⟨[m], []⟩ = m.toText := by
  simp [Chain.toText, groupText, linksText]

theorem toText_closeSubgraph : Statement.closeSubgraph.toText = "end" := rfl

theorem toText_chain_cons (id : Text) (form : LinkForm) (c : Chain) :
    Chain.toText ⟨[bare id], (form, c.first) :: c.links⟩ = id ++ " " ++ form.toText ++ " " ++ c.toText := by
  simp only [Chain.toText, groupText_bare, linksText, List.flatMap_cons]
  simp

theorem toText_link (l : Link) : l.chain.toText = l.source ++ " " ++ l.form.toText ++ " " ++ l.target := by
  have := toText_chain_cons l.source l.form ⟨[bare l.target], []⟩
  rw [Link.chain, this]
  simp [Chain.toText, groupText_bare, linksText]

theorem linkLines_eq (compact : Bool) (ls : List Link) :
    Page.linkLines compact ls = (linkChains compact ls).map Chain.toText := by
  induction ls with
  | nil => rfl
  | cons l ls ih =>
    cases ls with
    | nil => rw [Page.linkLines, linkChains, List.map_singleton, toText_link]
    | cons m rest =>
      rw [Page.linkLines, linkChains, ih]
      cases linkChains compact (m :: rest) with
      | nil => rfl
      | cons c cs =>
        simp only [List.map_cons]
        split
        · rw [List.map_cons, toText_chain_cons]
        · rw [List.map_cons, List.map_cons, toText_link]

namespace Page

variable (p : Page)

/-! ## Nodes -/

/-- the declaration of a node -/
def nodeMention (n : Node) : Mention :=
  ⟨n.id, if n.isBare then none else some (n.label, n.shape), p.inlineClass n.id⟩

theorem nodeText_eq (n : Node) : p.nodeText n = (p.nodeMention n).toText := by
  unfold nodeText nodeMention Mention.toText Mention.suffix
  cases n.isBare <;> cases p.inlineClass n.id <;> simp [shapeText, classText]

/-- a member of a subgraph as it is mentioned -/
def memberMention (met : List Text) (id : Text) : Mention :=
  match p.chart.nodes.get? id with
  | some n => if met.contains id then bare id else p.nodeMention n
  | none => bare id

theorem memberText_eq (met : List Text) (id : Text) : p.memberText met id = (p.memberMention met id).toText := by
  unfold memberText memberMention
  cases p.chart.nodes.get? id with
  | none => exact (mention_bare id).symm
  | some n =>
    dsimp only
    split
    · exact (mention_bare id).symm
    · exact p.nodeText_eq n

/-- the members of a subgraph as they are mentioned -/
def memberMentions : List Text → List Text → List Mention
  | _, [] => []
  | met, id :: ids => p.memberMention met id :: memberMentions (id :: met) ids

theorem members_eq (margin : Text) (met ids : List Text) :
    p.members margin met ids = ((p.memberMentions met ids).map fun m => margin ++ m.toText, ids.reverse ++ met) := by
  induction ids generalizing met with
  | nil => rfl
  | cons id ids ih =>
    rw [members, ih, memberMentions, List.map_cons, memberText_eq]
    simp

/-- the nodes that are declared on their own -/
def declared (met : List Text) : List Node → List Node
  | [] => []
  | n :: rest =>
    if !met.contains n.id && (!n.isBare || !p.isLinked n.id || (p.inlineClass n.id).isSome) then
      n :: declared (n.id :: met) rest
    else declared met rest

theorem declarations_eq (met : List Text) (ns : List Node) :
    p.declarations met ns = (p.declared met ns).map fun n => p.options.unit ++ (p.nodeMention n).toText := by
  induction ns generalizing met with
  | nil => rfl
  | cons n ns ih =>
    rw [declarations, declared]
    split
    · rw [ih, List.map_cons, nodeText_eq]
    · exact ih met

/-! ## Subgraphs -/

/-- one of the subgraphs holds both ends of the link of a number -/
def takes (ss : List Subgraph) (i : Nat) : Bool := ss.any (p.inside · i)

mutual

/-- the numbers of the pending links that are written in a subgraph, in the order of writing -/
def taken (pending : List Nat) : Subgraph → List Nat
  | s@⟨_, _, _, children, _⟩ =>
    takenAll (pending.filter fun i => !p.inside s i) children ++ pending.filter (p.inside s)

/-- the numbers of the pending links that are written in the subgraphs of a forest -/
def takenAll (pending : List Nat) : List Subgraph → List Nat
  | [] => []
  | s :: rest => taken pending s ++ takenAll (pending.filter fun i => !p.takes s.walk i) rest

end

/-- lines of nodes at a depth -/
def chainsAt (depth : Nat) (cs : List Chain) : List (Nat × Statement) := cs.map fun c => (depth, .chain c)

/-- lines of links at a depth -/
def linksAt (depth : Nat) (numbers : List Nat) : List (Nat × Statement) :=
  chainsAt depth (linkChains p.options.compactLinks (numbers.filterMap p.link?))

mutual

/-- the statements of a subgraph, with the nodes met and the links pending before it -/
def blockScript (depth : Nat) (met : List Text) (pending : List Nat) : Subgraph → List (Nat × Statement)
  | s@⟨id, title, nodeIds, children, direction⟩ =>
    (depth, .openSubgraph id title) :: ((direction.map fun d => (depth + 1, .direction d)).toList
      ++ chainsAt (depth + 1) ((p.memberMentions met nodeIds).map fun m => ⟨[m], []⟩)
      ++ forestScript (depth + 1) (nodeIds.reverse ++ met) (pending.filter fun i => !p.inside s i) children
      ++ p.linksAt (depth + 1) (pending.filter (p.inside s))
      ++ [(depth, .closeSubgraph)])

/-- the statements of subgraphs one after another -/
def forestScript (depth : Nat) (met : List Text) (pending : List Nat) : List Subgraph → List (Nat × Statement)
  | [] => []
  | s :: rest =>
    blockScript depth met pending s ++ forestScript depth ((s.walk.flatMap Subgraph.nodeIds).reverse ++ met)
      (pending.filter fun i => !p.takes s.walk i) rest

end

/-- a statement on its line -/
def line (x : Nat × Statement) : Text := p.options.levels x.1 ++ x.2.toText

theorem links_eq (depth : Nat) (numbers : List Nat) :
    p.links numbers (p.options.levels depth) = (p.linksAt depth numbers).map p.line := by
  rw [links, linkLines_eq, linksAt, chainsAt, List.map_map, List.map_map]
  rfl

theorem subgraphHead_eq (s : Subgraph) : subgraphHead s = (Statement.openSubgraph s.id s.title).toText := by
  have hhead : subgraphHead s = "subgraph " ++ s.id ++ subgraphTitle s := rfl
  have htitle : subgraphTitle s = if s.title = s.id then [] else '[' :: (labelText s.title ++ [']']) := rfl
  rw [toText_openSubgraph, hhead, htitle]

theorem filter_takes_cons (s : Subgraph) (ss : List Subgraph) (pending : List Nat) :
    (pending.filter fun i => !p.takes (s :: ss) i)
      = (pending.filter fun i => !p.inside s i).filter fun i => !p.takes ss i := by
  rw [List.filter_filter]
  refine List.filter_congr fun i _ => ?_
  simp [takes, Bool.and_comm]

theorem filter_takes_append (ss ts : List Subgraph) (pending : List Nat) :
    (pending.filter fun i => !p.takes (ss ++ ts) i)
      = (pending.filter fun i => !p.takes ss i).filter fun i => !p.takes ts i := by
  rw [List.filter_filter]
  refine List.filter_congr fun i _ => ?_
  simp [takes, Bool.and_comm]

mutual

/-- what the printer makes of a subgraph -/
theorem subgraph_eq (depth : Nat) (pending : Pending) : (s : Subgraph) →
    p.subgraph depth pending s = (⟨(p.blockScript depth pending.met pending.links s).map p.line, p.taken pending.links s⟩,
      ⟨(s.walk.flatMap Subgraph.nodeIds).reverse ++ pending.met, pending.links.filter fun i => !p.takes s.walk i⟩)
  | ⟨id, title, nodeIds, children, direction⟩ => by
    have h := subgraphs_eq (depth + 1) ⟨nodeIds.reverse ++ pending.met,
      pending.links.filter fun i => !p.inside ⟨id, title, nodeIds, children, direction⟩ i⟩ children
    have hwalk : Subgraph.walk ⟨id, title, nodeIds, children, direction⟩
        = ⟨id, title, nodeIds, children, direction⟩ :: walkAll children := by rw [Subgraph.walk]
    rw [Page.subgraph, blockScript, taken, hwalk, filter_takes_cons]
    simp only [members_eq, h, links_eq, subgraphHead_eq, List.flatMap_cons, List.reverse_append, List.append_assoc]
    cases direction <;> simp [line, chainsAt, toText_chain, Chain.toText_single, toText_direction, toText_closeSubgraph]

/-- what the printer makes of a forest -/
theorem subgraphs_eq (depth : Nat) (pending : Pending) : (ss : List Subgraph) →
    p.subgraphs depth pending ss = (⟨(p.forestScript depth pending.met pending.links ss).map p.line,
        p.takenAll pending.links ss⟩,
      ⟨((walkAll ss).flatMap Subgraph.nodeIds).reverse ++ pending.met,
        pending.links.filter fun i => !p.takes (walkAll ss) i⟩)
  | [] => by
    simp [Page.subgraphs, forestScript, takenAll, walkAll, takes]
  | s :: rest => by
    have hwalk : walkAll (s :: rest) = s.walk ++ walkAll rest := by rw [walkAll]
    rw [Page.subgraphs, subgraph_eq depth pending s, forestScript, takenAll, hwalk, filter_takes_append]
    simp only [subgraphs_eq depth _ rest, List.flatMap_append, List.reverse_append, List.append_assoc, List.map_append]

end

mutual

theorem taken_perm (pending : List Nat) : (s : Subgraph) →
    (p.taken pending s ++ pending.filter fun i => !p.takes s.walk i).Perm pending
  | ⟨id, title, nodeIds, children, direction⟩ => by
    have hwalk : Subgraph.walk ⟨id, title, nodeIds, children, direction⟩
        = ⟨id, title, nodeIds, children, direction⟩ :: walkAll children := by rw [Subgraph.walk]
    have h := takenAll_perm (pending.filter fun i => !p.inside ⟨id, title, nodeIds, children, direction⟩ i) children
    rw [taken, hwalk, filter_takes_cons, List.append_assoc]
    refine (List.perm_append_comm_assoc _ _ _).trans ?_
    refine (h.append_left _).trans ?_
    simpa using List.filter_append_perm (p.inside ⟨id, title, nodeIds, children, direction⟩) pending

theorem takenAll_perm (pending : List Nat) : (ss : List Subgraph) →
    (p.takenAll pending ss ++ pending.filter fun i => !p.takes (walkAll ss) i).Perm pending
  | [] => by
    simp [takenAll, walkAll, takes]
  | s :: rest => by
    have hwalk : walkAll (s :: rest) = s.walk ++ walkAll rest := by rw [walkAll]
    have h := takenAll_perm (pending.filter fun i => !p.takes s.walk i) rest
    rw [takenAll, hwalk, filter_takes_append, List.append_assoc]
    exact (h.append_left _).trans (taken_perm pending s)

end

mutual

/-- a subgraph takes the pending links that it or a subgraph below it holds -/
theorem mem_taken_iff {pending : List Nat} {i : Nat} : (s : Subgraph) →
    (i ∈ p.taken pending s ↔ i ∈ pending ∧ p.takes s.walk i = true)
  | ⟨id, title, nodeIds, children, direction⟩ => by
    have htakes (s : Subgraph) : p.takes (s :: walkAll children) i = (p.inside s i || p.takes (walkAll children) i) := List.any_cons
    rw [taken, List.mem_append, mem_takenAll_iff children, List.mem_filter, List.mem_filter, Subgraph.walk, htakes]
    cases p.inside ⟨id, title, nodeIds, children, direction⟩ i <;> simp

theorem mem_takenAll_iff {pending : List Nat} {i : Nat} : (ss : List Subgraph) →
    (i ∈ p.takenAll pending ss ↔ i ∈ pending ∧ p.takes (walkAll ss) i = true)
  | [] => by simp [takenAll, walkAll, takes]
  | s :: rest => by
    have htakes : p.takes (s.walk ++ walkAll rest) i = (p.takes s.walk i || p.takes (walkAll rest) i) := List.any_append
    rw [takenAll, List.mem_append, mem_taken_iff s, mem_takenAll_iff rest, List.mem_filter, walkAll, htakes]
    cases p.takes s.walk i <;> simp

end

/-- numbers are kept for what holds of the numbers they stand for -/
theorem filter_map_of_agree {l : List Nat} {f : Nat → Nat} {P Q : Nat → Bool} (h : ∀ i ∈ l, Q i = P (f i)) :
    (l.map f).filter P = (l.filter Q).map f := by
  rw [List.filter_map]
  exact congrArg (List.map f) (List.filter_congr fun i hi => (h i hi).symm)

section

variable {p} {q : Page} {f : Nat → Nat}

theorem takes_of_agree {i : Nat} (h : ∀ s, q.inside s i = p.inside s (f i)) (ss : List Subgraph) :
    q.takes ss i = p.takes ss (f i) := by
  simp only [takes, h]

mutual

/-- subgraphs take links by what they hold, whatever numbers the links have -/
theorem taken_map {pending : List Nat} (h : ∀ i ∈ pending, ∀ s, q.inside s i = p.inside s (f i)) : (s : Subgraph) →
    (q.taken pending s).map f = p.taken (pending.map f) s
  | ⟨id, title, nodeIds, children, direction⟩ => by
    rw [taken, taken, filter_map_of_agree fun i hi => h i hi _,
      filter_map_of_agree fun i hi => congrArg (!·) (h i hi ⟨id, title, nodeIds, children, direction⟩), List.map_append,
      takenAll_map (fun i hi => h i (List.mem_of_mem_filter hi)) children]

theorem takenAll_map {pending : List Nat} (h : ∀ i ∈ pending, ∀ s, q.inside s i = p.inside s (f i)) : (ss : List Subgraph) →
    (q.takenAll pending ss).map f = p.takenAll (pending.map f) ss
  | [] => by rw [takenAll, takenAll, List.map_nil]
  | s :: rest => by
    rw [takenAll, takenAll, filter_map_of_agree fun i hi => congrArg (!·) (takes_of_agree (h i hi) s.walk), List.map_append,
      taken_map h s, takenAll_map (fun i hi => h i (List.mem_of_mem_filter hi)) rest]

end

end

/-! ## Whole pages -/

/-- the nodes that some subgraph lists -/
def grouped : List Text := (walkAll p.chart.subgraphs).flatMap Subgraph.nodeIds

/-- the numbers of the links that no subgraph takes -/
def loose : List Nat := (List.range p.chart.links.length).filter fun i => !p.takes (walkAll p.chart.subgraphs) i

/-- the numbers of the links in the order of writing -/
def order : List Nat := p.takenAll (List.range p.chart.links.length) p.chart.subgraphs ++ p.loose

/-- subgraphs, declarations and links -/
def bodyScript : List (Nat × Statement) :=
  p.forestScript 1 [] (List.range p.chart.links.length) p.chart.subgraphs
    ++ chainsAt 1 (((p.declared p.grouped.reverse p.nodes).map p.nodeMention).map fun m => ⟨[m], []⟩)
    ++ p.linksAt 1 p.loose

theorem body_eq : p.body = ⟨p.bodyScript.map p.line, p.order⟩ := by
  rw [body, subgraphs_eq]
  simp only [declarations_eq, ← RenderOptions.levels_one, links_eq, List.append_nil, bodyScript, List.map_append]
  congr 1
  simp [chainsAt, line, toText_chain, Chain.toText_single, grouped, loose]

/-- **writing only moves the links** -/
theorem order_perm : p.order.Perm (List.range p.chart.links.length) := p.takenAll_perm _ _

/-- the link styles with the keys under which they are written -/
def printedStyles : Except IntegerError (List (Text × Style)) :=
  p.chart.linkStyles.toList.mapM fun x => (p.linkStyleKey p.order x.1).map (·, x.2)

/-- the accessibility texts that are written -/
def texts : List AccessibilityLine :=
  ((present p.chart.accessibility.title).map .title).toList
    ++ ((present p.chart.accessibility.description).map .description).toList

/-- the classes that have statements of their own -/
def assignments : List (Text × Text) :=
  p.chart.classAssignments.toList.flatMap fun x => if (p.inlineClass x.1).isSome then [] else x.2.map (x.1, ·)

/-- the statements below the body -/
def tailScript (styles : List (Text × Style)) : List Statement :=
  p.chart.classDefs.toList.map (fun x => .classDef [x.1] x.2)
    ++ p.assignments.map (fun x => .assignClass [x.1] x.2)
    ++ p.chart.nodeStyles.toList.map (fun x => .style [x.1] x.2)
    ++ p.chart.clicks.map .click
    ++ styles.map (fun x => .linkStyle [x.1] x.2)

/-- the statements below the header, link styles under the given keys -/
def script (styles : List (Text × Style)) : List (Nat × Statement) :=
  p.texts.map (fun l => (1, .accessibility l)) ++ p.bodyScript ++ (p.tailScript styles).map (1, ·)

theorem line_classDef (name : Text) (props : Style) :
    trimRight (p.options.unit ++ "classDef " ++ name ++ " " ++ props.toText) = p.line (1, .classDef [name] props) := by
  have hmark : Scan.startsWith isMark ("classDef " ++ (name ++ (" " ++ props.toText))) = true :=
    startsWith_append _ (by decide)
  rw [line, toText_classDef, join_singleton, RenderOptions.levels_one]
  simp only [List.append_assoc]
  rw [trimRight_append_of_ne_nil _ (trimRight_ne_nil hmark)]

theorem line_assignClass (id name : Text) :
    p.options.unit ++ "class " ++ id ++ " " ++ name = p.line (1, .assignClass [id] name) := by
  have h : (Statement.assignClass [id] name).toText = "class " ++ join "," [id] ++ " " ++ name := rfl
  rw [line, h, join_singleton, RenderOptions.levels_one]
  simp only [List.append_assoc]

theorem line_style (id : Text) (props : Style) :
    p.options.unit ++ "style " ++ id ++ " " ++ props.toText = p.line (1, .style [id] props) := by
  have h : (Statement.style [id] props).toText = "style " ++ join "," [id] ++ " " ++ props.toText := rfl
  rw [line, h, join_singleton, RenderOptions.levels_one]
  simp only [List.append_assoc]

theorem line_linkStyle (key : Text) (props : Style) :
    p.options.unit ++ "linkStyle " ++ key ++ " " ++ props.toText = p.line (1, .linkStyle [key] props) := by
  have h : (Statement.linkStyle [key] props).toText = "linkStyle " ++ join "," [key] ++ " " ++ props.toText := rfl
  rw [line, h, join_singleton, RenderOptions.levels_one]
  simp only [List.append_assoc]

theorem lines_accessibility :
    p.chart.accessibility.lines p.options.unit = p.texts.map fun l => p.line (1, .accessibility l) := by
  rw [Accessibility.lines_eq]
  simp only [line, RenderOptions.levels_one]
  rfl

/-- a fallible step followed by one that is not -/
theorem mapM_map {ε α β γ : Type} (f : α → Except ε β) (g : β → γ) (xs : List α) :
    (xs.mapM fun x => (f x).map g) = (xs.mapM f).map (List.map g) := by
  induction xs with
  | nil => rfl
  | cons x xs ih =>
    rw [List.mapM_cons, List.mapM_cons, ih]
    cases f x with
    | error e => rfl
    | ok b => cases xs.mapM f <;> rfl

/-- the lines of the link styles -/
theorem mapM_linkStyles :
    (p.chart.linkStyles.toList.mapM fun (key, style) => (p.linkStyleKey p.order key).map fun k =>
        p.options.unit ++ "linkStyle " ++ k ++ " " ++ style.toText)
      = p.printedStyles.map (List.map fun x => p.line (1, .linkStyle [x.1] x.2)) := by
  rw [printedStyles, ← mapM_map]
  congr 1
  funext ⟨key, props⟩
  dsimp only
  cases p.linkStyleKey p.order key with
  | error e => rfl
  | ok k => exact congrArg Except.ok (p.line_linkStyle k props)

theorem lines_assignments :
    (p.chart.classAssignments.toList.flatMap fun (id, names) =>
        if (p.inlineClass id).isSome then [] else names.map fun name => p.options.unit ++ "class " ++ id ++ " " ++ name)
      = p.assignments.map fun x => p.line (1, .assignClass [x.1] x.2) := by
  rw [assignments, List.map_flatMap]
  congr 1
  funext ⟨id, names⟩
  dsimp only
  split
  · rfl
  · simp only [List.map_map, Function.comp_def, line_assignClass]

/-- **the canonical text**: the header, and the lines of the script -/
theorem render_eq (d : Flowchart) (o : RenderOptions) :
    render d o = (Page.printedStyles ⟨d, o⟩).map fun styles =>
      ofLines (("flowchart " ++ d.direction.toText) :: (Page.script ⟨d, o⟩ styles).map (Page.line ⟨d, o⟩)) := by
  have h1 := mapM_linkStyles ⟨d, o⟩
  have h2 := lines_accessibility ⟨d, o⟩
  have h3 := lines_assignments ⟨d, o⟩
  have h4 : d.classDefs.toList.map (fun (name, style) => trimRight (o.unit ++ "classDef " ++ name ++ " " ++ style.toText))
      = d.classDefs.toList.map fun x => Page.line ⟨d, o⟩ (1, .classDef [x.1] x.2) :=
    List.map_congr_left fun x _ => line_classDef ⟨d, o⟩ x.1 x.2
  have h5 : d.nodeStyles.toList.map (fun (id, style) => o.unit ++ "style " ++ id ++ " " ++ style.toText)
      = d.nodeStyles.toList.map fun x => Page.line ⟨d, o⟩ (1, .style [x.1] x.2) :=
    List.map_congr_left fun x _ => line_style ⟨d, o⟩ x.1 x.2
  have h6 : d.clicks.map (fun c => o.unit ++ c.toText) = d.clicks.map fun c => Page.line ⟨d, o⟩ (1, .click c) :=
    List.map_congr_left fun c _ => by rw [line, toText_click, RenderOptions.levels_one]
  dsimp only at h1 h2 h3
  unfold render
  dsimp only
  rw [body_eq]
  dsimp only
  rw [h1, h2, h3, h4, h5, h6]
  cases Page.printedStyles ⟨d, o⟩ with
  | error e => rfl
  | ok styles =>
    refine congrArg (fun lines => Except.ok (ofLines (("flowchart " ++ d.direction.toText) :: lines))) ?_
    simp only [List.append_eq, script, tailScript, List.map_append, List.map_map, Function.comp_def, List.append_assoc]

end Page

end DiagramText.Flowchart

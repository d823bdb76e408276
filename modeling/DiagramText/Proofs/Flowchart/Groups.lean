/-
Lines of groups of nodes. On a line of groups that are joined by operators, each operator stands for a link from every node
before it to every node after it (`Groups.links`), and the nodes are registered as they are first mentioned. `apply_groups`
puts reading and registering together: the line is accepted, and the chart differs in these links and nodes alone.
-/
import DiagramText.Proofs.Flowchart.Script
import DiagramText.Proofs.Text.Statement

namespace DiagramText.Flowchart

open DiagramText.Text

/-- a form that its operator and its label say in full: at least one stroke character, arrow heads of one kind, and no label
that is empty or spells the entity of a quote -/
structure LinkForm.IsSpelled (f : LinkForm) : Prop where
  length : 1 ≤ f.length
  heads : f.bidirectional = true → f.arrow = .point
  label : ∀ t, f.label = some t → t ≠ [] ∧ IsQuotable t

theorem LinkForm.IsSpelled.isPlain {f : LinkForm} (h : f.IsSpelled) : f.IsPlain where
  length := h.length
  heads := h.heads
  label t e := (h.label t e).2.1

theorem LinkForm.IsSpelled.settledForm {f : LinkForm} (h : f.IsSpelled) : settledForm f = f := by
  obtain ⟨stroke, arrow, length, bidirectional, label⟩ := f
  cases label with
  | none => rfl
  | some t =>
    obtain ⟨hne, hl, hentity⟩ := h.label t rfl
    have hpresent : present (some t) = some t := present_eq_some_iff.2 ⟨rfl, hne⟩
    rw [Flowchart.settledForm, hpresent, Option.map_some, settledLabel_of_not_infix hl hentity]

/-- the ids of a group -/
structure IsGroup (ids : List Text) : Prop where
  ne_nil : ids ≠ []
  isName : ∀ id ∈ ids, Scan.isName isWord id = true

/-- groups of ids, and the operators between them -/
structure Groups where
  first : List Text
  steps : List (LinkForm × List Text)

namespace Groups

/-- the line that the groups are written on -/
def toText (g : Groups) : Text :=
  join " & " g.first ++ g.steps.flatMap fun x => ' ' :: (x.1.toText ++ ' ' :: join " & " x.2)

/-- every id in the order of the line -/
def ids (g : Groups) : List Text := g.first ++ g.steps.flatMap Prod.snd

/-- for each operator, the links from all nodes before it to all nodes after it -/
def links (g : Groups) : List Link :=
  ((g.first :: g.steps.map Prod.snd).zip g.steps).flatMap fun x => (x.1 ×ˢ x.2.2).map fun p => ⟨p.1, p.2, x.2.1⟩

/-- groups of ids between operators that read back -/
structure IsSpelled (g : Groups) : Prop where
  first : IsGroup g.first
  steps : ∀ x ∈ g.steps, x.1.IsSpelled ∧ IsGroup x.2

/-- the statement that the line is read as -/
def chain (g : Groups) : Chain := ⟨g.first.map bare, g.steps.map fun x => (x.1, x.2.map bare)⟩

end Groups

/-! ## Reading -/

theorem groupText_map_bare (ids : List Text) : groupText (ids.map bare) = join " & " ids := by
  rw [groupText, List.map_map]
  congr 1
  exact List.map_id'' mention_bare ids

theorem Groups.toText_chain (g : Groups) : g.chain.toText = g.toText := by
  unfold Groups.chain Groups.toText Chain.toText linksText
  rw [groupText_map_bare, List.flatMap_map]
  simp only [groupText_map_bare]

theorem IsGroup.isPlain {ids : List Text} (h : IsGroup ids) : Group.IsPlain (ids.map bare) where
  ne_nil := by simpa using h.ne_nil
  mention := by
    intro m hm
    obtain ⟨id, hid, rfl⟩ := List.mem_map.1 hm
    exact isPlain_bare (h.isName id hid)

theorem settledMention_map_bare (ids : List Text) : (ids.map bare).map settledMention = ids.map bare := by
  rw [List.map_map]
  rfl

namespace Groups

variable {g : Groups} (h : g.IsSpelled)
include h

theorem isPlain_chain : g.chain.IsPlain where
  first := h.first.isPlain
  links := by
    intro p hp
    obtain ⟨x, hx, rfl⟩ := List.mem_map.1 hp
    exact ⟨(h.steps x hx).1.isPlain, (h.steps x hx).2.isPlain⟩

theorem settledChain_chain : settledChain g.chain = g.chain := by
  have hsteps : (g.steps.map fun x => (settledForm x.1, (x.2.map bare).map settledMention))
      = g.steps.map fun x => (x.1, x.2.map bare) :=
    List.map_congr_left fun x hx => by rw [(h.steps x hx).1.settledForm, settledMention_map_bare]
  unfold settledChain chain
  rw [settledMention_map_bare, List.map_map]
  exact congrArg (Chain.mk _) hsteps

/-- a line of groups is read as its groups and operators -/
theorem readChain_groups {l : SourceLine} (hl : l.text = g.toText) : readChain l = .ok g.chain := by
  have hclass : ∀ m ∈ g.chain.mentions, m.NamesClass := by
    intro m hm n hn
    have hbare : ∃ id, m = bare id := by
      simp only [chain, Chain.mentions, List.mem_append, List.mem_map, List.mem_flatMap] at hm
      rcases hm with ⟨id, -, rfl⟩ | ⟨_, ⟨x, -, rfl⟩, hm⟩
      · exact ⟨id, rfl⟩
      · obtain ⟨id, -, rfl⟩ := List.mem_map.1 hm
        exact ⟨id, rfl⟩
    obtain ⟨id, rfl⟩ := hbare
    exact absurd hn (by simp [bare])
  rw [readChain_toText (isPlain_chain h) hclass (hl.trans g.toText_chain.symm), settledChain_chain h]

end Groups

/-! ## Registering -/

section

variable {ω : Type} (a : Assembly ω)

/-- nodes that are named by their ids: those that are new become nodes, and members of the innermost open subgraph -/
def Assembly.register (ids : List Text) : Assembly ω where
  chart := { a.chart with nodes := ids.foldl (fun e id => e.insertNew id ⟨id, id, .default⟩) a.chart.nodes }
  open_ := a.open_.modifyHead fun o =>
    { o with subgraph := { o.subgraph with nodeIds := ids.foldl Entries.addTo o.subgraph.nodeIds } }

/-- adds links -/
def Assembly.addLinks (ls : List Link) : Assembly ω := { a with chart := { a.chart with links := a.chart.links ++ ls } }

theorem Assembly.register_nil : a.register [] = a := by
  obtain ⟨chart, open_⟩ := a
  cases open_ with
  | nil => rfl
  | cons o os =>
    obtain ⟨opener, ⟨id, title, nodeIds, children, direction⟩⟩ := o
    rfl

theorem Assembly.register_append (ids more : List Text) : a.register (ids ++ more) = (a.register ids).register more := by
  obtain ⟨chart, open_⟩ := a
  cases open_ <;> simp [Assembly.register]

theorem Subgraph.addMember_eq (id : Text) (s : Subgraph) : s.addMember id = { s with nodeIds := Entries.addTo s.nodeIds id } := by
  obtain ⟨_, title, nodeIds, children, direction⟩ := s
  by_cases hid : nodeIds.contains id = true
  · simp only [Subgraph.addMember, Entries.addTo, if_pos hid]
  · simp only [Subgraph.addMember, Entries.addTo, if_neg hid]

theorem Assembly.meet_bare (id : Text) : a.meet (bare id) = a.register [id] := by
  obtain ⟨chart, open_⟩ := a
  cases open_ with
  | nil => rfl
  | cons o os =>
    have hmember := Subgraph.addMember_eq id o.subgraph
    exact congrArg (fun s => (⟨{ chart with nodes := chart.nodes.insertNew id ⟨id, id, .default⟩ }, { o with subgraph := s } :: os⟩
      : Assembly ω)) hmember

theorem Assembly.meetGroup_bare (ids : List Text) : a.meetGroup (ids.map bare) = a.register ids := by
  induction ids generalizing a with
  | nil => exact a.register_nil.symm
  | cons id ids ih => exact (ih (a.meet (bare id))).trans (by rw [a.meet_bare, ← a.register_append]; rfl)

theorem Assembly.foldl_link (ls : List Link) : ls.foldl (fun a l => a.link l) a = a.addLinks ls := by
  induction ls generalizing a with
  | nil => simp [Assembly.addLinks]
  | cons l ls ih =>
    rw [List.foldl_cons, ih]
    simp [Assembly.addLinks, Assembly.link]

theorem product_bare (form : LinkForm) (sources targets : List Text) :
    product form (sources.map bare) (targets.map bare) = (sources ×ˢ targets).map fun p => ⟨p.1, p.2, form⟩ := by
  induction sources with
  | nil => rfl
  | cons s sources ih =>
    have hcons : product form ((s :: sources).map bare) (targets.map bare)
        = (targets.map bare).map (fun t => ⟨s, t.id, form⟩) ++ product form (sources.map bare) (targets.map bare) := rfl
    rw [hcons, ih, List.product_cons, List.map_append, List.map_map, List.map_map]
    rfl

/-- following a line: each operator registers the group after it and links it to the group before it -/
theorem Assembly.follow_bare (sources : List Text) (steps : List (LinkForm × List Text)) :
    a.follow (sources.map bare) (steps.map fun x => (x.1, x.2.map bare))
      = (a.register (steps.flatMap Prod.snd)).addLinks (Groups.links ⟨sources, steps⟩) := by
  induction steps generalizing a sources with
  | nil =>
    rw [List.flatMap_nil, a.register_nil]
    simp [Assembly.follow, Assembly.addLinks, Groups.links]
  | cons x steps ih =>
    obtain ⟨form, targets⟩ := x
    have hlinks : Groups.links ⟨sources, (form, targets) :: steps⟩
        = ((sources ×ˢ targets).map fun p => ⟨p.1, p.2, form⟩) ++ Groups.links ⟨targets, steps⟩ := by
      simp [Groups.links]
    rw [List.map_cons, Assembly.follow, a.meetGroup_bare, Assembly.foldl_link, ih, product_bare, hlinks, List.flatMap_cons,
      a.register_append]
    simp [Assembly.addLinks, Assembly.register]

end

/-- **groups of nodes are linked each to the next**: a line of groups between operators is accepted whatever has been read
before it. It adds, for every operator in turn, a link of its form from every node before it to every node after it, and the
nodes that are not known yet, in the order in which the line first mentions them. -/
theorem apply_groups (a : Assembly SourceLine) {l : SourceLine} {g : Groups} (h : g.IsSpelled) (hl : l.text = g.toText) :
    ∃ b, (readChain l).bind (fun c => a.apply l (.chain c)) = .ok b ∧
      b.chart.links = a.chart.links ++ g.links ∧
      b.chart.nodes.toList
        = a.chart.nodes.toList ++ (Entries.fresh a.chart.nodes.keys g.ids).map (fun id => (id, ⟨id, id, .default⟩)) ∧
      b.open_ = a.open_.modifyHead (fun o => { o with subgraph := { o.subgraph with
        nodeIds := o.subgraph.nodeIds ++ Entries.fresh o.subgraph.nodeIds g.ids } }) ∧
      b.chart = { a.chart with nodes := b.chart.nodes, links := b.chart.links } := by
  have happly : a.apply l (.chain g.chain) = .ok ((a.register g.ids).addLinks g.links) := by
    rw [Assembly.apply, Groups.chain, a.meetGroup_bare, Assembly.follow_bare, ← a.register_append]
    rfl
  refine ⟨(a.register g.ids).addLinks g.links, ?_, rfl, ?_, ?_, rfl⟩
  · rw [Groups.readChain_groups h hl]
    exact happly
  · exact Entries.toList_foldl_insertNew (fun id => (⟨id, id, .default⟩ : Node)) a.chart.nodes g.ids
  · simp only [Assembly.addLinks, Assembly.register, Entries.foldl_addTo]

/-- a label that holds what separates nodes and links, and a node that is known -/
theorem apply_groups_label :
    ∃ b, (readChain ⟨1, 0, "a & b ==>|\"|&-->\"| b & c-1 <-..-> a", []⟩).bind
        (fun c => Assembly.apply ⟨1, 0, "a & b ==>|\"|&-->\"| b & c-1 <-..-> a", []⟩
          ⟨{ nodes := .ofList [("b", ⟨"b", "B", .round⟩)] }, []⟩ (.chain c)) = .ok b ∧
      b.chart.links = [
        ⟨"a", "b", ⟨.thick, .point, 1, false, some "|&-->"⟩⟩, ⟨"a", "c-1", ⟨.thick, .point, 1, false, some "|&-->"⟩⟩,
        ⟨"b", "b", ⟨.thick, .point, 1, false, some "|&-->"⟩⟩, ⟨"b", "c-1", ⟨.thick, .point, 1, false, some "|&-->"⟩⟩,
        ⟨"b", "a", ⟨.dotted, .point, 2, true, none⟩⟩, ⟨"c-1", "a", ⟨.dotted, .point, 2, true, none⟩⟩] ∧
      b.chart.nodes.values = [⟨"b", "B", .round⟩, ⟨"a", "a", .default⟩, ⟨"c-1", "c-1", .default⟩] := by
  have hthick : LinkForm.IsSpelled ⟨.thick, .point, 1, false, some "|&-->"⟩ :=
    ⟨by decide, by decide, fun t e => Option.some.inj e ▸ ⟨by decide, by decide, by decide⟩⟩
  have hdotted : LinkForm.IsSpelled ⟨.dotted, .point, 2, true, none⟩ := ⟨by decide, by decide, fun t e => absurd e (by simp)⟩
  obtain ⟨b, hread, hlinks, hnodes, -⟩ := apply_groups ⟨{ nodes := .ofList [("b", ⟨"b", "B", .round⟩)] }, []⟩
    (l := ⟨1, 0, "a & b ==>|\"|&-->\"| b & c-1 <-..-> a", []⟩)
    (g := ⟨["a", "b"], [(⟨.thick, .point, 1, false, some "|&-->"⟩, ["b", "c-1"]), (⟨.dotted, .point, 2, true, none⟩, ["a"])]⟩)
    ⟨⟨by decide, by decide +kernel⟩, List.forall_mem_cons.2 ⟨⟨hthick, by decide, by decide +kernel⟩,
      List.forall_mem_singleton.2 ⟨hdotted, by decide, by decide +kernel⟩⟩⟩ (by decide +kernel)
  exact ⟨b, hread, hlinks.trans (by decide), (congrArg (List.map Prod.snd) hnodes).trans (by decide)⟩

end DiagramText.Flowchart

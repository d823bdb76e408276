/-
The canonical text of a flowchart written again. A statement that has been read from its line is written as that line
(`toText_settled`). The page of what is read holds the settled statements of the page that was read, at the same depths
and in the same order (`script_reread`): links keep the places that they were given (`forestScript_takenAll`), and the nodes
that are declared on their own come in the order in which they were declared (`Page.IsReread.declared`). `render_stable` puts
this together: a chart is written, read and written again as the same text, unless a line misleads or two link styles are
written under one key.
-/
import DiagramText.Proofs.Flowchart.Accepted
import DiagramText.Proofs.Flowchart.LinkOrder
import DiagramText.Proofs.Flowchart.Reread

namespace DiagramText.Flowchart

open DiagramText.Text

/-! ## Statements that have been read -/

theorem toText_settledForm {f : LinkForm} (h : f.IsPlain) : (settledForm f).toText = f.toText := by
  have hoperator : (settledForm f).operator = f.operator := rfl
  unfold LinkForm.toText
  rw [hoperator, settledForm]
  cases hp : present f.label with
  | none => rfl
  | some label =>
    obtain ⟨hlabel, hne⟩ := present_eq_some_iff.1 hp
    have hl := h.label label hlabel
    have hagain : present (some (settledLabel label)) = some (settledLabel label) :=
      present_eq_some_iff.2 ⟨rfl, settledLabel_ne_nil hl hne⟩
    rw [Option.map_some, hagain]
    dsimp only
    rw [labelText_settledLabel hl]

theorem toText_settledMention {m : Mention} (h : m.IsPlain) : (settledMention m).toText = m.toText := by
  obtain ⟨id, shaped, className⟩ := m
  cases shaped with
  | none => rfl
  | some x =>
    obtain ⟨label, shape⟩ := x
    have hdelimiters : (settledShape shape).delimiters = shape.delimiters := by cases shape <;> rfl
    have htext : shapeText (some (settledLabel label, settledShape shape)) = shapeText (some (label, shape)) := by
      rw [shapeText, shapeText, hdelimiters, labelText_settledLabel (h.label label shape rfl)]
    exact congrArg (fun t => id ++ (t ++ classText className)) htext

theorem groupText_settled {g : Group} (h : g.IsPlain) : groupText (g.map settledMention) = groupText g := by
  rw [groupText, List.map_map]
  exact congrArg (join " & ") (List.map_congr_left fun m hm => toText_settledMention (h.mention m hm))

theorem toText_settledChain {c : Chain} (h : c.IsPlain) : (settledChain c).toText = c.toText := by
  rw [Chain.toText, settledChain, groupText_settled h.first, linksText, List.flatMap_map]
  refine congrArg (groupText c.first ++ ·) (List.flatMap_congr fun x hx => ?_)
  obtain ⟨hform, hgroup⟩ := h.links x hx
  dsimp only
  rw [toText_settledForm hform, groupText_settled hgroup]

/-- a title that is not the id is not read as the id: only quotes are read from another text -/
theorem settledLabel_ne_of_ne {id title : Text} (hid : id.all isWordOrHyphen = true) (hl : '\n' ∉ title) (h : title ≠ id) :
    settledLabel title ≠ id := by
  rcases settledLabel_eq_self_or hl with hself | hquote
  · rwa [hself]
  · rintro rfl
    exact absurd (List.all_eq_true.1 hid _ hquote) (by decide)

theorem tooltipText_settled (tooltip : Option Text) :
    tooltipText (tooltip.map fun t => unquote (quote t)) = tooltipText tooltip := by
  cases tooltip with
  | none => rfl
  | some t => rw [Option.map_some, tooltipText, tooltipText, quote_unquote_quote]

theorem toText_settledClick (c : Click) : (settledClick c).toText = c.toText := by
  cases c with
  | href node target tooltip linkTarget =>
    rw [settledClick, toText_href, toText_href, quote_unquote_quote, tooltipText_settled, present_present]
  | callback node function args tooltip =>
    rw [settledClick, toText_callback, toText_callback, tooltipText_settled, Option.getD_some]

/-- **a statement that is read from its line is written as that line** -/
theorem toText_settled {s : Statement} (h : s.IsPlain) : s.settled.toText = s.toText := by
  cases s with
  | click c => exact toText_settledClick c
  | openSubgraph id title =>
    obtain ⟨-, hid, hl⟩ := h
    rw [Statement.settled, toText_openSubgraph, toText_openSubgraph]
    by_cases he : title = id
    · rw [if_pos he, if_pos rfl, if_pos he]
    · rw [if_neg he, if_neg (settledLabel_ne_of_ne hid hl he), if_neg he, labelText_settledLabel hl]
  | chain c => exact toText_settledChain h
  | accessibility line => cases line <;> rfl
  | _ => rfl

/-! ## Parts that have settled -/

/-- the lines of statements that have settled -/
def settledLines (xs : List (Nat × Statement)) : List (Nat × Statement) := xs.map fun x => (x.1, x.2.settled)

theorem settledLines_append (xs ys : List (Nat × Statement)) : settledLines (xs ++ ys) = settledLines xs ++ settledLines ys :=
  List.map_append

theorem linkChains_settled (compact : Bool) (ls : List Link) :
    linkChains compact (ls.map settledLink) = (linkChains compact ls).map settledChain := by
  induction ls with
  | nil => rfl
  | cons l ls ih =>
    cases ls with
    | nil => rfl
    | cons m rest =>
      rw [List.map_cons, List.map_cons, linkChains, ← List.map_cons, ih, linkChains]
      cases linkChains compact (m :: rest) with
      | nil => rfl
      | cons c cs =>
        have hm : (settledLink m).source = m.source := rfl
        have hl : (settledLink l).target = l.target := rfl
        rw [List.map_cons, hm, hl]
        dsimp only
        split <;> rfl

theorem lists_settled (s : Subgraph) (l : Link) : (settledSubgraph s).lists (settledLink l) = s.lists l := by
  obtain ⟨id, title, nodeIds, children, direction⟩ := s
  rw [settledSubgraph]
  rfl

mutual

theorem walk_settledSubgraph : (s : Subgraph) → (settledSubgraph s).walk = s.walk.map settledSubgraph
  | ⟨id, title, nodeIds, children, direction⟩ => by
    rw [settledSubgraph, Subgraph.walk, walkAll_settledForest children, Subgraph.walk, List.map_cons, settledSubgraph]

theorem walkAll_settledForest : (ss : List Subgraph) → walkAll (settledForest ss) = (walkAll ss).map settledSubgraph
  | [] => by rw [settledForest, walkAll, List.map_nil]
  | s :: ss => by
    rw [settledForest, walkAll, walk_settledSubgraph s, walkAll_settledForest ss, walkAll, List.map_append]

end

theorem flatMap_nodeIds_settled (ss : List Subgraph) :
    (ss.map settledSubgraph).flatMap Subgraph.nodeIds = ss.flatMap Subgraph.nodeIds := by
  rw [List.flatMap_map]
  refine List.flatMap_congr fun s _ => ?_
  obtain ⟨id, title, nodeIds, children, direction⟩ := s
  rw [settledSubgraph]

/-- a node that has settled is written by its id alone if it was before -/
theorem isBare_settledNode (n : Node) : (settledNode n).isBare = n.isBare := by
  unfold settledNode
  split
  · rfl
  · rename_i h
    rw [Bool.not_eq_true] at h
    rw [h, Node.isBare]
    cases n.shape <;> simp [settledShape]

namespace Page

mutual

/-- a subgraph mentions its members only -/
theorem id_mem_of_mem_blockScript {p : Page} (hp : p.chart.IsClosed) (depth : Nat) (met : List Text) (pending : List Nat) :
    (s : Subgraph) → ∀ m ∈ scriptMentions (p.blockScript depth met pending s), m.id ∈ s.walk.flatMap Subgraph.nodeIds
  | ⟨id, title, nodeIds, children, direction⟩, m, hm => by
    have hdirection : scriptMentions (direction.map fun d => (depth + 1, Statement.direction d)).toList = [] := by
      cases direction <;> rfl
    rw [Page.blockScript, scriptMentions, List.flatMap_cons, ← scriptMentions] at hm
    simp only [scriptMentions_append, scriptMentions_singles, hdirection, List.mem_append, Statement.mentions,
      List.not_mem_nil, false_or] at hm
    rw [Subgraph.walk, List.flatMap_cons, List.mem_append]
    rcases hm with ((hmember | hbelow) | hlink) | hclose
    · exact Or.inl (map_id_memberMentions hp met nodeIds ▸ List.mem_map_of_mem hmember)
    · exact Or.inr (id_mem_of_mem_forestScript hp _ _ _ children m hbelow)
    · rw [linksAt, scriptMentions_chainsAt] at hlink
      obtain ⟨c, hc, hm⟩ := List.mem_flatMap.1 hlink
      exact Or.inl (mem_nodeIds_of_inside hc hm)
    · exact absurd hclose List.not_mem_nil

theorem id_mem_of_mem_forestScript {p : Page} (hp : p.chart.IsClosed) (depth : Nat) (met : List Text) (pending : List Nat) :
    (ss : List Subgraph) →
      ∀ m ∈ scriptMentions (p.forestScript depth met pending ss), m.id ∈ (walkAll ss).flatMap Subgraph.nodeIds
  | [], m, hm => by
    rw [Page.forestScript] at hm
    exact absurd hm List.not_mem_nil
  | s :: ss, m, hm => by
    rw [Page.forestScript, scriptMentions_append, List.mem_append] at hm
    rw [walkAll, List.flatMap_append, List.mem_append]
    exact hm.imp (id_mem_of_mem_blockScript hp _ _ _ s m) (id_mem_of_mem_forestScript hp _ _ _ ss m)

end

/-- lines of single nodes that have settled -/
theorem settledLines_singles (depth : Nat) (ms : List Mention) : chainsAt depth ((ms.map settledMention).map fun m => ⟨[m], []⟩)
    = settledLines (chainsAt depth (ms.map fun m => ⟨[m], []⟩)) := by
  simp only [chainsAt, settledLines, List.map_map]
  rfl

/-- a page of what is read from another one: nodes, subgraphs and links have settled, and each link has moved to its place -/
structure IsReread (p q : Page) : Prop where
  options : q.options = p.options
  subgraphs : q.chart.subgraphs = settledForest p.chart.subgraphs
  links : q.chart.links = (p.order.filterMap p.link?).map settledLink
  node : ∀ id, q.chart.nodes.get? id = (p.chart.nodes.get? id).map settledNode
  keys : q.chart.nodes.keys = ((scriptMentions p.bodyScript).map Mention.id).foldl Entries.addTo []
  inlineClass : ∀ id, q.inlineClass id = p.inlineClass id

namespace IsReread

variable {p q : Page} (h : p.IsReread q)
include h

theorem link (j : Nat) : q.link? j = (p.link? (p.number j)).map settledLink := by
  rw [link?, h.links, List.getElem?_map, ← p.link?_number]

theorem length : q.chart.links.length = p.chart.links.length := by
  rw [h.links, List.length_map, p.links_perm.length_eq]

theorem nodeMention (n : Node) : q.nodeMention (settledNode n) = settledMention (p.nodeMention n) := by
  rw [Page.nodeMention, isBare_settledNode, settledNode_id, h.inlineClass, Page.nodeMention]
  cases hbare : n.isBare with
  | true => rfl
  | false =>
    have hnode : settledNode n = ⟨n.id, settledLabel n.label, settledShape n.shape⟩ := if_neg (by simp [hbare])
    rw [hnode]
    rfl

theorem memberMention (met : List Text) (id : Text) :
    q.memberMention met id = settledMention (p.memberMention met id) := by
  rw [Page.memberMention, h.node, Page.memberMention]
  cases p.chart.nodes.get? id with
  | none => rfl
  | some n =>
    rw [Option.map_some]
    dsimp only
    split
    · rfl
    · exact h.nodeMention n

theorem memberMentions (met ids : List Text) :
    q.memberMentions met ids = (p.memberMentions met ids).map settledMention := by
  induction ids generalizing met with
  | nil => rfl
  | cons id ids ih => rw [Page.memberMentions, ih, h.memberMention, Page.memberMentions, List.map_cons]

theorem linksAt (depth : Nat) (numbers : List Nat) :
    q.linksAt depth numbers = settledLines (p.linksAt depth (numbers.map p.number)) := by
  have hlinks : numbers.filterMap q.link? = ((numbers.map p.number).filterMap p.link?).map settledLink := by
    rw [List.filterMap_map, List.map_filterMap]
    exact List.filterMap_congr fun j _ => h.link j
  rw [Page.linksAt, hlinks, linkChains_settled, h.options, Page.linksAt, chainsAt, chainsAt, settledLines, List.map_map,
    List.map_map]
  rfl

theorem inside (s : Subgraph) (j : Nat) : q.inside (settledSubgraph s) j = p.inside s (p.number j) := by
  rw [Page.inside, h.link, Page.inside]
  cases p.link? (p.number j) with
  | none => rfl
  | some l => exact lists_settled s l

theorem takes (ss : List Subgraph) (j : Nat) : q.takes (ss.map settledSubgraph) j = p.takes ss (p.number j) := by
  rw [Page.takes, List.any_map, Page.takes]
  exact congrArg (List.any ss) (funext fun s => h.inside s j)

/-! ### Scripts -/

theorem filter_inside (s : Subgraph) (pending : List Nat) :
    (pending.filter (q.inside (settledSubgraph s))).map p.number = (pending.map p.number).filter (p.inside s) :=
  (filter_map_of_agree fun j _ => h.inside s j).symm

theorem filter_not_inside (s : Subgraph) (pending : List Nat) :
    (pending.filter fun j => !q.inside (settledSubgraph s) j).map p.number
      = (pending.map p.number).filter fun i => !p.inside s i :=
  (filter_map_of_agree fun j _ => congrArg (!·) (h.inside s j)).symm

theorem filter_not_takes (ss : List Subgraph) (pending : List Nat) :
    (pending.filter fun j => !q.takes (ss.map settledSubgraph) j).map p.number
      = (pending.map p.number).filter fun i => !p.takes ss i :=
  (filter_map_of_agree fun j _ => congrArg (!·) (h.takes ss j)).symm

mutual

theorem taken (pending : List Nat) : (s : Subgraph) →
    (q.taken pending (settledSubgraph s)).map p.number = p.taken (pending.map p.number) s
  | ⟨id, title, nodeIds, children, direction⟩ => by
    have hown := h.filter_inside ⟨id, title, nodeIds, children, direction⟩ pending
    have hbelow := h.filter_not_inside ⟨id, title, nodeIds, children, direction⟩ pending
    rw [settledSubgraph] at hown hbelow ⊢
    rw [Page.taken, List.map_append, hown, takenAll _ children, hbelow, Page.taken]

theorem takenAll (pending : List Nat) : (ss : List Subgraph) →
    (q.takenAll pending (settledForest ss)).map p.number = p.takenAll (pending.map p.number) ss
  | [] => by rw [settledForest, Page.takenAll, Page.takenAll, List.map_nil]
  | s :: ss => by
    rw [settledForest, Page.takenAll, List.map_append, taken _ s, takenAll _ ss, walk_settledSubgraph, h.filter_not_takes,
      Page.takenAll]

end

mutual

/-- a subgraph that has settled is written with the lines that it was read from -/
theorem blockScript (depth : Nat) (met : List Text) (pending : List Nat) : (s : Subgraph) →
    q.blockScript depth met pending (settledSubgraph s)
      = settledLines (p.blockScript depth met (pending.map p.number) s)
  | ⟨id, title, nodeIds, children, direction⟩ => by
    have hown := h.filter_inside ⟨id, title, nodeIds, children, direction⟩ pending
    have hbelow := h.filter_not_inside ⟨id, title, nodeIds, children, direction⟩ pending
    rw [settledSubgraph] at hown hbelow ⊢
    rw [Page.blockScript, h.memberMentions, settledLines_singles, forestScript _ _ _ children, hbelow, h.linksAt, hown,
      Page.blockScript]
    simp only [settledLines, List.map_cons, List.map_append, List.map_nil]
    cases direction <;> rfl

theorem forestScript (depth : Nat) (met : List Text) (pending : List Nat) : (ss : List Subgraph) →
    q.forestScript depth met pending (settledForest ss)
      = settledLines (p.forestScript depth met (pending.map p.number) ss)
  | [] => by
    rw [settledForest, Page.forestScript, Page.forestScript]
    rfl
  | s :: ss => by
    rw [settledForest, Page.forestScript, blockScript _ _ _ s, forestScript _ _ _ ss, walk_settledSubgraph,
      h.filter_not_takes, flatMap_nodeIds_settled, Page.forestScript, settledLines_append]

end

theorem loose : q.loose.map p.number = p.loose := by
  rw [Page.loose, h.length, h.subgraphs, walkAll_settledForest, h.filter_not_takes, map_number_range, filter_order]

theorem order : q.order = List.range p.chart.links.length := by
  refine p.order_of_moved h.length ?_
  rw [Page.order, List.map_append, h.loose, h.length, h.subgraphs, h.takenAll, map_number_range, ← filter_order, takenAll_order]

theorem grouped : q.grouped = p.grouped := by
  rw [Page.grouped, h.subgraphs, walkAll_settledForest, flatMap_nodeIds_settled, Page.grouped]

theorem forest : q.forestScript 1 [] (List.range q.chart.links.length) q.chart.subgraphs
    = settledLines (p.forestScript 1 [] (List.range p.chart.links.length) p.chart.subgraphs) := by
  rw [h.length, h.subgraphs, h.forestScript, map_number_range, forestScript_order]

/-! ### Declarations -/

theorem needsDeclaration (n : Node) : q.needsDeclaration (settledNode n) = p.needsDeclaration n := by
  have hlinked : q.isLinked n.id = p.isLinked n.id := by
    rw [isLinked, h.links, List.any_map, p.links_perm.any_eq]
    rfl
  rw [Page.needsDeclaration, isBare_settledNode, settledNode_id, hlinked, h.inlineClass, Page.needsDeclaration]

theorem values_perm (hp : p.chart.IsClosed) (hq : q.chart.IsClosed) :
    q.chart.nodes.values.Perm (p.chart.nodes.values.map settledNode) := by
  have hids : (p.chart.nodes.values.map settledNode).map Node.id = p.chart.nodes.keys := by
    rw [List.map_map, ← Entries.map_values hp.byId]
    exact List.map_congr_left fun n _ => settledNode_id n
  refine (List.perm_ext_iff_of_nodup (.of_map Node.id ?_) (.of_map Node.id ?_)).2 fun v => ?_
  · rw [Entries.map_values hq.byId]
    exact q.chart.nodes.nodup_keys
  · rw [hids]
    exact p.chart.nodes.nodup_keys
  rw [Entries.mem_values_iff, List.mem_map]
  simp only [h.node, Option.map_eq_some_iff, Entries.mem_values_iff]
  exact ⟨fun ⟨k, n, hn, e⟩ => ⟨n, ⟨k, hn⟩, e⟩, fun ⟨n, ⟨k, hn⟩, e⟩ => ⟨k, n, hn, e⟩⟩

/-- nodes that are sorted are so again -/
theorem nodes_of_sorted (hp : p.chart.IsClosed) (hq : q.chart.IsClosed) (hs : p.options.sortEntities = true) :
    q.nodes = p.nodes.map settledNode := by
  have hinj : ∀ a ∈ q.chart.nodes.values, ∀ b ∈ q.chart.nodes.values, a.id = b.id → a = b := fun a ha b hb e => by
    have ha := (Entries.mem_values_iff_of_byId hq.byId).1 ha
    rw [e, (Entries.mem_values_iff_of_byId hq.byId).1 hb] at ha
    exact (Option.some.inj ha).symm
  rw [nodes, h.options, if_pos hs, mergeSort_of_perm (h.values_perm hp hq) hinj, nodes, if_pos hs]
  refine (List.map_mergeSort fun a _ b _ => ?_).symm
  rw [settledNode_id, settledNode_id]

/-- nodes that are declared on their own are first mentioned where they are declared -/
theorem filter_keys (hp : p.chart.IsClosed) {ids : List Text} (hids : ids = (p.declared p.grouped.reverse p.nodes).map Node.id) :
    q.chart.nodes.keys.filter (· ∈ ids) = ids := by
  have hdeclared : p.declared p.grouped.reverse p.nodes = _ := declared_eq (nodup_map_id_nodes hp)
  have hnodup : ids.Nodup := by
    rw [hids, hdeclared]
    exact (nodup_map_id_nodes hp).sublist (List.filter_sublist.map Node.id)
  have hungrouped : ∀ id ∈ ids, id ∉ p.grouped := by
    rw [hids, hdeclared, List.forall_mem_map]
    intro n hn hgrouped
    simpa [hgrouped] using (List.mem_filter.1 hn).2
  have hforest : ((scriptMentions (p.forestScript 1 [] (List.range p.chart.links.length) p.chart.subgraphs)).map
      Mention.id).filter (· ∈ ids) = [] := by
    refine List.filter_eq_nil_iff.2 (List.forall_mem_map.2 fun m hm => ?_)
    rw [decide_eq_true_eq]
    exact fun hid => hungrouped _ hid (id_mem_of_mem_forestScript hp _ _ _ _ m hm)
  have hown : (((p.declared p.grouped.reverse p.nodes).map p.nodeMention).map Mention.id).filter (· ∈ ids) = ids := by
    rw [List.map_map]
    exact (congrArg (List.filter _) hids.symm).trans (List.filter_eq_self.2 fun id hid => decide_eq_true hid)
  have hself : ids.foldl Entries.addTo [] = ids := Entries.foldl_addTo_of_nodup hnodup
  rw [h.keys, Entries.filter_foldl_addTo, scriptMentions_bodyScript, List.map_append, List.map_append, List.filter_append,
    List.filter_append, hforest, hown, List.filter_nil, List.nil_append, List.foldl_append, hself]
  exact Entries.foldl_addTo_of_mem fun id hid => by simpa using (List.mem_filter.1 hid).2

/-- **the nodes that are declared on their own** are so again, in the same order -/
theorem declared (hp : p.chart.IsClosed) (hq : q.chart.IsClosed) :
    q.declared q.grouped.reverse q.nodes = (p.declared p.grouped.reverse p.nodes).map settledNode := by
  have hagree : ∀ n, (!q.grouped.reverse.contains (settledNode n).id && q.needsDeclaration (settledNode n))
      = (!p.grouped.reverse.contains n.id && p.needsDeclaration n) := fun n => by
    rw [h.grouped, settledNode_id, h.needsDeclaration]
  have hdeclared : p.declared p.grouped.reverse p.nodes = _ := declared_eq (nodup_map_id_nodes hp)
  rw [declared_eq (nodup_map_id_nodes hq)]
  by_cases hs : p.options.sortEntities = true
  · rw [h.nodes_of_sorted hp hq hs, List.filter_map, hdeclared]
    exact congrArg (List.map settledNode) (List.filter_congr fun n _ => hagree n)
  have hids := h.filter_keys hp rfl
  have hmem : ∀ n ∈ p.nodes, n.id ∈ (p.declared p.grouped.reverse p.nodes).map Node.id ↔
      (!p.grouped.reverse.contains n.id && p.needsDeclaration n) = true := by
    intro n hn
    rw [hdeclared, List.mem_map]
    refine ⟨fun ⟨m, hm, e⟩ => ?_, fun hself => ⟨n, List.mem_filter.2 ⟨hn, hself⟩, rfl⟩⟩
    obtain ⟨hm, hself⟩ := List.mem_filter.1 hm
    have hget := get?_of_mem_nodes hp hm
    rw [e, get?_of_mem_nodes hp hn] at hget
    exact Option.some.inj hget ▸ hself
  have hfilter : (q.nodes.filter fun n => !q.grouped.reverse.contains n.id && q.needsDeclaration n)
      = q.nodes.filter fun n => n.id ∈ (p.declared p.grouped.reverse p.nodes).map Node.id := by
    refine List.filter_congr fun v hv => ?_
    obtain ⟨n, hn, rfl⟩ := List.mem_map.1 ((q.nodes_perm.trans (h.values_perm hp hq)).mem_iff.1 hv)
    rw [hagree, settledNode_id, Bool.eq_iff_iff, decide_eq_true_eq, hmem n (p.nodes_perm.mem_iff.2 hn)]
  have hvalues : q.nodes = q.chart.nodes.values := if_neg (by rw [h.options]; exact hs)
  rw [hfilter, hvalues, Entries.filter_values hq.byId, hids, List.filterMap_map]
  refine List.filterMap_eq_map_iff_forall_eq_some.2 fun n hn => ?_
  exact (h.node n.id).trans (by rw [get?_of_mem_nodes hp (mem_declared hn), Option.map_some])

theorem bodyScript (hp : p.chart.IsClosed) (hq : q.chart.IsClosed) : q.bodyScript = settledLines p.bodyScript := by
  have hmentions : ((p.declared p.grouped.reverse p.nodes).map settledNode).map q.nodeMention
      = ((p.declared p.grouped.reverse p.nodes).map p.nodeMention).map settledMention := by
    rw [List.map_map, List.map_map]
    exact List.map_congr_left fun n _ => h.nodeMention n
  rw [Page.bodyScript, h.forest, h.declared hp hq, hmentions, settledLines_singles, h.linksAt, h.loose, Page.bodyScript,
    settledLines_append, settledLines_append]

/-- the key of a style that is written stays: its link is at that place now -/
theorem linkStyleKey {key k : Text} (hk : p.linkStyleKey p.order key = .ok k) (hshort : k.length ≤ 4300) :
    q.linkStyleKey q.order k = .ok k := by
  unfold Page.linkStyleKey at hk ⊢
  rw [h.length]
  by_cases hlooks : Integer.looksLike key = true
  · rw [if_pos hlooks] at hk
    obtain ⟨n, hn, hk⟩ := exceptMap_eq_ok_iff.1 hk
    by_cases hlt : n < p.chart.links.length
    · rw [if_pos hlt] at hk
      subst hk
      have hi : p.order.idxOf n < p.chart.links.length := p.length_order ▸ List.idxOf_lt_length_of_mem (p.mem_order hlt)
      have hagain : q.order.idxOf (p.order.idxOf n) = p.order.idxOf n := by
        have hrange := (List.nodup_range (n := p.chart.links.length)).idxOf_getElem (p.order.idxOf n) (by simpa using hi)
        rwa [List.getElem_range, ← h.order] at hrange
      rw [if_pos (Integer.looksLike_of_all_isDigit (ofNat_ne_nil _) (all_isDigit_ofNat _)),
        Integer.read_of_all (ofNat_ne_nil _) (all_isDigit_ofNat _), if_neg (not_lt.2 hshort), Integer.ofDigits_ofNat]
      exact congrArg Except.ok ((if_pos hi).trans (congrArg ofNat hagain))
    · rw [if_neg hlt] at hk
      subst hk
      rw [if_pos hlooks, hn]
      exact congrArg Except.ok (if_neg hlt)
  · rw [if_neg hlooks] at hk
    obtain rfl := Except.ok.inj hk
    exact if_neg hlooks

/-- **link styles keep their keys** -/
theorem printedStyles {styles : List (Text × Style)} (hstyles : p.printedStyles = .ok styles)
    (hsame : q.chart.linkStyles.toList = styles) (hshort : ∀ x ∈ styles, x.1.length ≤ 4300) : q.printedStyles = .ok styles := by
  rw [Page.printedStyles, hsame]
  refine mapM_eq_self fun x hx => ?_
  obtain ⟨y, -, hy⟩ := exists_of_forall₂ (forall₂_of_mapM hstyles) hx
  obtain ⟨k, hk, rfl⟩ := exceptMap_eq_ok_iff.1 hy
  exact exceptMap_eq_ok_iff.2 ⟨k, h.linkStyleKey hk (hshort _ hx), rfl⟩

end IsReread

/-! ## The page of what is read -/

variable {p : Page} {styles : List (Text × Style)}

/-- classes are written in statements of their own unless they are written with a declaration -/
theorem assignments_eq (p : Page) : p.assignments
    = (p.chart.classAssignments.toList.filter fun x => (p.inlineClass x.1).isNone).flatMap fun x => x.2.map (x.1, ·) := by
  rw [assignments]
  generalize p.chart.classAssignments.toList = l
  induction l with
  | nil => rfl
  | cons x l ih =>
    rw [List.flatMap_cons, ih, List.filter_cons]
    cases p.inlineClass x.1 <;> rfl

variable (hp : p.chart.IsWellFormed)
include hp

theorem isReread_reread : p.IsReread ⟨p.reread styles, p.options⟩ where
  options := rfl
  subgraphs := subgraphs_reread
  links := links_reread
  node := get?_nodes_reread hp.toIsClosed
  keys := by
    rw [reread, chartOf_eq]
    dsimp only
    rw [keys_foldl_declareNode, flatMap_mentions_settledScript, scriptMentions_script, List.map_map]
    rfl
  inlineClass id := by
    have hknown : (p.reread styles).nodes.contains id = p.chart.nodes.contains id := by
      rw [Entries.contains, get?_nodes_reread hp.toIsClosed, Option.isSome_map, Entries.contains]
    unfold inlineClass
    dsimp only
    rw [hknown, get?_classAssignments_reread hp]

/-- the nodes whose classes have statements of their own come in the order of those statements -/
theorem filter_keys_classAssignments :
    ((p.reread styles).classAssignments.keys.filter fun id => (p.inlineClass id).isNone)
      = p.chart.classAssignments.keys.filter fun id => (p.inlineClass id).isNone := by
  have hinline : ((classPairs (scriptMentions p.bodyScript)).map Prod.fst).filter (fun id => (p.inlineClass id).isNone) = [] := by
    refine List.filter_eq_nil_iff.2 (List.forall_mem_map.2 fun x hx => ?_)
    obtain ⟨m, hm, hx⟩ := List.mem_filterMap.1 hx
    obtain ⟨name, hname, rfl⟩ := Option.map_eq_some_iff.1 hx
    simp [className_of_mem_script hp.toIsClosed hm hname]
  have hown : (p.assignments.map Prod.fst).filter (fun id => (p.inlineClass id).isNone) = p.assignments.map Prod.fst := by
    refine List.filter_eq_self.2 (List.forall_mem_map.2 fun x hx => ?_)
    obtain ⟨-, -, -, hnone⟩ := mem_assignments hx
    rw [hnone]
    rfl
  have hkeys : (p.assignments.map Prod.fst).foldl Entries.addTo []
      = p.chart.classAssignments.keys.filter fun id => (p.inlineClass id).isNone := by
    have hfilter : (p.chart.classAssignments.toList.filter fun x => (p.inlineClass x.1).isNone).map Prod.fst
        = p.chart.classAssignments.keys.filter fun id => (p.inlineClass id).isNone := by
      rw [Entries.keys, List.filter_map]
      rfl
    rw [assignments_eq, ← hfilter]
    exact Entries.foldl_addTo_flatMap (hfilter ▸ p.chart.classAssignments.nodup_keys.filter _) fun x hx =>
      (hp.classes x (List.mem_of_mem_filter hx)).1
  rw [reread, chartOf_eq]
  dsimp only
  rw [flatMap_assignments_script hp.toIsClosed, Entries.keys_foldl_assign, Entries.filter_foldl_addTo, List.map_append,
    List.filter_append, hinline, hown, List.nil_append]
  exact hkeys

theorem assignments_reread : Page.assignments ⟨p.reread styles, p.options⟩ = p.assignments := by
  have hreread : p.IsReread ⟨p.reread styles, p.options⟩ := isReread_reread hp
  have hclass := hreread.inlineClass
  rw [assignments_eq, assignments_eq]
  dsimp only
  simp only [hclass]
  rw [Entries.filter_toList _ fun id => (p.inlineClass id).isNone, Entries.filter_toList _ fun id => (p.inlineClass id).isNone,
    filter_keys_classAssignments hp]
  simp only [get?_classAssignments_reread hp]

theorem texts_reread : Page.texts ⟨p.reread styles, p.options⟩ = p.texts := by
  rw [texts, texts]
  dsimp only
  rw [accessibility_reread hp.toIsClosed]
  dsimp only
  rw [present_present, present_present]

theorem tailScript_reread :
    Page.tailScript ⟨p.reread styles, p.options⟩ styles = (p.tailScript styles).map Statement.settled := by
  rw [tailScript, tailScript, assignments_reread hp]
  dsimp only
  rw [classDefs_reread hp.toIsClosed, nodeStyles_reread hp.toIsClosed, clicks_reread hp.toIsClosed]
  simp only [List.map_append, List.map_map]
  rfl

/-- **the page of what is read** holds the statements that were read -/
theorem script_reread (hq : (p.reread styles).IsClosed) :
    Page.script ⟨p.reread styles, p.options⟩ styles = settledLines (p.script styles) := by
  have htexts : settledLines (p.texts.map fun l => (1, Statement.accessibility l))
      = p.texts.map fun l => (1, Statement.accessibility l) := by
    rw [settledLines, List.map_map]
    rfl
  have htail : settledLines ((p.tailScript styles).map (1, ·)) = ((p.tailScript styles).map Statement.settled).map (1, ·) := by
    rw [settledLines, List.map_map, List.map_map]
    rfl
  rw [script, texts_reread hp, (isReread_reread hp).bodyScript hp.toIsClosed hq, tailScript_reread hp, script,
    settledLines_append, settledLines_append, htexts, htail]

end Page

/-- **the canonical text of a flowchart is stable**: where no line misleads, and link styles are written under keys of their
own, short enough for numbers, a chart that is read is written so that it is read again, and then written as the same text -/
theorem render_stable {text : Text} {d : Flowchart} (h : read text = .ok d) {o : RenderOptions} (ho : '\n' ∉ o.unit)
    {styles : List (Text × Style)} (hstyles : Page.printedStyles ⟨d, o⟩ = .ok styles)
    (hdistinct : (styles.map Prod.fst).Nodup) (hshort : ∀ x ∈ styles, x.1.length ≤ 4300)
    (hm : IsFaithful (Page.script ⟨d, o⟩ styles)) :
    ∃ t d', render d o = .ok t ∧ read t = .ok d' ∧ render d' o = .ok t := by
  have hd := isWellFormed_of_read h
  have hread := Page.read_page (p := ⟨d, o⟩) hd ho hstyles hm
  have hq := (isWellFormed_of_read hread).toIsClosed
  have hkeys : (Page.reread ⟨d, o⟩ styles).linkStyles.toList = styles := by
    rw [Page.linkStyles_reread hd.toIsClosed, foldl_addStyle (by simpa using hdistinct)]
    rfl
  refine ⟨_, _, render_eq_ok_iff.2 ⟨styles, hstyles, rfl⟩, hread, render_eq_ok_iff.2 ⟨styles, ?_, ?_⟩⟩
  · exact (Page.isReread_reread hd).printedStyles hstyles hkeys hshort
  · rw [Page.text, Page.text, Page.script_reread hd hq, Page.direction_reread, settledLines, List.map_map]
    refine congrArg (fun lines => ofLines (headerText d.direction :: lines)) (List.map_congr_left fun x hx => ?_)
    have hplain := Page.isPlain_of_writes hd (Page.isPlain_printedStyles hd hstyles) (Page.writes_of_mem_script hd.toIsClosed x hx)
    exact congrArg (o.levels x.1 ++ ·) (toText_settled hplain).symm

/-- links that change places, one of them with a style, and a title and a label that are not ids -/
def harbour : Flowchart where
  nodes := .ofList [("C", ⟨"C", "C", .default⟩), ("A", ⟨"A", "A", .default⟩), ("B", ⟨"B", "B", .default⟩),
    ("D", ⟨"D", "\"a\" b", .square⟩)]
  links := [⟨"C", "A", ⟨.normal, .point, 1, false, some "sails"⟩⟩, ⟨"A", "B", ⟨.normal, .point, 1, false, none⟩⟩]
  subgraphs := [⟨"outer", "the quay", ["A", "B"], [], none⟩]
  classAssignments := .ofList [("A", ["hot"]), ("D", ["hot"])]
  linkStyles := .ofList [("00", .ofList [("stroke", "red")])]

theorem read_harbour : read "flowchart TB\nC -->|sails| A\nsubgraph outer [the quay]\nA --> B\nend\nD[\"#quot;a#quot; b\"]\nclass A,D hot\nlinkStyle 00 stroke:red"
    = .ok harbour := by decide +kernel

theorem render_stable_harbour : ∃ t d', render harbour .default = .ok t ∧ read t = .ok d' ∧ render d' .default = .ok t := by
  have hstyles : Page.printedStyles ⟨harbour, .default⟩ = .ok [("1", .ofList [("stroke", "red")])] := rfl
  exact render_stable read_harbour (by decide) hstyles (by decide) (by decide) (by decide +kernel)

/-- a style without properties -/
def faded : Flowchart where
  nodes := .ofList [("A", ⟨"A", "A", .default⟩)]
  nodeStyles := .ofList [("A", .empty)]

/-- a line that misleads may be refused -/
theorem render_refused_faded : read "flowchart TB\nA\nstyle A bold" = .ok faded ∧
    ∃ t, render faded .default = .ok t ∧ read t = .error ⟨3, 11, .expectedLink "A"⟩ :=
  ⟨by decide +kernel, _, rfl, by decide +kernel⟩

/-- a link with two styles, under two spellings of its number -/
def twice : Flowchart where
  nodes := .ofList [("A", ⟨"A", "A", .default⟩), ("B", ⟨"B", "B", .default⟩)]
  links := [⟨"A", "B", ⟨.normal, .point, 1, false, none⟩⟩]
  linkStyles := .ofList [("0", .ofList [("stroke", "red")]), ("00", .ofList [("color", "blue")])]

/-- styles that are written under one key are read as one -/
theorem render_unstable_twice : read "flowchart TB\nA --> B\nlinkStyle 0 stroke:red\nlinkStyle 00 color:blue" = .ok twice ∧
    ∃ t d', render twice .default = .ok t ∧ read t = .ok d' ∧ render d' .default ≠ .ok t :=
  ⟨by decide +kernel, _,
    { twice with linkStyles := .ofList [("0", .ofList [("stroke", "red"), ("color", "blue")])] }, rfl, by decide +kernel,
    by decide +kernel⟩

end DiagramText.Flowchart

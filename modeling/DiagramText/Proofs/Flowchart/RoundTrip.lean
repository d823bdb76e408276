/-
Decoding undoes encoding. `read_render` takes a chart that is only nodes, links and subgraphs (`IsPlain`) and reads its
canonical text back, whatever the options: the same direction and subgraphs, the same nodes up to order, and the same
links in the order of writing.
-/
import DiagramText.Proofs.Flowchart.Reread

namespace DiagramText.Flowchart

open DiagramText.Text

/-- a text on one line that does not hold the entity of a quote -/
structure IsClean (t : Text) : Prop where
  lineFeed : '\n' ∉ t
  entity : ¬ quoteEntity <:+: t

/-- a chart that is only nodes, links and subgraphs, with ids that no keyword claims and labels that need no entity -/
structure IsPlain (d : Flowchart) : Prop extends d.IsClosed where
  name : ∀ id ∈ d.nodes.keys, Scan.isName isWord id = true ∧ id ≠ "end" ∧ id ≠ "subgraph"
  label : ∀ {id n}, d.nodes.get? id = some n → IsClean n.label
  subgraph : ∀ s ∈ walkAll d.subgraphs, s.id ≠ [] ∧ s.id.all isWordOrHyphen = true ∧ IsClean s.title
  form : ∀ l ∈ d.links, 1 ≤ l.form.length ∧ (l.form.bidirectional = true → l.form.arrow = .point)
  linkLabel : ∀ l ∈ d.links, ∀ t, l.form.label = some t → t ≠ [] ∧ IsClean t
  nothingElse : d = { direction := d.direction, nodes := d.nodes, links := d.links, subgraphs := d.subgraphs }

/-- the node as it is read back: a default node that shows a label of its own is a square -/
def Node.squared (n : Node) : Node :=
  if n.shape = .default ∧ n.label ≠ n.id then { n with shape := .square } else n

theorem settledNode_eq_squared {n : Node} (h : IsClean n.label) : settledNode n = n.squared := by
  obtain ⟨id, label, shape⟩ := n
  have hlabel : settledLabel label = label := settledLabel_of_not_infix h.lineFeed h.entity
  unfold settledNode Node.squared
  rw [hlabel]
  by_cases hs : shape = .default
  · by_cases hl : label = id <;> simp [Node.isBare, hs, hl, settledShape]
  · have hshape : settledShape shape = shape := by cases shape <;> first | rfl | exact absurd rfl hs
    simp [Node.isBare, hs, hshape]

mutual

theorem settledSubgraph_of_isClean : (s : Subgraph) → (∀ t ∈ s.walk, IsClean t.title) → settledSubgraph s = s
  | ⟨id, title, nodeIds, children, direction⟩, h => by
    have hwalk : Subgraph.walk ⟨id, title, nodeIds, children, direction⟩
        = ⟨id, title, nodeIds, children, direction⟩ :: walkAll children := by rw [Subgraph.walk]
    rw [hwalk] at h
    have htitle : IsClean title := h _ List.mem_cons_self
    rw [settledSubgraph, settledForest_of_isClean children fun t ht => h t (List.mem_cons_of_mem _ ht),
      settledLabel_of_not_infix htitle.lineFeed htitle.entity]
    by_cases he : title = id
    · rw [if_pos he, he]
    · rw [if_neg he]

theorem settledForest_of_isClean : (ss : List Subgraph) → (∀ t ∈ walkAll ss, IsClean t.title) → settledForest ss = ss
  | [], _ => by rw [settledForest]
  | s :: rest, h => by
    rw [walkAll] at h
    rw [settledForest, settledSubgraph_of_isClean s fun t ht => h t (List.mem_append_left _ ht),
      settledForest_of_isClean rest fun t ht => h t (List.mem_append_right _ ht)]

end

theorem settledLink_of_isClean {l : Link} (h : ∀ t, l.form.label = some t → t ≠ [] ∧ IsClean t) : settledLink l = l := by
  obtain ⟨source, target, stroke, arrow, length, bidirectional, label⟩ := l
  cases label with
  | none => rfl
  | some t =>
    obtain ⟨hne, hclean⟩ := h t rfl
    have hpresent : present (some t) = some t := present_eq_some_iff.2 ⟨rfl, hne⟩
    rw [settledLink, settledForm]
    simp only [hpresent, Option.map_some, settledLabel_of_not_infix hclean.lineFeed hclean.entity]

namespace IsPlain

variable {d : Flowchart} (h : d.IsPlain)
include h

theorem isWellFormed : d.IsWellFormed where
  toIsClosed := h.toIsClosed
  name id hid := (h.name id hid).1
  label hn := (h.label hn).lineFeed
  form l hl := ⟨(h.form l hl).1, (h.form l hl).2, fun t ht => (h.linkLabel l hl t ht).2.lineFeed⟩
  subgraph s hs := ⟨(h.subgraph s hs).1, (h.subgraph s hs).2.1, (h.subgraph s hs).2.2.lineFeed⟩
  classDef x hx := by rw [h.nothingElse] at hx; exact absurd hx (by simp [Entries.empty])
  assigned x hx := by rw [h.nothingElse] at hx; exact absurd hx (by simp [Entries.empty])
  classes x hx := by rw [h.nothingElse] at hx; exact absurd hx (by simp [Entries.empty])
  nodeStyle x hx := by rw [h.nothingElse] at hx; exact absurd hx (by simp [Entries.empty])
  click c hc := by rw [h.nothingElse] at hc; exact absurd hc (by simp)
  linkStyle x hx := by rw [h.nothingElse] at hx; exact absurd hx (by simp [Entries.empty])
  title v hv := by rw [h.nothingElse] at hv; exact absurd hv (by simp)
  description v hv := by rw [h.nothingElse] at hv; exact absurd hv (by simp)

variable (o : RenderOptions)

theorem printedStyles : Page.printedStyles ⟨d, o⟩ = .ok [] := by
  have hs : d.linkStyles = .empty := by rw [h.nothingElse]
  rw [Page.printedStyles, hs]
  rfl

theorem inlineClass (id : Text) : Page.inlineClass ⟨d, o⟩ id = none := by
  cases hi : Page.inlineClass ⟨d, o⟩ id with
  | none => rfl
  | some name =>
    have hget := (Page.inlineClass_eq_some hi).2.2.1
    have hs : d.classAssignments = .empty := by rw [h.nothingElse]
    rw [hs] at hget
    exact absurd hget (by simp)

/-- no line says anything else -/
theorem not_misleads : ∀ x ∈ Page.script ⟨d, o⟩ [], ¬ x.2.Misleads := by
  have hsingle : ∀ m : Mention, m.className = none → m.id ≠ "end" → ¬ Chain.Misleads ⟨[m], []⟩ := by
    rintro m hclass hid hm
    rcases misleads_single_iff.1 hm with rfl | ⟨-, hne, -⟩ | hn
    · exact hid rfl
    · exact hne hclass
    · exact hn fun name hname => absurd (hclass.symm.trans hname) (by simp)
  rintro ⟨depth, s⟩ hx
  cases Page.writes_of_mem_script h.toIsClosed _ hx with
  | text hl =>
    have ha : d.accessibility = {} := by rw [h.nothingElse]
    rcases Page.mem_texts hl with ⟨v, -, hv, -⟩ | ⟨v, -, hv, -⟩ <;> rw [ha] at hv <;> exact absurd hv (by simp)
  | body hb =>
    cases hb with
    | opens _ | direction _ | closes => exact id
    | node hn => exact hsingle _ (h.inlineClass o _) (h.name _ (Entries.mem_keys_of_get? hn)).2.1
    | member hid => exact hsingle _ rfl (h.name _ hid).2.1
    | links hls hc =>
      intro hm
      obtain ⟨⟨l, hl, hfirst⟩, -⟩ := first_linkChains hc
      have hsource : l.source = "subgraph" := by
        simpa [bare] using hfirst.symm.trans ((misleads_linkChains_iff hc).1 hm)
      exact (h.name _ (h.ends l (hls l hl)).1).2.2 hsource
  | tail ht =>
    have h1 : d.classDefs.toList = [] := by rw [h.nothingElse]; rfl
    have h2 : Page.assignments ⟨d, o⟩ = [] := by
      rw [Page.assignments]
      dsimp only
      rw [h.nothingElse]
      rfl
    have h3 : d.nodeStyles.toList = [] := by rw [h.nothingElse]; rfl
    have h4 : d.clicks = [] := by rw [h.nothingElse]
    simp [Page.tailScript, h1, h2, h3, h4] at ht

end IsPlain

/-- **decoding undoes encoding**: the canonical text of a plain chart is read back to the same chart, up to the order of
the nodes, with the links in the order of writing and default nodes with a label as squares -/
theorem read_render {d : Flowchart} (h : d.IsPlain) {o : RenderOptions} (ho : '\n' ∉ o.unit) :
    ∃ text nodes links, render d o = .ok text ∧ read text = .ok { d with nodes := nodes, links := links } ∧
      nodes.toList.Perm (d.nodes.map Node.squared).toList ∧
      links = (Page.body ⟨d, o⟩).order.filterMap (Page.link? ⟨d, o⟩) ∧ links.Perm d.links := by
  have hread := Page.read_page (p := ⟨d, o⟩) h.isWellFormed ho (h.printedStyles o) (h.not_misleads o)
  have horder : (Page.body ⟨d, o⟩).order = Page.order ⟨d, o⟩ := by rw [Page.body_eq]
  have hlinks : ((Page.order ⟨d, o⟩).filterMap (Page.link? ⟨d, o⟩)).map settledLink
      = (Page.order ⟨d, o⟩).filterMap (Page.link? ⟨d, o⟩) :=
    (List.map_congr_left fun l hl =>
      settledLink_of_isClean (h.linkLabel l ((Page.links_perm ⟨d, o⟩).mem_iff.1 hl))).trans (List.map_id _)
  have hsubgraphs : settledForest d.subgraphs = d.subgraphs :=
    settledForest_of_isClean _ fun s hs => (h.subgraph s hs).2.2
  have hassigned : (Page.reread ⟨d, o⟩ []).classAssignments = d.classAssignments := by
    have hs : d.classAssignments = .empty := by rw [h.nothingElse]
    have hget : ∀ id, (Page.reread ⟨d, o⟩ []).classAssignments.get? id = d.classAssignments.get? id :=
      Page.get?_classAssignments_reread h.isWellFormed
    have hperm := Entries.perm_of_get? hget
    rw [hs] at hperm ⊢
    exact Entries.ext_toList hperm.eq_nil
  have he : Page.reread ⟨d, o⟩ [] = { d with
      nodes := (Page.reread ⟨d, o⟩ []).nodes
      links := (Page.body ⟨d, o⟩).order.filterMap (Page.link? ⟨d, o⟩) } := by
    have hclicks : d.clicks.map settledClick = d.clicks := by rw [h.nothingElse]; rfl
    have hstyles : ([] : List (Text × Style)).foldl addStyle .empty = d.linkStyles := by rw [h.nothingElse]; rfl
    have htexts : (⟨present d.accessibility.title, present d.accessibility.description⟩ : Accessibility)
        = d.accessibility := by rw [h.nothingElse]; rfl
    refine Flowchart.ext Page.direction_reread rfl ?_ (Page.subgraphs_reread.trans hsubgraphs)
      (Page.classDefs_reread h.toIsClosed) hassigned (Page.nodeStyles_reread h.toIsClosed)
      ((Page.clicks_reread h.toIsClosed).trans hclicks) ((Page.linkStyles_reread h.toIsClosed).trans hstyles)
      ((Page.accessibility_reread h.toIsClosed).trans htexts)
    rw [Page.links_reread, hlinks, horder]
  rw [he] at hread
  refine ⟨_, _, _, render_eq_ok_iff.2 ⟨[], h.printedStyles o, rfl⟩, hread, ?_, rfl, ?_⟩
  · refine Entries.perm_of_get? fun id => ?_
    rw [Page.get?_nodes_reread h.toIsClosed, Entries.get?_map]
    cases hn : d.nodes.get? id with
    | none => rfl
    | some n => exact congrArg some (settledNode_eq_squared (h.label hn))
  · rw [horder]
    exact Page.links_perm ⟨d, o⟩

/-- two nodes in a subgraph, one of them a default node with a label, and a link that leaves it -/
def crossing : Flowchart where
  direction := .lr
  nodes := ⟨[("A", ⟨"A", "Start here", .default⟩), ("b-1", ⟨"b-1", "ready?", .diamond⟩), ("C", ⟨"C", "C", .default⟩)],
    by decide⟩
  links := [⟨"b-1", "C", ⟨.thick, .open, 2, false, some "go on"⟩⟩, ⟨"A", "b-1", ⟨.dotted, .point, 1, true, none⟩⟩]
  subgraphs := [⟨"one", "Part one", ["b-1", "A"], [], some .bt⟩]

theorem isPlain_crossing : crossing.IsPlain where
  byId {id n} h := by
    have hm := Entries.mem_toList_iff.2 h
    simp only [crossing, List.mem_cons, Prod.mk.injEq, List.not_mem_nil, or_false] at hm
    rcases hm with ⟨rfl, rfl⟩ | ⟨rfl, rfl⟩ | ⟨rfl, rfl⟩ <;> rfl
  member := by decide
  distinct := by decide
  ends := by decide
  name := by decide +kernel
  label {id n} h := by
    have hm := Entries.mem_toList_iff.2 h
    simp only [crossing, List.mem_cons, Prod.mk.injEq, List.not_mem_nil, or_false] at hm
    rcases hm with ⟨rfl, rfl⟩ | ⟨rfl, rfl⟩ | ⟨rfl, rfl⟩ <;> exact ⟨by decide, by decide⟩
  subgraph s hs := by
    obtain rfl : s = ⟨"one", "Part one", ["b-1", "A"], [], some .bt⟩ := by
      simpa [crossing, walkAll, Subgraph.walk] using hs
    exact ⟨by decide, by decide +kernel, by decide, by decide⟩
  form := by decide
  linkLabel l hl t ht := by
    simp only [crossing, List.mem_cons, List.not_mem_nil, or_false] at hl
    rcases hl with rfl | rfl
    · obtain rfl : "go on" = t := Option.some.inj ht
      exact ⟨by decide, by decide, by decide⟩
    · exact absurd ht (by simp)
  nothingElse := rfl

theorem read_render_crossing : crossing.IsPlain ∧ '\n' ∉ RenderOptions.default.unit ∧
    ∃ text nodes links, render crossing .default = .ok text ∧
      read text = .ok { crossing with nodes := nodes, links := links } ∧
      nodes.toList.Perm (crossing.nodes.map Node.squared).toList ∧
      links = (Page.body ⟨crossing, .default⟩).order.filterMap (Page.link? ⟨crossing, .default⟩) ∧
      links.Perm crossing.links :=
  ⟨isPlain_crossing, by decide, read_render isPlain_crossing (by decide)⟩

end DiagramText.Flowchart

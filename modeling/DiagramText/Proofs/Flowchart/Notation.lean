/-
Two notations for style classes and for links. The only class of a node can stand with the declaration of the node, and
links that continue each other can share a line; both are choices of the printer. `isFaithful_script` says that such a
choice makes no line mislead that is not misleading when each class and each link has a line of its own, as long as the
classes fit where they then stand (`InlinesClasses`). So every choice is read, and as the same nodes, links and classes
(`reads_in_every_notation`). `refused_inline` is a class that does not fit.
-/
import DiagramText.Proofs.Flowchart.Accepted
import DiagramText.Proofs.Flowchart.Reread

namespace DiagramText

open DiagramText.Text

/-- the same choices, with style classes and links written in the given notations -/
def RenderOptions.inNotation (o : RenderOptions) (inline compact : Bool) : RenderOptions :=
  { o with inlineClasses := inline, compactLinks := compact }

namespace Flowchart

/-- the only class of a node can stand with its declaration: it starts as a name does, and the declaration is not taken for
an accessibility text -/
def InlinesClasses (d : Flowchart) : Prop :=
  ∀ {id n name}, d.nodes.get? id = some n → d.classAssignments.get? id = some [name] →
    Scan.startsWith isWord name = true ∧ (n.isBare = true → id ≠ "accTitle" ∧ id ≠ "accDescr")

theorem isFaithful_append {xs ys : List (Nat × Statement)} : IsFaithful (xs ++ ys) ↔ IsFaithful xs ∧ IsFaithful ys :=
  List.forall_mem_append

theorem isFaithful_cons {x : Nat × Statement} {xs : List (Nat × Statement)} :
    IsFaithful (x :: xs) ↔ ¬ x.2.Misleads ∧ IsFaithful xs := List.forall_mem_cons

/-- links that are not compact have a line each -/
theorem linkChains_false (ls : List Link) : linkChains false ls = ls.map Link.chain := by
  induction ls with
  | nil => rfl
  | cons l ls ih =>
    cases ls with
    | nil => rfl
    | cons m rest =>
      rw [List.map_cons] at ih
      rw [linkChains, ih]
      rfl

namespace Page

variable {d : Flowchart} {o : RenderOptions} {inline compact : Bool}

/-! ## What does not depend on the notation -/

theorem order_options (o o' : RenderOptions) : Page.order ⟨d, o⟩ = Page.order ⟨d, o'⟩ := by
  have h : (Page.takenAll ⟨d, o⟩ (List.range d.links.length) d.subgraphs).map id
      = Page.takenAll ⟨d, o'⟩ ((List.range d.links.length).map id) d.subgraphs :=
    takenAll_map (p := ⟨d, o'⟩) (q := ⟨d, o⟩) (f := id) (fun _ _ _ => rfl) _
  rw [List.map_id, List.map_id] at h
  exact congrArg (· ++ Page.loose ⟨d, o⟩) h

theorem printedStyles_options (o o' : RenderOptions) : Page.printedStyles ⟨d, o⟩ = Page.printedStyles ⟨d, o'⟩ := by
  unfold printedStyles
  rw [order_options o o']
  rfl

/-! ## Lines in two notations -/

theorem isFaithful_chainsAt {depth : Nat} {cs : List Chain} : IsFaithful (chainsAt depth cs) ↔ ∀ c ∈ cs, ¬ c.Misleads :=
  List.forall_mem_map

/-- a declaration that misleads is the keyword `end`, when classes fit -/
theorem nodeMention_of_misleads (hfit : d.InlinesClasses) {n : Node} (hn : d.nodes.get? n.id = some n)
    (h : Chain.Misleads ⟨[Page.nodeMention ⟨d, o⟩ n], []⟩) : Page.nodeMention ⟨d, o⟩ n = bare "end" := by
  have hclass : ∀ {name}, (Page.nodeMention ⟨d, o⟩ n).className = some name →
      Scan.startsWith isWord name = true ∧ (n.isBare = true → n.id ≠ "accTitle" ∧ n.id ≠ "accDescr") := fun hname =>
    hfit hn (inlineClass_eq_some hname).2.2.1
  rcases misleads_single_iff.1 h with h | ⟨hshaped, hsome, hid⟩ | h
  · exact h
  · obtain ⟨name, hname⟩ := Option.ne_none_iff_exists'.1 hsome
    have hbare : n.isBare = true := by
      by_contra hnot
      rw [nodeMention, if_neg hnot] at hshaped
      cases hshaped
    obtain ⟨htitle, hdescription⟩ := (hclass hname).2 hbare
    exact absurd hid (not_or.2 ⟨htitle, hdescription⟩)
  · exact absurd (fun name hname => (hclass hname).1) h

/-- a declaration that is the keyword `end` is so when classes stand apart -/
theorem nodeMention_plain {n : Node} (h : Page.nodeMention ⟨d, o.inNotation inline compact⟩ n = bare "end") :
    Page.nodeMention ⟨d, o.inNotation false false⟩ n = bare "end" := by
  obtain ⟨hid, hshaped, -⟩ := Mention.mk.inj h
  rw [nodeMention, hid, hshaped]
  rfl

theorem isFaithful_members (hd : d.IsClosed) (hfit : d.InlinesClasses) {depth : Nat} {met ids : List Text}
    (h : IsFaithful (chainsAt depth
      ((Page.memberMentions ⟨d, o.inNotation false false⟩ met ids).map fun m => ⟨[m], []⟩))) :
    IsFaithful (chainsAt depth
      ((Page.memberMentions ⟨d, o.inNotation inline compact⟩ met ids).map fun m => ⟨[m], []⟩)) := by
  rw [isFaithful_chainsAt, List.forall_mem_map] at h ⊢
  induction ids generalizing met with
  | nil => exact fun m hm => absurd hm List.not_mem_nil
  | cons id ids ih =>
    rw [memberMentions, List.forall_mem_cons] at h ⊢
    refine ⟨fun hmisleads => h.1 ?_, ih h.2⟩
    unfold memberMention at hmisleads ⊢
    dsimp only at hmisleads ⊢
    cases hn : d.nodes.get? id with
    | none =>
      rw [hn] at hmisleads
      exact hmisleads
    | some n =>
      rw [hn] at hmisleads
      dsimp only at hmisleads ⊢
      split at hmisleads
      · rename_i hmet
        rw [if_pos hmet]
        exact hmisleads
      · rename_i hmet
        have hself : d.nodes.get? n.id = some n := by rw [hd.byId hn, hn]
        rw [if_neg hmet, nodeMention_plain (nodeMention_of_misleads hfit hself hmisleads)]
        exact .closes

theorem isFaithful_linksAt {depth : Nat} {numbers : List Nat}
    (h : IsFaithful (Page.linksAt ⟨d, o.inNotation false false⟩ depth numbers)) :
    IsFaithful (Page.linksAt ⟨d, o.inNotation inline compact⟩ depth numbers) := by
  unfold linksAt at h ⊢
  rw [isFaithful_chainsAt] at h ⊢
  dsimp only [RenderOptions.inNotation] at h ⊢
  rw [linkChains_false, List.forall_mem_map] at h
  intro c hc hmisleads
  obtain ⟨⟨l, hl, hfirst⟩, -⟩ := first_linkChains hc
  have hself : l.chain ∈ linkChains false [l] := List.mem_singleton_self _
  refine h l hl ((misleads_linkChains_iff hself).2 ?_)
  rw [← (misleads_linkChains_iff hc).1 hmisleads, hfirst]
  rfl

mutual

theorem isFaithful_blockScript (hd : d.IsClosed) (hfit : d.InlinesClasses) (depth : Nat) (met : List Text)
    (pending : List Nat) : (s : Subgraph) →
    IsFaithful (Page.blockScript ⟨d, o.inNotation false false⟩ depth met pending s) →
      IsFaithful (Page.blockScript ⟨d, o.inNotation inline compact⟩ depth met pending s)
  | ⟨id, title, nodeIds, children, direction⟩, h => by
    rw [blockScript] at h ⊢
    simp only [isFaithful_cons, isFaithful_append] at h ⊢
    obtain ⟨hopen, ⟨⟨⟨hdirection, hmembers⟩, hchildren⟩, hlinks⟩, hclose⟩ := h
    exact ⟨hopen, ⟨⟨⟨hdirection, isFaithful_members hd hfit hmembers⟩,
      isFaithful_forestScript hd hfit (depth + 1) _ _ children hchildren⟩, isFaithful_linksAt hlinks⟩, hclose⟩

theorem isFaithful_forestScript (hd : d.IsClosed) (hfit : d.InlinesClasses) (depth : Nat) (met : List Text)
    (pending : List Nat) : (ss : List Subgraph) →
    IsFaithful (Page.forestScript ⟨d, o.inNotation false false⟩ depth met pending ss) →
      IsFaithful (Page.forestScript ⟨d, o.inNotation inline compact⟩ depth met pending ss)
  | [], _ => by
    rw [forestScript]
    exact fun x hx => absurd hx List.not_mem_nil
  | s :: rest, h => by
    rw [forestScript, isFaithful_append] at h ⊢
    exact ⟨isFaithful_blockScript hd hfit depth met pending s h.1, isFaithful_forestScript hd hfit depth _ _ rest h.2⟩

end

theorem isFaithful_declared (hd : d.IsClosed) (hfit : d.InlinesClasses) {depth : Nat} {met : List Text}
    (h : IsFaithful (chainsAt depth (((Page.declared ⟨d, o.inNotation false false⟩ met
      (Page.nodes ⟨d, o.inNotation false false⟩)).map (Page.nodeMention ⟨d, o.inNotation false false⟩)).map
        fun m => ⟨[m], []⟩))) :
    IsFaithful (chainsAt depth (((Page.declared ⟨d, o.inNotation inline compact⟩ met
      (Page.nodes ⟨d, o.inNotation inline compact⟩)).map (Page.nodeMention ⟨d, o.inNotation inline compact⟩)).map
        fun m => ⟨[m], []⟩)) := by
  rw [isFaithful_chainsAt, List.forall_mem_map, List.forall_mem_map, declared_eq (nodup_map_id_nodes hd)] at h ⊢
  intro n hn hmisleads
  obtain ⟨hmem, hneeds⟩ := List.mem_filter.1 hn
  have hend := nodeMention_of_misleads hfit (get?_of_mem_nodes hd hmem) hmisleads
  refine h n (List.mem_filter.2 ⟨hmem, ?_⟩) (nodeMention_plain hend ▸ .closes)
  -- a node with a class is not the keyword, so it is declared for some other reason
  obtain ⟨-, -, hclass⟩ := Mention.mk.inj hend
  have hsame : Page.needsDeclaration ⟨d, o.inNotation false false⟩ n
      = Page.needsDeclaration ⟨d, o.inNotation inline compact⟩ n := by
    unfold needsDeclaration
    rw [hclass]
    rfl
  rwa [hsame]

theorem isFaithful_bodyScript (hd : d.IsClosed) (hfit : d.InlinesClasses)
    (h : IsFaithful (Page.bodyScript ⟨d, o.inNotation false false⟩)) :
    IsFaithful (Page.bodyScript ⟨d, o.inNotation inline compact⟩) := by
  unfold bodyScript at h ⊢
  simp only [isFaithful_append] at h ⊢
  exact ⟨⟨isFaithful_forestScript hd hfit 1 [] _ _ h.1.1, isFaithful_declared hd hfit h.1.2⟩, isFaithful_linksAt h.2⟩

/-- **a notation misleads nowhere** if no line of its own misleads for any class and any link -/
theorem isFaithful_script (hd : d.IsClosed) (hfit : d.InlinesClasses) {styles : List (Text × Style)}
    (h : IsFaithful (Page.script ⟨d, o.inNotation false false⟩ styles)) :
    IsFaithful (Page.script ⟨d, o.inNotation inline compact⟩ styles) := by
  unfold script tailScript at h ⊢
  simp only [List.map_append, isFaithful_append] at h ⊢
  obtain ⟨⟨htexts, hbody⟩, ⟨⟨⟨hdefs, -⟩, hnodes⟩, hclicks⟩, hlinks⟩ := h
  refine ⟨⟨htexts, isFaithful_bodyScript hd hfit hbody⟩, ⟨⟨⟨hdefs, ?_⟩, hnodes⟩, hclicks⟩, hlinks⟩
  intro x hx
  obtain ⟨s, hs, rfl⟩ := List.mem_map.1 hx
  obtain ⟨y, -, rfl⟩ := List.mem_map.1 hs
  exact id

end Page

/-- **the notation says nothing**: where a chart that is read is written with a line for each class and each link, and no line
misleads, it is read in every notation, with the same links in the same order, the same nodes and the same classes -/
theorem reads_in_every_notation {text : Text} {d : Flowchart} (h : read text = .ok d) {o : RenderOptions} (ho : '\n' ∉ o.unit)
    {styles : List (Text × Style)} (hstyles : Page.printedStyles ⟨d, o⟩ = .ok styles)
    (hplain : IsFaithful (Page.script ⟨d, o.inNotation false false⟩ styles)) (hfit : d.InlinesClasses) :
    ∃ t d', render d (o.inNotation false false) = .ok t ∧ read t = .ok d' ∧ ∀ inline compact, ∃ t₁ d₁,
      render d (o.inNotation inline compact) = .ok t₁ ∧ read t₁ = .ok d₁ ∧ d₁.links = d'.links ∧
      d₁.nodes.toList.Perm d'.nodes.toList ∧ d₁.classAssignments.toList.Perm d'.classAssignments.toList := by
  have hd := isWellFormed_of_read h
  have hprinted (inline compact) : Page.printedStyles ⟨d, o.inNotation inline compact⟩ = .ok styles :=
    (Page.printedStyles_options _ _).trans hstyles
  have hread (inline compact) := Page.read_page (p := ⟨d, o.inNotation inline compact⟩) hd ho (hprinted inline compact)
    (Page.isFaithful_script hd.toIsClosed hfit hplain)
  refine ⟨_, _, render_eq_ok_iff.2 ⟨styles, hprinted false false, rfl⟩, hread false false, fun inline compact =>
    ⟨_, _, render_eq_ok_iff.2 ⟨styles, hprinted inline compact, rfl⟩, hread inline compact, ?_, ?_, ?_⟩⟩
  · rw [Page.links_reread, Page.links_reread, Page.order_options]
    rfl
  · refine Entries.perm_of_get? fun id => ?_
    rw [Page.get?_nodes_reread hd.toIsClosed, Page.get?_nodes_reread hd.toIsClosed]
  · refine Entries.perm_of_get? fun id => ?_
    rw [Page.get?_classAssignments_reread hd, Page.get?_classAssignments_reread hd]

/-- links that continue each other, one of them with a style, and nodes with a class, one of them in a subgraph -/
def relay : Flowchart where
  nodes := .ofList [("A", ⟨"A", "A", .default⟩), ("B", ⟨"B", "B", .default⟩), ("C", ⟨"C", "C", .default⟩)]
  links := [⟨"A", "B", ⟨.normal, .point, 1, false, none⟩⟩, ⟨"B", "C", ⟨.normal, .point, 1, false, none⟩⟩]
  subgraphs := [⟨"s", "s", ["A"], [], none⟩]
  classAssignments := .ofList [("A", ["hot"]), ("B", ["hot"])]
  linkStyles := .ofList [("1", .ofList [("stroke", "red")])]

theorem read_relay : read "flowchart TB\nsubgraph s\nA\nend\nA --> B --> C\nclass A,B hot\nlinkStyle 1 stroke:red" = .ok relay := by
  decide +kernel

theorem inlinesClasses_relay : relay.InlinesClasses := by
  intro id n name _ hname
  have hall : ∀ x ∈ relay.classAssignments.toList, x.2 = ["hot"] ∧ x.1 ≠ "accTitle" ∧ x.1 ≠ "accDescr" := by decide
  obtain ⟨hhot, hid⟩ := hall _ (Entries.mem_toList_iff.2 hname)
  obtain rfl := List.singleton_inj.1 hhot
  exact ⟨by decide, fun _ => hid⟩

theorem reads_in_every_notation_relay : ∃ t d', render relay (RenderOptions.default.inNotation false false) = .ok t ∧
    read t = .ok d' ∧ ∃ t₁ d₁, render relay (RenderOptions.default.inNotation true true) = .ok t₁ ∧
      t₁ = "flowchart TB\n    subgraph s\n        A:::hot\n    end\n    B:::hot\n    A --> B --> C\n    linkStyle 1 stroke:red" ∧
      read t₁ = .ok d₁ ∧ d₁.links = d'.links := by
  have hstyles : Page.printedStyles ⟨relay, .default⟩ = .ok [("1", .ofList [("stroke", "red")])] := rfl
  obtain ⟨t, d', ht, hd', hall⟩ := reads_in_every_notation read_relay (by decide) hstyles (by decide +kernel) inlinesClasses_relay
  obtain ⟨t₁, d₁, ht₁, hd₁, hlinks, -⟩ := hall true true
  exact ⟨t, d', ht, hd', t₁, d₁, ht₁, Except.ok.inj (ht₁.symm.trans rfl), hd₁, hlinks⟩

/-- a chart with a class whose name starts with a hyphen -/
def hyphened : Flowchart where
  nodes := .ofList [("A", ⟨"A", "A", .default⟩)]
  classAssignments := .ofList [("A", ["-x"])]

/-- a class whose name starts with a hyphen is read in a statement of its own only -/
theorem refused_inline : read "flowchart TB\nA\nclass A -x" = .ok hyphened ∧
    (∃ t, render hyphened (RenderOptions.default.inNotation false false) = .ok t ∧ read t = .ok hyphened) ∧
    ∃ t, render hyphened (RenderOptions.default.inNotation true false) = .ok t ∧
      read t = .error ⟨2, 6, .expectedLink ":::-x"⟩ :=
  ⟨by decide +kernel, ⟨_, rfl, by decide +kernel⟩, _, rfl, by decide +kernel⟩

end Flowchart

end DiagramText

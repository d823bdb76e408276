/-
The nodes of a page. `Page.Writes` lists the kinds of statements on a page, and `writes_of_mem_script` finds each line of
a script among them: a node is mentioned by its one declaration or by its id alone. `nodeMention_mem_script` says that the
declaration of every node is written, in the first subgraph that lists it, on its own, or as the end of a link; so
`get?_nodes_script` reads every node back as it settles.
-/
import DiagramText.Proofs.Entries
import DiagramText.Proofs.Flowchart.Replay

namespace DiagramText.Flowchart

open DiagramText.Text

namespace Page

variable {p : Page}

/-! ## What is written -/

/-- the statements that the body of a page can hold -/
inductive Builds (p : Page) : Statement → Prop
  | opens {s : Subgraph} (h : s ∈ walkAll p.chart.subgraphs) : Builds p (.openSubgraph s.id s.title)
  | direction (d : Direction) : Builds p (.direction d)
  | closes : Builds p .closeSubgraph
  | node {n : Node} (h : p.chart.nodes.get? n.id = some n) : Builds p (.chain ⟨[p.nodeMention n], []⟩)
  | member {id : Text} (h : id ∈ p.chart.nodes.keys) : Builds p (.chain ⟨[bare id], []⟩)
  | links {ls : List Link} (h : ∀ l ∈ ls, l ∈ p.chart.links) {c : Chain} (hc : c ∈ linkChains p.options.compactLinks ls) :
    Builds p (.chain c)

/-- the statements that a page can hold -/
inductive Writes (p : Page) (styles : List (Text × Style)) : Statement → Prop
  | text {l : AccessibilityLine} (h : l ∈ p.texts) : Writes p styles (.accessibility l)
  | body {s : Statement} (h : p.Builds s) : Writes p styles s
  | tail {s : Statement} (h : s ∈ p.tailScript styles) : Writes p styles s

variable {styles : List (Text × Style)}

theorem builds_memberMention (hp : p.chart.IsClosed) {met : List Text} {id : Text} (hid : id ∈ p.chart.nodes.keys) :
    p.Builds (.chain ⟨[p.memberMention met id], []⟩) := by
  obtain ⟨n, hn⟩ := Entries.exists_of_mem_keys hid
  rw [memberMention, hn]
  dsimp only
  split
  · exact .member hid
  · exact .node (by rw [hp.byId hn, hn])

theorem builds_memberMentions (hp : p.chart.IsClosed) {depth : Nat} {met ids : List Text}
    (hids : ∀ id ∈ ids, id ∈ p.chart.nodes.keys) :
    ∀ x ∈ chainsAt depth ((p.memberMentions met ids).map fun m => ⟨[m], []⟩), p.Builds x.2 := by
  induction ids generalizing met with
  | nil => simp [memberMentions, chainsAt]
  | cons id ids ih =>
    intro x hx
    rw [memberMentions, List.map_cons, chainsAt, List.map_cons, List.mem_cons] at hx
    rcases hx with rfl | hx
    · exact builds_memberMention hp (hids id (by simp))
    · exact ih (fun i hi => hids i (by simp [hi])) x hx

theorem builds_linksAt {depth : Nat} {numbers : List Nat} : ∀ x ∈ p.linksAt depth numbers, p.Builds x.2 := by
  intro x hx
  obtain ⟨c, hc, rfl⟩ := List.mem_map.1 hx
  refine .links (fun l hl => ?_) hc
  obtain ⟨i, _, hi⟩ := List.mem_filterMap.1 hl
  exact List.mem_of_getElem? hi

mutual

theorem builds_blockScript (hp : p.chart.IsClosed) {depth : Nat} {met : List Text} {pending : List Nat} :
    (s : Subgraph) → (∀ t ∈ s.walk, t ∈ walkAll p.chart.subgraphs) →
      ∀ x ∈ p.blockScript depth met pending s, p.Builds x.2
  | ⟨id, title, nodeIds, children, direction⟩, h, x, hx => by
    have hwalk : Subgraph.walk ⟨id, title, nodeIds, children, direction⟩
        = ⟨id, title, nodeIds, children, direction⟩ :: walkAll children := by rw [Subgraph.walk]
    rw [hwalk] at h
    have hself := h _ List.mem_cons_self
    rw [blockScript] at hx
    simp only [List.mem_cons, List.mem_append, List.not_mem_nil, or_false] at hx
    rcases hx with rfl | (((hx | hx) | hx) | hx) | rfl
    · exact .opens hself
    · obtain ⟨d, _, rfl⟩ := Option.map_eq_some_iff.1 (Option.mem_toList.1 hx)
      exact .direction d
    · exact builds_memberMentions hp (hp.member _ hself) x hx
    · exact builds_forestScript hp children (fun t ht => h t (by simp [ht])) x hx
    · exact builds_linksAt x hx
    · exact .closes

theorem builds_forestScript (hp : p.chart.IsClosed) {depth : Nat} {met : List Text} {pending : List Nat} :
    (ss : List Subgraph) → (∀ t ∈ walkAll ss, t ∈ walkAll p.chart.subgraphs) →
      ∀ x ∈ p.forestScript depth met pending ss, p.Builds x.2
  | [], _, x, hx => by simp [forestScript] at hx
  | s :: rest, h, x, hx => by
    rw [walkAll] at h
    rw [forestScript, List.mem_append] at hx
    rcases hx with hx | hx
    · exact builds_blockScript hp s (fun t ht => h t (by simp [ht])) x hx
    · exact builds_forestScript hp rest (fun t ht => h t (by simp [ht])) x hx

end

theorem mem_declared {met : List Text} {ns : List Node} {n : Node} (h : n ∈ p.declared met ns) : n ∈ ns := by
  induction ns generalizing met with
  | nil => simp [declared] at h
  | cons m ns ih =>
    rw [declared] at h
    split at h
    · rcases List.mem_cons.1 h with rfl | h
      · simp
      · exact List.mem_cons_of_mem _ (ih h)
    · exact List.mem_cons_of_mem _ (ih h)

theorem nodes_perm (p : Page) : p.nodes.Perm p.chart.nodes.values := perm_ite_mergeSort _ _ p.chart.nodes.values

theorem get?_of_mem_nodes (hp : p.chart.IsClosed) {n : Node} (h : n ∈ p.nodes) : p.chart.nodes.get? n.id = some n :=
  (Entries.mem_values_iff_of_byId hp.byId).1 (p.nodes_perm.mem_iff.1 h)

/-- **what stands in the body of a page** -/
theorem builds_of_mem_bodyScript (hp : p.chart.IsClosed) : ∀ x ∈ p.bodyScript, p.Builds x.2 := by
  intro x hx
  simp only [bodyScript, List.mem_append] at hx
  rcases hx with (hx | hx) | hx
  · exact builds_forestScript hp _ (fun _ => id) x hx
  · obtain ⟨c, hc, rfl⟩ := List.mem_map.1 hx
    obtain ⟨m, hm, rfl⟩ := List.mem_map.1 hc
    obtain ⟨n, hn, rfl⟩ := List.mem_map.1 hm
    exact .node (get?_of_mem_nodes hp (mem_declared hn))
  · exact builds_linksAt x hx

/-- **what stands on a page** -/
theorem writes_of_mem_script (hp : p.chart.IsClosed) : ∀ x ∈ p.script styles, p.Writes styles x.2 := by
  intro x hx
  simp only [script, List.mem_append, List.mem_map] at hx
  rcases hx with (⟨l, hl, rfl⟩ | hx) | ⟨s, hs, rfl⟩
  · exact .text hl
  · exact .body (builds_of_mem_bodyScript hp x hx)
  · exact .tail hs

/-! ## Mentions -/

/-- the nodes that a script mentions -/
def scriptMentions (xs : List (Nat × Statement)) : List Mention := xs.flatMap fun x => x.2.mentions

theorem mentions_settled (s : Statement) : s.settled.mentions = s.mentions.map settledMention := by
  cases s with
  | chain c => exact mentions_settledChain c
  | accessibility line => cases line <;> rfl
  | _ => rfl

theorem flatMap_mentions_settledScript (xs : List (Nat × Statement)) :
    (settledScript xs).flatMap Statement.mentions = (scriptMentions xs).map settledMention := by
  rw [settledScript, scriptMentions, List.flatMap_map, List.map_flatMap]
  congr 1
  funext x
  exact mentions_settled x.2

theorem scriptMentions_append (xs ys : List (Nat × Statement)) :
    scriptMentions (xs ++ ys) = scriptMentions xs ++ scriptMentions ys := List.flatMap_append

theorem scriptMentions_chainsAt (depth : Nat) (cs : List Chain) :
    scriptMentions (chainsAt depth cs) = cs.flatMap Chain.mentions := by
  rw [scriptMentions, chainsAt, List.flatMap_map]
  rfl

theorem scriptMentions_singles (depth : Nat) (ms : List Mention) :
    scriptMentions (chainsAt depth (ms.map fun m => ⟨[m], []⟩)) = ms := by
  rw [scriptMentions_chainsAt, List.flatMap_map]
  exact List.flatMap_singleton' ms

theorem mentions_tailScript : ∀ s ∈ p.tailScript styles, s.mentions = [] := by
  intro s hs
  simp only [tailScript, List.mem_append, List.mem_map] at hs
  rcases hs with (((⟨x, _, rfl⟩ | ⟨x, _, rfl⟩) | ⟨x, _, rfl⟩) | ⟨x, _, rfl⟩) | ⟨x, _, rfl⟩ <;> rfl

/-- a node is mentioned by its id alone or by its declaration -/
theorem mem_mentions_script (hp : p.chart.IsClosed) {m : Mention} (hm : m ∈ scriptMentions (p.script styles)) :
    (m.id ∈ p.chart.nodes.keys ∧ m = bare m.id) ∨ ∃ n, p.chart.nodes.get? n.id = some n ∧ m = p.nodeMention n := by
  obtain ⟨x, hx, hm⟩ := List.mem_flatMap.1 hm
  obtain ⟨depth, s⟩ := x
  dsimp only at hm
  cases writes_of_mem_script hp _ hx with
  | text _ => exact absurd hm (by simp)
  | body h =>
    cases h with
    | opens _ | direction _ | closes => exact absurd hm (by simp)
    | node h =>
      refine Or.inr ⟨_, h, ?_⟩
      simpa [Chain.mentions] using hm
    | @member id h =>
      obtain rfl : m = bare id := by simpa [Chain.mentions] using hm
      exact Or.inl ⟨h, rfl⟩
    | links h hc =>
      obtain ⟨l, hl, e⟩ := mem_mentions_linkChains hc hm
      have hends := hp.ends l (h l hl)
      rcases e with rfl | rfl
      · exact Or.inl ⟨hends.1, rfl⟩
      · exact Or.inl ⟨hends.2, rfl⟩
  | tail h =>
    rw [mentions_tailScript _ h] at hm
    exact absurd hm (by simp)

theorem nodeMention_mem_memberMentions {n : Node} (hn : p.chart.nodes.get? n.id = some n) {met ids : List Text}
    (hid : n.id ∈ ids) (hmet : n.id ∉ met) : p.nodeMention n ∈ p.memberMentions met ids := by
  induction ids generalizing met with
  | nil => simp at hid
  | cons id ids ih =>
    rw [memberMentions, List.mem_cons]
    by_cases h : id = n.id
    · subst h
      simp [memberMention, hn, hmet]
    · refine Or.inr (ih ?_ ?_)
      · exact (List.mem_cons.1 hid).resolve_left (Ne.symm h)
      · simp [Ne.symm h, hmet]

mutual

theorem nodeMention_mem_blockScript {n : Node} (hn : p.chart.nodes.get? n.id = some n) (depth : Nat) {met : List Text}
    (pending : List Nat) (hmet : n.id ∉ met) : (s : Subgraph) → n.id ∈ s.walk.flatMap Subgraph.nodeIds →
      p.nodeMention n ∈ scriptMentions (p.blockScript depth met pending s)
  | ⟨id, title, nodeIds, children, direction⟩, h => by
    rw [Subgraph.walk, List.flatMap_cons, List.mem_append] at h
    rw [blockScript, scriptMentions, List.flatMap_cons, ← scriptMentions]
    simp only [scriptMentions_append, scriptMentions_singles, List.mem_append]
    refine Or.inr (Or.inl (Or.inl ?_))
    by_cases hid : n.id ∈ nodeIds
    · exact Or.inl (Or.inr (nodeMention_mem_memberMentions hn hid hmet))
    · exact Or.inr (nodeMention_mem_forestScript hn (depth + 1) _ (by simp [hid, hmet]) children (h.resolve_left hid))

theorem nodeMention_mem_forestScript {n : Node} (hn : p.chart.nodes.get? n.id = some n) (depth : Nat) {met : List Text}
    (pending : List Nat) (hmet : n.id ∉ met) : (ss : List Subgraph) → n.id ∈ (walkAll ss).flatMap Subgraph.nodeIds →
      p.nodeMention n ∈ scriptMentions (p.forestScript depth met pending ss)
  | [], h => by simp [walkAll] at h
  | s :: rest, h => by
    rw [walkAll, List.flatMap_append, List.mem_append] at h
    rw [forestScript, scriptMentions_append, List.mem_append]
    by_cases hid : n.id ∈ s.walk.flatMap Subgraph.nodeIds
    · exact Or.inl (nodeMention_mem_blockScript hn depth pending hmet s hid)
    · refine Or.inr (nodeMention_mem_forestScript hn depth _ ?_ rest (h.resolve_left hid))
      rw [List.mem_append, List.mem_reverse]
      tauto

end

/-- a node needs a declaration of its own unless links introduce it just as it is -/
def needsDeclaration (p : Page) (n : Node) : Bool := !n.isBare || !p.isLinked n.id || (p.inlineClass n.id).isSome

/-- nodes that no other node shares its id with are declared where they are not met yet and links do not do -/
theorem declared_eq {met : List Text} {ns : List Node} (h : (ns.map Node.id).Nodup) :
    p.declared met ns = ns.filter fun n => !met.contains n.id && p.needsDeclaration n := by
  induction ns generalizing met with
  | nil => rfl
  | cons n ns ih =>
    rw [List.map_cons, List.nodup_cons] at h
    rw [declared, List.filter_cons, ih h.2, ih h.2]
    have hcons : (ns.filter fun m => !(n.id :: met).contains m.id && p.needsDeclaration m)
        = ns.filter fun m => !met.contains m.id && p.needsDeclaration m := by
      refine List.filter_congr fun m hm => ?_
      have hne : m.id ≠ n.id := fun e => h.1 (e ▸ List.mem_map_of_mem hm)
      simp [hne]
    rw [hcons]
    rfl

theorem nodup_map_id_nodes (hp : p.chart.IsClosed) : (p.nodes.map Node.id).Nodup := by
  rw [(p.nodes_perm.map Node.id).nodup_iff, Entries.map_values hp.byId]
  exact p.chart.nodes.nodup_keys

/-- a link with an end outside of all subgraphs is written after them -/
theorem mem_loose {l : Link} (hl : l ∈ p.chart.links) (h : l.source ∉ p.grouped ∨ l.target ∉ p.grouped) :
    l ∈ p.loose.filterMap p.link? := by
  obtain ⟨i, hi, e⟩ := List.mem_iff_getElem.1 hl
  have hlink : p.link? i = some l := by rw [link?, List.getElem?_eq_getElem hi, e]
  refine List.mem_filterMap.2 ⟨i, ?_, hlink⟩
  rw [loose, List.mem_filter, List.mem_range]
  refine ⟨hi, ?_⟩
  rw [Bool.not_eq_true', takes, List.any_eq_false]
  intro s hs hin
  rw [inside, hlink] at hin
  simp only [Subgraph.lists, Bool.and_eq_true, List.contains_iff_mem] at hin
  rcases h with h | h
  · exact h (List.mem_flatMap.2 ⟨s, hs, hin.1⟩)
  · exact h (List.mem_flatMap.2 ⟨s, hs, hin.2⟩)

theorem scriptMentions_script (styles : List (Text × Style)) :
    scriptMentions (p.script styles) = scriptMentions p.bodyScript := by
  have htexts : scriptMentions (p.texts.map fun l => (1, Statement.accessibility l)) = [] := by
    simp [scriptMentions]
  have htail : scriptMentions ((p.tailScript styles).map (1, ·)) = [] := by
    rw [scriptMentions, List.flatMap_map, List.flatMap_eq_nil_iff]
    exact mentions_tailScript
  rw [script, scriptMentions_append, scriptMentions_append, htexts, htail, List.nil_append, List.append_nil]

theorem scriptMentions_bodyScript : scriptMentions p.bodyScript
    = scriptMentions (p.forestScript 1 [] (List.range p.chart.links.length) p.chart.subgraphs)
      ++ (p.declared p.grouped.reverse p.nodes).map p.nodeMention
      ++ (linkChains p.options.compactLinks (p.loose.filterMap p.link?)).flatMap Chain.mentions := by
  rw [bodyScript, linksAt, scriptMentions_append, scriptMentions_append, scriptMentions_singles, scriptMentions_chainsAt]

/-- **every node is declared**: where a subgraph lists it first, on its own, or as a mere end of a link -/
theorem nodeMention_mem_script (styles : List (Text × Style)) (hp : p.chart.IsClosed) {n : Node} (hn : p.chart.nodes.get? n.id = some n) :
    p.nodeMention n ∈ scriptMentions (p.script styles) := by
  rw [scriptMentions_script, scriptMentions_bodyScript, List.mem_append, List.mem_append]
  by_cases hgrouped : n.id ∈ p.grouped
  · exact Or.inl (Or.inl (nodeMention_mem_forestScript hn 1 _ (by simp) _ hgrouped))
  · by_cases hneeds : p.needsDeclaration n = true
    · refine Or.inl (Or.inr (List.mem_map_of_mem ?_))
      rw [declared_eq (nodup_map_id_nodes hp), List.mem_filter]
      refine ⟨p.nodes_perm.mem_iff.2 (Entries.mem_values_iff.2 ⟨_, hn⟩), ?_⟩
      simp [hgrouped, hneeds]
    · simp only [needsDeclaration, Bool.or_eq_true, not_or, Bool.not_eq_true', Bool.not_eq_false, Bool.not_eq_true,
        Option.isSome_eq_false_iff, Option.isNone_iff_eq_none] at hneeds
      obtain ⟨⟨hbare, hlinked⟩, hclass⟩ := hneeds
      have hmention : p.nodeMention n = bare n.id := by rw [nodeMention, hbare, hclass]; rfl
      obtain ⟨l, hl, hend⟩ := List.any_eq_true.1 hlinked
      rw [Bool.or_eq_true, beq_iff_eq, beq_iff_eq] at hend
      rw [hmention]
      refine Or.inr ?_
      rcases hend with hend | hend
      · exact hend ▸ (ends_linkChains (mem_loose hl (Or.inl (hend ▸ hgrouped)))).1
      · exact hend ▸ (ends_linkChains (mem_loose hl (Or.inr (hend ▸ hgrouped)))).2

end Page

/-! ## Nodes from mentions -/

section

variable {e : Entries Node} {ms : List Mention} {id : Text} {n : Node}

/-- the node that a mention shows -/
def Mention.Shows (m : Mention) (n : Node) : Prop := m.shaped = none ∨ m.shaped = some (n.label, n.shape)

theorem get?_declareNode_of_ne {m : Mention} (h : m.id ≠ id) : (declareNode e m).get? id = e.get? id := by
  unfold declareNode
  split
  · rw [Entries.get?_insert, if_neg h]
  · rw [Entries.get?_insertNew, if_neg h]

theorem get?_declareNode_of_shows {m : Mention} (hid : n.id = id) (hm : m.id = id) (hs : m.Shows n)
    (h : m.shaped = some (n.label, n.shape) ∨ e.get? id = some n ∨ e.get? id = none ∧ n = ⟨id, id, .default⟩) :
    (declareNode e m).get? id = some n := by
  obtain ⟨_, label, shape⟩ := n
  obtain ⟨_, shaped, className⟩ := m
  dsimp only at hid hm hs h
  subst hid hm
  unfold declareNode
  cases shaped with
  | some x =>
    obtain ⟨rfl, rfl⟩ : x.1 = label ∧ x.2 = shape := by simpa [Mention.Shows, Prod.ext_iff] using hs
    dsimp only
    rw [Entries.get?_insert, if_pos rfl]
  | none =>
    dsimp only
    rw [Entries.get?_insertNew, if_pos rfl]
    rcases h with h | h | ⟨h, e'⟩
    · exact absurd h (by simp)
    · rw [h]; rfl
    · rw [h, e']; rfl

/-- mentions that show a node leave it as it is -/
theorem get?_foldl_declareNode_of_get? (hid : n.id = id) (hm : ∀ m ∈ ms, m.id = id → m.Shows n) (he : e.get? id = some n) :
    (ms.foldl declareNode e).get? id = some n := by
  induction ms generalizing e with
  | nil => exact he
  | cons m ms ih =>
    refine ih (fun m' hm' => hm m' (by simp [hm'])) ?_
    by_cases h : m.id = id
    · exact get?_declareNode_of_shows hid h (hm m (by simp) h) (Or.inr (Or.inl he))
    · rw [get?_declareNode_of_ne h, he]

/-- **a node is what its mentions show**, when one of them says so or all are by its id alone -/
theorem get?_foldl_declareNode (hid : n.id = id) (hm : ∀ m ∈ ms, m.id = id → m.Shows n)
    (hex : ∃ m ∈ ms, m.id = id ∧
      (m.shaped = some (n.label, n.shape) ∨ (e.get? id = none ∧ n = ⟨id, id, .default⟩))) :
    (ms.foldl declareNode e).get? id = some n := by
  induction ms generalizing e with
  | nil => simp at hex
  | cons m ms ih =>
    have htail : ∀ m' ∈ ms, m'.id = id → m'.Shows n := fun m' hm' => hm m' (by simp [hm'])
    obtain ⟨m', hmem, hid', hor⟩ := hex
    by_cases h : m.id = id
    · rcases hor with hshaped | ⟨hnone, hdefault⟩
      · rcases List.mem_cons.1 hmem with rfl | hmem
        · rw [List.foldl_cons]
          exact get?_foldl_declareNode_of_get? hid htail
            (get?_declareNode_of_shows hid h (hm m' (by simp) h) (Or.inl hshaped))
        · exact ih htail ⟨m', hmem, hid', Or.inl hshaped⟩
      · rw [List.foldl_cons]
        exact get?_foldl_declareNode_of_get? hid htail
          (get?_declareNode_of_shows hid h (hm m (by simp) h) (Or.inr (Or.inr ⟨hnone, hdefault⟩)))
    · have hmem' : m' ∈ ms := (List.mem_cons.1 hmem).resolve_left fun e => h (e ▸ hid')
      refine ih htail ⟨m', hmem', hid', ?_⟩
      rwa [get?_declareNode_of_ne h]

theorem get?_foldl_declareNode_of_notMem (h : ∀ m ∈ ms, m.id ≠ id) : (ms.foldl declareNode e).get? id = e.get? id := by
  induction ms generalizing e with
  | nil => rfl
  | cons m ms ih =>
    rw [List.foldl_cons, ih fun m' hm' => h m' (by simp [hm']), get?_declareNode_of_ne (h m (by simp))]

end

/-- nodes come in the order in which they are first mentioned -/
theorem keys_foldl_declareNode (e : Entries Node) (ms : List Mention) :
    (ms.foldl declareNode e).keys = (ms.map Mention.id).foldl Entries.addTo e.keys := by
  induction ms generalizing e with
  | nil => rfl
  | cons m ms ih =>
    have hkeys : (declareNode e m).keys = Entries.addTo e.keys m.id := by
      unfold declareNode
      split <;> simp [Entries.keys_insert, Entries.keys_insertNew, Entries.addTo]
    rw [List.foldl_cons, ih, hkeys]
    rfl

/-- the node that is read from its declaration -/
def settledNode (n : Node) : Node := if n.isBare then n else ⟨n.id, settledLabel n.label, settledShape n.shape⟩

namespace Page

variable {p : Page} {styles : List (Text × Style)}

theorem settledNode_id (n : Node) : (settledNode n).id = n.id := by
  unfold settledNode
  split <;> rfl

theorem shaped_nodeMention (n : Node) : (settledMention (p.nodeMention n)).Shows (settledNode n) ∧
    ((settledMention (p.nodeMention n)).shaped = some ((settledNode n).label, (settledNode n).shape) ∨
      settledNode n = ⟨n.id, n.id, .default⟩) := by
  obtain ⟨id, label, shape⟩ := n
  cases h : Node.isBare ⟨id, label, shape⟩ with
  | true =>
    have hbare := h
    simp only [Node.isBare, Bool.and_eq_true, beq_iff_eq] at hbare
    obtain ⟨rfl, rfl⟩ := hbare
    simp [settledMention, nodeMention, settledNode, Mention.Shows, h]
  | false => simp [settledMention, nodeMention, settledNode, Mention.Shows, h]

/-- **the nodes come back**, each as it settles -/
theorem get?_nodes_script (hp : p.chart.IsClosed) (id : Text) :
    (((settledScript (p.script styles)).flatMap Statement.mentions).foldl declareNode .empty).get? id
      = (p.chart.nodes.get? id).map settledNode := by
  rw [flatMap_mentions_settledScript]
  cases hn : p.chart.nodes.get? id with
  | none =>
    rw [get?_foldl_declareNode_of_notMem]
    · rfl
    · intro m hm e
      obtain ⟨m, hm', rfl⟩ := List.mem_map.1 hm
      refine Entries.get?_eq_none_iff.1 hn (e ▸ ?_)
      rcases mem_mentions_script hp hm' with ⟨h, -⟩ | ⟨n, h, rfl⟩
      · exact h
      · exact Entries.mem_keys_of_get? h
  | some n =>
    obtain rfl := hp.byId hn
    obtain ⟨hshows, hsays⟩ := p.shaped_nodeMention n
    refine get?_foldl_declareNode (settledNode_id n) ?_ ⟨_, List.mem_map_of_mem (nodeMention_mem_script _ hp hn), rfl, ?_⟩
    · intro m hm e
      obtain ⟨m, hm', rfl⟩ := List.mem_map.1 hm
      rcases mem_mentions_script hp hm' with ⟨-, h⟩ | ⟨n', h, rfl⟩
      · rw [h]
        exact Or.inl rfl
      · obtain rfl : n' = n := by
          rw [show n'.id = n.id from e, hn] at h
          exact (Option.some.inj h).symm
        exact hshows
    · exact hsays.imp_right fun h => ⟨rfl, h⟩

end Page

end DiagramText.Flowchart

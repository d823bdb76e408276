/-
Replaying a script. The statements of a subgraph put exactly that subgraph back (`run_blockScript`): its members in
order, its children below it, and nothing from the links in it, whose ends are members already. `run_script` says so of
whole pages: the subgraphs come back as they are.
-/
import DiagramText.Proofs.Flowchart.Printed

namespace DiagramText.Flowchart

open DiagramText.Text

/-- nodes are kept under their ids, subgraphs list nodes of the chart, each at most once, and links join such nodes -/
structure IsClosed (d : Flowchart) : Prop where
  byId : ∀ {id n}, d.nodes.get? id = some n → n.id = id
  member : ∀ s ∈ walkAll d.subgraphs, ∀ id ∈ s.nodeIds, id ∈ d.nodes.keys
  distinct : ∀ s ∈ walkAll d.subgraphs, s.nodeIds.Nodup
  ends : ∀ l ∈ d.links, l.source ∈ d.nodes.keys ∧ l.target ∈ d.nodes.keys

/-! ## Settled parts -/

/-- the link that is read from its line -/
def settledLink (l : Link) : Link := { l with form := settledForm l.form }

mutual

/-- the subgraph that is read from its lines -/
def settledSubgraph : Subgraph → Subgraph
  | ⟨id, title, nodeIds, children, direction⟩ =>
    ⟨id, if title = id then id else settledLabel title, nodeIds, settledForest children, direction⟩

/-- the subgraphs that are read from their lines -/
def settledForest : List Subgraph → List Subgraph
  | [] => []
  | s :: rest => settledSubgraph s :: settledForest rest

end

@[simp] theorem settledMention_id (m : Mention) : (settledMention m).id = m.id := rfl

@[simp] theorem settledMention_bare (id : Text) : settledMention (bare id) = bare id := rfl

theorem mentions_settledChain (c : Chain) : (settledChain c).mentions = c.mentions.map settledMention := by
  simp only [Chain.mentions, settledChain, List.map_append, List.flatMap_map, List.map_flatMap]

/-! ## Links in chains -/

theorem linkChains_cons (compact : Bool) (m : Link) (rest : List Link) :
    ∃ c cs, linkChains compact (m :: rest) = c :: cs ∧ c.first = [bare m.source] := by
  induction rest generalizing m with
  | nil => exact ⟨_, _, rfl, rfl⟩
  | cons n rest ih =>
    obtain ⟨c, cs, e, _⟩ := ih n
    rw [linkChains, e]
    dsimp only
    split
    · exact ⟨_, _, rfl, rfl⟩
    · exact ⟨_, _, rfl, rfl⟩

/-- chains hold their links in order, whatever is put on one line -/
theorem flatMap_links_linkChains (compact : Bool) (ls : List Link) :
    (linkChains compact ls).flatMap (fun c => Statement.links (.chain c)) = ls := by
  have hsingle : ∀ l : Link, Statement.links (.chain l.chain) = [l] := fun _ => rfl
  induction ls with
  | nil => rfl
  | cons l ls ih =>
    cases ls with
    | nil => rw [linkChains, List.flatMap_cons, hsingle]; rfl
    | cons m rest =>
      obtain ⟨c, cs, e, hc⟩ := linkChains_cons compact m rest
      rw [e, List.flatMap_cons] at ih
      rw [linkChains, e]
      dsimp only
      split
      · rename_i h
        simp only [Bool.and_eq_true, decide_eq_true_eq] at h
        have hjoin : Statement.links (.chain ⟨[bare l.source], (l.form, c.first) :: c.links⟩)
            = l :: Statement.links (.chain c) := by
          simp [linksFrom, product, hc, h.2, bare]
        rw [List.flatMap_cons, hjoin, List.cons_append, ih]
      · rw [List.flatMap_cons, List.flatMap_cons, hsingle, ih]
        rfl

theorem product_settled (form : LinkForm) (sources targets : Group) :
    product (settledForm form) (sources.map settledMention) (targets.map settledMention)
      = (product form sources targets).map settledLink := by
  simp [product, List.flatMap_map, List.map_flatMap, settledLink, Function.comp_def]

theorem linksFrom_settled (from_ : Group) (steps : List (LinkForm × Group)) :
    linksFrom (from_.map settledMention) (steps.map fun x => (settledForm x.1, x.2.map settledMention))
      = (linksFrom from_ steps).map settledLink := by
  induction steps generalizing from_ with
  | nil => rfl
  | cons x steps ih =>
    obtain ⟨form, group⟩ := x
    rw [List.map_cons, linksFrom, linksFrom, ih, product_settled, List.map_append]

/-- a chain of links mentions the ends of links, by their ids alone -/
theorem mem_mentions_linkChains {compact : Bool} {ls : List Link} {c : Chain} {m : Mention}
    (hc : c ∈ linkChains compact ls) (hm : m ∈ c.mentions) :
    ∃ l ∈ ls, m = bare l.source ∨ m = bare l.target := by
  induction ls generalizing c with
  | nil => simp [linkChains] at hc
  | cons l ls ih =>
    have hsingle : ∀ m ∈ l.chain.mentions, m = bare l.source ∨ m = bare l.target := by
      intro m hm
      simpa [Link.chain, Chain.mentions] using hm
    cases ls with
    | nil =>
      simp only [linkChains, List.mem_singleton] at hc
      subst hc
      exact ⟨l, by simp, hsingle m hm⟩
    | cons n rest =>
      obtain ⟨c', cs, e, _⟩ := linkChains_cons compact n rest
      rw [e] at ih
      rw [linkChains, e] at hc
      dsimp only at hc
      split at hc
      · rcases List.mem_cons.1 hc with rfl | hc
        · simp only [Chain.mentions, List.flatMap_cons, List.mem_append, List.mem_singleton] at hm
          rcases hm with rfl | hm
          · exact ⟨l, by simp, Or.inl rfl⟩
          · obtain ⟨l', hl', h⟩ := ih (c := c') (by simp) (by simpa [Chain.mentions] using hm)
            exact ⟨l', by simp [List.mem_cons.1 hl'], h⟩
        · obtain ⟨l', hl', h⟩ := ih (c := c) (by simp [hc]) hm
          exact ⟨l', by simp [List.mem_cons.1 hl'], h⟩
      · rcases List.mem_cons.1 hc with rfl | hc
        · exact ⟨l, by simp, hsingle m hm⟩
        · obtain ⟨l', hl', h⟩ := ih hc hm
          exact ⟨l', by simp [List.mem_cons.1 hl'], h⟩

/-- both ends of every link are mentioned -/
theorem ends_linkChains {compact : Bool} {ls : List Link} {l : Link} (hl : l ∈ ls) :
    bare l.source ∈ (linkChains compact ls).flatMap Chain.mentions ∧
      bare l.target ∈ (linkChains compact ls).flatMap Chain.mentions := by
  induction ls with
  | nil => simp at hl
  | cons m ls ih =>
    cases ls with
    | nil =>
      obtain rfl : l = m := by simpa using hl
      simp [linkChains, Link.chain, Chain.mentions]
    | cons n rest =>
      obtain ⟨c', cs, e, hfirst⟩ := linkChains_cons compact n rest
      rw [e] at ih
      rw [linkChains, e]
      dsimp only
      split
      · rename_i h
        simp only [Bool.and_eq_true, decide_eq_true_eq] at h
        rcases List.mem_cons.1 hl with rfl | hl
        · simp [Chain.mentions, hfirst, h.2]
        · obtain ⟨h1, h2⟩ := ih hl
          simp only [List.flatMap_cons, Chain.mentions, List.mem_append] at h1 h2 ⊢
          exact ⟨by tauto, by tauto⟩
      · rcases List.mem_cons.1 hl with rfl | hl
        · simp [Link.chain, Chain.mentions]
        · obtain ⟨h1, h2⟩ := ih hl
          rw [List.flatMap_cons, List.mem_append, List.mem_append]
          exact ⟨Or.inr h1, Or.inr h2⟩

/-! ## Outlines -/

/-- puts whole subgraphs into the innermost open one, or into the chart -/
def Outline.placeAll (ss : List Subgraph) (o : Outline) : Outline :=
  match o.open_ with
  | [] => { o with subgraphs := o.subgraphs ++ ss }
  | s :: rest => { o with open_ := { s with children := s.children ++ ss } :: rest }

namespace Outline

variable (o : Outline)

theorem placeAll_nil : o.placeAll [] = o := by
  obtain ⟨direction, subgraphs, - | ⟨⟨id, title, nodeIds, children, dir⟩, rest⟩⟩ := o <;> simp [placeAll]

theorem placeAll_cons (s : Subgraph) (ss : List Subgraph) : o.placeAll (s :: ss) = (o.place s).placeAll ss := by
  obtain ⟨direction, subgraphs, open_⟩ := o
  cases open_ <;> simp [placeAll, place]

theorem run_cons (s : Statement) (ss : List Statement) : o.run (s :: ss) = (o.step s).bind fun o' => o'.run ss :=
  List.foldlM_cons

theorem run_append (ss ts : List Statement) : o.run (ss ++ ts) = (o.run ss).bind fun o' => o'.run ts :=
  List.foldlM_append

/-- lines of nodes only add members -/
theorem run_chains (cs : List Chain) : o.run (cs.map .chain) = some (o.mentionAll (cs.flatMap Chain.mentions)) := by
  induction cs generalizing o with
  | nil => rfl
  | cons c cs ih =>
    have hstep : o.step (.chain c) = some (o.mentionAll c.mentions) := rfl
    rw [List.map_cons, run_cons, hstep, Option.bind_some, ih, List.flatMap_cons, mentionAll, mentionAll, mentionAll,
      List.foldl_append]

/-- statements that leave the outline alone -/
theorem run_of_step {ss : List Statement} (h : ∀ s ∈ ss, o.step s = some o) : o.run ss = some o := by
  induction ss with
  | nil => rfl
  | cons s ss ih => rw [run_cons, h s (by simp), Option.bind_some, ih fun t ht => h t (by simp [ht])]

variable {o}

/-- without an open subgraph there is nothing to be a member of -/
theorem mentionAll_of_open_nil (ho : o.open_ = []) (ms : List Mention) : o.mentionAll ms = o := by
  induction ms with
  | nil => rfl
  | cons m ms ih =>
    have hm : o.inInnermost (Subgraph.addMember m.id) = o := by rw [inInnermost, ho]
    rw [mentionAll, List.foldl_cons, hm]
    exact ih

/-- members that are there already -/
theorem mentionAll_of_mem {s : Subgraph} {rest : List Subgraph} (ho : o.open_ = s :: rest) {ms : List Mention}
    (h : ∀ m ∈ ms, m.id ∈ s.nodeIds) : o.mentionAll ms = o := by
  induction ms with
  | nil => rfl
  | cons m ms ih =>
    have hm : o.inInnermost (Subgraph.addMember m.id) = o := by
      obtain ⟨direction, subgraphs, open_⟩ := o
      subst ho
      simp only [inInnermost, Subgraph.addMember, List.contains_iff_mem.2 (h m (by simp)), if_true]
    rw [mentionAll, List.foldl_cons, hm]
    exact ih fun n hn => h n (by simp [hn])

/-- new members come after the others -/
theorem mentionAll_of_nodup {s : Subgraph} {rest : List Subgraph} (ho : o.open_ = s :: rest) {ms : List Mention}
    (h : (s.nodeIds ++ ms.map Mention.id).Nodup) :
    o.mentionAll ms = { o with open_ := { s with nodeIds := s.nodeIds ++ ms.map Mention.id } :: rest } := by
  induction ms generalizing o s with
  | nil =>
    obtain ⟨direction, subgraphs, open_⟩ := o
    obtain ⟨id, title, nodeIds, children, dir⟩ := s
    subst ho
    simp [mentionAll]
  | cons m ms ih =>
    have hm : m.id ∉ s.nodeIds := fun hm => (List.nodup_append.1 h).2.2 m.id hm m.id (by simp) rfl
    have hstep : o.inInnermost (Subgraph.addMember m.id)
        = { o with open_ := { s with nodeIds := s.nodeIds ++ [m.id] } :: rest } := by
      simp only [inInnermost, ho, Subgraph.addMember, List.contains_iff_mem, hm, if_false]
    rw [mentionAll, List.foldl_cons, hstep]
    have := ih (o := { o with open_ := { s with nodeIds := s.nodeIds ++ [m.id] } :: rest }) rfl (by simpa using h)
    simpa [mentionAll] using this

end Outline

namespace Page

variable {p : Page}

/-- the statements that are read from the lines of a script -/
def settledScript (xs : List (Nat × Statement)) : List Statement := xs.map fun x => x.2.settled

theorem settledScript_append (xs ys : List (Nat × Statement)) :
    settledScript (xs ++ ys) = settledScript xs ++ settledScript ys := List.map_append

theorem settledScript_cons (depth : Nat) (s : Statement) (xs : List (Nat × Statement)) :
    settledScript ((depth, s) :: xs) = s.settled :: settledScript xs := rfl

theorem settledScript_chainsAt (depth : Nat) (cs : List Chain) :
    settledScript (chainsAt depth cs) = (cs.map settledChain).map .chain := by
  rw [settledScript, chainsAt, List.map_map, List.map_map]
  rfl

theorem memberMention_id (hp : p.chart.IsClosed) (met : List Text) (id : Text) : (p.memberMention met id).id = id := by
  unfold memberMention
  cases hn : p.chart.nodes.get? id with
  | none => rfl
  | some n =>
    dsimp only
    split
    · rfl
    · exact hp.byId hn

theorem map_id_memberMentions (hp : p.chart.IsClosed) (met ids : List Text) :
    (p.memberMentions met ids).map Mention.id = ids := by
  induction ids generalizing met with
  | nil => rfl
  | cons id ids ih => rw [memberMentions, List.map_cons, memberMention_id hp, ih]

/-- single nodes, line by line -/
theorem flatMap_mentions_single (ms : List Mention) :
    ((ms.map fun m => (⟨[m], []⟩ : Chain)).map settledChain).flatMap Chain.mentions = ms.map settledMention := by
  induction ms with
  | nil => rfl
  | cons m ms ih =>
    rw [List.map_cons, List.map_cons, List.flatMap_cons, ih]
    rfl

/-- the ends of the links that a subgraph takes are its members -/
theorem mem_nodeIds_of_inside {s : Subgraph} {pending : List Nat} {c : Chain} {m : Mention}
    (hc : c ∈ linkChains p.options.compactLinks ((pending.filter (p.inside s)).filterMap p.link?)) (hm : m ∈ c.mentions) :
    m.id ∈ s.nodeIds := by
  obtain ⟨l, hl, h⟩ := mem_mentions_linkChains hc hm
  obtain ⟨i, hi, hli⟩ := List.mem_filterMap.1 hl
  have hin := (List.mem_filter.1 hi).2
  rw [inside, hli] at hin
  simp only [Subgraph.lists, Bool.and_eq_true, List.contains_iff_mem] at hin
  rcases h with rfl | rfl
  · exact hin.1
  · exact hin.2

mutual

/-- **a subgraph is put back by its statements** -/
theorem run_blockScript (hp : p.chart.IsClosed) (depth : Nat) (met : List Text) (pending : List Nat) (o : Outline) :
    (s : Subgraph) → (∀ t ∈ s.walk, t.nodeIds.Nodup) →
      o.run (settledScript (p.blockScript depth met pending s)) = some (o.place (settledSubgraph s))
  | ⟨id, title, nodeIds, children, direction⟩, h => by
    have hwalk : Subgraph.walk ⟨id, title, nodeIds, children, direction⟩
        = ⟨id, title, nodeIds, children, direction⟩ :: walkAll children := by rw [Subgraph.walk]
    rw [hwalk] at h
    have hids := map_id_memberMentions hp met nodeIds
    have hopen : o.step (Statement.settled (.openSubgraph id title))
        = some { o with open_ := ⟨id, if title = id then id else settledLabel title, [], [], none⟩ :: o.open_ } := rfl
    have hdir : ∀ o' : Outline, o'.open_ = ⟨id, if title = id then id else settledLabel title, [], [], none⟩ :: o.open_ →
        o'.run (settledScript (direction.map fun d => (depth + 1, Statement.direction d)).toList)
          = some { o' with open_ := ⟨id, if title = id then id else settledLabel title, [], [], direction⟩ :: o.open_ } := by
      rintro ⟨dir, subgraphs, open_⟩ rfl
      cases direction <;> rfl
    rw [blockScript, settledScript_cons, Outline.run_cons, hopen, Option.bind_some]
    simp only [settledScript_append, Outline.run_append, settledScript_chainsAt, Outline.run_chains, linksAt,
      flatMap_mentions_single, List.append_assoc]
    rw [hdir _ rfl, Option.bind_some, Option.bind_some, Outline.mentionAll_of_nodup rfl]
    · rw [run_forestScript hp _ _ _ _ children fun t ht => h t (by simp [ht]), Option.bind_some, Option.bind_some,
        Outline.placeAll, Outline.mentionAll_of_mem rfl]
      · simp [settledScript, Outline.run, Statement.settled, Outline.step, Outline.close?, settledSubgraph, Function.comp_def,
          hids]
      · intro m hm
        obtain ⟨c, hc, hm⟩ := List.mem_flatMap.1 hm
        obtain ⟨c, hc', rfl⟩ := List.mem_map.1 hc
        rw [mentions_settledChain] at hm
        obtain ⟨m, hm', rfl⟩ := List.mem_map.1 hm
        simpa [Function.comp_def, hids] using mem_nodeIds_of_inside hc' hm'
    · simpa [Function.comp_def, hids] using h _ List.mem_cons_self

/-- **a forest is put back by its statements** -/
theorem run_forestScript (hp : p.chart.IsClosed) (depth : Nat) (met : List Text) (pending : List Nat) (o : Outline) :
    (ss : List Subgraph) → (∀ t ∈ walkAll ss, t.nodeIds.Nodup) →
      o.run (settledScript (p.forestScript depth met pending ss)) = some (o.placeAll (settledForest ss))
  | [], _ => by
    rw [forestScript, settledForest, Outline.placeAll_nil]
    rfl
  | s :: rest, h => by
    rw [walkAll] at h
    rw [forestScript, settledForest, Outline.placeAll_cons, settledScript_append, Outline.run_append,
      run_blockScript hp depth met pending o s fun t ht => h t (by simp [ht]), Option.bind_some,
      run_forestScript hp depth _ _ _ rest fun t ht => h t (by simp [ht])]

end

/-- the statements around the body leave the outline alone -/
theorem step_tailScript (o : Outline) (styles : List (Text × Style)) :
    ∀ s ∈ (p.tailScript styles).map Statement.settled, o.step s = some o := by
  intro s hs
  simp only [tailScript, List.map_append, List.map_map, List.mem_append, List.mem_map] at hs
  rcases hs with (((⟨x, _, rfl⟩ | ⟨x, _, rfl⟩) | ⟨x, _, rfl⟩) | ⟨x, _, rfl⟩) | ⟨x, _, rfl⟩ <;> rfl

/-- **the outline of a page comes back**, with titles as they settle -/
theorem run_script (hp : p.chart.IsClosed) (dir : Direction) (styles : List (Text × Style)) :
    Outline.run ⟨dir, [], []⟩ (settledScript (p.script styles)) = some ⟨dir, settledForest p.chart.subgraphs, []⟩ := by
  have htexts : ∀ o : Outline, o.run (settledScript (p.texts.map fun l => (1, Statement.accessibility l))) = some o := by
    intro o
    refine o.run_of_step fun s hs => ?_
    simp only [settledScript, List.map_map, List.mem_map] at hs
    obtain ⟨l, _, rfl⟩ := hs
    rfl
  have htail : ∀ o : Outline, o.run (settledScript ((p.tailScript styles).map (1, ·))) = some o := by
    intro o
    have e : settledScript ((p.tailScript styles).map (1, ·)) = (p.tailScript styles).map Statement.settled := by
      simp [settledScript, Function.comp_def]
    rw [e]
    exact o.run_of_step (step_tailScript o styles)
  rw [script, bodyScript]
  simp only [settledScript_append, Outline.run_append, htexts, Option.bind_some, settledScript_chainsAt, linksAt,
    Outline.run_chains, run_forestScript hp _ _ _ _ _ hp.distinct, htail]
  have hopen : (Outline.placeAll (settledForest p.chart.subgraphs) ⟨dir, [], []⟩).open_ = [] := rfl
  rw [Outline.mentionAll_of_open_nil hopen, Outline.mentionAll_of_open_nil hopen]
  rfl

end Page

end DiagramText.Flowchart

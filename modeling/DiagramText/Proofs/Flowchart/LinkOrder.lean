/-
Links in the order of writing. A page takes its links in an order that leaves them in place when it is taken again
(`takenAll_order`), so that a chart whose links come in that order keeps their numbers (`order_of_ordered`).
-/
import DiagramText.Proofs.Flowchart.LinkStyles

namespace DiagramText.Flowchart

open DiagramText.Text

namespace Page

variable (p : Page)

/-! ## Links in the order of a page -/

/-- what a list holds of a class, when its parts are all in the class or all out of it -/
theorem filter_append_of_all {P : Nat → Bool} {l m : List Nat} (hl : ∀ i ∈ l, P i = true) (hm : ∀ i ∈ m, P i = false) :
    (l ++ m).filter P = l := by
  rw [List.filter_append, List.filter_eq_self.2 hl, List.filter_eq_nil_iff.2 fun i hi => by simp [hm i hi], List.append_nil]

theorem filter_append_of_none {P : Nat → Bool} {l m : List Nat} (hl : ∀ i ∈ l, P i = false) (hm : ∀ i ∈ m, P i = true) :
    (l ++ m).filter P = m := by
  rw [List.filter_append, List.filter_eq_nil_iff.2 fun i hi => by simp [hl i hi], List.filter_eq_self.2 hm, List.nil_append]

theorem taken_eq (pending : List Nat) (s : Subgraph) : p.taken pending s
    = p.takenAll (pending.filter fun i => !p.inside s i) s.children ++ pending.filter (p.inside s) := by
  obtain ⟨id, title, nodeIds, children, direction⟩ := s
  rw [taken]

theorem takes_walk (s : Subgraph) (i : Nat) : p.takes s.walk i = (p.inside s i || p.takes (walkAll s.children) i) := by
  obtain ⟨id, title, nodeIds, children, direction⟩ := s
  rw [Subgraph.walk]
  rfl

theorem takes_walkAll_cons (s : Subgraph) (ss : List Subgraph) (i : Nat) :
    p.takes (walkAll (s :: ss)) i = (p.takes s.walk i || p.takes (walkAll ss) i) := by
  rw [walkAll, takes, List.any_append]
  rfl

section

variable {pending others : List Nat} {s : Subgraph} {ss : List Subgraph}

/-- what a subgraph took falls into what those below it took and its own, whatever no subgraph takes comes after it -/
theorem filter_taken (h : ∀ i ∈ others, p.takes s.walk i = false) :
    (p.taken pending s ++ others).filter (fun i => !p.inside s i)
        = p.takenAll (pending.filter fun i => !p.inside s i) s.children ++ others ∧
      (p.taken pending s ++ others).filter (p.inside s) = pending.filter (p.inside s) ∧
      ∀ i ∈ others, p.takes (walkAll s.children) i = false := by
  have hothers : ∀ i ∈ others, p.inside s i = false ∧ p.takes (walkAll s.children) i = false := fun i hi => by
    simpa [takes_walk] using h i hi
  have hbelow : ∀ i ∈ p.takenAll (pending.filter fun i => !p.inside s i) s.children, p.inside s i = false := fun i hi => by
    simpa using (List.mem_filter.1 ((p.mem_takenAll_iff s.children).1 hi).1).2
  have hown : ∀ i ∈ pending.filter (p.inside s), p.inside s i = true := fun i hi => (List.mem_filter.1 hi).2
  have hkeep : others.filter (fun i => !p.inside s i) = others := List.filter_eq_self.2 fun i hi => by simp [(hothers i hi).1]
  have hdrop : others.filter (p.inside s) = [] := List.filter_eq_nil_iff.2 fun i hi => by simp [(hothers i hi).1]
  rw [taken_eq]
  refine ⟨?_, ?_, fun i hi => (hothers i hi).2⟩
  · rw [List.filter_append, hkeep, filter_append_of_all (fun i hi => by simp [hbelow i hi]) fun i hi => by simp [hown i hi]]
  · rw [List.filter_append, hdrop, List.append_nil, filter_append_of_none hbelow hown]

/-- what subgraphs took falls into what the first took and the rest -/
theorem filter_takenAll_cons (h : ∀ i ∈ others, p.takes (walkAll (s :: ss)) i = false) :
    ∃ rest, rest = p.takenAll (pending.filter fun i => !p.takes s.walk i) ss ++ others ∧
      p.takenAll pending (s :: ss) ++ others = p.taken pending s ++ rest ∧
      (p.taken pending s ++ rest).filter (fun i => !p.takes s.walk i) = rest ∧
      (∀ i ∈ rest, p.takes s.walk i = false) ∧ ∀ i ∈ others, p.takes (walkAll ss) i = false := by
  have hothers : ∀ i ∈ others, p.takes s.walk i = false ∧ p.takes (walkAll ss) i = false := fun i hi => by
    simpa [takes_walkAll_cons] using h i hi
  have hfirst : ∀ i ∈ p.taken pending s, p.takes s.walk i = true := fun i hi => ((p.mem_taken_iff s).1 hi).2
  have hrest : ∀ i ∈ p.takenAll (pending.filter fun i => !p.takes s.walk i) ss ++ others, p.takes s.walk i = false :=
    List.forall_mem_append.2 ⟨fun i hi => by simpa using (List.mem_filter.1 ((p.mem_takenAll_iff ss).1 hi).1).2,
      fun i hi => (hothers i hi).1⟩
  refine ⟨_, rfl, ?_, ?_, hrest, fun i hi => (hothers i hi).2⟩
  · rw [takenAll, List.append_assoc]
  · exact filter_append_of_none (fun i hi => by simp [hfirst i hi]) fun i hi => by simp [hrest i hi]

end

mutual

/-- a subgraph takes its own links out of what it took before, in the same order -/
theorem taken_taken (pending others : List Nat) : (s : Subgraph) → (∀ i ∈ others, p.takes s.walk i = false) →
    p.taken (p.taken pending s ++ others) s = p.taken pending s
  | ⟨id, title, nodeIds, children, direction⟩ => by
    intro h
    obtain ⟨hout, hin, hothers⟩ := p.filter_taken  h
    rw [taken_eq, hout, hin, takenAll_takenAll _ others children hothers, ← taken_eq]

theorem takenAll_takenAll (pending others : List Nat) : (ss : List Subgraph) → (∀ i ∈ others, p.takes (walkAll ss) i = false) →
    p.takenAll (p.takenAll pending ss ++ others) ss = p.takenAll pending ss
  | [] => by
    intro _
    rw [takenAll, takenAll]
  | s :: ss => by
    intro h
    obtain ⟨rest, hrest, hall, hfilter, hout, hothers⟩ := p.filter_takenAll_cons  h
    rw [hall, takenAll, takenAll, hfilter, taken_taken pending rest s hout, hrest, takenAll_takenAll _ others ss hothers]

end

mutual

/-- a subgraph is written as before when it takes its links out of what it took -/
theorem blockScript_taken (depth : Nat) (met : List Text) (pending others : List Nat) : (s : Subgraph) →
    (∀ i ∈ others, p.takes s.walk i = false) →
      p.blockScript depth met (p.taken pending s ++ others) s = p.blockScript depth met pending s
  | ⟨id, title, nodeIds, children, direction⟩ => by
    intro h
    obtain ⟨hout, hin, hothers⟩ := p.filter_taken  h
    rw [blockScript, blockScript, hout, hin, forestScript_takenAll _ _ _ others children hothers]

theorem forestScript_takenAll (depth : Nat) (met : List Text) (pending others : List Nat) : (ss : List Subgraph) →
    (∀ i ∈ others, p.takes (walkAll ss) i = false) →
      p.forestScript depth met (p.takenAll pending ss ++ others) ss = p.forestScript depth met pending ss
  | [] => by
    intro _
    rw [forestScript, forestScript]
  | s :: ss => by
    intro h
    obtain ⟨rest, hrest, hall, hfilter, hout, hothers⟩ := p.filter_takenAll_cons  h
    rw [hall, forestScript, forestScript, hfilter, blockScript_taken depth met pending rest s hout, hrest,
      forestScript_takenAll depth _ _ others ss hothers]

end

theorem not_takes_of_mem_loose {i : Nat} (h : i ∈ p.loose) : p.takes (walkAll p.chart.subgraphs) i = false := by
  simpa using (List.mem_filter.1 h).2

/-- the links that no subgraph takes come last -/
theorem filter_order : (p.order.filter fun i => !p.takes (walkAll p.chart.subgraphs) i) = p.loose := by
  have htaken : ∀ i ∈ p.takenAll (List.range p.chart.links.length) p.chart.subgraphs,
      p.takes (walkAll p.chart.subgraphs) i = true := fun i hi => ((p.mem_takenAll_iff _).1 hi).2
  rw [order, filter_append_of_none (fun i hi => by simp [htaken i hi]) fun i hi => by simp [p.not_takes_of_mem_loose hi]]

/-- taking the links of a page from it again leaves them in their order -/
theorem takenAll_order : p.takenAll p.order p.chart.subgraphs ++ p.order.filter (fun i => !p.takes (walkAll p.chart.subgraphs) i)
    = p.order := by
  rw [filter_order, order, p.takenAll_takenAll _ _ _ fun _ => p.not_takes_of_mem_loose]

/-- subgraphs are written as before when they take the links of a page from it again -/
theorem forestScript_order (depth : Nat) (met : List Text) :
    p.forestScript depth met p.order p.chart.subgraphs
      = p.forestScript depth met (List.range p.chart.links.length) p.chart.subgraphs := by
  rw [order, p.forestScript_takenAll _ _ _ _ _ fun _ => p.not_takes_of_mem_loose]

theorem length_order : p.order.length = p.chart.links.length := by
  rw [p.order_perm.length_eq, List.length_range]

theorem nodup_order : p.order.Nodup := p.order_perm.nodup_iff.2 List.nodup_range

theorem lt_of_mem_order {i : Nat} (h : i ∈ p.order) : i < p.chart.links.length := List.mem_range.1 (p.order_perm.mem_iff.1 h)

/-- the link that is written at a place -/
theorem getElem?_written (j : Nat) : (p.order.filterMap p.link?)[j]? = p.order[j]?.bind p.link? := by
  have hsome : ∀ i ∈ p.order, (p.link? i).isSome = true := fun i hi => by
    rw [link?, List.getElem?_eq_getElem (p.lt_of_mem_order hi)]
    rfl
  generalize p.order = ns at hsome
  induction ns generalizing j with
  | nil => rfl
  | cons i ns ih =>
    rw [List.forall_mem_cons] at hsome
    obtain ⟨l, hl⟩ := Option.isSome_iff_exists.1 hsome.1
    rw [List.filterMap_cons_some hl]
    cases j with
    | zero => exact hl.symm
    | succ j => exact ih j hsome.2

/-- the number of the link that is written at a place -/
def number (j : Nat) : Nat := p.order[j]?.getD p.chart.links.length

theorem link?_number (j : Nat) : p.link? (p.number j) = (p.order.filterMap p.link?)[j]? := by
  rw [getElem?_written, number]
  cases p.order[j]? with
  | none => exact List.getElem?_eq_none (Nat.le_refl _)
  | some i => rfl

theorem map_number_range : (List.range p.chart.links.length).map p.number = p.order := by
  refine List.ext_getElem (by simp [p.length_order]) fun j _ hj => ?_
  simp [number, hj]

theorem idxOf_number {j : Nat} (h : j < p.chart.links.length) : p.order.idxOf (p.number j) = j := by
  have hj : j < p.order.length := p.length_order ▸ h
  simp [number, hj, p.nodup_order.idxOf_getElem]

/-- links that are written in the order of a page keep their places -/
theorem order_of_moved {q : Page} (hlength : q.chart.links.length = p.chart.links.length)
    (hmoved : q.order.map p.number = p.order) : q.order = List.range p.chart.links.length := by
  have hback : ∀ js : List Nat, (∀ j ∈ js, j < p.chart.links.length) → (js.map p.number).map p.order.idxOf = js := by
    intro js hjs
    rw [List.map_map]
    exact (List.map_congr_left fun j hj => p.idxOf_number (hjs j hj)).trans (List.map_id js)
  calc q.order = (q.order.map p.number).map p.order.idxOf :=
        (hback q.order fun j hj => hlength ▸ q.lt_of_mem_order hj).symm
    _ = ((List.range p.chart.links.length).map p.number).map p.order.idxOf := by rw [hmoved, map_number_range]
    _ = List.range p.chart.links.length := hback _ fun j hj => List.mem_range.1 hj

/-- **a page does not move links that are in its order**: whatever else is on the page, and whatever its options -/
theorem order_of_ordered {q : Page} (hs : q.chart.subgraphs = p.chart.subgraphs) (hl : q.chart.links = p.order.filterMap p.link?) :
    q.order = List.range p.chart.links.length := by
  have hlength : q.chart.links.length = p.chart.links.length := by
    rw [hl]
    exact p.links_perm.length_eq
  have hagree : ∀ j ∈ List.range p.chart.links.length, ∀ s, q.inside s j = p.inside s (p.number j) := by
    intro j _ s
    rw [inside, inside, link?_number, link?, hl]
  refine p.order_of_moved hlength ?_
  have hwritten := p.takenAll_order
  rw [← map_number_range, ← takenAll_map hagree,
    filter_map_of_agree fun j hj => congrArg (!·) (takes_of_agree (hagree j hj) _), ← List.map_append, map_number_range]
    at hwritten
  rw [order, loose, hlength, hs]
  exact hwritten

/-- **link styles follow their links** on every page that is printed. The links are written each once, in an order that the
page records: each in the first subgraph that lists both of its ends, counted as the subgraphs open, or, if there is none, below
the declarations of nodes. The key of a number is the place at which its link is written. Links that are in the order of a
page keep it. -/
theorem links_of_render {p : Page} {text : Text} (h : render p.chart p.options = .ok text) :
    p.body.order.Perm (List.range p.chart.links.length) ∧
    (∃ styles, p.printedStyles = .ok styles ∧ text = p.text styles ∧
      placed 0 [] ((p.script styles).map Prod.snd) = p.body.order.filterMap (fun i => (p.link? i).map (p.home? i, ·)) ∧
      ((p.script styles).map Prod.snd).filterMap Statement.opening?
        = (walkAll p.chart.subgraphs).map fun s => (s.id, s.title)) ∧
    p.bodyScript = p.forestScript 1 [] (List.range p.chart.links.length) p.chart.subgraphs
      ++ chainsAt 1 (((p.declared p.grouped.reverse p.nodes).map p.nodeMention).map fun m => ⟨[m], []⟩)
      ++ p.linksAt 1 ((List.range p.chart.links.length).filter fun i => p.home? i = none) ∧
    (∀ key : Text, key ∈ p.chart.linkStyles.keys ∨ key.length ≤ 4300 → key ≠ [] → key.all isDigit = true →
      Integer.ofDigits key < p.chart.links.length →
      ∃ i, p.linkStyleKey p.body.order key = .ok (ofNat i) ∧ p.body.order[i]? = some (Integer.ofDigits key)) ∧
    ∀ q : Page, q.chart.subgraphs = p.chart.subgraphs → q.chart.links = p.body.order.filterMap p.link? →
      q.body.order = List.range p.chart.links.length := by
  have hbody (q : Page) : q.body.order = q.order := by rw [body_eq]
  have hprintable := (exists_render_iff p.chart p.options).1 ⟨text, h⟩
  obtain ⟨styles, hstyles, htext⟩ := render_eq_ok_iff.1 h
  simp only [hbody]
  refine ⟨p.order_perm, ⟨styles, hstyles, htext, p.placed_script styles, p.openings_script styles⟩, ?_, ?_, ?_⟩
  · rw [bodyScript, loose_eq]
  · intro key hkey hne hall hlt
    have hlooks : Integer.looksLike key = true := Integer.looksLike_of_all_isDigit hne hall
    have hlength : key.length ≤ 4300 := hkey.elim (fun hmem => (hprintable key hmem hlooks).2) id
    have hread : Integer.read key = .ok (Integer.ofDigits key) := by
      rw [Integer.read_of_all hne hall, if_neg (not_lt.2 hlength)]
    exact p.linkStyleKey_of_read hlooks hread hlt
  · intro q hs hl
    exact p.order_of_ordered hs hl

end Page

/-- a chart whose links change places: the first is written below all subgraphs, and the second after the third, which
stands in a subgraph further inside -/
def tangled : Flowchart where
  nodes := .ofList [("a", ⟨"a", "a", .default⟩), ("b", ⟨"b", "b", .default⟩), ("c", ⟨"c", "c", .default⟩)]
  links := [⟨"c", "a", ⟨.normal, .point, 1, false, none⟩⟩, ⟨"a", "b", ⟨.normal, .point, 1, false, none⟩⟩,
    ⟨"b", "c", ⟨.normal, .point, 1, false, none⟩⟩, ⟨"c", "c", ⟨.normal, .point, 1, false, none⟩⟩]
  subgraphs := [⟨"outer", "outer", ["a", "b"], [⟨"inner", "inner", ["b", "c"], [], none⟩], none⟩,
    ⟨"later", "later", ["b", "c"], [], none⟩]
  linkStyles := .ofList [("default", .empty), ("0", .empty), ("03", .empty)]

theorem links_of_render_tangled : ∃ p : Page, p.chart = tangled ∧ p.options.compactLinks = true ∧
    (∃ text, render p.chart p.options = .ok text) ∧ p.body.order = [2, 3, 1, 0] ∧ p.body.order.Perm (List.range 4) ∧
    (∃ i, p.linkStyleKey p.body.order "03" = .ok (ofNat i) ∧ p.body.order[i]? = some 3) ∧
    (Page.body ⟨{ tangled with links := p.body.order.filterMap p.link? }, .default⟩).order = List.range 4 := by
  have hkeys : ∀ key ∈ tangled.linkStyles.keys, IsPrintableKey key := by decide
  let p : Page := ⟨tangled, ⟨.spaces 2, false, true, false, by decide⟩⟩
  obtain ⟨text, h⟩ := (exists_render_iff p.chart p.options).2 hkeys
  have hlinks := Page.links_of_render h
  refine ⟨p, rfl, rfl, ⟨text, h⟩, ?_, hlinks.1, ?_, ?_⟩
  · rw [Page.body_eq]
    decide +kernel
  · exact hlinks.2.2.2.1 "03" (.inl (by decide)) (by decide) (by decide) (by decide)
  · exact hlinks.2.2.2.2 ⟨{ tangled with links := p.body.order.filterMap p.link? }, .default⟩ rfl rfl

end DiagramText.Flowchart

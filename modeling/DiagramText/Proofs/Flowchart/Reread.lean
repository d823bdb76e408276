/-
The chart that a page shows, field by field. Classes, clicks and styles come back as they are (`classDefs_reread`,
`get?_classAssignments_reread`, `nodeStyles_reread`, `clicks_reread`), whether a class is written in a statement of its
own or with the declaration of its node.
-/
import DiagramText.Proofs.Flowchart.Places
import DiagramText.Proofs.Flowchart.WellFormed

namespace DiagramText

attribute [ext] Flowchart

namespace Flowchart

open DiagramText.Text

/-- styles written one after another under fresh keys -/
theorem foldl_addStyle {e : Entries Style} {pairs : List (Text × Style)} (h : (e.keys ++ pairs.map Prod.fst).Nodup) :
    (pairs.foldl addStyle e).toList = e.toList ++ pairs := by
  induction pairs generalizing e with
  | nil => simp
  | cons x pairs ih =>
    obtain ⟨k, s⟩ := x
    have hk : k ∉ e.keys := fun hm => (List.nodup_append.1 h).2.2 k hm k (by simp) rfl
    have hstep : (addStyle e (k, s)).toList = e.toList ++ [(k, s)] := by
      have hs : Entries.update .empty s.toList = s := Entries.update_toList s
      rw [addStyle, Entries.alter, Entries.toList_insert_of_notMem _ hk, Entries.get?_eq_none_iff.2 hk, Option.getD_none, hs]
    have hkeys : (addStyle e (k, s)).keys = e.keys ++ [k] := by
      rw [Entries.keys, hstep, List.map_append]
      rfl
    rw [List.foldl_cons, ih (by rw [hkeys]; simpa using h), hstep, List.append_assoc]
    rfl

namespace Page

variable {p : Page} {styles : List (Text × Style)}

/-- a field of the chart that only statements below the body hold -/
theorem flatMap_settledScript_tail {β : Type} {f : Statement → List β} (htext : ∀ l, f (.accessibility l) = [])
    (hbody : ∀ x ∈ p.bodyScript, f x.2.settled = []) :
    (settledScript (p.script styles)).flatMap f = (p.tailScript styles).flatMap fun s => f s.settled := by
  have h1 : (settledScript (p.texts.map fun l => (1, Statement.accessibility l))).flatMap f = [] := by
    rw [List.flatMap_eq_nil_iff]
    intro s hs
    simp only [settledScript, List.map_map, List.mem_map] at hs
    obtain ⟨l, _, rfl⟩ := hs
    exact htext l
  have h2 : (settledScript p.bodyScript).flatMap f = [] := by
    rw [List.flatMap_eq_nil_iff]
    intro s hs
    obtain ⟨x, hx, rfl⟩ := List.mem_map.1 hs
    exact hbody x hx
  rw [script, settledScript_append, settledScript_append, List.flatMap_append, List.flatMap_append, h1, h2]
  simp only [settledScript, List.map_map, Function.comp_def, List.nil_append, List.flatMap_map]

/-! ## Nodes, links and subgraphs -/

theorem direction_reread : (p.reread styles).direction = p.chart.direction := by
  rw [reread, chartOf_eq]

theorem subgraphs_reread : (p.reread styles).subgraphs = settledForest p.chart.subgraphs := by
  rw [reread, chartOf_eq]

theorem links_reread : (p.reread styles).links = (p.order.filterMap p.link?).map settledLink := by
  rw [reread, chartOf_eq]
  exact p.links_script styles

theorem filterMap_getElem?_range {α : Type} (l : List α) : (List.range l.length).filterMap (l[·]?) = l := by
  induction l with
  | nil => rfl
  | cons a l ih =>
    rw [List.length_cons, List.range_succ_eq_map, List.filterMap_cons, List.filterMap_map]
    exact congrArg (a :: ·) ih

/-- the links in the order of writing are the links of the chart -/
theorem links_perm (p : Page) : (p.order.filterMap p.link?).Perm p.chart.links := by
  have h := p.order_perm.filterMap p.link?
  rwa [show (List.range p.chart.links.length).filterMap p.link? = p.chart.links from
    filterMap_getElem?_range p.chart.links] at h

theorem get?_nodes_reread (hp : p.chart.IsClosed) (id : Text) :
    (p.reread styles).nodes.get? id = (p.chart.nodes.get? id).map settledNode := by
  rw [reread, chartOf_eq]
  exact get?_nodes_script hp id

/-! ## Classes, styles and clicks -/

/-- what the statements below the body hold for a field, when only one kind of them holds anything -/
theorem flatMap_tailScript {β : Type} (f : Statement → List β) :
    (p.tailScript styles).flatMap f
      = p.chart.classDefs.toList.flatMap (fun x => f (.classDef [x.1] x.2))
        ++ p.assignments.flatMap (fun x => f (.assignClass [x.1] x.2))
        ++ p.chart.nodeStyles.toList.flatMap (fun x => f (.style [x.1] x.2))
        ++ p.chart.clicks.flatMap (fun c => f (.click c))
        ++ styles.flatMap fun x => f (.linkStyle [x.1] x.2) := by
  simp only [tailScript, List.flatMap_append, List.flatMap_map]

theorem flatMap_nil {α β : Type} (xs : List α) : (xs.flatMap fun _ => ([] : List β)) = [] := by
  rw [List.flatMap_eq_nil_iff]
  exact fun _ _ => rfl

theorem flatMap_pure {α β : Type} (xs : List α) (f : α → β) : (xs.flatMap fun x => [f x]) = xs.map f := by
  exact List.map_eq_flatMap.symm

/-- the kinds of statements in the body -/
theorem Builds.settled {s : Statement} (h : p.Builds s) :
    (∃ id title, s.settled = .openSubgraph id title) ∨ (∃ d, s.settled = .direction d) ∨ s.settled = .closeSubgraph ∨
      ∃ c, s.settled = .chain (settledChain c) := by
  cases h with
  | opens h => exact Or.inl ⟨_, _, rfl⟩
  | direction d => exact Or.inr (Or.inl ⟨d, rfl⟩)
  | closes => exact Or.inr (Or.inr (Or.inl rfl))
  | node h | member h | links h hc => exact Or.inr (Or.inr (Or.inr ⟨_, rfl⟩))

/-- a field that no statement in the body holds -/
theorem flatMap_script {β : Type} {f : Statement → List β} (hp : p.chart.IsClosed) (htext : ∀ l, f (.accessibility l) = [])
    (hopen : ∀ id title, f (.openSubgraph id title) = []) (hdirection : ∀ d, f (.direction d) = [])
    (hclose : f .closeSubgraph = []) (hchain : ∀ c, f (.chain c) = []) :
    (settledScript (p.script styles)).flatMap f = (p.tailScript styles).flatMap fun s => f s.settled := by
  refine flatMap_settledScript_tail htext fun x hx => ?_
  rcases (builds_of_mem_bodyScript hp x hx).settled with ⟨id, title, e⟩ | ⟨d, e⟩ | e | ⟨c, e⟩
  · rw [e, hopen]
  · rw [e, hdirection]
  · rw [e, hclose]
  · rw [e, hchain]

variable (hp : p.chart.IsClosed)
include hp

theorem classDefs_reread : (p.reread styles).classDefs = p.chart.classDefs := by
  rw [reread, chartOf_eq]
  dsimp only
  rw [flatMap_script hp (fun _ => rfl) (fun _ _ => rfl) (fun _ => rfl) rfl (fun _ => rfl), flatMap_tailScript]
  simp only [Statement.settled, Statement.classDefs, flatMap_nil, flatMap_pure, List.map_cons, List.map_nil,
    List.append_nil, List.map_id']
  exact Entries.update_toList _

theorem nodeStyles_reread : (p.reread styles).nodeStyles = p.chart.nodeStyles := by
  rw [reread, chartOf_eq]
  dsimp only
  rw [flatMap_script hp (fun _ => rfl) (fun _ _ => rfl) (fun _ => rfl) rfl (fun _ => rfl), flatMap_tailScript]
  simp only [Statement.settled, Statement.nodeStyles, flatMap_nil, flatMap_pure, List.map_cons, List.map_nil,
    List.append_nil, List.nil_append, List.map_id']
  apply Entries.ext_toList
  rw [foldl_addStyle (by simpa using p.chart.nodeStyles.nodup)]
  rfl

theorem linkStyles_reread : (p.reread styles).linkStyles = styles.foldl addStyle .empty := by
  rw [reread, chartOf_eq]
  dsimp only
  rw [flatMap_script hp (fun _ => rfl) (fun _ _ => rfl) (fun _ => rfl) rfl (fun _ => rfl), flatMap_tailScript]
  simp only [Statement.settled, Statement.linkStyles, flatMap_nil, flatMap_pure, List.map_cons, List.map_nil,
    List.append_nil, List.nil_append, List.map_id']

theorem clicks_reread : (p.reread styles).clicks = p.chart.clicks.map settledClick := by
  rw [reread, chartOf_eq]
  dsimp only
  rw [flatMap_script hp (fun _ => rfl) (fun _ _ => rfl) (fun _ => rfl) rfl (fun _ => rfl), flatMap_tailScript]
  simp only [Statement.settled, Statement.clicks, flatMap_nil, flatMap_pure, List.append_nil, List.nil_append]

omit hp in
theorem flatMap_texts_script (hp : p.chart.IsClosed) :
    (settledScript (p.script styles)).flatMap Statement.texts = p.texts := by
  have h1 : (settledScript (p.texts.map fun l => (1, Statement.accessibility l))).flatMap Statement.texts = p.texts := by
    rw [settledScript, List.map_map, List.flatMap_map]
    exact List.flatMap_singleton' _
  have h2 : (settledScript p.bodyScript).flatMap Statement.texts = [] := by
    rw [List.flatMap_eq_nil_iff]
    intro s hs
    obtain ⟨x, hx, rfl⟩ := List.mem_map.1 hs
    rcases (builds_of_mem_bodyScript hp x hx).settled with ⟨id, title, e⟩ | ⟨d, e⟩ | e | ⟨c, e⟩ <;> rw [e] <;> rfl
  have h3 : (settledScript ((p.tailScript styles).map (1, ·))).flatMap Statement.texts = [] := by
    rw [settledScript, List.map_map, List.flatMap_map]
    refine (flatMap_tailScript fun s => s.settled.texts).trans ?_
    simp only [Statement.settled, Statement.texts, flatMap_nil, List.append_nil]
  rw [script, settledScript_append, settledScript_append, List.flatMap_append, List.flatMap_append, h1, h2, h3,
    List.append_nil, List.append_nil]

theorem accessibility_reread :
    (p.reread styles).accessibility = ⟨present p.chart.accessibility.title, present p.chart.accessibility.description⟩ := by
  rw [reread, chartOf_eq]
  dsimp only
  rw [flatMap_texts_script hp, texts]
  cases present p.chart.accessibility.title <;> cases present p.chart.accessibility.description <;> rfl

/-! ## Class assignments -/

/-- the classes that mentions give -/
def classPairs (ms : List Mention) : List (Text × Text) := ms.filterMap fun m => m.className.map (m.id, ·)

omit hp in
theorem classPairs_settled (ms : List Mention) : classPairs (ms.map settledMention) = classPairs ms := by
  rw [classPairs, List.filterMap_map]
  rfl

/-- classes come with declarations, then in statements of their own -/
theorem flatMap_assignments_script : (settledScript (p.script styles)).flatMap Statement.assignments
    = classPairs (scriptMentions p.bodyScript) ++ p.assignments := by
  have h1 : (settledScript (p.texts.map fun l => (1, Statement.accessibility l))).flatMap Statement.assignments = [] := by
    rw [settledScript, List.map_map, List.flatMap_map]
    exact flatMap_nil _
  have h2 : (settledScript p.bodyScript).flatMap Statement.assignments = classPairs (scriptMentions p.bodyScript) := by
    have hs : ∀ x ∈ p.bodyScript, x.2.settled.assignments = classPairs x.2.mentions := by
      intro x hx
      rw [← classPairs_settled, ← mentions_settled]
      rcases (builds_of_mem_bodyScript hp x hx).settled with ⟨id, title, e⟩ | ⟨d, e⟩ | e | ⟨c, e⟩ <;> rw [e] <;> rfl
    rw [settledScript, List.flatMap_map, List.flatMap_congr hs, scriptMentions, classPairs, List.filterMap_flatMap]
    rfl
  have h3 : (settledScript ((p.tailScript styles).map (1, ·))).flatMap Statement.assignments = p.assignments := by
    rw [settledScript, List.map_map, List.flatMap_map]
    refine (flatMap_tailScript fun s => s.settled.assignments).trans ?_
    simp only [Statement.settled, Statement.assignments, flatMap_nil, flatMap_pure, List.map_cons, List.map_nil,
      List.append_nil, List.nil_append, List.map_id']
  rw [script, settledScript_append, settledScript_append, List.flatMap_append, List.flatMap_append, h1, h2, h3,
    List.nil_append]

omit hp in
theorem membersOf_assignments (id : Text) : Entries.membersOf id p.assignments
    = if (p.inlineClass id).isSome then [] else (p.chart.classAssignments.get? id).getD [] := by
  have he : p.assignments = p.chart.classAssignments.toList.flatMap fun x =>
      (if (p.inlineClass x.1).isSome then [] else x.2).map (x.1, ·) := by
    rw [assignments]
    refine List.flatMap_congr fun x _ => ?_
    split <;> rfl
  rw [he, Entries.membersOf_flatMap (f := fun x => if (p.inlineClass x.1).isSome then [] else x.2)
    p.chart.classAssignments.nodup, ← Entries.get?]
  cases p.chart.classAssignments.get? id with
  | none => simp
  | some names => simp

/-- a mention gives at most the class that is written inline -/
theorem className_of_mem_script {m : Mention} (hm : m ∈ scriptMentions p.bodyScript) {name : Text}
    (hname : m.className = some name) : p.inlineClass m.id = some name := by
  rw [← scriptMentions_script []] at hm
  rcases mem_mentions_script hp hm with ⟨-, h⟩ | ⟨n, -, rfl⟩
  · rw [h] at hname
    exact absurd hname (by simp [bare])
  · exact hname

theorem mem_membersOf_classPairs (id name : Text) :
    name ∈ Entries.membersOf id (classPairs (scriptMentions p.bodyScript)) ↔ p.inlineClass id = some name := by
  simp only [Entries.membersOf, List.mem_map, List.mem_filter, beq_iff_eq, classPairs, List.mem_filterMap,
    Option.map_eq_some_iff]
  constructor
  · rintro ⟨x, ⟨⟨m, hm, name', hname, rfl⟩, rfl⟩, rfl⟩
    exact className_of_mem_script hp hm hname
  · intro h
    obtain ⟨n, hn⟩ := Option.isSome_iff_exists.1 (inlineClass_eq_some h).2.1
    obtain rfl := hp.byId hn
    have hm := nodeMention_mem_script [] hp hn
    rw [scriptMentions_script] at hm
    exact ⟨(n.id, name), ⟨⟨_, hm, name, h, rfl⟩, rfl⟩, rfl⟩

omit hp in
/-- **class assignments come back**, written in either way -/
theorem get?_classAssignments_reread (hp : p.chart.IsWellFormed) (id : Text) :
    (p.reread styles).classAssignments.get? id = p.chart.classAssignments.get? id := by
  have hmem := fun name => mem_membersOf_classPairs hp.toIsClosed id name
  rw [reread, chartOf_eq]
  dsimp only
  rw [flatMap_assignments_script hp.toIsClosed, Entries.get?_foldl_assign, Entries.membersOf_append,
    membersOf_assignments]
  generalize Entries.membersOf id (classPairs (scriptMentions p.bodyScript)) = inline at hmem
  cases hclass : p.inlineClass id with
  | none =>
    have hnil : inline = [] := List.eq_nil_iff_forall_not_mem.2 fun name h => by simpa [hclass] using (hmem name).1 h
    rw [hnil]
    cases hget : p.chart.classAssignments.get? id with
    | none => rfl
    | some names =>
      obtain ⟨hne, hnodup⟩ := hp.classes _ (Entries.mem_toList_iff.2 hget)
      simp only [Option.isSome_none, List.nil_append, Option.getD_some, Bool.false_eq_true, if_false, if_neg hne]
      rw [Entries.get?_empty, Option.getD_none, Entries.foldl_addTo_of_nodup (by simpa using hnodup), List.nil_append]
  | some name =>
    have hget := (inlineClass_eq_some hclass).2.2.1
    have hname : name ∈ inline := (hmem name).2 hclass
    have hall : ∀ n ∈ inline, n = name := fun n hn => by simpa [hclass, eq_comm] using (hmem n).1 hn
    obtain ⟨first, rest, rfl⟩ := List.exists_cons_of_ne_nil (List.ne_nil_of_mem hname)
    obtain rfl := hall first (by simp)
    have hadd : Entries.addTo [] first = [first] := by simp [Entries.addTo]
    simp only [Option.isSome_some, if_true, List.append_nil, List.cons_ne_nil, if_false, Entries.get?_empty,
      Option.getD_none, List.foldl_cons, hadd, hget]
    rw [Entries.foldl_addTo_of_mem fun n hn => by simp [hall n (by simp [hn])]]

end Page

end Flowchart

end DiagramText

/-
Charts that are read. Every statement keeps the parts of the chart within the grammar, so whatever text is accepted, its
chart is well-formed (`isWellFormed_of_read`): nodes are kept under their ids, links and subgraphs hold nodes of the
chart, and every part can be written.
-/
import DiagramText.Proofs.Flowchart.Meaning
import DiagramText.Proofs.Flowchart.Reread
import DiagramText.Proofs.Reading

namespace DiagramText.Flowchart

open DiagramText.Text

/-! ## Subgraphs -/

/-- a subgraph that can be written, with nodes of a chart -/
structure Subgraph.Fits (keys : List Text) (s : Subgraph) : Prop where
  id : s.id ≠ []
  name : s.id.all isWordOrHyphen = true
  title : '\n' ∉ s.title
  member : ∀ id ∈ s.nodeIds, id ∈ keys
  distinct : s.nodeIds.Nodup

namespace Outline

/-- every subgraph, closed or open, fits -/
structure Fits (keys : List Text) (o : Outline) : Prop where
  closed : ∀ s ∈ walkAll o.subgraphs, s.Fits keys
  open_ : ∀ s ∈ walkAll o.open_, s.Fits keys

variable {keys : List Text} {o o' : Outline}

theorem fits_cons {s : Subgraph} {ss : List Subgraph} :
    (∀ t ∈ walkAll (s :: ss), t.Fits keys) ↔
      s.Fits keys ∧ (∀ t ∈ walkAll s.children, t.Fits keys) ∧ ∀ t ∈ walkAll ss, t.Fits keys := by
  rw [walkAll, List.forall_mem_append, forall_mem_walk, and_assoc]

theorem Fits.place (h : o.Fits keys) {s : Subgraph} (hs : ∀ t ∈ s.walk, t.Fits keys) : (o.place s).Fits keys := by
  obtain ⟨direction, subgraphs, open_⟩ := o
  cases open_ with
  | nil =>
    refine ⟨?_, h.open_⟩
    change ∀ t ∈ walkAll (subgraphs ++ [s]), t.Fits keys
    rw [walkAll_append, List.forall_mem_append]
    exact ⟨h.closed, fun t ht => hs t (mem_walkAll_singleton.1 ht)⟩
  | cons p ps =>
    obtain ⟨hp, hchildren, hps⟩ := fits_cons.1 h.open_
    refine ⟨h.closed, ?_⟩
    change ∀ t ∈ walkAll ({ p with children := p.children ++ [s] } :: ps), t.Fits keys
    refine fits_cons.2 ⟨⟨hp.id, hp.name, hp.title, hp.member, hp.distinct⟩, ?_, hps⟩
    change ∀ t ∈ walkAll (p.children ++ [s]), t.Fits keys
    rw [walkAll_append, List.forall_mem_append]
    exact ⟨hchildren, fun t ht => hs t (mem_walkAll_singleton.1 ht)⟩

theorem Fits.mention (h : o.Fits keys) {id : Text} (hid : id ∈ keys) :
    (o.inInnermost (Subgraph.addMember id)).Fits keys := by
  obtain ⟨direction, subgraphs, open_⟩ := o
  cases open_ with
  | nil => exact h
  | cons p ps =>
    obtain ⟨hp, hchildren, hps⟩ := fits_cons.1 h.open_
    refine ⟨h.closed, ?_⟩
    change ∀ t ∈ walkAll (p.addMember id :: ps), t.Fits keys
    unfold Subgraph.addMember
    split
    · exact h.open_
    · rename_i hnew
      refine fits_cons.2 ⟨⟨hp.id, hp.name, hp.title, ?_, ?_⟩, hchildren, hps⟩
      · exact List.forall_mem_append.2 ⟨hp.member, by simpa using hid⟩
      · refine List.nodup_append.2 ⟨hp.distinct, by simp, ?_⟩
        rintro a ha b hb rfl
        obtain rfl := List.mem_singleton.1 hb
        exact hnew (List.contains_iff_mem.2 ha)

theorem Fits.mentionAll (h : o.Fits keys) {ms : List Mention} (hms : ∀ m ∈ ms, m.id ∈ keys) :
    (o.mentionAll ms).Fits keys := by
  induction ms generalizing o with
  | nil => exact h
  | cons m ms ih => exact ih (h.mention (hms m (by simp))) fun m' hm' => hms m' (by simp [hm'])

theorem Fits.setDirection (h : o.Fits keys) (d : Direction) : (o.setDirection d).Fits keys := by
  obtain ⟨direction, subgraphs, open_⟩ := o
  cases open_ with
  | nil => exact ⟨h.closed, h.open_⟩
  | cons p ps =>
    obtain ⟨hp, hchildren, hps⟩ := fits_cons.1 h.open_
    exact ⟨h.closed, fits_cons.2 ⟨⟨hp.id, hp.name, hp.title, hp.member, hp.distinct⟩, hchildren, hps⟩⟩

/-- statements that are read keep the subgraphs fitting -/
theorem Fits.step (h : o.Fits keys) {s : Statement} (hs : s.IsRead) (hm : ∀ m ∈ s.mentions, m.id ∈ keys)
    (ho : o.step s = some o') : o'.Fits keys := by
  cases s with
  | direction d =>
    obtain rfl := Option.some.inj ho
    exact h.setDirection d
  | openSubgraph id title =>
    obtain rfl := Option.some.inj ho
    refine ⟨h.closed, fits_cons.2 ⟨⟨hs.1, hs.2.1, hs.2.2, by simp, by simp⟩, ?_, h.open_⟩⟩
    rw [walkAll]
    simp
  | closeSubgraph =>
    obtain ⟨direction, subgraphs, open_⟩ := o
    cases open_ with
    | nil => exact absurd ho (by simp [Outline.step, close?])
    | cons s ss =>
      obtain rfl := Option.some.inj ho
      obtain ⟨hp, hchildren, hps⟩ := fits_cons.1 h.open_
      refine Fits.place (o := ⟨direction, subgraphs, ss⟩) ⟨h.closed, hps⟩ fun t ht => ?_
      rcases mem_walk_iff.1 ht with rfl | ht
      · exact hp
      · exact hchildren t ht
  | _ =>
    obtain rfl := Option.some.inj ho
    exact h.mentionAll hm

theorem Fits.run (h : o.Fits keys) {ss : List Statement} (hs : ∀ s ∈ ss, s.IsRead)
    (hm : ∀ s ∈ ss, ∀ m ∈ s.mentions, m.id ∈ keys) (ho : o.run ss = some o') : o'.Fits keys := by
  induction ss generalizing o with
  | nil =>
    obtain rfl := Option.some.inj ho
    exact h
  | cons s ss ih =>
    rw [run_cons] at ho
    obtain ⟨o₁, h₁, ho⟩ := Option.bind_eq_some_iff.1 ho
    exact ih (h.step (hs s (by simp)) (hm s (by simp)) h₁) (fun t ht => hs t (by simp [ht]))
      (fun t ht => hm t (by simp [ht])) ho

end Outline

/-! ## Nodes and links -/

/-- a node that can be written, kept under its id -/
structure Node.Fits (id : Text) (n : Node) : Prop where
  byId : n.id = id
  name : Scan.isName isWord id = true
  label : '\n' ∉ n.label

theorem lineFeed_not_mem_name {id : Text} (h : Scan.isName isWord id = true) : '\n' ∉ id := fun hm =>
  absurd (List.all_eq_true.1 (Scan.all_of_isName h) _ hm) (by decide)

theorem fits_declareNode {e : Entries Node} (h : ∀ x ∈ e.toList, Node.Fits x.1 x.2) {m : Mention} (hm : m.IsPlain) :
    ∀ x ∈ (declareNode e m).toList, Node.Fits x.1 x.2 := by
  obtain ⟨id, shaped, className⟩ := m
  intro x hx
  cases shaped with
  | some d =>
    rcases Entries.mem_put hx with rfl | hx
    · exact ⟨rfl, hm.id, hm.label _ _ rfl⟩
    · exact h x hx
  | none =>
    have hx : x ∈ (e.insertNew id ⟨id, id, .default⟩).toList := hx
    unfold Entries.insertNew at hx
    split at hx
    · exact h x hx
    · rcases Entries.mem_put hx with rfl | hx
      · exact ⟨rfl, hm.id, lineFeed_not_mem_name hm.id⟩
      · exact h x hx

theorem fits_foldl_declareNode {ms : List Mention} (h : ∀ m ∈ ms, m.IsPlain) :
    ∀ x ∈ (ms.foldl declareNode .empty).toList, Node.Fits x.1 x.2 :=
  List.foldlRecOn ms declareNode (motive := fun e => ∀ x ∈ e.toList, Node.Fits x.1 x.2) (by simp [Entries.empty])
    fun _ he m hm => fits_declareNode he (h m hm)

theorem mem_keys_foldl_declareNode {e : Entries Node} {ms : List Mention} {m : Mention} (h : m ∈ ms) :
    m.id ∈ (ms.foldl declareNode e).keys := by
  rw [keys_foldl_declareNode, Entries.mem_foldl_addTo]
  exact Or.inr (List.mem_map_of_mem h)

theorem ends_linksFrom {from_ : Group} {ls : List (LinkForm × Group)} {l : Link} (h : l ∈ linksFrom from_ ls) :
    (∃ m ∈ from_ ++ ls.flatMap Prod.snd, m.id = l.source) ∧ (∃ m ∈ from_ ++ ls.flatMap Prod.snd, m.id = l.target) ∧
      ∃ x ∈ ls, x.1 = l.form := by
  induction ls generalizing from_ with
  | nil => exact absurd h (by simp [linksFrom])
  | cons x ls ih =>
    obtain ⟨form, group⟩ := x
    rw [linksFrom, List.mem_append] at h
    rw [List.flatMap_cons]
    rcases h with h | h
    · obtain ⟨s, hs, h⟩ := List.mem_flatMap.1 h
      obtain ⟨t, ht, rfl⟩ := List.mem_map.1 h
      exact ⟨⟨s, by simp [hs], rfl⟩, ⟨t, by simp [ht], rfl⟩, (form, group), by simp, rfl⟩
    · obtain ⟨⟨s, hs, hsource⟩, ⟨t, ht, htarget⟩, y, hy, hform⟩ := ih h
      exact ⟨⟨s, List.mem_append_right _ hs, hsource⟩, ⟨t, List.mem_append_right _ ht, htarget⟩, y, by simp [hy], hform⟩

theorem isPlain_of_mem_links {s : Statement} (hs : s.IsRead) {l : Link} (h : l ∈ s.links) :
    (∃ m ∈ s.mentions, m.id = l.source) ∧ (∃ m ∈ s.mentions, m.id = l.target) ∧ l.form.IsPlain := by
  cases s with
  | chain c =>
    have hc : c.IsPlain := hs
    obtain ⟨hsource, htarget, x, hx, hform⟩ := ends_linksFrom h
    exact ⟨hsource, htarget, hform ▸ (hc.links x hx).1⟩
  | _ => exact absurd h (by simp)

theorem isPlain_of_mem_mentions {s : Statement} (hs : s.IsRead) {m : Mention} (h : m ∈ s.mentions) : m.IsPlain := by
  cases s with
  | chain c =>
    have hc : c.IsPlain := hs
    rcases List.mem_append.1 (show m ∈ c.mentions from h) with h | h
    · exact hc.first.mention m h
    · obtain ⟨x, hx, h⟩ := List.mem_flatMap.1 h
      exact (hc.links x hx).2.mention m h
  | _ => exact absurd h (by simp)

/-! ## Classes and styles -/

theorem isClass_of_mem_assignments {s : Statement} (hs : s.IsRead) {x : Text × Text} (h : x ∈ s.assignments) :
    Scan.isName isWord x.1 = true ∧ x.2 ≠ [] ∧ x.2.all isWordOrHyphen = true := by
  cases s with
  | assignClass ids name =>
    obtain ⟨id, hid, rfl⟩ := List.mem_map.1 h
    exact ⟨hs.1 id hid, hs.2⟩
  | chain c =>
    obtain ⟨m, hm, h⟩ := List.mem_filterMap.1 h
    obtain ⟨name, hname, rfl⟩ := Option.map_eq_some_iff.1 h
    have hplain := isPlain_of_mem_mentions (s := .chain c) hs hm
    exact ⟨hplain.id, hplain.className name hname⟩
  | _ => exact absurd h (by simp)

theorem isPlain_of_mem_classDefs {s : Statement} (hs : s.IsRead) {x : Text × Style} (h : x ∈ s.classDefs) :
    Scan.isName isWord x.1 = true ∧ x.2.IsPlain := by
  cases s with
  | classDef names props =>
    obtain ⟨name, hname, rfl⟩ := List.mem_map.1 h
    exact ⟨hs.1 name hname, hs.2⟩
  | _ => exact absurd h (by simp)

theorem isPlain_of_mem_nodeStyles {s : Statement} (hs : s.IsRead) {x : Text × Style} (h : x ∈ s.nodeStyles) :
    Scan.isName isWord x.1 = true ∧ x.2.IsPlain := by
  cases s with
  | style ids props =>
    obtain ⟨id, hid, rfl⟩ := List.mem_map.1 h
    exact ⟨hs.1 id hid, hs.2⟩
  | _ => exact absurd h (by simp)

theorem isPlain_of_mem_linkStyles {s : Statement} (hs : s.IsRead) {x : Text × Style} (h : x ∈ s.linkStyles) :
    IsLinkKey x.1 ∧ x.2.IsPlain := by
  cases s with
  | linkStyle keys props =>
    obtain ⟨key, hkey, rfl⟩ := List.mem_map.1 h
    exact ⟨hs.1 key hkey, hs.2⟩
  | _ => exact absurd h (by simp)

theorem isPlain_of_mem_clicks {s : Statement} (hs : s.IsRead) {c : Click} (h : c ∈ s.clicks) : c.IsPlain := by
  cases s with
  | click c' => exact List.mem_singleton.1 h ▸ hs
  | _ => exact absurd h (by simp)

theorem trim_of_mem_texts {s : Statement} (hs : s.IsRead) {line : AccessibilityLine} (h : line ∈ s.texts) :
    '\n' ∉ line.value ∧ trim line.value = line.value := by
  cases s with
  | accessibility l =>
    obtain rfl := List.mem_singleton.1 h
    cases line with
    | title v => exact hs
    | description v => exact hs
  | _ => exact absurd h (by simp)

/-- the accessibility texts that lines set are those of lines -/
theorem forall_foldl_put {P : Text → Prop} {ls : List AccessibilityLine} (h : ∀ l ∈ ls, P l.value) :
    (∀ v, (ls.foldl Accessibility.put {}).title = some v → P v) ∧
      ∀ v, (ls.foldl Accessibility.put {}).description = some v → P v := by
  refine List.foldlRecOn ls Accessibility.put
    (motive := fun a => (∀ v, a.title = some v → P v) ∧ ∀ v, a.description = some v → P v) (b := {}) ⟨nofun, nofun⟩
    fun a ha l hl => ?_
  have hvalue := h l hl
  cases l with
  | title v => exact ⟨fun w hw => Option.some.inj hw ▸ hvalue, ha.2⟩
  | description v => exact ⟨ha.1, fun w hw => Option.some.inj hw ▸ hvalue⟩

/-- classes that are defined under fit names -/
theorem isPlain_foldl_insert {P : Text → Prop} {pairs : List (Text × Style)} (h : ∀ x ∈ pairs, P x.1 ∧ x.2.IsPlain) :
    ∀ x ∈ (pairs.foldl (fun e x => Entries.insert e x.1 x.2) .empty).toList, P x.1 ∧ x.2.IsPlain := by
  refine List.foldlRecOn pairs (fun e x => Entries.insert e x.1 x.2) (motive := fun e => ∀ x ∈ e.toList, P x.1 ∧ x.2.IsPlain)
    (b := .empty) (by simp [Entries.empty]) fun e he x hx y hy => ?_
  rcases Entries.mem_put hy with rfl | hy
  · exact h x hx
  · exact he y hy

theorem isAssigned_foldl_assign {pairs : List (Text × Text)}
    (h : ∀ x ∈ pairs, Scan.isName isWord x.1 = true ∧ x.2 ≠ [] ∧ x.2.all isWordOrHyphen = true) :
    ∀ x ∈ (pairs.foldl (fun e x => Entries.assign e x.1 x.2) .empty).toList, Entries.IsAssigned
      (fun id => Scan.isName isWord id = true) (fun name => name ≠ [] ∧ name.all isWordOrHyphen = true) x :=
  List.foldlRecOn pairs (fun e x => Entries.assign e x.1 x.2) (motive := fun e => ∀ x ∈ e.toList, Entries.IsAssigned
    (fun id => Scan.isName isWord id = true) (fun name => name ≠ [] ∧ name.all isWordOrHyphen = true) x)
    (by simp [Entries.empty]) fun _ he x hx => Entries.isAssigned_assign he (h x hx).1 (h x hx).2

/-- styles under fit keys stay so when properties are added -/
theorem isPlain_addStyle {P : Text → Prop} {e : Entries Style} (h : ∀ x ∈ e.toList, P x.1 ∧ x.2.IsPlain)
    {x : Text × Style} (hx : P x.1 ∧ x.2.IsPlain) : ∀ y ∈ (addStyle e x).toList, P y.1 ∧ y.2.IsPlain := by
  intro y hy
  rcases Entries.mem_put hy with rfl | hy
  · refine ⟨hx.1, Style.isPlain_update ?_ hx.2⟩
    cases hget : e.get? x.1 with
    | none => exact Style.isPlain_empty
    | some s => exact (h _ (Entries.mem_toList_iff.2 hget)).2
  · exact h y hy

theorem isPlain_foldl_addStyle {P : Text → Prop} {pairs : List (Text × Style)} (h : ∀ x ∈ pairs, P x.1 ∧ x.2.IsPlain) :
    ∀ x ∈ (pairs.foldl addStyle .empty).toList, P x.1 ∧ x.2.IsPlain :=
  List.foldlRecOn pairs addStyle (motive := fun e => ∀ x ∈ e.toList, P x.1 ∧ x.2.IsPlain) (by simp [Entries.empty])
    fun _ he x hx => isPlain_addStyle he (h x hx)

/-! ## Whole charts -/

variable {o : Outline} {ss : List Statement}

/-- **statements that are read make a well-formed chart** -/
theorem isWellFormed_chartOf {dir : Direction} (hs : ∀ s ∈ ss, s.IsRead) (ho : Outline.run ⟨dir, [], []⟩ ss = some o) :
    (chartOf o ss).IsWellFormed := by
  have hmentions : ∀ m ∈ ss.flatMap Statement.mentions, m.IsPlain :=
    List.forall_mem_flatMap.2 fun s hmem _ hm => isPlain_of_mem_mentions (hs s hmem) hm
  have hnodes := fits_foldl_declareNode hmentions
  have hkeys : ∀ m ∈ ss.flatMap Statement.mentions,
      m.id ∈ ((ss.flatMap Statement.mentions).foldl declareNode .empty).keys := fun _ hm => mem_keys_foldl_declareNode hm
  have hlinks : ∀ l ∈ ss.flatMap Statement.links, l.source ∈ ((ss.flatMap Statement.mentions).foldl declareNode .empty).keys ∧
      l.target ∈ ((ss.flatMap Statement.mentions).foldl declareNode .empty).keys ∧ l.form.IsPlain := by
    intro l hl
    obtain ⟨s, hmem, hl⟩ := List.mem_flatMap.1 hl
    obtain ⟨⟨m, hm, h1⟩, ⟨m', hm', h2⟩, hform⟩ := isPlain_of_mem_links (hs s hmem) hl
    exact ⟨h1 ▸ hkeys m (List.mem_flatMap.2 ⟨s, hmem, hm⟩), h2 ▸ hkeys m' (List.mem_flatMap.2 ⟨s, hmem, hm'⟩), hform⟩
  have hempty : Outline.Fits ((ss.flatMap Statement.mentions).foldl declareNode .empty).keys ⟨dir, [], []⟩ :=
    ⟨by rw [walkAll]; simp, by rw [walkAll]; simp⟩
  have hsubgraphs := (hempty.run hs (fun s hmem m hm => hkeys m (List.mem_flatMap.2 ⟨s, hmem, hm⟩)) ho).closed
  have hclasses := isAssigned_foldl_assign
    (List.forall_mem_flatMap.2 fun s hmem _ hx => isClass_of_mem_assignments (hs s hmem) hx)
  have hclassDefs := isPlain_foldl_insert (P := fun name => Scan.isName isWord name = true)
    (List.forall_mem_flatMap.2 fun s hmem _ hx => isPlain_of_mem_classDefs (hs s hmem) hx)
  have hnodeStyles := isPlain_foldl_addStyle (P := fun id => Scan.isName isWord id = true)
    (List.forall_mem_flatMap.2 fun s hmem _ hx => isPlain_of_mem_nodeStyles (hs s hmem) hx)
  have hlinkStyles := isPlain_foldl_addStyle (P := IsLinkKey)
    (List.forall_mem_flatMap.2 fun s hmem _ hx => isPlain_of_mem_linkStyles (hs s hmem) hx)
  have htexts := forall_foldl_put (P := fun v => '\n' ∉ v ∧ trim v = v)
    (List.forall_mem_flatMap.2 fun s hmem _ hl => trim_of_mem_texts (hs s hmem) hl)
  have htight : ∀ {v : Text}, '\n' ∉ v ∧ trim v = v → '\n' ∉ v ∧ (v ≠ [] → IsTight v) := fun h =>
    ⟨h.1, (trim_eq_self_iff.1 h.2).resolve_left⟩
  rw [chartOf_eq]
  exact {
    byId := fun hn => (hnodes _ (Entries.mem_toList_iff.2 hn)).byId
    member := fun s hs => (hsubgraphs s hs).member
    distinct := fun s hs => (hsubgraphs s hs).distinct
    ends := fun l hl => ⟨(hlinks l hl).1, (hlinks l hl).2.1⟩
    name := fun id hid => by
      obtain ⟨n, hn⟩ := Entries.exists_of_mem_keys hid
      exact (hnodes _ (Entries.mem_toList_iff.2 hn)).name
    label := fun hn => (hnodes _ (Entries.mem_toList_iff.2 hn)).label
    form := fun l hl => (hlinks l hl).2.2
    subgraph := fun s hs => ⟨(hsubgraphs s hs).id, (hsubgraphs s hs).name, (hsubgraphs s hs).title⟩
    classDef := hclassDefs
    assigned := fun x hx => ⟨(hclasses x hx).key, (hclasses x hx).member⟩
    classes := fun x hx => ⟨(hclasses x hx).ne_nil, (hclasses x hx).distinct⟩
    nodeStyle := hnodeStyles
    click := List.forall_mem_flatMap.2 fun s hmem _ hc => isPlain_of_mem_clicks (hs s hmem) hc
    linkStyle := hlinkStyles
    title := fun v hv => htight (htexts.1 v hv)
    description := fun v hv => htight (htexts.2 v hv) }

/-- **charts that are read are well-formed** -/
theorem isWellFormed_of_read {text : Text} {d : Flowchart} (h : read text = .ok d) : d.IsWellFormed := by
  obtain ⟨dir, ss, o, -, hss, ho, -, rfl⟩ := read_eq_ok_iff.1 h
  refine isWellFormed_chartOf (fun s hs => ?_) ho
  obtain ⟨t, ht, hmeans⟩ := exists_of_forall₂ hss hs
  obtain ⟨l, hl, rfl⟩ := List.mem_map.1 ht
  exact isRead_of_meaning (isTight_of_mem_sourceLines (body_subset _ _ hl)).2 hmeans

end DiagramText.Flowchart

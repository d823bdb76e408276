/-
The places of links on a page. Counting the subgraphs as they open, a link is written in the first one that lists both of its
ends, and below all subgraphs if there is none (`home?`). `placed` reads these places off the statements of a page:
`placed_script` says where each link stands and that they stand in the order of writing, and `links_script` that this is the
order in which they are read back.
-/
import DiagramText.Proofs.Flowchart.Replay

namespace DiagramText.Flowchart

open DiagramText.Text

/-! ## Places on a page -/

/-- the links that statements hold, each with the number of the innermost subgraph that is open there: `opened` subgraphs have
been opened before, and `around` are the numbers of those that are still open -/
def placed (opened : Nat) (around : List Nat) : List Statement → List (Option Nat × Link)
  | [] => []
  | .openSubgraph _ _ :: rest => placed (opened + 1) (opened :: around) rest
  | .closeSubgraph :: rest => placed opened around.tail rest
  | s :: rest => s.links.map (around.head?, ·) ++ placed opened around rest

/-- the id and the title of the subgraph that a statement opens -/
def Statement.opening? : Statement → Option (Text × Text)
  | .openSubgraph id title => some (id, title)
  | _ => none

/-- a statement that neither opens nor closes a subgraph -/
def Statement.isInline : Statement → Bool
  | .openSubgraph _ _ | .closeSubgraph => false
  | _ => true

variable {opened : Nat} {around : List Nat}

theorem placed_inline {ss : List Statement} (h : ∀ s ∈ ss, s.isInline = true) (rest : List Statement) :
    placed opened around (ss ++ rest) = (ss.flatMap Statement.links).map (around.head?, ·) ++ placed opened around rest := by
  induction ss with
  | nil => rfl
  | cons s ss ih =>
    rw [List.forall_mem_cons] at h
    have hs : placed opened around (s :: (ss ++ rest)) = s.links.map (around.head?, ·) ++ placed opened around (ss ++ rest) := by
      cases s <;> first | rfl | exact absurd h.1 (by simp [Statement.isInline])
    rw [List.cons_append, hs, ih h.2, List.flatMap_cons, List.map_append, List.append_assoc]

/-- without their places, the links are those that the statements hold -/
theorem map_snd_placed (opened : Nat) (around : List Nat) (ss : List Statement) :
    (placed opened around ss).map Prod.snd = ss.flatMap Statement.links := by
  induction ss generalizing opened around with
  | nil => rfl
  | cons s ss ih =>
    cases s <;> simp [placed, ih, Function.comp_def]

theorem opening?_of_isInline {s : Statement} (h : s.isInline = true) : s.opening? = none := by
  cases s <;> first | rfl | exact absurd h (by simp [Statement.isInline])

theorem filterMap_opening?_inline {ss : List Statement} (h : ∀ s ∈ ss, s.isInline = true) : ss.filterMap Statement.opening? = [] :=
  List.filterMap_eq_nil_iff.2 fun s hs => opening?_of_isInline (h s hs)

namespace Page

variable (p : Page)

/-- the number of the subgraph that the link of a number is written in, if there is one: the first that lists both of its
ends, counted as the subgraphs open -/
def home? (i : Nat) : Option Nat := (walkAll p.chart.subgraphs).findIdx? (p.inside · i)

/-- the link of a number and its place, among subgraphs that are numbered from `opened` on -/
def place? (opened : Nat) (ss : List Subgraph) (i : Nat) : Option (Option Nat × Link) :=
  (p.link? i).map fun l => ((ss.findIdx? (p.inside · i)).map (opened + ·), l)

/-! ## One link -/

section

variable {p} {s : Subgraph} {ss ts : List Subgraph} {i : Nat}

theorem findIdx?_eq_none_of_takes (h : p.takes ss i = false) : ss.findIdx? (p.inside · i) = none := by
  rw [List.findIdx?_eq_none_iff]
  simpa [takes] using h

theorem place?_cons_of_inside (h : p.inside s i = true) : p.place? opened (s :: ss) i = (p.link? i).map (some opened, ·) := by
  simp [place?, List.findIdx?_cons, h]

theorem map_add_map_add (opened n : Nat) (place : Option Nat) :
    (place.map (· + n)).map (opened + ·) = place.map (opened + n + ·) := by
  cases place with
  | none => rfl
  | some i =>
    have hsum : opened + (i + n) = opened + n + i := by omega
    exact congrArg some hsum

theorem place?_cons_of_not_inside (h : p.inside s i = false) : p.place? opened (s :: ss) i = p.place? (opened + 1) ss i := by
  rw [place?, place?, List.findIdx?_cons, if_neg (by simp [h]), map_add_map_add]

theorem place?_append_of_takes (h : p.takes ss i = true) : p.place? opened (ss ++ ts) i = p.place? opened ss i := by
  obtain ⟨n, hn⟩ : ∃ n, ss.findIdx? (p.inside · i) = some n := by
    rw [← Option.isSome_iff_exists, List.findIdx?_isSome]
    exact h
  rw [place?, place?, List.findIdx?_append, hn]
  rfl

theorem place?_append_of_not_takes (h : p.takes ss i = false) :
    p.place? opened (ss ++ ts) i = p.place? (opened + ss.length) ts i := by
  rw [place?, place?, List.findIdx?_append, findIdx?_eq_none_of_takes h, Option.none_or, map_add_map_add]

end

/-! ## Subgraphs -/

theorem isInline_chainsAt {depth : Nat} {cs : List Chain} : ∀ s ∈ (chainsAt depth cs).map Prod.snd, s.isInline = true := by
  intro s hs
  simp only [chainsAt, List.map_map, List.mem_map] at hs
  obtain ⟨c, -, rfl⟩ := hs
  rfl

theorem links_singles (depth : Nat) (ms : List Mention) :
    ((chainsAt depth (ms.map fun m => ⟨[m], []⟩)).map Prod.snd).flatMap Statement.links = [] := by
  rw [List.flatMap_eq_nil_iff]
  intro s hs
  simp only [chainsAt, List.map_map, List.mem_map] at hs
  obtain ⟨m, -, rfl⟩ := hs
  rfl

theorem links_map_linksAt (depth : Nat) (numbers : List Nat) :
    ((p.linksAt depth numbers).map Prod.snd).flatMap Statement.links = numbers.filterMap p.link? := by
  rw [linksAt, chainsAt, List.map_map, List.flatMap_map]
  exact flatMap_links_linkChains _ _

theorem isInline_direction {depth : Nat} {direction : Option Direction} :
    ∀ s ∈ (direction.map fun d => (depth, Statement.direction d)).toList.map Prod.snd, s.isInline = true := by
  cases direction <;> simp [Statement.isInline]

theorem links_direction (depth : Nat) (direction : Option Direction) :
    ((direction.map fun d => (depth, Statement.direction d)).toList.map Prod.snd).flatMap Statement.links = [] := by
  cases direction <;> rfl

theorem placed_links (depth : Nat) (numbers : List Nat) (rest : List Statement) :
    placed opened around ((p.linksAt depth numbers).map Prod.snd ++ rest)
      = numbers.filterMap (fun i => (p.link? i).map (around.head?, ·)) ++ placed opened around rest := by
  have hinline : ∀ s ∈ (p.linksAt depth numbers).map Prod.snd, s.isInline = true := isInline_chainsAt
  rw [placed_inline hinline, links_map_linksAt, List.map_filterMap]

mutual

/-- the links of a block stand where the first of its subgraphs that lists them is open -/
theorem placed_blockScript (depth : Nat) (met : List Text) (pending : List Nat) (opened : Nat) (around : List Nat)
    (rest : List Statement) : (s : Subgraph) →
    placed opened around ((p.blockScript depth met pending s).map Prod.snd ++ rest)
      = (p.taken pending s).filterMap (p.place? opened s.walk) ++ placed (opened + s.walk.length) around rest
  | ⟨id, title, nodeIds, children, direction⟩ => by
    generalize hs : (⟨id, title, nodeIds, children, direction⟩ : Subgraph) = s
    have hwalk : s.walk = s :: walkAll children := by rw [← hs, Subgraph.walk]
    have hbelow := placed_forestScript (depth + 1) (nodeIds.reverse ++ met) (pending.filter fun i => !p.inside s i) (opened + 1)
      (opened :: around) ((p.linksAt (depth + 1) (pending.filter (p.inside s))).map Prod.snd ++ .closeSubgraph :: rest) children
    have hbelow' : (p.takenAll (pending.filter fun i => !p.inside s i) children).filterMap (p.place? (opened + 1) (walkAll children))
        = (p.takenAll (pending.filter fun i => !p.inside s i) children).filterMap (p.place? opened s.walk) := by
      refine List.filterMap_congr fun i hi => ?_
      have hout : p.inside s i = false := by
        simpa using (List.mem_filter.1 ((p.mem_takenAll_iff children).1 hi).1).2
      rw [hwalk, place?_cons_of_not_inside hout]
    have hown : (pending.filter (p.inside s)).filterMap (fun i => (p.link? i).map (some opened, ·))
        = (pending.filter (p.inside s)).filterMap (p.place? opened s.walk) := by
      refine List.filterMap_congr fun i hi => ?_
      rw [hwalk, place?_cons_of_inside (List.mem_filter.1 hi).2]
    have hlength : opened + 1 + (walkAll children).length = opened + s.walk.length := by
      rw [hwalk, List.length_cons]
      omega
    rw [← hs, blockScript, taken, hs, List.map_cons, List.cons_append, placed]
    simp only [List.map_append, List.append_assoc, List.map_cons, List.map_nil, List.cons_append, List.nil_append]
    rw [placed_inline isInline_direction, links_direction, placed_inline isInline_chainsAt, links_singles, hbelow, hbelow',
      placed_links, List.filterMap_append, ← hown, hlength]
    simp [placed]

/-- the links of a forest stand where the first of its subgraphs that lists them is open -/
theorem placed_forestScript (depth : Nat) (met : List Text) (pending : List Nat) (opened : Nat) (around : List Nat)
    (rest : List Statement) : (ss : List Subgraph) →
    placed opened around ((p.forestScript depth met pending ss).map Prod.snd ++ rest)
      = (p.takenAll pending ss).filterMap (p.place? opened (walkAll ss)) ++ placed (opened + (walkAll ss).length) around rest
  | [] => by
    rw [forestScript, takenAll, walkAll]
    rfl
  | s :: ss => by
    have hfirst : (p.taken pending s).filterMap (p.place? opened s.walk)
        = (p.taken pending s).filterMap (p.place? opened (s.walk ++ walkAll ss)) :=
      List.filterMap_congr fun i hi => (place?_append_of_takes ((p.mem_taken_iff s).1 hi).2).symm
    have hothers : (p.takenAll (pending.filter fun i => !p.takes s.walk i) ss).filterMap
          (p.place? (opened + s.walk.length) (walkAll ss))
        = (p.takenAll (pending.filter fun i => !p.takes s.walk i) ss).filterMap (p.place? opened (s.walk ++ walkAll ss)) := by
      refine List.filterMap_congr fun i hi => ?_
      have hout : p.takes s.walk i = false := by
        simpa using (List.mem_filter.1 ((p.mem_takenAll_iff ss).1 hi).1).2
      exact (place?_append_of_not_takes hout).symm
    rw [forestScript, takenAll, walkAll, List.map_append, List.append_assoc, placed_blockScript depth met pending opened around _ s,
      placed_forestScript depth _ _ _ around rest ss, hfirst, hothers, List.filterMap_append, List.append_assoc,
      List.length_append, Nat.add_assoc]

end

mutual

/-- a block opens its subgraphs in the order in which they are counted -/
theorem openings_blockScript (depth : Nat) (met : List Text) (pending : List Nat) : (s : Subgraph) →
    ((p.blockScript depth met pending s).map Prod.snd).filterMap Statement.opening? = s.walk.map fun t => (t.id, t.title)
  | ⟨id, title, nodeIds, children, direction⟩ => by
    have hlinks (numbers : List Nat) :
        ((p.linksAt (depth + 1) numbers).map Prod.snd).filterMap Statement.opening? = [] :=
      filterMap_opening?_inline isInline_chainsAt
    rw [blockScript, Subgraph.walk]
    simp only [List.map_cons, List.map_append, List.filterMap_cons, List.filterMap_append, Statement.opening?,
      filterMap_opening?_inline isInline_direction, filterMap_opening?_inline isInline_chainsAt, hlinks,
      openings_forestScript (depth + 1) _ _ children]
    simp

theorem openings_forestScript (depth : Nat) (met : List Text) (pending : List Nat) : (ss : List Subgraph) →
    ((p.forestScript depth met pending ss).map Prod.snd).filterMap Statement.opening?
      = (walkAll ss).map fun t => (t.id, t.title)
  | [] => by
    rw [forestScript, walkAll]
    rfl
  | s :: ss => by
    rw [forestScript, walkAll, List.map_append, List.filterMap_append, openings_blockScript depth met pending s,
      openings_forestScript depth _ _ ss, List.map_append]

end

/-! ## Whole pages -/

theorem home?_eq_none_iff {i : Nat} : p.home? i = none ↔ p.takes (walkAll p.chart.subgraphs) i = false := by
  rw [home?, List.findIdx?_eq_none_iff]
  simp [takes]

theorem loose_eq : p.loose = (List.range p.chart.links.length).filter fun i => p.home? i = none := by
  refine List.filter_congr fun i _ => ?_
  rw [Bool.eq_iff_iff]
  simp [home?_eq_none_iff]

theorem isInline_texts : ∀ s ∈ p.texts.map Statement.accessibility, s.isInline = true ∧ s.links = [] := by
  intro s hs
  obtain ⟨l, -, rfl⟩ := List.mem_map.1 hs
  exact ⟨rfl, rfl⟩

theorem isInline_tailScript (styles : List (Text × Style)) :
    ∀ s ∈ p.tailScript styles, s.isInline = true ∧ s.links = [] := by
  intro s hs
  simp only [tailScript, List.mem_append, List.mem_map] at hs
  rcases hs with (((⟨x, _, rfl⟩ | ⟨x, _, rfl⟩) | ⟨x, _, rfl⟩) | ⟨x, _, rfl⟩) | ⟨x, _, rfl⟩ <;> exact ⟨rfl, rfl⟩

/-- the statements of a page, without their depths -/
theorem map_snd_script (styles : List (Text × Style)) :
    (p.script styles).map Prod.snd = p.texts.map Statement.accessibility
      ++ ((p.forestScript 1 [] (List.range p.chart.links.length) p.chart.subgraphs).map Prod.snd
      ++ ((chainsAt 1 (((p.declared p.grouped.reverse p.nodes).map p.nodeMention).map fun m => ⟨[m], []⟩)).map Prod.snd
      ++ ((p.linksAt 1 p.loose).map Prod.snd ++ (p.tailScript styles ++ [])))) := by
  simp [script, bodyScript, Function.comp_def]

/-- **every link stands in the first subgraph that lists both of its ends**, or below all of them -/
theorem placed_script (styles : List (Text × Style)) :
    placed 0 [] ((p.script styles).map Prod.snd) = p.order.filterMap fun i => (p.link? i).map (p.home? i, ·) := by
  have hplace : ∀ i, p.place? 0 (walkAll p.chart.subgraphs) i = (p.link? i).map (p.home? i, ·) := by
    intro i
    simp [place?, home?]
  have hloose : p.loose.filterMap (fun i => (p.link? i).map ((none : Option Nat), ·))
      = p.loose.filterMap fun i => (p.link? i).map (p.home? i, ·) := by
    refine List.filterMap_congr fun i hi => ?_
    rw [loose_eq, List.mem_filter, decide_eq_true_eq] at hi
    rw [hi.2]
  have htexts : (p.texts.map Statement.accessibility).flatMap Statement.links = [] :=
    List.flatMap_eq_nil_iff.2 fun s hs => (p.isInline_texts s hs).2
  have htail : (p.tailScript styles).flatMap Statement.links = [] :=
    List.flatMap_eq_nil_iff.2 fun s hs => (p.isInline_tailScript styles s hs).2
  rw [map_snd_script, placed_inline fun s hs => (p.isInline_texts s hs).1, htexts, placed_forestScript,
    placed_inline isInline_chainsAt, links_singles, placed_links, placed_inline fun s hs => (p.isInline_tailScript styles s hs).1,
    htail, order, List.filterMap_append, ← hloose]
  simp [hplace, placed]

/-- the subgraphs are opened in the order in which they are counted -/
theorem openings_script (styles : List (Text × Style)) :
    ((p.script styles).map Prod.snd).filterMap Statement.opening? = (walkAll p.chart.subgraphs).map fun s => (s.id, s.title) := by
  have hlinks : ((p.linksAt 1 p.loose).map Prod.snd).filterMap Statement.opening? = [] :=
    filterMap_opening?_inline isInline_chainsAt
  rw [map_snd_script]
  simp only [List.filterMap_append, filterMap_opening?_inline fun s hs => (p.isInline_texts s hs).1,
    filterMap_opening?_inline isInline_chainsAt, filterMap_opening?_inline fun s hs => (p.isInline_tailScript styles s hs).1,
    openings_forestScript, hlinks]
  simp

/-! ## Links that are read -/

theorem links_settled (s : Statement) : s.settled.links = s.links.map settledLink := by
  cases s with
  | chain c => exact linksFrom_settled c.first c.links
  | _ => rfl

/-- **the links come back in the order of writing** -/
theorem links_script (styles : List (Text × Style)) :
    (settledScript (p.script styles)).flatMap Statement.links = (p.order.filterMap p.link?).map settledLink := by
  have hsettled : (settledScript (p.script styles)).flatMap Statement.links
      = (((p.script styles).map Prod.snd).flatMap Statement.links).map settledLink := by
    simp only [settledScript, List.flatMap_map, List.map_flatMap, links_settled]
  rw [hsettled, ← map_snd_placed 0 [], placed_script, List.map_filterMap]
  congr 1
  refine List.filterMap_congr fun i _ => ?_
  simp [Function.comp_def]

end Page

end DiagramText.Flowchart

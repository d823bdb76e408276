/-
Charts whose parts fit the grammar. Every statement on the page of a well-formed chart is plain (`isPlain_of_writes`), so
where none of them misleads the page is read back (`read_page`), and what is read is known field by field: the outline
from `run_script`, the links from `links_script`, the nodes from `get?_nodes_script`.
-/
import DiagramText.Proofs.Flowchart.Nodes
import DiagramText.Proofs.Number.Integer
import DiagramText.Proofs.Reading
import DiagramText.Proofs.Text.Statement

namespace DiagramText.Flowchart

open DiagramText.Text

/-- the key of a link style: `default`, or digits -/
def IsLinkKey (key : Text) : Prop := key = "default" ∨ key ≠ [] ∧ key.all isDigit = true

/-- a chart that is closed, and whose parts fit the grammar -/
structure IsWellFormed (d : Flowchart) : Prop extends d.IsClosed where
  name : ∀ id ∈ d.nodes.keys, Scan.isName isWord id = true
  label : ∀ {id n}, d.nodes.get? id = some n → '\n' ∉ n.label
  form : ∀ l ∈ d.links, l.form.IsPlain
  subgraph : ∀ s ∈ walkAll d.subgraphs, s.id ≠ [] ∧ s.id.all isWordOrHyphen = true ∧ '\n' ∉ s.title
  classDef : ∀ x ∈ d.classDefs.toList, Scan.isName isWord x.1 = true ∧ x.2.IsPlain
  assigned : ∀ x ∈ d.classAssignments.toList, Scan.isName isWord x.1 = true ∧
    ∀ name ∈ x.2, name ≠ [] ∧ name.all isWordOrHyphen = true
  classes : ∀ x ∈ d.classAssignments.toList, x.2 ≠ [] ∧ x.2.Nodup
  nodeStyle : ∀ x ∈ d.nodeStyles.toList, Scan.isName isWord x.1 = true ∧ x.2.IsPlain
  click : ∀ c ∈ d.clicks, c.IsPlain
  linkStyle : ∀ x ∈ d.linkStyles.toList, IsLinkKey x.1 ∧ x.2.IsPlain
  title : ∀ v, d.accessibility.title = some v → '\n' ∉ v ∧ (v ≠ [] → IsTight v)
  description : ∀ v, d.accessibility.description = some v → '\n' ∉ v ∧ (v ≠ [] → IsTight v)

theorem isPlain_single {m : Mention} (h : m.IsPlain) : Chain.IsPlain ⟨[m], []⟩ where
  first := ⟨by simp, by simpa using h⟩
  links := by simp

theorem isPlain_linkChains {compact : Bool} {ls : List Link} (hform : ∀ l ∈ ls, l.form.IsPlain)
    (hends : ∀ l ∈ ls, Scan.isName isWord l.source = true ∧ Scan.isName isWord l.target = true) :
    ∀ c ∈ linkChains compact ls, c.IsPlain := by
  have hbare : ∀ {id}, Scan.isName isWord id = true → Group.IsPlain [bare id] := fun h =>
    ⟨by simp, by simpa using isPlain_bare h⟩
  have hsingle : ∀ l ∈ ls, l.chain.IsPlain := fun l hl =>
    ⟨hbare (hends l hl).1, by simpa [Link.chain] using ⟨hform l hl, hbare (hends l hl).2⟩⟩
  induction ls with
  | nil => simp [linkChains]
  | cons l ls ih =>
    have htail := ih (fun m hm => hform m (by simp [hm])) (fun m hm => hends m (by simp [hm]))
      fun m hm => hsingle m (by simp [hm])
    cases ls with
    | nil => simpa [linkChains] using hsingle l (by simp)
    | cons m rest =>
      obtain ⟨c, cs, e, _⟩ := linkChains_cons compact m rest
      rw [e] at htail
      rw [linkChains, e]
      dsimp only
      have hc := htail c (by simp)
      split
      · intro c' hc'
        rcases List.mem_cons.1 hc' with rfl | hc'
        · refine ⟨hbare (hends l (by simp)).1, fun x hx => ?_⟩
          rcases List.mem_cons.1 hx with rfl | hx
          · exact ⟨hform l (by simp), hc.first⟩
          · exact hc.links x hx
        · exact htail c' (by simp [hc'])
      · intro c' hc'
        rcases List.mem_cons.1 hc' with rfl | hc'
        · exact hsingle l (by simp)
        · exact htail c' hc'

/-! ## What misleads -/

instance (m : Mention) : Decidable m.NamesClass :=
  inferInstanceAs (Decidable (∀ n ∈ m.className, Scan.startsWith isWord n = true))

/-- what misleads is seen from the first node and from the class names -/
theorem Chain.misleads_iff {c : Chain} : c.Misleads ↔
    (c.first = [bare "end"] ∧ c.links = []) ∨
    (c.first.head? = some (bare "subgraph") ∧ (c.first.tail ≠ [] ∨ c.links ≠ [])) ∨
    (∃ m ∈ c.first.head?, m.shaped = none ∧ m.className ≠ none ∧ (m.id = "accTitle" ∨ m.id = "accDescr")) ∨
    ∃ m ∈ c.mentions, ¬ m.NamesClass := by
  constructor
  · intro h
    cases h with
    | closes => exact Or.inl ⟨rfl, rfl⟩
    | opens h => exact Or.inr (Or.inl ⟨rfl, h⟩)
    | describes h => exact Or.inr (Or.inr (Or.inl ⟨_, rfl, rfl, nofun, h⟩))
    | hyphen hm h => exact Or.inr (Or.inr (Or.inr ⟨_, hm, h⟩))
  · obtain ⟨first, links⟩ := c
    rintro (⟨hfirst, hlinks⟩ | ⟨hfirst, hmore⟩ | ⟨⟨id, shaped, className⟩, hfirst, hshaped, hclass, hid⟩ | ⟨m, hm, h⟩)
    · dsimp only at hfirst hlinks
      subst hfirst hlinks
      exact .closes
    · obtain ⟨ms, hcons⟩ := List.head?_eq_some_iff.1 hfirst
      dsimp only at hcons hmore
      subst hcons
      exact .opens hmore
    · obtain ⟨ms, hcons⟩ := List.head?_eq_some_iff.1 hfirst
      obtain ⟨name, hname⟩ := Option.ne_none_iff_exists'.1 hclass
      dsimp only at hcons hshaped hname
      subst hcons hshaped hname
      exact .describes hid
    · exact .hyphen hm h

instance (c : Chain) : Decidable c.Misleads := decidable_of_iff' _ Chain.misleads_iff

instance : (s : Statement) → Decidable s.Misleads
  | .accessibility (.title _) | .accessibility (.description _) | .classDef _ _ => inferInstanceAs (Decidable (_ = true))
  | .style _ _ | .linkStyle _ _ => inferInstanceAs (Decidable (_ ∨ _))
  | .chain c => inferInstanceAs (Decidable c.Misleads)
  | .assignClass _ _ | .click _ | .direction _ | .openSubgraph _ _ | .closeSubgraph => inferInstanceAs (Decidable False)

/-- no line of these misleads -/
def IsFaithful (xs : List (Nat × Statement)) : Prop := ∀ x ∈ xs, ¬ x.2.Misleads

instance (xs : List (Nat × Statement)) : Decidable (IsFaithful xs) := List.decidableBAll _ xs

/-- a line of one node misleads as the keyword `end`, as an accessibility text, or by its class name -/
theorem misleads_single_iff {m : Mention} : Chain.Misleads ⟨[m], []⟩ ↔
    m = bare "end" ∨ (m.shaped = none ∧ m.className ≠ none ∧ (m.id = "accTitle" ∨ m.id = "accDescr")) ∨
      ¬ m.NamesClass := by
  simp [Chain.misleads_iff, Chain.mentions]

/-- a chain of links starts with a source, and has links -/
theorem first_linkChains {compact : Bool} {ls : List Link} {c : Chain} (hc : c ∈ linkChains compact ls) :
    (∃ l ∈ ls, c.first = [bare l.source]) ∧ c.links ≠ [] := by
  induction ls generalizing c with
  | nil => simp [linkChains] at hc
  | cons l ls ih =>
    have hself : ∀ m ∈ ls, m ∈ l :: ls := fun m hm => List.mem_cons_of_mem l hm
    cases ls with
    | nil =>
      obtain rfl : c = l.chain := by simpa [linkChains] using hc
      exact ⟨⟨l, by simp, rfl⟩, by simp [Link.chain]⟩
    | cons m rest =>
      obtain ⟨c', cs, e, _⟩ := linkChains_cons compact m rest
      rw [linkChains, e] at hc
      rw [e] at ih
      have htail : ∀ c ∈ c' :: cs, (∃ l' ∈ l :: m :: rest, c.first = [bare l'.source]) ∧ c.links ≠ [] := fun c hc =>
        ⟨(ih hc).1.imp fun l' h => ⟨hself l' h.1, h.2⟩, (ih hc).2⟩
      dsimp only at hc
      split at hc
      · rcases List.mem_cons.1 hc with rfl | hc
        · exact ⟨⟨l, by simp, rfl⟩, by simp⟩
        · exact htail c (List.mem_cons_of_mem _ hc)
      · rcases List.mem_cons.1 hc with rfl | hc
        · exact ⟨⟨l, by simp, rfl⟩, by simp [Link.chain]⟩
        · exact htail c hc

/-- a chain of links misleads as the keyword `subgraph` -/
theorem misleads_linkChains_iff {compact : Bool} {ls : List Link} {c : Chain} (hc : c ∈ linkChains compact ls) :
    c.Misleads ↔ c.first = [bare "subgraph"] := by
  obtain ⟨⟨l, _, hfirst⟩, hlinks⟩ := first_linkChains hc
  have hbare : ∀ m ∈ c.mentions, m.className = none := by
    intro m hm
    obtain ⟨l, _, rfl | rfl⟩ := mem_mentions_linkChains hc hm <;> rfl
  constructor
  · intro h
    cases h with
    | closes => exact absurd rfl hlinks
    | opens h =>
      simp only [bare, List.cons.injEq] at hfirst
      rw [hfirst.2]
      rfl
    | describes h =>
      simp [bare] at hfirst
    | hyphen hm h =>
      refine absurd (fun name hname => ?_) h
      rw [hbare _ hm] at hname
      exact absurd hname (by simp)
  · intro h
    obtain ⟨first, links⟩ := c
    obtain rfl : first = [bare "subgraph"] := h
    exact .opens (Or.inr hlinks)

namespace Page

variable {p : Page} {styles : List (Text × Style)}

theorem inlineClass_eq_some {id name : Text} (h : p.inlineClass id = some name) :
    p.options.inlineClasses = true ∧ p.chart.nodes.contains id = true ∧
      p.chart.classAssignments.get? id = some [name] ∧ name ≠ [] := by
  unfold inlineClass at h
  split at h
  · rename_i hin
    rw [Bool.and_eq_true] at hin
    split at h
    · obtain ⟨rfl, hne⟩ : _ = name ∧ name ≠ [] := by simpa [present_eq_some_iff] using h
      exact ⟨hin.1, hin.2, ‹_›, hne⟩
    · exact absurd h (by simp)
  · exact absurd h (by simp)

theorem isPlain_nodeMention (hp : p.chart.IsWellFormed) {n : Node} (hn : p.chart.nodes.get? n.id = some n) :
    (p.nodeMention n).IsPlain where
  id := hp.name _ (Entries.mem_keys_of_get? hn)
  label l s h := by
    unfold nodeMention at h
    split at h
    · exact absurd h (by simp)
    · obtain ⟨rfl, rfl⟩ : n.label = l ∧ n.shape = s := by simpa using h
      exact hp.label hn
  className name h := by
    obtain ⟨-, -, hget, hne⟩ := inlineClass_eq_some h
    exact (hp.assigned _ (Entries.mem_toList_iff.2 hget)).2 name (by simp)

theorem mem_texts {l : AccessibilityLine} (h : l ∈ p.texts) :
    (∃ v, l = .title v ∧ p.chart.accessibility.title = some v ∧ v ≠ []) ∨
      ∃ v, l = .description v ∧ p.chart.accessibility.description = some v ∧ v ≠ [] := by
  rw [texts, List.mem_append] at h
  rcases h with h | h
  · obtain ⟨v, hv, rfl⟩ := Option.map_eq_some_iff.1 (Option.mem_toList.1 h)
    exact Or.inl ⟨v, rfl, present_eq_some_iff.1 hv⟩
  · obtain ⟨v, hv, rfl⟩ := Option.map_eq_some_iff.1 (Option.mem_toList.1 h)
    exact Or.inr ⟨v, rfl, present_eq_some_iff.1 hv⟩

theorem mem_assignments {x : Text × Text} (h : x ∈ p.assignments) :
    ∃ names, p.chart.classAssignments.get? x.1 = some names ∧ x.2 ∈ names ∧ p.inlineClass x.1 = none := by
  obtain ⟨⟨id, names⟩, hid, hx⟩ := List.mem_flatMap.1 h
  dsimp only at hx
  split at hx
  · exact absurd hx (by simp)
  · rename_i hnone
    obtain ⟨name, hname, rfl⟩ := List.mem_map.1 hx
    exact ⟨names, Entries.mem_toList_iff.1 hid, hname, by simpa using hnone⟩

/-- **the page of a well-formed chart holds plain statements** -/
theorem isPlain_of_writes (hp : p.chart.IsWellFormed) (hstyles : ∀ x ∈ styles, IsLinkKey x.1 ∧ x.2.IsPlain)
    {s : Statement} (h : p.Writes styles s) : s.IsPlain := by
  cases h with
  | text h =>
    rcases mem_texts h with ⟨v, rfl, hv, hne⟩ | ⟨v, rfl, hv, hne⟩
    · exact ⟨(hp.title v hv).2 hne, (hp.title v hv).1⟩
    · exact ⟨(hp.description v hv).2 hne, (hp.description v hv).1⟩
  | body h =>
    cases h with
    | opens h => exact hp.subgraph _ h
    | direction d => trivial
    | closes => trivial
    | node h => exact isPlain_single (isPlain_nodeMention hp h)
    | member h => exact isPlain_single (isPlain_bare (hp.name _ h))
    | links h hc =>
      refine isPlain_linkChains (fun l hl => hp.form l (h l hl)) (fun l hl => ?_) _ hc
      have hends := hp.ends l (h l hl)
      exact ⟨hp.name _ hends.1, hp.name _ hends.2⟩
  | tail h =>
    simp only [tailScript, List.mem_append, List.mem_map] at h
    rcases h with (((⟨x, hx, rfl⟩ | ⟨x, hx, rfl⟩) | ⟨x, hx, rfl⟩) | ⟨x, hx, rfl⟩) | ⟨x, hx, rfl⟩
    · have h := hp.classDef x hx
      exact ⟨⟨_, rfl, h.1⟩, h.2⟩
    · obtain ⟨names, hnames, hname, -⟩ := mem_assignments hx
      have h := hp.assigned _ (Entries.mem_toList_iff.2 hnames)
      exact ⟨⟨_, rfl, h.1⟩, h.2 _ hname⟩
    · have h := hp.nodeStyle x hx
      exact ⟨⟨_, rfl, h.1⟩, h.2⟩
    · exact hp.click x hx
    · have h := hstyles x hx
      exact ⟨⟨_, rfl, h.1⟩, h.2⟩

/-! ## Link styles -/

theorem isLinkKey_ofNat (n : Nat) : IsLinkKey (ofNat n) := Or.inr ⟨ofNat_ne_nil n, all_isDigit_ofNat n⟩

theorem isLinkKey_linkStyleKey {order : List Nat} {key k : Text} (h : IsLinkKey key)
    (hk : p.linkStyleKey order key = .ok k) : IsLinkKey k := by
  unfold linkStyleKey at hk
  split at hk
  · cases hr : Integer.read key with
    | error e => rw [hr] at hk; exact absurd hk (by simp [Except.map])
    | ok n =>
      rw [hr] at hk
      obtain rfl := Except.ok.inj hk
      dsimp only
      split
      · exact isLinkKey_ofNat _
      · exact h
  · obtain rfl := Except.ok.inj hk
    exact h

/-- link styles are written under keys of links -/
theorem isPlain_printedStyles (hp : p.chart.IsWellFormed) (h : p.printedStyles = .ok styles) :
    ∀ x ∈ styles, IsLinkKey x.1 ∧ x.2.IsPlain := by
  intro y hy
  obtain ⟨x, hx, hxy⟩ := exists_of_forall₂ (forall₂_of_mapM h) hy
  cases hk : p.linkStyleKey p.order x.1 with
  | error e => rw [hk] at hxy; exact absurd hxy (by simp [Except.map])
  | ok k =>
    rw [hk] at hxy
    obtain rfl := Except.ok.inj hxy
    exact ⟨isLinkKey_linkStyleKey (hp.linkStyle x hx).1 hk, (hp.linkStyle x hx).2⟩

/-! ## Reading the page -/

/-- the chart that the page of a chart shows -/
def reread (p : Page) (styles : List (Text × Style)) : Flowchart :=
  chartOf ⟨p.chart.direction, settledForest p.chart.subgraphs, []⟩ (settledScript (p.script styles))

/-- **a page that misleads nowhere is read** -/
theorem read_page (hp : p.chart.IsWellFormed) (ho : '\n' ∉ p.options.unit) (hstyles : p.printedStyles = .ok styles)
    (hm : IsFaithful (p.script styles)) :
    read (p.text styles) = .ok (p.reread styles) :=
  (read_script ho (fun x hx => isPlain_of_writes hp (isPlain_printedStyles hp hstyles)
    (writes_of_mem_script hp.toIsClosed x hx)) hm).2 ⟨_, run_script hp.toIsClosed _ _, rfl, rfl⟩

end Page

end DiagramText.Flowchart

/-
What reading makes of a flowchart. A line means at most one statement, wherever it stands (`meaning?`). The statements of
a text change its chart field by field: each field but the subgraphs is a fold over what the statements hold for it
(`chartOf`), and the subgraphs come from the `Outline`, which is all that can fail. `read_eq_ok_iff` puts the two
together: a text is accepted exactly when every line means a statement and the outline ends with nothing open, and then
the chart is `chartOf`.
-/
import DiagramText.Proofs.Flowchart.Line

namespace DiagramText.Flowchart

/-! ## What a line means -/

/-- what a line with a text means, if anything -/
def meaning? (t : Text) : Option Statement := (Statement.read ⟨0, 0, t, []⟩).toOption

theorem chainTail_ok {l : SourceLine} {t : Text} {ls : List (LinkForm × Group)} (l' : SourceLine)
    (h : chainTail l t = .ok ls) : chainTail l' t = .ok ls := by
  fun_induction chainTail l t generalizing ls with
  | case1 => rw [chainTail, if_pos rfl, ← h]
  | case2 | case3 => exact absurd h (by simp)
  | case4 t ht form after hlink group rest hgroup ih =>
    cases hc : chainTail l (Text.trim rest) with
    | error e =>
      rw [hc] at h
      exact absurd h (by simp [Except.map])
    | ok links =>
      rw [hc] at h
      rw [chainTail, if_neg ht]
      split
      · rename_i hnone
        rw [hlink] at hnone
        exact absurd hnone (by simp)
      · rename_i hsome
        rw [hlink, Option.some.injEq, Prod.mk.injEq] at hsome
        obtain ⟨rfl, rfl⟩ := hsome
        split
        · rename_i hnone
          rw [hgroup] at hnone
          exact absurd hnone (by simp)
        · rename_i hsome
          rw [hgroup, Option.some.injEq, Prod.mk.injEq] at hsome
          obtain ⟨rfl, rfl⟩ := hsome
          rw [ih hc, ← h]

theorem readChain_ok {l : SourceLine} {c : Chain} (l' : SourceLine) (hl : l'.text = l.text) (h : readChain l = .ok c) :
    readChain l' = .ok c := by
  unfold readChain at h ⊢
  rw [hl]
  split at h
  · exact absurd h (by simp)
  · cases hc : chainTail l (Text.trim _) with
    | error e =>
      rw [hc] at h
      exact absurd h (by simp [Except.map])
    | ok links =>
      rw [chainTail_ok l' hc]
      rwa [hc] at h

theorem subgraphHead_ok {l : SourceLine} {t : Text} {head : Text × Text} (l' : SourceLine)
    (h : subgraphHead l t = .ok head) : subgraphHead l' t = .ok head := by
  unfold subgraphHead at h ⊢
  split
  · rename_i hb
    rwa [hb] at h
  · rename_i hb
    rw [hb] at h
    dsimp only at h ⊢
    split
    · rename_i ha
      rwa [if_pos ha] at h
    · rename_i ha
      rw [if_neg ha] at h
      split
      · rename_i he
        rw [if_pos he] at h
        exact absurd h (by simp)
      · rename_i he
        rwa [if_neg he] at h

theorem read_ok {l : SourceLine} {s : Statement} (l' : SourceLine) (hl : l'.text = l.text)
    (h : Statement.read l = .ok s) : Statement.read l' = .ok s := by
  unfold Statement.read at h ⊢
  rw [hl]
  split at h
  · exact h
  · split at h
    · rename_i token offset hd
      unfold directionAt at h ⊢
      split at h
      · exact h
      · exact absurd h (by simp [Except.map])
    · split at h
      · rename_i c r hw
        cases hh : subgraphHead l (c :: r) with
        | error e =>
          rw [hh] at h
          exact absurd h (by simp [Except.map])
        | ok head =>
          rw [hh] at h
          rw [subgraphHead_ok l' hh]
          exact h
      · split
        · rename_i he
          rwa [if_pos he] at h
        · rename_i he
          rw [if_neg he] at h
          cases hc : readChain l with
          | error e =>
            rw [hc] at h
            exact absurd h (by simp [Except.map])
          | ok c =>
            rw [hc] at h
            rw [readChain_ok l' hl hc]
            exact h

theorem read_eq_ok_iff_meaning {l : SourceLine} {s : Statement} : Statement.read l = .ok s ↔ meaning? l.text = some s := by
  unfold meaning?
  constructor
  · intro h
    rw [read_ok (l := l) ⟨0, 0, l.text, []⟩ rfl h]
    rfl
  · intro h
    cases hr : Statement.read ⟨0, 0, l.text, []⟩ with
    | error e =>
      rw [hr] at h
      exact absurd h (by simp [Except.toOption])
    | ok s' =>
      rw [hr] at h
      obtain rfl : s' = s := by simpa [Except.toOption] using h
      exact read_ok (l := ⟨0, 0, l.text, []⟩) l rfl hr

/-! ## What statements hold -/

/-- the links of a chain, group by group -/
def linksFrom (from_ : Group) : List (LinkForm × Group) → List Link
  | [] => []
  | (form, group) :: rest => product form from_ group ++ linksFrom group rest

namespace Statement

/-- the nodes that a statement mentions -/
@[simp] def mentions : Statement → List Mention
  | chain c => c.mentions
  | _ => []

/-- the links that a statement adds -/
@[simp] def links : Statement → List Link
  | chain c => linksFrom c.first c.links
  | _ => []

/-- the style classes that a statement gives to nodes -/
@[simp] def assignments : Statement → List (Text × Text)
  | assignClass ids name => ids.map (·, name)
  | chain c => c.mentions.filterMap fun m => m.className.map (m.id, ·)
  | _ => []

/-- the style classes that a statement defines -/
@[simp] def classDefs : Statement → List (Text × Style)
  | classDef names props => names.map (·, props)
  | _ => []

/-- the styles that a statement gives to nodes -/
@[simp] def nodeStyles : Statement → List (Text × Style)
  | style ids props => ids.map (·, props)
  | _ => []

/-- the styles that a statement gives to links -/
@[simp] def linkStyles : Statement → List (Text × Style)
  | linkStyle keys props => keys.map (·, props)
  | _ => []

/-- the clicks that a statement adds -/
@[simp] def clicks : Statement → List Click
  | click c => [c]
  | _ => []

/-- the accessibility texts that a statement sets -/
@[simp] def texts : Statement → List AccessibilityLine
  | accessibility line => [line]
  | _ => []

end Statement

/-- defines a mentioned node, or lets it show its id when it is not defined yet -/
def declareNode (nodes : Entries Node) (m : Mention) : Entries Node :=
  match m.shaped with
  | some (label, shape) => nodes.insert m.id ⟨m.id, label, shape⟩
  | none => nodes.insertNew m.id ⟨m.id, m.id, .default⟩

/-- adds properties to the style kept under a key -/
def addStyle (styles : Entries Style) (p : Text × Style) : Entries Style :=
  styles.alter p.1 .empty (·.update p.2.toList)

/-- the chart after a statement, but for its direction and subgraphs -/
def record (d : Flowchart) (s : Statement) : Flowchart :=
  { d with
    nodes := s.mentions.foldl declareNode d.nodes
    links := d.links ++ s.links
    classDefs := s.classDefs.foldl (fun e p => e.insert p.1 p.2) d.classDefs
    classAssignments := s.assignments.foldl (fun e p => e.assign p.1 p.2) d.classAssignments
    nodeStyles := s.nodeStyles.foldl addStyle d.nodeStyles
    clicks := d.clicks ++ s.clicks
    linkStyles := s.linkStyles.foldl addStyle d.linkStyles
    accessibility := s.texts.foldl Accessibility.put d.accessibility }

/-! ## Outlines -/

/-- the part of a chart under construction that nests: its direction, its subgraphs, and the open ones, innermost first -/
structure Outline where
  direction : Direction
  subgraphs : List Subgraph
  open_ : List Subgraph

/-- makes a node a member -/
def Subgraph.addMember (id : Text) (s : Subgraph) : Subgraph :=
  if s.nodeIds.contains id then s else { s with nodeIds := s.nodeIds ++ [id] }

namespace Outline

/-- changes the innermost open subgraph -/
def inInnermost (f : Subgraph → Subgraph) (o : Outline) : Outline :=
  match o.open_ with
  | [] => o
  | s :: ss => { o with open_ := f s :: ss }

/-- sets the direction of the innermost open subgraph, or of the chart -/
def setDirection (d : Direction) (o : Outline) : Outline :=
  match o.open_ with
  | [] => { o with direction := d }
  | s :: ss => { o with open_ := { s with direction := some d } :: ss }

/-- puts a whole subgraph into the innermost open one, or into the chart -/
def place (s : Subgraph) (o : Outline) : Outline :=
  match o.open_ with
  | [] => { o with subgraphs := o.subgraphs ++ [s] }
  | p :: ss => { o with open_ := { p with children := p.children ++ [s] } :: ss }

/-- closes the innermost open subgraph -/
def close? (o : Outline) : Option Outline :=
  match o.open_ with
  | [] => none
  | s :: ss => some ({ o with open_ := ss }.place s)

/-- makes nodes members of the innermost open subgraph -/
def mentionAll (ms : List Mention) (o : Outline) : Outline :=
  ms.foldl (fun o m => o.inInnermost (Subgraph.addMember m.id)) o

/-- the outline after a statement; `none` when the statement closes a subgraph and none is open -/
def step (o : Outline) : Statement → Option Outline
  | .direction d => some (o.setDirection d)
  | .openSubgraph id title => some { o with open_ := ⟨id, title, [], [], none⟩ :: o.open_ }
  | .closeSubgraph => o.close?
  | s => some (o.mentionAll s.mentions)

/-- the outline after statements one after another -/
def run (o : Outline) (ss : List Statement) : Option Outline := ss.foldlM step o

end Outline

/-- the outline of a chart under construction -/
def Assembly.outline {ω : Type} (a : Assembly ω) : Outline :=
  ⟨a.chart.direction, a.chart.subgraphs, a.open_.map OpenSubgraph.subgraph⟩

/-- a chart with the direction and the subgraphs of an outline -/
def Outline.complete (o : Outline) (d : Flowchart) : Flowchart :=
  { d with direction := o.direction, subgraphs := o.subgraphs }

/-! ## One statement -/

section

variable {ω : Type} {a : Assembly ω} {o : Outline} {d : Flowchart}

/-- the assembly has an outline, and a chart that agrees with it -/
structure Assembly.Has (b : Assembly ω) (o : Outline) (d : Flowchart) : Prop where
  outline : b.outline = o
  chart : b.chart = o.complete d

theorem Assembly.Has.mention (h : a.Has o d) (id : Text) :
    (a.mention id).Has (o.inInnermost (Subgraph.addMember id)) d := by
  obtain ⟨chart, open_⟩ := a
  obtain ⟨rfl, hc⟩ := h
  cases open_ with
  | nil => exact ⟨rfl, hc⟩
  | cons s ss => exact ⟨rfl, hc⟩

/-- a change of the chart that leaves its direction and subgraphs alone -/
theorem Assembly.Has.update (h : a.Has o d) {f : Flowchart → Flowchart}
    (hf : ∀ (o : Outline) d, f (o.complete d) = o.complete (f d)) : Assembly.Has { a with chart := f a.chart } o (f d) := by
  obtain ⟨rfl, hc⟩ := h
  have hfa : f a.chart = a.outline.complete (f d) := by
    rw [← hf, ← hc]
  refine ⟨?_, hfa⟩
  rw [hfa]
  rfl

/-- such a change for every item of a list -/
theorem Assembly.Has.foldl {β : Type} {g : Assembly ω → β → Assembly ω} {f : Flowchart → β → Flowchart}
    (hg : ∀ (a : Assembly ω) o d x, a.Has o d → (g a x).Has o (f d x)) (h : a.Has o d) (xs : List β) :
    (xs.foldl g a).Has o (xs.foldl f d) := by
  induction xs generalizing a d with
  | nil => exact h
  | cons x xs ih => exact ih (hg a o d x h)

/-- the chart after a mention -/
def recordMention (d : Flowchart) (m : Mention) : Flowchart :=
  { d with
    nodes := declareNode d.nodes m
    classAssignments := (m.className.map (m.id, ·)).toList.foldl (fun e p => e.assign p.1 p.2) d.classAssignments }

theorem Assembly.Has.meet (h : a.Has o d) (m : Mention) :
    (a.meet m).Has (o.inInnermost (Subgraph.addMember m.id)) (recordMention d m) := by
  obtain ⟨id, shaped, className⟩ := m
  cases shaped with
  | none =>
    have hdef := (h.update (f := fun d => { d with nodes := declareNode d.nodes ⟨id, none, none⟩ })
      fun _ _ => rfl).mention id
    cases className with
    | none => exact hdef
    | some name =>
      exact hdef.update (f := fun d => { d with classAssignments := d.classAssignments.assign id name }) fun _ _ => rfl
  | some p =>
    have hdef := (h.update (f := fun d => { d with nodes := declareNode d.nodes ⟨id, some p, none⟩ })
      fun _ _ => rfl).mention id
    cases className with
    | none => exact hdef
    | some name =>
      exact hdef.update (f := fun d => { d with classAssignments := d.classAssignments.assign id name }) fun _ _ => rfl

theorem Assembly.Has.meetGroup (h : a.Has o d) (g : Group) :
    (a.meetGroup g).Has (o.mentionAll g) (g.foldl recordMention d) := by
  induction g generalizing a o d with
  | nil => exact h
  | cons m ms ih => exact ih (h.meet m)

theorem Assembly.Has.links (h : a.Has o d) (ls : List Link) :
    (ls.foldl (fun a l => a.link l) a).Has o { d with links := d.links ++ ls } := by
  induction ls generalizing a d with
  | nil => simpa using h
  | cons l ls ih =>
    have := ih (a := a.link l) (h.update (f := fun d => { d with links := d.links ++ [l] }) fun _ _ => rfl)
    simp only [List.append_assoc, List.singleton_append] at this
    exact this

theorem links_foldl_recordMention (d : Flowchart) (g : Group) : (g.foldl recordMention d).links = d.links := by
  induction g generalizing d with
  | nil => rfl
  | cons m ms ih => exact ih (recordMention d m)

theorem foldl_recordMention_links (d : Flowchart) (g : Group) (ls : List Link) :
    g.foldl recordMention { d with links := ls } = { g.foldl recordMention d with links := ls } := by
  induction g generalizing d with
  | nil => rfl
  | cons m ms ih => exact ih (recordMention d m)

theorem Assembly.Has.follow (h : a.Has o d) (from_ : Group) (ls : List (LinkForm × Group)) :
    (a.follow from_ ls).Has (o.mentionAll (ls.flatMap Prod.snd))
      { (ls.flatMap Prod.snd).foldl recordMention d with links := d.links ++ linksFrom from_ ls } := by
  induction ls generalizing a o d from_ with
  | nil =>
    simp only [linksFrom, List.append_nil]
    exact h
  | cons p ls ih =>
    obtain ⟨form, group⟩ := p
    have hrest := ih ((h.meetGroup group).links (product form from_ group)) group
    simp only [foldl_recordMention_links, links_foldl_recordMention, List.append_assoc] at hrest
    simpa only [Assembly.follow, List.flatMap_cons, Outline.mentionAll, List.foldl_append, linksFrom] using hrest

/-- the mentions of a chain, field by field -/
theorem foldl_recordMention (d : Flowchart) (g : Group) :
    g.foldl recordMention d = { d with
      nodes := g.foldl declareNode d.nodes
      classAssignments := (g.filterMap fun m => m.className.map (m.id, ·)).foldl (fun e p => e.assign p.1 p.2)
        d.classAssignments } := by
  induction g generalizing d with
  | nil => rfl
  | cons m ms ih =>
    rw [List.foldl_cons, ih]
    cases hc : m.className <;> simp [recordMention, hc]

/-- changing one field step by step is changing it once -/
theorem foldl_field {γ β : Type} (get : Flowchart → γ) (set : γ → Flowchart → Flowchart) (h₁ : ∀ e d, get (set e d) = e)
    (h₂ : ∀ e e' d, set e (set e' d) = set e d) (h₃ : ∀ d, set (get d) d = d) (step : γ → β → γ) (d : Flowchart)
    (xs : List β) : xs.foldl (fun d x => set (step (get d) x) d) d = set (xs.foldl step (get d)) d := by
  induction xs generalizing d with
  | nil => exact (h₃ d).symm
  | cons x xs ih => rw [List.foldl_cons, ih, h₁, h₂, List.foldl_cons]

/-- **one statement**: it fails where the outline does, and changes the chart as recorded -/
theorem Assembly.apply_has {a : Assembly SourceLine} (h : a.Has o d) (l : SourceLine) (s : Statement) :
    match o.step s with
    | some o' => ∃ b, a.apply l s = .ok b ∧ b.Has o' (record d s)
    | none => ∃ e, a.apply l s = .error e := by
  cases s with
  | accessibility line =>
    refine ⟨_, rfl, ?_⟩
    have e : record d (.accessibility line) = { d with accessibility := d.accessibility.put line } := by simp [record]
    rw [e]
    exact h.update (f := fun d => { d with accessibility := d.accessibility.put line }) fun _ _ => rfl
  | classDef names props =>
    refine ⟨_, rfl, ?_⟩
    have e : record d (.classDef names props)
        = names.foldl (fun d n => { d with classDefs := d.classDefs.insert n props }) d := by
      rw [foldl_field Flowchart.classDefs (fun e d => { d with classDefs := e }) (fun _ _ => rfl) (fun _ _ _ => rfl)
        (fun _ => rfl) fun e n => e.insert n props]
      simp [record, List.foldl_map]
    rw [e]
    exact h.foldl (fun a o d n h => h.update (f := fun d => { d with classDefs := d.classDefs.insert n props })
      fun _ _ => rfl) names
  | assignClass ids name =>
    refine ⟨_, rfl, ?_⟩
    have e : record d (.assignClass ids name)
        = ids.foldl (fun d id => { d with classAssignments := d.classAssignments.assign id name }) d := by
      rw [foldl_field Flowchart.classAssignments (fun e d => { d with classAssignments := e }) (fun _ _ => rfl)
        (fun _ _ _ => rfl) (fun _ => rfl) fun e id => e.assign id name]
      simp [record, List.foldl_map]
    rw [e]
    exact h.foldl (fun a o d id h => h.update
      (f := fun d => { d with classAssignments := d.classAssignments.assign id name }) fun _ _ => rfl) ids
  | style ids props =>
    refine ⟨_, rfl, ?_⟩
    have e : record d (.style ids props)
        = ids.foldl (fun d id => { d with nodeStyles := addStyle d.nodeStyles (id, props) }) d := by
      rw [foldl_field Flowchart.nodeStyles (fun e d => { d with nodeStyles := e }) (fun _ _ => rfl) (fun _ _ _ => rfl)
        (fun _ => rfl) fun e id => addStyle e (id, props)]
      simp [record, List.foldl_map]
    rw [e]
    exact h.foldl (fun a o d id h => h.update
      (f := fun d => { d with nodeStyles := addStyle d.nodeStyles (id, props) }) fun _ _ => rfl) ids
  | linkStyle keys props =>
    refine ⟨_, rfl, ?_⟩
    have e : record d (.linkStyle keys props)
        = keys.foldl (fun d key => { d with linkStyles := addStyle d.linkStyles (key, props) }) d := by
      rw [foldl_field Flowchart.linkStyles (fun e d => { d with linkStyles := e }) (fun _ _ => rfl) (fun _ _ _ => rfl)
        (fun _ => rfl) fun e key => addStyle e (key, props)]
      simp [record, List.foldl_map]
    rw [e]
    exact h.foldl (fun a o d key h => h.update
      (f := fun d => { d with linkStyles := addStyle d.linkStyles (key, props) }) fun _ _ => rfl) keys
  | click c =>
    refine ⟨_, rfl, ?_⟩
    have e : record d (.click c) = { d with clicks := d.clicks ++ [c] } := by simp [record]
    rw [e]
    exact h.update (f := fun d => { d with clicks := d.clicks ++ [c] }) fun _ _ => rfl
  | direction dir =>
    refine ⟨_, rfl, ?_⟩
    have e : record d (.direction dir) = d := by simp [record]
    rw [e]
    obtain ⟨chart, open_⟩ := a
    obtain ⟨rfl, hc⟩ := h
    cases open_ with
    | nil => exact ⟨rfl, congrArg (fun c : Flowchart => { c with direction := dir }) hc⟩
    | cons s ss => exact ⟨rfl, hc⟩
  | openSubgraph id title =>
    refine ⟨_, rfl, ?_⟩
    have e : record d (.openSubgraph id title) = d := by simp [record]
    rw [e]
    obtain ⟨rfl, hc⟩ := h
    exact ⟨rfl, hc⟩
  | closeSubgraph =>
    have e : record d .closeSubgraph = d := by simp [record]
    rw [e]
    obtain ⟨chart, open_⟩ := a
    obtain ⟨rfl, hc⟩ := h
    rcases open_ with - | ⟨s, - | ⟨p, ss⟩⟩
    · exact ⟨_, rfl⟩
    · exact ⟨_, rfl, rfl, congrArg (fun c : Flowchart => { c with subgraphs := c.subgraphs ++ [s.subgraph] }) hc⟩
    · exact ⟨_, rfl, rfl, hc⟩
  | chain c =>
    refine ⟨_, rfl, ?_⟩
    have e : record d (.chain c) = { c.mentions.foldl recordMention d with links := d.links ++ linksFrom c.first c.links } := by
      rw [foldl_recordMention]
      simp [record]
    rw [e]
    have := (h.meetGroup c.first).follow c.first c.links
    simpa only [Outline.mentionAll, Chain.mentions, List.foldl_append, links_foldl_recordMention, Statement.mentions]
      using this

end

/-! ## Whole texts -/

/-- a line and its statement -/
def Means (t : Text) (s : Statement) : Prop := meaning? t = some s

theorem Assembly.readLine_of_means {a : Assembly SourceLine} {l : SourceLine} {s : Statement} (h : Means l.text s) :
    a.readLine l = a.apply l s := by
  rw [Assembly.readLine, read_eq_ok_iff_meaning.2 h]
  rfl

/-- reading lines that mean statements -/
theorem Assembly.foldlM_has {a : Assembly SourceLine} {o : Outline} {d : Flowchart} (h : a.Has o d)
    {ls : List SourceLine} {ss : List Statement} (hs : List.Forall₂ Means (ls.map SourceLine.text) ss) :
    match o.run ss with
    | some o' => ∃ b, ls.foldlM Assembly.readLine a = .ok b ∧ b.Has o' (ss.foldl record d)
    | none => ∃ e, ls.foldlM Assembly.readLine a = .error e := by
  induction ls generalizing a o d ss with
  | nil =>
    obtain rfl := List.forall₂_nil_left_iff.1 hs
    exact ⟨a, rfl, h⟩
  | cons l ls ih =>
    obtain ⟨s, ss, hm, hss, rfl⟩ := List.forall₂_cons_left_iff.1 hs
    have hstep := Assembly.apply_has h l s
    rw [Outline.run, List.foldlM_cons, List.foldlM_cons, Assembly.readLine_of_means hm]
    cases ho : o.step s with
    | none =>
      rw [ho] at hstep
      obtain ⟨e, he⟩ := hstep
      rw [he]
      exact ⟨e, rfl⟩
    | some o' =>
      rw [ho] at hstep
      obtain ⟨b, hb, hhas⟩ := hstep
      rw [hb]
      exact ih hhas hss

/-- lines that are read mean statements -/
theorem exists_means_of_foldlM {a b : Assembly SourceLine} {ls : List SourceLine}
    (h : ls.foldlM Assembly.readLine a = .ok b) : ∃ ss, List.Forall₂ Means (ls.map SourceLine.text) ss := by
  induction ls generalizing a with
  | nil => exact ⟨[], .nil⟩
  | cons l ls ih =>
    rw [List.foldlM_cons] at h
    cases hr : Statement.read l with
    | error e =>
      have he : a.readLine l = .error e := by
        rw [Assembly.readLine, hr]
        rfl
      rw [he] at h
      exact absurd h (by simp [bind, Except.bind])
    | ok s =>
      cases hl : a.readLine l with
      | error e =>
        rw [hl] at h
        exact absurd h (by simp [bind, Except.bind])
      | ok a' =>
        rw [hl] at h
        obtain ⟨ss, hss⟩ := ih h
        exact ⟨s :: ss, .cons (read_eq_ok_iff_meaning.1 hr) hss⟩

/-- the chart of statements with a finished outline -/
def chartOf (o : Outline) (ss : List Statement) : Flowchart := o.complete (ss.foldl record {})

/-- **what is accepted, and what is made of it**: every line of the body means a statement, no subgraph is closed too
often or left open, and the chart is that of the statements -/
theorem read_eq_ok_iff {text : Text} {d : Flowchart} :
    read text = .ok d ↔ ∃ dir ss o, headerDirection (splitHeader .flowchart (sourceLines true text)).1 = .ok dir ∧
      List.Forall₂ Means ((splitHeader .flowchart (sourceLines true text)).2.map SourceLine.text) ss ∧
      Outline.run ⟨dir, [], []⟩ ss = some o ∧ o.open_ = [] ∧ d = chartOf o ss := by
  unfold read
  generalize splitHeader .flowchart (sourceLines true text) = split
  obtain ⟨header, body⟩ := split
  dsimp only
  have hstart : ∀ dir, Assembly.Has (ω := SourceLine) ⟨{ direction := dir }, []⟩ ⟨dir, [], []⟩ {} := fun _ => ⟨rfl, rfl⟩
  have hfinish : ∀ {b : Assembly SourceLine} {o ss}, b.Has o (ss.foldl record {}) →
      (b.finish = .ok d ↔ o.open_ = [] ∧ d = chartOf o ss) := by
    rintro ⟨chart, open_⟩ o ss ⟨rfl, hc⟩
    dsimp only at hc
    cases open_ with
    | nil =>
      simp only [Assembly.finish, Except.ok.injEq, Assembly.outline, List.map_nil, true_and]
      rw [hc]
      exact eq_comm
    | cons s ss => simp [Assembly.finish, Assembly.outline]
  constructor
  · intro h
    cases hdir : headerDirection header with
    | error e =>
      rw [hdir] at h
      exact absurd h (by simp [bind, Except.bind])
    | ok dir =>
      rw [hdir] at h
      change (body.foldlM Assembly.readLine ⟨{ direction := dir }, []⟩ >>= Assembly.finish) = .ok d at h
      cases hb : body.foldlM Assembly.readLine ⟨{ direction := dir }, []⟩ with
      | error e =>
        rw [hb] at h
        exact absurd h (by simp [bind, Except.bind])
      | ok b =>
        rw [hb] at h
        obtain ⟨ss, hss⟩ := exists_means_of_foldlM hb
        have hrun := Assembly.foldlM_has (hstart dir) hss
        cases ho : Outline.run ⟨dir, [], []⟩ ss with
        | none =>
          rw [ho] at hrun
          obtain ⟨e, he⟩ := hrun
          rw [hb] at he
          exact absurd he (by simp)
        | some o =>
          rw [ho] at hrun
          obtain ⟨b', hb', hhas⟩ := hrun
          rw [hb, Except.ok.injEq] at hb'
          subst hb'
          obtain ⟨h1, h2⟩ := (hfinish hhas).1 h
          exact ⟨dir, ss, o, rfl, hss, ho, h1, h2⟩
  · rintro ⟨dir, ss, o, hdir, hss, ho, hopen, hd⟩
    have hrun := Assembly.foldlM_has (hstart dir) hss
    rw [ho] at hrun
    obtain ⟨b, hb, hhas⟩ := hrun
    rw [hdir]
    change (body.foldlM Assembly.readLine ⟨{ direction := dir }, []⟩ >>= Assembly.finish) = .ok d
    rw [hb]
    exact (hfinish hhas).2 ⟨hopen, hd⟩

/-! ## Fields of the chart -/

theorem foldl_record (d : Flowchart) (ss : List Statement) :
    ss.foldl record d = { d with
      nodes := (ss.flatMap Statement.mentions).foldl declareNode d.nodes
      links := d.links ++ ss.flatMap Statement.links
      classDefs := (ss.flatMap Statement.classDefs).foldl (fun e p => e.insert p.1 p.2) d.classDefs
      classAssignments := (ss.flatMap Statement.assignments).foldl (fun e p => e.assign p.1 p.2) d.classAssignments
      nodeStyles := (ss.flatMap Statement.nodeStyles).foldl addStyle d.nodeStyles
      clicks := d.clicks ++ ss.flatMap Statement.clicks
      linkStyles := (ss.flatMap Statement.linkStyles).foldl addStyle d.linkStyles
      accessibility := (ss.flatMap Statement.texts).foldl Accessibility.put d.accessibility } := by
  induction ss generalizing d with
  | nil => simp
  | cons s ss ih =>
    rw [List.foldl_cons, ih]
    simp only [record, List.flatMap_cons, List.foldl_append, List.append_assoc]

theorem chartOf_eq (o : Outline) (ss : List Statement) :
    chartOf o ss = {
      direction := o.direction
      nodes := (ss.flatMap Statement.mentions).foldl declareNode .empty
      links := ss.flatMap Statement.links
      subgraphs := o.subgraphs
      classDefs := (ss.flatMap Statement.classDefs).foldl (fun e p => e.insert p.1 p.2) .empty
      classAssignments := (ss.flatMap Statement.assignments).foldl (fun e p => e.assign p.1 p.2) .empty
      nodeStyles := (ss.flatMap Statement.nodeStyles).foldl addStyle .empty
      clicks := ss.flatMap Statement.clicks
      linkStyles := (ss.flatMap Statement.linkStyles).foldl addStyle .empty
      accessibility := (ss.flatMap Statement.texts).foldl Accessibility.put {} } := by
  rw [chartOf, foldl_record]
  rfl

end DiagramText.Flowchart

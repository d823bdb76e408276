/-
Building flowcharts. `Call.account` says which names a call refers to and which it declares, at any depth of subgraphs.
`ScopeCall.records` is the step lemma: a call that is not refused enters exactly its account, whatever subgraphs are open.
A refused call has no effect unless it is a subgraph: that one stays open, and takes the subgraphs of all later calls with it
(`subgraphs_after_refused`).
-/
import DiagramText.Flowchart.Builder
import DiagramText.Proofs.Entries
import DiagramText.Proofs.Ledger

namespace DiagramText.Flowchart

variable {P Q : Text → Prop}

/-! ## What calls say about names -/

mutual

/-- what a call on a scope says about names -/
def ScopeCall.account : ScopeCall → Account
  | .node id _ _ => { entities := [id] }
  | .link l =>
    let construct := "link " ++ l.source ++ " --> " ++ l.target
    { references := [.entity construct l.source, .entity construct l.target] }
  | .subgraph _ _ _ body => scopeAccount body
  | .member id => { references := [.entity ("subgraph member " ++ id) id] }
  | .direction _ => {}

/-- what the calls in a subgraph say about names -/
def scopeAccount : List ScopeCall → Account
  | [] => {}
  | c :: cs => c.account ++ scopeAccount cs

end

/-- what a call says about names -/
def Call.account : Call → Account
  | .scope c => c.account
  | .defineClass name _ => { classDefs := [name] }
  | .assignClass ids name => .concat (ids.map (.classAssignment name))
  | .styleNode id _ => { references := [.entity ("style " ++ id) id] }
  | .click c => { references := [.entity ("click " ++ c.nodeId) c.nodeId] }
  | .styleLink _ _ | .describe _ => {}

/-! ## Which names the parts of a chart refer to -/

/-- the members of the subgraph, and of all below it, are among these nodes -/
def Subgraph.RefersOnlyTo (P : Text → Prop) (s : Subgraph) : Prop := ∀ t ∈ s.walk, ∀ id ∈ t.nodeIds, P id

theorem Subgraph.refersOnlyTo_iff {s : Subgraph} : s.RefersOnlyTo P ↔
    (∀ id ∈ s.nodeIds, P id) ∧ ∀ t ∈ walkAll s.children, ∀ id ∈ t.nodeIds, P id := forall_mem_walk

/-- every name that a part of the chart refers to is one of these nodes or style classes -/
structure RefersOnlyTo (P Q : Text → Prop) (d : Flowchart) : Prop where
  link : ∀ l ∈ d.links, P l.source ∧ P l.target
  member : ∀ s ∈ walkAll d.subgraphs, ∀ id ∈ s.nodeIds, P id
  styled : ∀ id ∈ d.nodeStyles.keys, P id
  clicked : ∀ c ∈ d.clicks, P c.nodeId
  assigned : ∀ x ∈ d.classAssignments.toList, Entries.IsAssigned P Q x

namespace Assembly

variable {a : Assembly Unit} {f : Subgraph → Subgraph}

@[simp] theorem chart_inInnermost {ω : Type} (f : Subgraph → Subgraph) (a : Assembly ω) : (a.inInnermost f).chart = a.chart := by
  unfold inInnermost
  split <;> rfl

@[simp] theorem chart_mention {ω : Type} (id : Text) (a : Assembly ω) : (a.mention id).chart = a.chart := chart_inInnermost _ a

/-- as `Flowchart.RefersOnlyTo`, with the subgraphs that are open -/
structure RefersOnlyTo (P Q : Text → Prop) (a : Assembly Unit) : Prop where
  chart : a.chart.RefersOnlyTo P Q
  open_ : ∀ o ∈ a.open_, o.subgraph.RefersOnlyTo P

namespace RefersOnlyTo

variable (h : a.RefersOnlyTo P Q)
include h

theorem inInnermost (hf : ∀ s : Subgraph, s.RefersOnlyTo P → (f s).RefersOnlyTo P) : (a.inInnermost f).RefersOnlyTo P Q where
  chart := by
    rw [chart_inInnermost]
    exact h.chart
  open_ := by
    have hopen := h.open_
    unfold Assembly.inInnermost
    split
    · exact hopen
    · rename_i o os ho
      rw [ho, List.forall_mem_cons] at hopen
      exact List.forall_mem_cons.2 ⟨hf _ hopen.1, hopen.2⟩

theorem mention {id : Text} (hid : P id) : (a.mention id).RefersOnlyTo P Q := by
  refine h.inInnermost fun s hs => ?_
  split
  · exact hs
  · rw [Subgraph.refersOnlyTo_iff] at hs ⊢
    exact ⟨List.forall_mem_append.2 ⟨hs.1, by simpa using hid⟩, hs.2⟩

theorem defineNode {n : Node} (hid : P n.id) : (a.defineNode n).RefersOnlyTo P Q :=
  RefersOnlyTo.mention (a := { a with chart := { a.chart with nodes := a.chart.nodes.insert n.id n } })
    ⟨{ h.chart with }, h.open_⟩ hid

theorem link {l : Link} (hl : P l.source ∧ P l.target) : (a.link l).RefersOnlyTo P Q where
  chart := { h.chart with link := List.forall_mem_append.2 ⟨h.chart.link, by simpa using hl⟩ }
  open_ := h.open_

theorem assignClass {id name : Text} (hid : P id) (hname : Q name) : (a.assignClass id name).RefersOnlyTo P Q where
  chart := { h.chart with assigned := Entries.isAssigned_assign h.chart.assigned hid hname }
  open_ := h.open_

theorem styleNode {id : Text} (hid : P id) (style : Style) : (a.styleNode id style).RefersOnlyTo P Q where
  chart := { h.chart with
    styled := by
      intro k hk
      rw [Assembly.styleNode, Entries.keys_alter] at hk
      split at hk
      · exact h.chart.styled k hk
      · exact (List.mem_append.1 hk).elim (h.chart.styled k) fun hk => List.mem_singleton.1 hk ▸ hid }
  open_ := h.open_

theorem click {c : Click} (hc : P c.nodeId) : (a.click c).RefersOnlyTo P Q where
  chart := { h.chart with clicked := List.forall_mem_append.2 ⟨h.chart.clicked, by simpa using hc⟩ }
  open_ := h.open_

theorem openSubgraph {s : Subgraph} (hs : s.RefersOnlyTo P) : (a.openSubgraph () s).RefersOnlyTo P Q where
  chart := h.chart
  open_ := List.forall_mem_cons.2 ⟨hs, h.open_⟩

theorem closeSubgraph {a' : Assembly Unit} (hclose : a.closeSubgraph? = some a') : a'.RefersOnlyTo P Q := by
  have hopen := h.open_
  unfold closeSubgraph? at hclose
  split at hclose
  · exact absurd hclose nofun
  · rename_i o ho
    obtain rfl := Option.some.inj hclose
    rw [ho, List.forall_mem_singleton] at hopen
    refine ⟨{ h.chart with member := ?_ }, by simp⟩
    simp only [walkAll_append, List.forall_mem_append, mem_walkAll_singleton]
    exact ⟨h.chart.member, hopen⟩
  · rename_i o p os ho
    obtain rfl := Option.some.inj hclose
    simp only [ho, List.forall_mem_cons] at hopen
    obtain ⟨hmembers, hchildren⟩ := Subgraph.refersOnlyTo_iff.1 hopen.2.1
    refine ⟨h.chart, List.forall_mem_cons.2 ⟨Subgraph.refersOnlyTo_iff.2 ⟨hmembers, ?_⟩, hopen.2.2⟩⟩
    simp only [walkAll_append, List.forall_mem_append, mem_walkAll_singleton]
    exact ⟨hchildren, hopen.1⟩

end RefersOnlyTo

end Assembly

/-! ## Calls enter their accounts -/

namespace Builder

/-- references and declared names of a chart under construction -/
def ledger : Ledger Builder where
  log := Builder.log
  entities b := b.chart.nodes.keys
  classDefs b := b.chart.classDefs.keys
  Within P Q b := b.assembly.RefersOnlyTo P Q

variable {b : Builder}

/-- a change of the chart that declares no name, after references -/
theorem records_update {refs : List Reference} {f : Assembly Unit → Assembly Unit}
    (hnodes : (f b.assembly).chart.nodes = b.assembly.chart.nodes)
    (hclasses : (f b.assembly).chart.classDefs = b.assembly.chart.classDefs)
    (hwithin : ∀ {P Q}, b.assembly.RefersOnlyTo P Q → (∀ r ∈ refs, r.IsKnown P Q) → (f b.assembly).RefersOnlyTo P Q) :
    ledger.Records { references := refs } b ((b.mention refs).update f) where
  sound := id
  log := rfl
  entities _ id := by
    change id ∈ (f b.assembly).chart.nodes.keys ↔ _
    rw [hnodes]
    simp [ledger, chart]
  classDefs name := by
    change name ∈ (f b.assembly).chart.classDefs.keys ↔ _
    rw [hclasses]
    simp [ledger, chart]
  within h hrefs _ := hwithin h hrefs

/-- a change of the chart that neither declares nor mentions a name -/
theorem records_change {f : Assembly Unit → Assembly Unit}
    (hnodes : (f b.assembly).chart.nodes = b.assembly.chart.nodes)
    (hclasses : (f b.assembly).chart.classDefs = b.assembly.chart.classDefs)
    (hwithin : ∀ {P Q}, b.assembly.RefersOnlyTo P Q → (f b.assembly).RefersOnlyTo P Q) :
    ledger.Records {} b (b.update f) := by
  have hmention : b.mention [] = b := by rw [mention, List.append_nil]
  have h : ledger.Records {} b ((b.mention []).update f) := records_update hnodes hclasses fun hb _ => hwithin hb
  rwa [hmention] at h

theorem records_node (id : Text) (label : Option Text) (shape : Option NodeShape) :
    ledger.Records { entities := [id] } b (b.node id label shape) where
  sound := fun h => h
  log := (List.append_nil _).symm
  entities _ k := by
    change k ∈ (Assembly.defineNode _ b.assembly).chart.nodes.keys ↔ _
    rw [Assembly.defineNode, Assembly.chart_mention, Entries.mem_keys_insert, List.mem_singleton]
    exact Iff.rfl
  classDefs k := by
    change k ∈ (Assembly.defineNode _ b.assembly).chart.classDefs.keys ↔ _
    rw [Assembly.defineNode, Assembly.chart_mention]
    simp [ledger, chart]
  within h _ hids := h.defineNode (hids id (List.mem_singleton_self id))

theorem records_link (l : Link) : ledger.Records (ScopeCall.link l).account b (b.link l) := by
  rw [ScopeCall.account]
  refine records_update (f := fun a => ((a.mention l.source).mention l.target).link l) ?_ ?_ fun h hrefs => ?_
  · simp [Assembly.link]
  · simp [Assembly.link]
  · simp only [List.forall_mem_cons, Reference.isKnown_entity] at hrefs
    exact ((h.mention hrefs.1).mention hrefs.2.1).link ⟨hrefs.1, hrefs.2.1⟩

theorem records_openSubgraph (id : Text) (title : Option Text) (direction : Option Direction) :
    ledger.Records {} b (b.openSubgraph id title direction) :=
  records_change rfl rfl fun h => h.openSubgraph (Subgraph.refersOnlyTo_iff.2 ⟨by simp, by simp [walkAll]⟩)

theorem records_closeSubgraph : ledger.Records {} b b.closeSubgraph := by
  cases hclose : b.assembly.closeSubgraph? with
  | none =>
    rw [closeSubgraph]
    refine records_change ?_ ?_ fun h => ?_ <;> rw [hclose]
    · rfl
    · rfl
    · exact h
  | some a =>
    have hchart : a.chart.nodes = b.assembly.chart.nodes ∧ a.chart.classDefs = b.assembly.chart.classDefs := by
      unfold Assembly.closeSubgraph? at hclose
      split at hclose
      · exact absurd hclose nofun
      all_goals
        obtain rfl := Option.some.inj hclose
        exact ⟨rfl, rfl⟩
    rw [closeSubgraph]
    refine records_change ?_ ?_ fun h => ?_ <;> rw [hclose]
    · exact hchart.1
    · exact hchart.2
    · exact h.closeSubgraph hclose

theorem records_member (id : Text) : ledger.Records (ScopeCall.member id).account b (b.member id) := by
  rw [ScopeCall.account]
  refine records_update (by simp) (by simp) fun h hrefs => h.mention ?_
  simpa using hrefs

end Builder

mutual

/-- **a call that is not refused enters its account**, with all calls in it -/
theorem ScopeCall.records (b : Builder) : (c : ScopeCall) → (c.run b).2 = none →
    Builder.ledger.Records c.account b (c.run b).1
  | .node id label shape, _ => by
    rw [ScopeCall.account, ScopeCall.run]
    exact Builder.records_node id label shape
  | .link l, h => by
    rw [ScopeCall.run] at h ⊢
    split at h
    · exact absurd h nofun
    · exact Builder.records_link l
  | .subgraph id title direction body, h => by
    rw [ScopeCall.run] at h ⊢
    split at h
    · rename_i b' hrun
      have hbody := records_runAll (b.openSubgraph id title direction) body (by rw [hrun])
      have hsubgraph := ((Builder.records_openSubgraph id title direction).trans hbody).trans Builder.records_closeSubgraph
      rw [hrun] at hsubgraph
      rw [ScopeCall.account]
      simpa only [Account.empty_append, Account.append_empty] using hsubgraph
    · exact absurd h nofun
  | .member id, _ => by
    rw [ScopeCall.run]
    exact Builder.records_member id
  | .direction d, _ => by
    rw [ScopeCall.account, ScopeCall.run]
    exact Builder.records_change (by simp) (by simp) fun h =>
      h.inInnermost fun s hs => Subgraph.refersOnlyTo_iff.2 (Subgraph.refersOnlyTo_iff (s := s) |>.1 hs)

/-- calls on a scope none of which is refused enter their accounts -/
theorem records_runAll (b : Builder) : (cs : List ScopeCall) → (runAll b cs).2 = none →
    Builder.ledger.Records (scopeAccount cs) b (runAll b cs).1
  | [], _ => by
    rw [scopeAccount, runAll]
    exact .refl b
  | c :: cs, h => by
    rw [scopeAccount]
    rw [runAll] at h ⊢
    split at h
    · rename_i b' hrun
      have hc := ScopeCall.records b c (by rw [hrun])
      rw [hrun] at hc
      exact hc.trans (records_runAll b' cs h)
    · exact absurd h nofun

end

namespace Builder

variable {b : Builder}

theorem records_defineClass (name : Text) (style : Style) :
    ledger.Records { classDefs := [name] } b (b.update (·.defineClass name style)) where
  sound := id
  log := (List.append_nil _).symm
  entities _ id := by
    change id ∈ b.chart.nodes.keys ↔ id ∈ b.chart.nodes.keys ∨ id ∈ []
    simp
  classDefs k := by
    change k ∈ (b.chart.classDefs.insert name style).keys ↔ k ∈ b.chart.classDefs.keys ∨ k ∈ [name]
    rw [Entries.mem_keys_insert, List.mem_singleton]
  within h _ _ := ⟨{ h.chart with }, h.open_⟩

theorem records_assignClass (name id : Text) : ledger.Records (.classAssignment name id) b (b.assignClass name id) :=
  records_update (f := (·.assignClass id name)) rfl rfl fun h hrefs => by
    simp only [List.forall_mem_cons, Reference.isKnown_entity, Reference.isKnown_classDef] at hrefs
    exact h.assignClass hrefs.1 hrefs.2.1

end Builder

theorem Call.records (b : Builder) (c : Call) (h : (c.run b).2 = none) : Builder.ledger.Records c.account b (c.run b).1 := by
  cases c with
  | scope c => exact c.records b h
  | defineClass name style => exact Builder.records_defineClass name style
  | assignClass ids name => exact Ledger.Records.foldl (fun b id => Builder.records_assignClass name id) ids b
  | styleNode id style =>
    exact Builder.records_update (f := (·.styleNode id style)) rfl rfl fun h hrefs =>
      h.styleNode (hrefs _ (List.mem_singleton_self _)) style
  | click c =>
    exact Builder.records_update (f := (·.click c)) rfl rfl fun h hrefs => h.click (hrefs _ (List.mem_singleton_self _))
  | styleLink index style =>
    rw [run] at h ⊢
    split at h
    · rw [if_pos ‹_›]
      exact Builder.records_change (f := (·.styleLink index.key style)) rfl rfl fun h => ⟨{ h.chart with }, h.open_⟩
    · exact absurd h nofun
  | describe line => exact Builder.records_change (f := (·.describe line)) rfl rfl fun h => ⟨{ h.chart with }, h.open_⟩

/-! ## Validated builds -/

/-- every name that a part of the chart refers to is a node or a style class of the chart -/
def IsSelfContained (d : Flowchart) : Prop := d.RefersOnlyTo (· ∈ d.nodes.keys) (· ∈ d.classDefs.keys)

theorem Builder.refersOnlyTo_start (dir : Direction) : (Builder.start dir).assembly.RefersOnlyTo P Q where
  chart := by
    refine ⟨?_, ?_, ?_, ?_, ?_⟩ <;> simp [start, walkAll, Entries.keys, Entries.empty]
  open_ := by simp [start]

/-- **validated flowcharts**: the check decides by what the calls say about names -/
theorem validates_build (dir : Direction) {calls : List Call} (h : Ledger.Accepts Call.run (Builder.start dir) calls) :
    (Account.concat (calls.map Call.account)).Validates IsSelfContained (((Builder.start dir).run calls).build) :=
  (Ledger.Records.foldl_accepts (L := Builder.ledger) Call.records h).validates rfl trivial
    (fun _ _ => Builder.refersOnlyTo_start dir) fun _ h => h.chart

/-! ## What calls on a scope keep -/

/-- a property of charts under construction that every step of a call on a scope keeps -/
structure Builder.IsKept (P : Builder → Prop) : Prop where
  node : ∀ {b : Builder} (id : Text) (label : Option Text) (shape : Option NodeShape), P b → P (b.node id label shape)
  link : ∀ {b : Builder} (l : Link), P b → P (b.link l)
  openSubgraph : ∀ {b : Builder} (id : Text) (title : Option Text) (direction : Option Direction),
    P b → P (b.openSubgraph id title direction)
  closeSubgraph : ∀ {b : Builder}, P b → P b.closeSubgraph
  member : ∀ {b : Builder} (id : Text), P b → P (b.member id)
  direction : ∀ {b : Builder} (d : Direction), P b → P (b.update (·.inInnermost fun s => { s with direction := some d }))

mutual

/-- what the steps keep, a call keeps, refused or not -/
theorem ScopeCall.keeps {P : Builder → Prop} (h : Builder.IsKept P) {b : Builder} (hb : P b) : (c : ScopeCall) → P (c.run b).1
  | .node id label shape => by
    rw [ScopeCall.run]
    exact h.node id label shape hb
  | .link l => by
    rw [ScopeCall.run]
    split
    · exact hb
    · exact h.link l hb
  | .member id => by
    rw [ScopeCall.run]
    exact h.member id hb
  | .direction d => by
    rw [ScopeCall.run]
    exact h.direction d hb
  | .subgraph id title direction body => by
    have hbody := keeps_runAll h (h.openSubgraph id title direction hb) body
    rw [ScopeCall.run]
    generalize runAll (b.openSubgraph id title direction) body = result at hbody
    obtain ⟨b', _ | e⟩ := result
    · exact h.closeSubgraph hbody
    · exact hbody

theorem keeps_runAll {P : Builder → Prop} (h : Builder.IsKept P) {b : Builder} (hb : P b) : (cs : List ScopeCall) →
    P (runAll b cs).1
  | [] => by
    rw [runAll]
    exact hb
  | c :: cs => by
    have hc := ScopeCall.keeps h hb c
    rw [runAll]
    generalize c.run b = result at hc
    obtain ⟨b', _ | e⟩ := result
    · exact keeps_runAll h hc cs
    · exact hc

end

namespace Builder

variable {b : Builder}

theorem chart_node (id : Text) (label : Option Text) (shape : Option NodeShape) :
    ∃ n : Node, n.id = id ∧ (b.node id label shape).chart = { b.chart with nodes := b.chart.nodes.insert id n } :=
  ⟨⟨id, label.getD id, shape.getD (if label.isSome then .square else .default)⟩, rfl,
    by simp [chart, node, update, Assembly.defineNode]⟩

theorem chart_link (l : Link) : (b.link l).chart = { b.chart with links := b.chart.links ++ [l] } := by
  simp [chart, link, update, mention, Assembly.link]

theorem chart_member (id : Text) : (b.member id).chart = b.chart := by
  simp [chart, member, update, mention]

theorem chart_closeSubgraph : ∃ subgraphs, b.closeSubgraph.chart = { b.chart with subgraphs := subgraphs } := by
  rcases hopen : b.assembly.open_ with _ | ⟨o, _ | ⟨p, os⟩⟩
  all_goals exact ⟨_, by simp [closeSubgraph, update, chart, Assembly.closeSubgraph?, hopen]; rfl⟩

end Builder

/-! ## Refused calls -/

/-- a refused call that is not a subgraph has no effect -/
theorem Call.run_refused {b : Builder} {c : Call} {e : CallError} (h : (c.run b).2 = some e)
    (hc : ∀ id title direction body, c ≠ .scope (.subgraph id title direction body)) : (c.run b).1 = b := by
  cases c with
  | scope c =>
    cases c with
    | subgraph id title direction body => exact absurd rfl (hc id title direction body)
    | link l =>
      rw [run, ScopeCall.run] at h ⊢
      split
      · rfl
      · rename_i hl
        rw [hl] at h
        exact absurd h nofun
    | node id label shape | member id | direction d =>
      rw [run, ScopeCall.run] at h
      exact absurd h nofun
  | styleLink index style =>
    rw [run] at h ⊢
    split
    · rw [if_pos ‹_›] at h
      exact absurd h nofun
    · rfl
  | defineClass name style | assignClass ids name | styleNode id style | click c | describe line => exact absurd h nofun

namespace Builder

/-- the number of subgraphs that are open -/
def depth (b : Builder) : Nat := b.assembly.open_.length

/-- in subgraphs that stay open, nothing is added to the subgraphs of the chart -/
structure StaysOpen (b b' : Builder) : Prop where
  subgraphs : b'.chart.subgraphs = b.chart.subgraphs
  depth : b.depth ≤ b'.depth

namespace StaysOpen

variable {b b' b'' : Builder}

theorem refl (b : Builder) : StaysOpen b b := ⟨rfl, Nat.le_refl _⟩

theorem trans (h : StaysOpen b b') (h' : StaysOpen b' b'') : StaysOpen b b'' :=
  ⟨h'.subgraphs.trans h.subgraphs, h.depth.trans h'.depth⟩

end StaysOpen

/-- an inner subgraph becomes a child of the one around it -/
theorem closeSubgraph_of_inner {b : Builder} (h : 1 < b.depth) :
    b.closeSubgraph.chart = b.chart ∧ b.closeSubgraph.depth + 1 = b.depth := by
  rw [depth] at h
  rcases hopen : b.assembly.open_ with _ | ⟨o, _ | ⟨p, os⟩⟩
  · simp [hopen] at h
  · simp [hopen] at h
  · simp [closeSubgraph, update, chart, depth, Assembly.closeSubgraph?, hopen]

end Builder

theorem Assembly.length_open_inInnermost (f : Subgraph → Subgraph) (a : Assembly Unit) :
    (a.inInnermost f).open_.length = a.open_.length := by
  unfold inInnermost
  split
  · rfl
  · rename_i ho
    rw [ho]
    rfl

@[simp] theorem Assembly.length_open_mention (id : Text) (a : Assembly Unit) :
    (a.mention id).open_.length = a.open_.length := length_open_inInnermost _ a

mutual

/-- a call in a subgraph, refused or not, does not close it -/
theorem ScopeCall.staysOpen {b : Builder} (hb : 0 < b.depth) : (c : ScopeCall) → b.StaysOpen (c.run b).1
  | .node id label shape => by
    rw [ScopeCall.run]
    refine ⟨?_, ?_⟩
    · simp [Builder.chart, Builder.node, Builder.update, Assembly.defineNode]
    · simp [Builder.depth, Builder.node, Builder.update, Assembly.defineNode]
  | .link l => by
    rw [ScopeCall.run]
    split
    · exact .refl b
    · refine ⟨?_, ?_⟩
      · simp [Builder.chart, Builder.link, Builder.update, Builder.mention, Assembly.link]
      · simp [Builder.depth, Builder.link, Builder.update, Builder.mention, Assembly.link]
  | .member id => by
    rw [ScopeCall.run]
    refine ⟨?_, ?_⟩
    · simp [Builder.chart, Builder.member, Builder.update, Builder.mention]
    · simp [Builder.depth, Builder.member, Builder.update, Builder.mention]
  | .direction d => by
    rw [ScopeCall.run]
    exact ⟨by simp [Builder.chart, Builder.update], (Assembly.length_open_inInnermost _ _).ge⟩
  | .subgraph id title direction body => by
    have hopen : b.StaysOpen (b.openSubgraph id title direction) := ⟨rfl, Nat.le_succ _⟩
    have hbody := staysOpen_runAll (b := b.openSubgraph id title direction) (Nat.succ_pos _) body
    rw [ScopeCall.run]
    generalize runAll (b.openSubgraph id title direction) body = result at hbody
    obtain ⟨b', _ | e⟩ := result
    · have hdepth : b.depth + 1 ≤ b'.depth := hbody.depth
      obtain ⟨hchart, hclose⟩ := Builder.closeSubgraph_of_inner (b := b') (by omega)
      refine ⟨?_, by dsimp only; omega⟩
      rw [hchart]
      exact hbody.subgraphs
    · exact hopen.trans hbody

theorem staysOpen_runAll {b : Builder} (hb : 0 < b.depth) : (cs : List ScopeCall) → b.StaysOpen (runAll b cs).1
  | [] => by
    rw [runAll]
    exact .refl b
  | c :: cs => by
    have hc := ScopeCall.staysOpen hb c
    rw [runAll]
    generalize c.run b = result at hc
    obtain ⟨b', _ | e⟩ := result
    · exact hc.trans (staysOpen_runAll (hb.trans_le hc.depth) cs)
    · exact hc

end

theorem Call.staysOpen {b : Builder} (hb : 0 < b.depth) (c : Call) : b.StaysOpen (c.run b).1 := by
  cases c with
  | scope c => exact c.staysOpen hb
  | assignClass ids name =>
    clear hb
    rw [run]
    induction ids generalizing b with
    | nil => exact .refl b
    | cons id ids ih =>
      have hid : b.StaysOpen (b.assignClass name id) := ⟨rfl, Nat.le_refl _⟩
      exact hid.trans ih
  | styleLink index style =>
    rw [run]
    split
    · exact ⟨rfl, Nat.le_refl _⟩
    · exact .refl b
  | defineClass name style | styleNode id style | click c | describe line => exact ⟨rfl, Nat.le_refl _⟩

/-- calls on a chart with open subgraphs -/
theorem Builder.staysOpen_run {b : Builder} (hb : 0 < b.depth) (calls : List Call) : b.StaysOpen (b.run calls) := by
  induction calls generalizing b with
  | nil => exact .refl b
  | cons c calls ih =>
    have hc := c.staysOpen hb
    exact hc.trans (ih (hb.trans_le hc.depth))

/-- **a subgraph in which a call is refused stays open for good**: the subgraphs of later calls are put into it, and whatever
these calls are, the chart that is built has just the subgraphs that it had before -/
theorem subgraphs_after_refused {b : Builder} {id : Text} {title : Option Text} {direction : Option Direction}
    {body : List ScopeCall} {e : CallError} (h : ((ScopeCall.subgraph id title direction body).run b).2 = some e)
    (later : List Call) :
    ((((ScopeCall.subgraph id title direction body).run b).1.run later).chart).subgraphs = b.chart.subgraphs := by
  have hbody := staysOpen_runAll (b := b.openSubgraph id title direction) (Nat.succ_pos _) body
  rw [ScopeCall.run] at h ⊢
  generalize runAll (b.openSubgraph id title direction) body = result at h hbody
  obtain ⟨b', _ | e'⟩ := result
  · exact absurd h nofun
  · have hdepth : 0 < b'.depth := (Nat.succ_pos _).trans_le hbody.depth
    exact (Builder.staysOpen_run hdepth later).subgraphs.trans hbody.subgraphs

/-- the subgraph `t` is lost after a subgraph in which a link of no length is refused; without that call it is built -/
theorem lost_subgraph :
    let node : Call := .scope (.node "A" none none)
    let refused : Call := .scope (.subgraph "s" none none [.link ⟨"A", "A", ⟨.normal, .point, 0, false, none⟩⟩])
    let t : Call := .scope (.subgraph "t" none none [.member "A"])
    (((Builder.start .tb).run [node, refused, t]).build.map fun d => d.subgraphs.map Subgraph.id) = .ok [] ∧
      (((Builder.start .tb).run [node, t]).build.map fun d => d.subgraphs.map Subgraph.id) = .ok ["t"] := by
  decide

end DiagramText.Flowchart

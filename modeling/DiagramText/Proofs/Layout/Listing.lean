/-
What a layout shows of a diagram. `inventory?` lists it from the diagram alone: the entities in the order of the map, behind the
states of a state diagram the beginning and the end of every scope that a transition begins or ends in, and the relations. The
graph of a diagram holds exactly that (`exists_graph`): pseudo-states of different scopes have different ids, none of which is
the id of a state. Placing a graph keeps its entities and the relations between them (`shows_placeIn`), wherever the engine puts
them, because every entity has a center (`mem_keys_centers`).
-/
import DiagramText.Layout.Placement
import DiagramText.Proofs.Closed
import DiagramText.Proofs.Layout.Components
import DiagramText.Proofs.StateDiagram.Forest

namespace DiagramText.Layout

/-! ## Inventories -/

/-- what there is to show: entities with their ids in order, and relations, which are drawn when they join two of them -/
structure Inventory where
  entities : List (Text × Entity)
  relations : List Relation
deriving DecidableEq

/-- the ids that are shown -/
def Inventory.ids (l : Inventory) : List Text := l.entities.map Prod.fst

/-- the pseudo-state where a scope begins or ends -/
inductive Terminal where
  | start (scope : Option Text)
  | stop (scope : Option Text)
deriving DecidableEq

namespace Terminal

/-- the scope that begins or ends -/
def scope : Terminal → Option Text
  | start scope | stop scope => scope

/-- the id of the pseudo-state -/
def id : Terminal → Text
  | start scope => ("[*]start:" : Text) ++ scope.getD []
  | stop scope => ("[*]end:" : Text) ++ scope.getD []

/-- what is shown of the pseudo-state -/
def entity : Terminal → Entity
  | start _ => ⟨[], "state-start"⟩
  | stop _ => ⟨[], "state-end"⟩

end Terminal

/-- the pseudo-states that a transition joins -/
def terminals (t : StateDiagram.Transition) : List Terminal :=
  (if t.source = StateDiagram.terminal then [.start t.scope] else []) ++
    if t.target = StateDiagram.terminal then [.stop t.scope] else []

/-- a transition, from the beginning of its scope or to its end where it names no state -/
def relationOf (t : StateDiagram.Transition) : Relation where
  source := if t.source = StateDiagram.terminal then (Terminal.start t.scope).id else t.source
  target := if t.target = StateDiagram.terminal then (Terminal.stop t.scope).id else t.target
  label := t.label

/-- a state without a label shows its id -/
def shownLabel (id : Text) : Option Text → Text
  | none | some [] => id
  | some label => label

/-- what stands under the keys of a map, in order -/
def listed {α : Type} (e : Entries α) (entity : Text → α → Entity) : List (Text × Entity) :=
  e.toList.map fun x => (x.1, entity x.1 x.2)

/-- what there is to show of a diagram of a dialect that has a graph -/
def inventory? : Diagram → Option Inventory
  | .flowchart d =>
    some ⟨listed d.nodes fun _ n => ⟨n.label, n.shape.tag⟩, d.links.map fun l => ⟨l.source, l.target, l.form.label⟩⟩
  | .classDiagram d =>
    some ⟨listed d.classes fun _ c => ⟨c.label, "class"⟩, d.relationships.map fun r => ⟨r.source, r.target, r.label⟩⟩
  | .state d =>
    some ⟨listed d.states (fun id s => ⟨shownLabel id s.label, s.kind.tag⟩) ++
      (d.transitions.flatMap terminals).eraseDups.map fun t => (t.id, t.entity), d.transitions.map relationOf⟩
  | .er d =>
    some ⟨listed d.entities fun _ e => ⟨e.label, "entity"⟩,
      d.relationships.map fun r => ⟨r.source, r.target, if r.label = [] then none else some r.label⟩⟩
  | .sankey d =>
    some ⟨listed d.nodes fun _ n => ⟨n.label, "default"⟩, d.links.map fun l => ⟨l.source, l.target, none⟩⟩
  | _ => none

/-- the maps of the diagram are keyed by the ids of what they hold; a state diagram is one that was read -/
def IsKeyed : Diagram → Prop
  | .flowchart d => ∀ k n, d.nodes.get? k = some n → n.id = k
  | .classDiagram d => ∀ k c, d.classes.get? k = some c → c.id = k
  | .state d => ∃ text, StateDiagram.read text = .ok d
  | .er d => ∀ k e, d.entities.get? k = some e → e.id = k
  | .sankey d => ∀ k n, d.nodes.get? k = some n → n.id = k
  | _ => False

/-- the diagram that was placed shows the inventory: its entities once each, in this order, and its relations in order, those
that join two of the entities -/
structure Placed.Shows (p : Placed) (l : Inventory) : Prop where
  entities : p.entities.map (fun e => (e.id, e.entity)) = l.entities
  once : l.ids.Nodup
  relations : p.relations.map PlacedRelation.relation = l.relations.filter fun r => r.source ∈ l.ids ∧ r.target ∈ l.ids

/-! ## Pseudo-states -/

namespace Terminal

variable {s t : Terminal}

/-- a scope that has a name can be told from the top -/
theorem getD_inj {a b : Option Text} (ha : a ≠ some []) (hb : b ≠ some []) (h : a.getD [] = b.getD []) : a = b := by
  cases a with
  | none =>
    cases b with
    | none => rfl
    | some b =>
      obtain rfl : [] = b := h
      exact absurd rfl hb
  | some a =>
    cases b with
    | none =>
      obtain rfl : a = [] := h
      exact absurd rfl ha
    | some b => exact congrArg some h

theorem id_start (scope : Option Text) : (start scope).id = ("[*]start:" : Text) ++ scope.getD [] := rfl

theorem id_stop (scope : Option Text) : (stop scope).id = ("[*]end:" : Text) ++ scope.getD [] := rfl

/-- **pseudo-states of different scopes have different ids**, as long as every scope has a name -/
theorem id_inj (hs : s.scope ≠ some []) (ht : t.scope ≠ some []) (h : s.id = t.id) : s = t := by
  cases s with
  | start a =>
    cases t with
    | start b =>
      rw [id_start, id_start] at h
      exact congrArg start (getD_inj hs ht (List.append_cancel_left h))
    | stop b =>
      rw [id_start, id_stop] at h
      exact absurd h (by simp)
  | stop a =>
    cases t with
    | start b =>
      rw [id_stop, id_start] at h
      exact absurd h (by simp)
    | stop b =>
      rw [id_stop, id_stop] at h
      exact congrArg stop (getD_inj hs ht (List.append_cancel_left h))

/-- no state has the id of a pseudo-state -/
theorem not_isId_id (t : Terminal) : ¬ Text.IsId t.id := by
  intro h
  have hbracket : '[' ∈ t.id := by
    cases t <;> exact List.mem_append_left _ (by decide)
  exact absurd (List.all_eq_true.1 h.all '[' hbracket) (by decide)

end Terminal

/-! ## Graphs -/

namespace Graph

theorem map_fst_listed {α : Type} (e : Entries α) (entity : Text → α → Entity) : (listed e entity).map Prod.fst = e.keys := by
  rw [listed, List.map_map]
  rfl

/-- entities that are added one after another -/
theorem foldl_addEntity {α : Type} (things : List α) (id label shape : α → Text) (g : Graph) :
    things.foldl (fun g a => g.addEntity (id a) (label a) (shape a)) g
      = { g with entities := g.entities.update (things.map fun a => (id a, ⟨label a, shape a⟩)) } := by
  induction things generalizing g with
  | nil => rfl
  | cons a things ih =>
    rw [List.foldl_cons, ih]
    rfl

theorem relations_of {α : Type} (direction : Direction) (things : List α) (id label shape : α → Text) (relations : List Relation) :
    (of direction things id label shape relations).relations = relations := by
  rw [of, foldl_addEntity]

/-- the entities of the values of a map that is keyed by their ids -/
theorem toList_of {α : Type} (direction : Direction) {e : Entries α} {id : α → Text} (label shape : α → Text)
    (relations : List Relation) (hid : ∀ {k v}, e.get? k = some v → id v = k) :
    (of direction e.values id label shape relations).entities.toList = listed e fun _ v => ⟨label v, shape v⟩ := by
  have hkeys : (e.values.map fun v => (id v, (⟨label v, shape v⟩ : Entity))).map Prod.fst = e.keys := by
    rw [List.map_map]
    exact Entries.map_values hid
  rw [of, foldl_addEntity, Entries.toList_update (by rw [hkeys]; exact e.nodup), Entries.values, List.map_map]
  refine List.map_congr_left fun x hx => ?_
  have hx : id x.2 = x.1 := hid (Entries.mem_toList_iff.1 hx)
  exact Prod.ext hx rfl

/-- a pseudo-state is added where it is first used -/
def addTerminal (e : Entries Entity) (t : Terminal) : Entries Entity := e.insertNew t.id t.entity

theorem addTransition_eq (g : Graph) (t : StateDiagram.Transition) :
    g.addTransition t
      = { g with entities := (terminals t).foldl addTerminal g.entities, relations := g.relations ++ [relationOf t] } := by
  unfold addTransition addEndpoint terminals relationOf
  by_cases hsource : t.source = StateDiagram.terminal <;> by_cases htarget : t.target = StateDiagram.terminal
  all_goals
    simp only [hsource, htarget, if_true, if_false]
    rfl

theorem foldl_addTransition (g : Graph) (ts : List StateDiagram.Transition) :
    ts.foldl addTransition g
      = { g with
          entities := (ts.flatMap terminals).foldl addTerminal g.entities
          relations := g.relations ++ ts.map relationOf } := by
  induction ts generalizing g with
  | nil => simp
  | cons t ts ih =>
    rw [List.foldl_cons, ih, addTransition_eq, List.flatMap_cons, List.foldl_append, List.map_cons]
    simp only [List.append_assoc, List.singleton_append]

/-- a transition uses the pseudo-states that its ends stand for -/
theorem mem_terminals {t : StateDiagram.Transition} {x : Terminal} :
    x ∈ terminals t ↔ t.source = StateDiagram.terminal ∧ x = .start t.scope ∨ t.target = StateDiagram.terminal ∧ x = .stop t.scope := by
  rw [terminals, List.mem_append]
  split <;> split <;> simp [*]

theorem scope_eq_of_mem_terminals {t : StateDiagram.Transition} {x : Terminal} (hx : x ∈ terminals t) : x.scope = t.scope := by
  rcases mem_terminals.1 hx with ⟨-, rfl⟩ | ⟨-, rfl⟩ <;> rfl

/-- **the pseudo-states of a state diagram that was read** stand behind its states, where they are first used -/
theorem toList_foldl_addTerminal {text : Text} {d : StateDiagram} (h : StateDiagram.read text = .ok d) {e : Entries Entity}
    (he : e.keys = d.states.keys) :
    ((d.transitions.flatMap terminals).foldl addTerminal e).toList
      = e.toList ++ (d.transitions.flatMap terminals).eraseDups.map fun t => (t.id, t.entity) := by
  have hscope : ∀ x ∈ d.transitions.flatMap terminals, x.scope ≠ some [] := by
    intro x hx hnil
    obtain ⟨t, ht, hx⟩ := List.mem_flatMap.1 hx
    have hmem := ((StateDiagram.closed_of_read h).transition t ht).scope [] ((scope_eq_of_mem_terminals hx).symm.trans hnil)
    exact (StateDiagram.isId_of_mem_keys h hmem).ne_nil rfl
  have hfresh : (d.transitions.flatMap terminals).filter (fun x => x.id ∉ e.keys) = d.transitions.flatMap terminals := by
    refine List.filter_eq_self.2 fun x _ => ?_
    rw [decide_eq_true_eq, he]
    exact fun hx => x.not_isId_id (StateDiagram.isId_of_mem_keys h hx)
  have hlist := Entries.toList_foldl_insertNew_of_injOn Terminal.id Terminal.entity e
    fun x hx y hy => Terminal.id_inj (hscope x hx) (hscope y hy)
  rw [hfresh] at hlist
  exact hlist

/-- the states with their labels, and behind them the pseudo-states -/
theorem toList_state {text : Text} {d : StateDiagram} (h : StateDiagram.read text = .ok d) {g : Graph}
    (hg : ofDiagram? (.state d) = some g) :
    g.entities.toList = listed d.states (fun id s => ⟨shownLabel id s.label, s.kind.tag⟩) ++
      (d.transitions.flatMap terminals).eraseDups.map fun t => (t.id, t.entity) := by
  have hid : ∀ {k s}, d.states.get? k = some s → s.id = k := (StateDiagram.isNested_of_read h).byId
  have hlabel : ∀ (id : Text) (label : Option Text), (Text.present label).getD id = shownLabel id label := by
    rintro id (_ | _ | ⟨c, r⟩) <;> rfl
  have hstates : (of d.direction d.states.values (·.id) (fun s => (Text.present s.label).getD s.id) (·.kind.tag) []).entities.toList
      = listed d.states fun id s => ⟨shownLabel id s.label, s.kind.tag⟩ := by
    rw [toList_of _ _ _ _ hid]
    refine List.map_congr_left fun x hx => ?_
    dsimp only
    rw [hlabel, hid (Entries.mem_toList_iff.1 hx)]
  obtain rfl := Option.some.inj hg
  rw [foldl_addTransition, ← hstates]
  exact toList_foldl_addTerminal h (by rw [Entries.keys, hstates, map_fst_listed])

/-- **the graph of a diagram holds what there is to show of it** -/
theorem exists_graph {d : Diagram} (h : IsKeyed d) :
    ∃ g l, ofDiagram? d = some g ∧ inventory? d = some l ∧ g.entities.toList = l.entities ∧ g.relations = l.relations := by
  cases d with
  | flowchart d => exact ⟨_, _, rfl, rfl, toList_of _ _ _ _ (h _ _), relations_of _ _ _ _ _ _⟩
  | classDiagram d => exact ⟨_, _, rfl, rfl, toList_of _ _ _ _ (h _ _), relations_of _ _ _ _ _ _⟩
  | sankey d => exact ⟨_, _, rfl, rfl, toList_of _ _ _ _ (h _ _), relations_of _ _ _ _ _ _⟩
  | er d =>
    refine ⟨_, _, rfl, rfl, toList_of _ _ _ _ (h _ _), ?_⟩
    rw [relations_of]
    refine List.map_congr_left fun r _ => ?_
    by_cases hr : r.label = [] <;> simp [Text.present, hr]
  | state d =>
    obtain ⟨text, htext⟩ := h
    refine ⟨_, _, rfl, rfl, toList_state htext rfl, ?_⟩
    rw [foldl_addTransition, relations_of, List.nil_append]
  | _ => exact h.elim

end Graph

/-! ## Centers -/

section

variable (o : Options) (engine : Engine) {components : List (List Text)} {g : Graph}

theorem map_fst_centersFrom (g : Graph) (left : Float) (components : List (List Text)) :
    (centersFrom o engine g left components).map Prod.fst = components.flatten := by
  induction components generalizing left with
  | nil => rfl
  | cons members rest ih =>
    rw [centersFrom, List.map_append, ih, List.flatten_cons]
    congr 1
    rw [componentCenters, List.map_map, List.map_map]
    exact List.map_id _

/-- **every entity has a center**, and nothing else has one -/
theorem mem_keys_centers (h : g.IsSplitInto components) {id : Text} :
    id ∈ (centers o engine components g).keys ↔ id ∈ g.entities.keys := by
  have hfst := map_fst_centersFrom o engine g 0 components
  have hkeys : (centers o engine components g).keys = components.flatten := by
    rw [centers, Entries.ofList, Entries.keys, Entries.toList_update, ← hfst]
    · rfl
    · rw [Entries.keys_empty, List.nil_append, hfst]
      exact h.nodup
  rw [hkeys]
  exact List.Perm.mem_iff h

/-- a relation is drawn when both of its ends have centers -/
theorem map_relation_placeRelation? (centers : Entries Point) (r : Relation) :
    (placeRelation? o centers r).map PlacedRelation.relation
      = Option.guard (fun r => decide (r.source ∈ centers.keys ∧ r.target ∈ centers.keys)) r := by
  by_cases hsource : r.source ∈ centers.keys
  · obtain ⟨s, hs⟩ := Entries.exists_of_mem_keys hsource
    by_cases htarget : r.target ∈ centers.keys
    · obtain ⟨t, ht⟩ := Entries.exists_of_mem_keys htarget
      simp [placeRelation?, Option.guard, hsource, htarget, hs, ht]
    · simp [placeRelation?, Option.guard, htarget, hs, Entries.get?_eq_none_iff.2 htarget]
  · simp [placeRelation?, Option.guard, hsource, Entries.get?_eq_none_iff.2 hsource]

/-- **placing a graph keeps what is in it**, wherever the engine puts the entities of its components -/
theorem shows_placeIn (h : g.IsSplitInto components) {l : Inventory} (hentities : g.entities.toList = l.entities)
    (hrelations : g.relations = l.relations) : (placeIn o engine components g).Shows l := by
  have hids : l.ids = g.entities.keys := by rw [Inventory.ids, ← hentities, Entries.keys]
  have hnodup : l.ids.Nodup := hids ▸ g.entities.nodup
  unfold placeIn
  split
  · rename_i hempty
    have hnone : g.entities.toList = [] := List.isEmpty_iff.1 hempty
    have hnoids : l.ids = [] := by rw [hids, Entries.keys, hnone, List.map_nil]
    refine ⟨hnone.symm.trans hentities, hnodup, ?_⟩
    rw [hnoids, List.filter_eq_nil_iff.2 fun r _ => by simp, List.map_nil]
  · refine ⟨?_, hnodup, ?_⟩
    · rw [List.map_map, ← hentities]
      exact List.map_id _
    · rw [List.map_filterMap, ← hrelations, ← List.filterMap_eq_filter, hids]
      refine List.filterMap_congr fun r _ => ?_
      rw [map_relation_placeRelation?]
      simp only [mem_keys_centers o engine h]

end

/-- **layouts lose nothing and invent nothing.** Whatever positions the engine gives, and however it takes the graph apart, as long
as every entity is in one component and there once: the diagram that is placed shows what there is to show, every entity once and
every relation between two of them, and each of the entities has got its center. -/
theorem placed_shows_inventory {d : Diagram} (h : IsKeyed d) (o : Options) (engine : Engine) {components : Graph → List (List Text)}
    (hsplit : ∀ g, Graph.ofDiagram? d = some g → g.IsSplitInto (components g)) :
    ∃ g l p, Graph.ofDiagram? d = some g ∧ inventory? d = some l ∧ placeDiagramIn? o engine components d = some p ∧
      p.Shows l ∧ ∀ id ∈ l.ids, id ∈ (centers o engine (components g) g).keys := by
  obtain ⟨g, l, hg, hl, hentities, hrelations⟩ := Graph.exists_graph h
  refine ⟨g, l, placeIn o engine (components g) g, hg, hl, ?_, ?_, fun id hid => ?_⟩
  · rw [placeDiagramIn?, hg, Option.map_some]
  · exact shows_placeIn o engine (hsplit g hg) hentities hrelations
  · rw [Inventory.ids, ← hentities] at hid
    exact (mem_keys_centers o engine (hsplit g hg)).2 hid

/-- a loop, two ends at the top, and a scope inside with a beginning of its own -/
def scopedTerminals : Text := "stateDiagram-v2\n[*] --> A\nA --> A : again\nstate C \x7b\n[*] --> D\n\x7d\nA --> [*]\nA --> [*]"

/-- what there is to show of it -/
def scopedInventory : Inventory where
  entities := [⟨"A", "A", "default"⟩, ⟨"C", "C", "composite"⟩, ⟨"D", "D", "default"⟩, ⟨"[*]start:", "", "state-start"⟩,
    ⟨"[*]start:C", "", "state-start"⟩, ⟨"[*]end:", "", "state-end"⟩]
  relations := [⟨"[*]start:", "A", none⟩, ⟨"A", "A", some "again"⟩, ⟨"[*]start:C", "D", none⟩, ⟨"A", "[*]end:", none⟩,
    ⟨"A", "[*]end:", none⟩]

theorem placed_shows_inventory_scopes : ∃ d p, StateDiagram.read scopedTerminals = .ok d ∧
    placeDiagram? {} (fun _ _ => ⟨0, 0⟩) (.state d) = some p ∧
    p.entities.map (fun e => (e.id, e.entity)) = scopedInventory.entities ∧
    p.relations.map PlacedRelation.relation = scopedInventory.relations := by
  obtain ⟨d, hd, hinventory⟩ : ∃ d, StateDiagram.read scopedTerminals = .ok d ∧ inventory? (.state d) = some scopedInventory :=
    ⟨_, rfl, rfl⟩
  obtain ⟨g, l, p, -, hl, hp, hshows, -⟩ := placed_shows_inventory (d := .state d) ⟨scopedTerminals, hd⟩ {} (fun _ _ => ⟨0, 0⟩)
    fun g _ => g.isSplitInto_components
  obtain rfl : scopedInventory = l := Option.some.inj (hinventory.symm.trans hl)
  exact ⟨d, p, hd, hp, hshows.entities, hshows.relations.trans (by decide)⟩

end DiagramText.Layout

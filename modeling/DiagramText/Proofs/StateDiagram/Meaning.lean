/-
What the deeds of a printed text come to. The transitions, notes and states that they write are those of the open scopes,
each once (`linked_pageDeeds`, `attached_pageDeeds`, `perm_placed_pageDeeds`). A state that is placed is in the diagram as
it was placed (`get?_performAll_of_placed`); any other is there if a written transition names it, in the scope of the
first one that does (`get?_performAll_of_not_placed`).
-/
import DiagramText.Proofs.StateDiagram.Replay

namespace DiagramText.StateDiagram

open DiagramText.Text

/-! ## What is written -/

/-- the transition that a deed links -/
def Deed.linked? : Deed → Option Transition
  | link t => some t
  | _ => none

/-- the note that a deed attaches -/
def Deed.attached? : Deed → Option Note
  | attach n => some n
  | _ => none

/-- the transitions that deeds link -/
def linked (ds : List Deed) : List Transition := ds.filterMap Deed.linked?

/-- the notes that deeds attach -/
def attached (ds : List Deed) : List Note := ds.filterMap Deed.attached?

/-- the transitions of a scope and the notes in it -/
def ownDeeds (d : StateDiagram) (scope : Option Text) : List Deed :=
  (d.transitions.filter fun t => t.scope == scope).map .link
    ++ (d.notes.filter fun n => noteScope d n == scope).map fun n => .attach n.settled

/-- the states that are written in a scope, as they are read back -/
def ownStates (d : StateDiagram) (o : RenderOptions) (scope : Option Text) : List State :=
  ((scopeStates d o scope).filter (isWritten d)).map State.settled

variable {d : StateDiagram} {o : RenderOptions} {fuel : Nat} {scope : Option Text} {s : State}

/-- what is written of the scopes besides their states, scope by scope -/
theorem filterMap_scopeDeeds {α : Type} {f : Deed → Option α} (hf : ∀ s, f (.place s) = none) :
    (scopeDeeds d o fuel scope).filterMap f = (scopes d o fuel scope).flatMap fun c => (ownDeeds d c).filterMap f := by
  induction fuel generalizing scope with
  | zero => rfl
  | succ fuel ih =>
    have hstate : ∀ s, (((if isWritten d s then [Deed.place s.settled] else [])
          ++ if s.kind = .composite then scopeDeeds d o fuel (some s.id) else []).filterMap f)
        = (if s.kind = .composite then scopes d o fuel (some s.id) else []).flatMap fun c => (ownDeeds d c).filterMap f := by
      intro s
      have hplace : (if isWritten d s then [Deed.place s.settled] else []).filterMap f = [] := by
        split <;> simp [hf]
      rw [List.filterMap_append, hplace, List.nil_append]
      split
      · exact ih
      · rfl
    rw [scopeDeeds, scopes, List.append_assoc, List.filterMap_append, List.filterMap_flatMap, List.flatMap_append,
      List.flatMap_assoc, List.flatMap_singleton]
    exact congrArg (· ++ _) (congrArg (List.flatMap · _) (funext hstate))

/-- scopes place states, link transitions and attach notes, and nothing else -/
theorem filterMap_scopeDeeds_eq_nil {α : Type} {f : Deed → Option α} (hplace : ∀ s, f (.place s) = none)
    (hlink : ∀ t, f (.link t) = none) (hattach : ∀ n, f (.attach n) = none) : (scopeDeeds d o fuel scope).filterMap f = [] := by
  rw [filterMap_scopeDeeds hplace, List.flatMap_eq_nil_iff]
  intro c _
  rw [ownDeeds, List.filterMap_eq_nil_iff]
  intro x hx
  rcases List.mem_append.1 hx with hx | hx <;> obtain ⟨_, -, rfl⟩ := List.mem_map.1 hx
  · exact hlink _
  · exact hattach _

/-- the states that are written in a scope and inside it, in the order of writing -/
theorem placed_scopeDeeds : placed (scopeDeeds d o (fuel + 1) scope) = (scopeStates d o scope).flatMap fun s =>
    (if isWritten d s then [s.settled] else [])
      ++ if s.kind = .composite then placed (scopeDeeds d o fuel (some s.id)) else [] := by
  have hown : placed ((d.transitions.filter fun t => t.scope == scope).map Deed.link
      ++ (d.notes.filter fun n => noteScope d n == scope).map fun n => Deed.attach n.settled) = [] := by
    rw [placed, List.filterMap_eq_nil_iff]
    intro x hx
    rcases List.mem_append.1 hx with hx | hx <;> obtain ⟨_, -, rfl⟩ := List.mem_map.1 hx <;> rfl
  rw [scopeDeeds, List.append_assoc, placed, List.filterMap_append, ← placed, ← placed, hown, List.append_nil, placed,
    List.filterMap_flatMap]
  refine List.flatMap_congr fun s _ => ?_
  rw [List.filterMap_append]
  refine congrArg₂ (· ++ ·) ?_ ?_ <;> split <;> rfl

theorem ownStates_eq_flatMap :
    ownStates d o scope = (scopeStates d o scope).flatMap fun s => if isWritten d s then [s.settled] else [] := by
  rw [ownStates]
  induction scopeStates d o scope with
  | nil => rfl
  | cons s l ih =>
    rw [List.flatMap_cons, ← ih]
    by_cases hw : isWritten d s = true
    · rw [if_pos hw, List.filter_cons_of_pos hw]
      rfl
    · rw [if_neg hw, List.filter_cons_of_neg hw]
      rfl

/-- the states that are written, scope by scope -/
theorem perm_placed_scopeDeeds :
    (placed (scopeDeeds d o fuel scope)).Perm ((scopes d o fuel scope).flatMap (ownStates d o)) := by
  induction fuel generalizing scope with
  | zero => exact .refl _
  | succ fuel ih =>
    rw [placed_scopeDeeds, scopes, List.flatMap_append, List.flatMap_assoc, List.flatMap_singleton, ownStates_eq_flatMap]
    refine (List.flatMap_append_perm _ _ _).symm.trans ?_
    refine List.perm_append_comm.trans (.append_right _ (.flatMap_left _ fun s _ => ?_))
    split
    · exact ih
    · exact .refl _

/-- the scopes that a text is written from -/
def pageScopes (d : StateDiagram) (o : RenderOptions) : List (Option Text) := scopes d o (d.states.toList.length + 1) none

/-- what is written for the diagram, and what is written in its scopes -/
theorem filterMap_pageDeeds {α : Type} {f : Deed → Option α} (hdescribe : ∀ line, f (.describe line) = none)
    (hdefine : ∀ name style, f (.define name style) = none) (hassign : ∀ id name, f (.assign id name) = none) :
    (pageDeeds d o).filterMap f = (if d.direction = .tb then [] else [Deed.orient d.direction]).filterMap f
      ++ (scopeDeeds d o (d.states.toList.length + 1) none).filterMap f := by
  have hdescribes : ∀ (t : Option Text) (line : Text → AccessibilityLine),
      ((t.map fun v => Deed.describe (line v)).toList).filterMap f = [] := by
    intro t line
    cases t <;> simp [hdescribe]
  have hdefines : (d.classDefs.toList.map fun x => Deed.define x.1 x.2).filterMap f = [] := by
    rw [List.filterMap_eq_nil_iff]
    intro x hx
    obtain ⟨y, -, rfl⟩ := List.mem_map.1 hx
    exact hdefine _ _
  have hassigns : (d.classAssignments.toList.flatMap fun x => x.2.map (Deed.assign x.1)).filterMap f = [] := by
    rw [List.filterMap_eq_nil_iff]
    intro x hx
    obtain ⟨y, -, hx⟩ := List.mem_flatMap.1 hx
    obtain ⟨name, -, rfl⟩ := List.mem_map.1 hx
    exact hassign _ _
  rw [pageDeeds]
  simp only [List.filterMap_append, hdescribes, hdefines, hassigns, List.append_nil]

/-- only scopes place states, link transitions and attach notes -/
theorem filterMap_pageDeeds_local {α : Type} {f : Deed → Option α} (hdescribe : ∀ line, f (.describe line) = none)
    (horient : ∀ dir, f (.orient dir) = none) (hdefine : ∀ name style, f (.define name style) = none)
    (hassign : ∀ id name, f (.assign id name) = none) :
    (pageDeeds d o).filterMap f = (scopeDeeds d o (d.states.toList.length + 1) none).filterMap f := by
  have horients : (if d.direction = .tb then [] else [Deed.orient d.direction]).filterMap f = [] := by
    split <;> simp [horient]
  rw [filterMap_pageDeeds hdescribe hdefine hassign, horients, List.nil_append]

/-- **the transitions that are written** are those of the open scopes -/
theorem linked_pageDeeds :
    linked (pageDeeds d o) = (pageScopes d o).flatMap fun c => d.transitions.filter fun t => t.scope == c := by
  rw [linked, filterMap_pageDeeds_local (fun _ => rfl) (fun _ => rfl) (fun _ _ => rfl) (fun _ _ => rfl),
    filterMap_scopeDeeds fun _ => rfl]
  refine congrArg (List.flatMap · _) (funext fun c => ?_)
  rw [ownDeeds, List.filterMap_append, List.filterMap_map, List.filterMap_map]
  have hlinks : (d.transitions.filter fun t => t.scope == c).filterMap (Deed.linked? ∘ Deed.link)
      = d.transitions.filter fun t => t.scope == c := List.filterMap_some
  have hnotes : (d.notes.filter fun n => noteScope d n == c).filterMap (Deed.linked? ∘ fun n => .attach n.settled) = [] :=
    List.filterMap_eq_nil_iff.2 fun _ _ => rfl
  rw [hlinks, hnotes, List.append_nil]

/-- **the notes that are written** are those in the open scopes -/
theorem attached_pageDeeds :
    attached (pageDeeds d o)
      = (pageScopes d o).flatMap fun c => (d.notes.filter fun n => noteScope d n == c).map Note.settled := by
  rw [attached, filterMap_pageDeeds_local (fun _ => rfl) (fun _ => rfl) (fun _ _ => rfl) (fun _ _ => rfl),
    filterMap_scopeDeeds fun _ => rfl]
  refine congrArg (List.flatMap · _) (funext fun c => ?_)
  rw [ownDeeds, List.filterMap_append, List.filterMap_map, List.filterMap_map]
  have hlinks : (d.transitions.filter fun t => t.scope == c).filterMap (Deed.attached? ∘ Deed.link) = [] :=
    List.filterMap_eq_nil_iff.2 fun _ _ => rfl
  have hnotes : (d.notes.filter fun n => noteScope d n == c).filterMap (Deed.attached? ∘ fun n => .attach n.settled)
      = (d.notes.filter fun n => noteScope d n == c).map Note.settled := congrFun List.filterMap_eq_map _
  rw [hlinks, hnotes, List.nil_append]

/-- **the states that are written** are those of the open scopes -/
theorem perm_placed_pageDeeds : (placed (pageDeeds d o)).Perm ((pageScopes d o).flatMap (ownStates d o)) := by
  rw [placed, filterMap_pageDeeds_local (fun _ => rfl) (fun _ => rfl) (fun _ _ => rfl) (fun _ _ => rfl)]
  exact perm_placed_scopeDeeds

section

variable (hn : IsNested d)
include hn

theorem mem_ownStates : s ∈ ownStates d o scope ↔
    ∃ t, d.states.get? s.id = some t ∧ t.parent = scope ∧ isWritten d t = true ∧ t.settled = s := by
  simp only [ownStates, List.mem_map, List.mem_filter, mem_scopeStates hn, and_assoc]
  refine exists_congr fun t => ⟨?_, ?_⟩
  · rintro ⟨ht, hp, hw, rfl⟩
    rw [id_settled]
    exact ⟨ht, hp, hw, rfl⟩
  · rintro ⟨ht, hp, hw, rfl⟩
    rw [id_settled] at ht
    exact ⟨ht, hp, hw, rfl⟩

theorem mem_placed_pageDeeds : s ∈ placed (pageDeeds d o) ↔
    ∃ t, d.states.get? s.id = some t ∧ IsOpen d t.parent ∧ isWritten d t = true ∧ t.settled = s := by
  rw [perm_placed_pageDeeds.mem_iff, List.mem_flatMap]
  simp only [pageScopes, mem_scopes_iff hn, mem_ownStates hn]
  constructor
  · rintro ⟨c, hc, t, ht, rfl, hw, hs⟩
    exact ⟨t, ht, hc, hw, hs⟩
  · rintro ⟨t, ht, hc, hw, hs⟩
    exact ⟨t.parent, hc, t, ht, rfl, hw, hs⟩

/-- no state is written twice -/
theorem nodup_placed_pageDeeds : ((placed (pageDeeds d o)).map State.id).Nodup := by
  rw [(perm_placed_pageDeeds.map State.id).nodup_iff, List.map_flatMap, List.nodup_flatMap]
  refine ⟨fun c _ => ?_, ?_⟩
  · rw [ownStates, List.map_map]
    have hids : (fun s => State.id (State.settled s)) = State.id := funext id_settled
    change (List.map (fun s => State.id (State.settled s)) _).Nodup
    rw [hids]
    exact (nodup_ids_scopeStates hn c).sublist (List.filter_sublist.map _)
  · refine (nodup_scopes hn).pairwise_of_forall_ne fun c _ c' _ hne id hid hid' => hne ?_
    obtain ⟨s, hs, rfl⟩ := List.mem_map.1 hid
    obtain ⟨s', hs', he⟩ := List.mem_map.1 hid'
    obtain ⟨t, ht, rfl, -⟩ := (mem_ownStates hn).1 hs
    obtain ⟨t', ht', rfl, -⟩ := (mem_ownStates hn).1 hs'
    rw [he, ht] at ht'
    rw [Option.some.inj ht']

/-- a transition is written exactly where its scope is open -/
theorem mem_linked_pageDeeds {t : Transition} : t ∈ linked (pageDeeds d o) ↔ t ∈ d.transitions ∧ IsOpen d t.scope := by
  rw [linked_pageDeeds, List.mem_flatMap]
  simp only [pageScopes, mem_scopes_iff hn, List.mem_filter, beq_iff_eq]
  constructor
  · rintro ⟨c, hc, ht, rfl⟩
    exact ⟨ht, hc⟩
  · rintro ⟨ht, hc⟩
    exact ⟨t.scope, hc, ht, rfl⟩

end

/-- of a list by scopes, without repetition, each scope has its own part in its own order -/
theorem filter_flatMap_scope {α : Type} {f : α → Option Text} {cs : List (Option Text)} (hcs : cs.Nodup) (l : List α)
    {c : Option Text} (hc : c ∈ cs) :
    (cs.flatMap fun c => l.filter fun x => f x == c).filter (fun x => f x == c) = l.filter fun x => f x == c := by
  induction cs with
  | nil => exact absurd hc (by simp)
  | cons c' cs ih =>
    rw [List.nodup_cons] at hcs
    rw [List.flatMap_cons, List.filter_append, List.filter_filter]
    by_cases he : c' = c
    · subst he
      have hrest : (cs.flatMap fun c => l.filter fun x => f x == c).filter (fun x => f x == c') = [] := by
        rw [List.filter_eq_nil_iff]
        intro x hx
        obtain ⟨e, he, hx⟩ := List.mem_flatMap.1 hx
        rw [beq_iff_eq]
        intro hfx
        rw [← hfx, beq_iff_eq.1 (List.mem_filter.1 hx).2] at hcs
        exact hcs.1 he
      rw [hrest, List.append_nil]
      simp
    · have hfirst : (l.filter fun x => f x == c && f x == c') = [] := by
        rw [List.filter_eq_nil_iff]
        intro x _
        simp only [Bool.and_eq_true, beq_iff_eq, not_and]
        rintro rfl rfl
        exact he rfl
      rw [hfirst, List.nil_append]
      exact ih hcs.2 ((List.mem_cons.1 hc).resolve_left fun e => he e.symm)

/-- the transitions of an open scope are written in their order -/
theorem filter_linked_pageDeeds (hn : IsNested d) {c : Option Text} (hc : IsOpen d c) :
    (linked (pageDeeds d o)).filter (fun t => t.scope == c) = d.transitions.filter fun t => t.scope == c := by
  rw [linked_pageDeeds]
  exact filter_flatMap_scope (nodup_scopes hn) d.transitions ((mem_scopes_iff hn).2 hc)

/-- **each transition of an open scope is written once** -/
theorem count_linked_pageDeeds (hn : IsNested d) {t : Transition} (ht : IsOpen d t.scope) :
    (linked (pageDeeds d o)).count t = d.transitions.count t := by
  have hscope : (t.scope == t.scope) = true := beq_self_eq_true _
  rw [← List.count_filter (p := fun u : Transition => u.scope == t.scope) hscope, filter_linked_pageDeeds hn ht]
  exact List.count_filter hscope

/-! ## What the deeds come to -/

/-- a state that is one of the ends of a transition; the beginning and the end are no states -/
def Transition.names (t : Transition) (id : Text) : Bool := id ≠ terminal && (t.source == id || t.target == id)

/-- a state that has no line of its own is a plain one without a label, named in its scope and in no other -/
theorem named_of_not_isWritten (hid : s.id ≠ terminal) (hw : isWritten d s = false) :
    s.kind = .plain ∧ s.label = none ∧ (∃ t ∈ d.transitions, t.names s.id = true) ∧
      ∀ t ∈ d.transitions, t.names s.id = true → t.scope = s.parent := by
  have hnames : ∀ t : Transition, t.names s.id = (t.source == s.id || t.target == s.id) := fun t => by
    simp [Transition.names, hid]
  simp only [isWritten, isImplied, ← hnames, Bool.not_eq_false', Bool.and_eq_true, beq_iff_eq,
    Option.isNone_iff_eq_none, Bool.not_eq_true', List.all_eq_true] at hw
  obtain ⟨⟨hk, hl⟩, hsome, hall⟩ := hw
  obtain ⟨t, ht⟩ := List.isEmpty_eq_false_iff_exists_mem.1 hsome
  exact ⟨hk, hl, ⟨t, List.mem_filter.1 ht⟩, fun t ht hnames => hall t (List.mem_filter.2 ⟨ht, hnames⟩)⟩

section

variable {a : Assembly} {ds : List Deed} {id : Text}

/-- a link changes the states and the transitions, and nothing else -/
theorem diagram_link (t : Transition) : ∃ states,
    ((Deed.link t).perform a).diagram = { a.diagram with states := states, transitions := a.diagram.transitions ++ [t] } := by
  have hreference : ∀ (a : Assembly) (id : Text) (scope : Option Text),
      (a.reference id scope).diagram = { a.diagram with states := (a.reference id scope).diagram.states } := by
    intro a id scope
    unfold Assembly.reference
    split <;> rfl
  refine ⟨((a.reference t.source t.scope).reference t.target t.scope).diagram.states, ?_⟩
  change { ((a.reference t.source t.scope).reference t.target t.scope).diagram with
    transitions := ((a.reference t.source t.scope).reference t.target t.scope).diagram.transitions ++ [t] } = _
  rw [hreference, hreference]

/-- a part of the diagram that collects what some deeds hold -/
theorem performAll_eq_foldl {β γ : Type} {field : StateDiagram → β} (part : Deed → Option γ) (act : β → γ → β)
    (h : ∀ (a : Assembly) (x : Deed), field (x.perform a).diagram = ((part x).map (act (field a.diagram))).getD (field a.diagram))
    (ds : List Deed) (a : Assembly) : field (performAll ds a).diagram = (ds.filterMap part).foldl act (field a.diagram) := by
  induction ds generalizing a with
  | nil => rfl
  | cons x ds ih =>
    refine (ih (x.perform a)).trans ?_
    rw [h, List.filterMap_cons]
    cases part x <;> rfl

theorem foldl_concat {γ : Type} (ls ms : List γ) : ms.foldl (fun ls m => ls ++ [m]) ls = ls ++ ms := by
  rw [List.foldl_append_eq_append, ← List.flatMap_def, List.flatMap_singleton']

theorem transitions_performAll (ds : List Deed) (a : Assembly) :
    (performAll ds a).diagram.transitions = a.diagram.transitions ++ linked ds := by
  refine (performAll_eq_foldl Deed.linked? (fun ts t => ts ++ [t]) (fun a x => ?_) ds a).trans (foldl_concat _ _)
  cases x with
  | link t =>
    obtain ⟨states, h⟩ := diagram_link (a := a) t
    rw [h]
    rfl
  | _ => rfl

theorem notes_performAll (ds : List Deed) (a : Assembly) :
    (performAll ds a).diagram.notes = a.diagram.notes ++ attached ds := by
  refine (performAll_eq_foldl Deed.attached? (fun ns n => ns ++ [n]) (fun a x => ?_) ds a).trans (foldl_concat _ _)
  cases x with
  | link t =>
    obtain ⟨states, h⟩ := diagram_link (a := a) t
    rw [h]
    rfl
  | _ => rfl

/-- the direction that a deed sets -/
def Deed.oriented? : Deed → Option Direction
  | orient d => some d
  | _ => none

theorem direction_performAll (ds : List Deed) (a : Assembly) :
    (performAll ds a).diagram.direction = ((ds.filterMap Deed.oriented?).getLast?).getD a.diagram.direction := by
  have hlast : ∀ (dirs : List Direction) (dir : Direction), dirs.foldl (fun _ dir => dir) dir = dirs.getLast?.getD dir := by
    intro dirs
    induction dirs with
    | nil => exact fun dir => rfl
    | cons dir' dirs ih => exact fun dir => by rw [List.foldl_cons, ih, List.getLast?_cons, Option.getD_some]
  refine (performAll_eq_foldl Deed.oriented? (fun _ dir => dir) (fun a x => ?_) ds a).trans (hlast _ _)
  cases x with
  | link t =>
    obtain ⟨states, h⟩ := diagram_link (a := a) t
    rw [h]
    rfl
  | _ => rfl

/-- the direction is read back, the default one from a text without it -/
theorem direction_pageDeeds : (performAll (pageDeeds d o) ⟨{}, []⟩).diagram.direction = d.direction := by
  have hscopes : (scopeDeeds d o (d.states.toList.length + 1) none).filterMap Deed.oriented? = [] :=
    filterMap_scopeDeeds_eq_nil (fun _ => rfl) (fun _ => rfl) fun _ => rfl
  rw [direction_performAll, filterMap_pageDeeds (fun _ => rfl) (fun _ _ => rfl) (fun _ _ => rfl), hscopes, List.append_nil]
  split
  · rename_i h
    exact h.symm
  · rfl

/-- a link creates the states that it names, where they are not known -/
theorem get?_link (t : Transition) :
    ((Deed.link t).perform a).diagram.states.get? id
      = if t.names id then some ((a.diagram.states.get? id).getD { id := id, parent := t.scope })
        else a.diagram.states.get? id := by
  change ((a.reference t.source t.scope).reference t.target t.scope).diagram.states.get? id = _
  rw [get?_reference, get?_reference]
  by_cases hid : id = terminal
  · simp +contextual [Transition.names, hid]
  · by_cases hs : t.source = id <;> by_cases ht : t.target = id <;> simp [Transition.names, hs, ht, hid]

/-- a state that no deed places stays as it is, or comes from the first transition that names it -/
theorem get?_performAll_of_not_placed (h : ∀ s ∈ placed ds, s.id ≠ id) :
    (performAll ds a).diagram.states.get? id
      = (a.diagram.states.get? id <|> ((linked ds).find? (·.names id)).map fun t => { id := id, parent := t.scope }) := by
  induction ds generalizing a with
  | nil => cases h : a.diagram.states.get? id <;> exact h
  | cons x ds ih =>
    refine (ih fun s hs => h s ?_).trans ?_
    · rw [placed, List.filterMap_cons]
      split
      · exact hs
      · exact List.mem_cons_of_mem _ hs
    · cases x with
      | place s =>
        have hne : s.id ≠ id := h s (by simp [placed, Deed.placed?])
        have hget : ((Deed.place s).perform a).diagram.states.get? id = a.diagram.states.get? id := by
          change ((a.diagram.states.erase s.id).insert s.id s).get? id = _
          rw [Entries.get?_insert, if_neg hne, Entries.get?_erase, if_neg hne]
        rw [hget]
        rfl
      | link t =>
        have hlinked : linked (.link t :: ds) = t :: linked ds := rfl
        rw [get?_link t, hlinked, List.find?_cons]
        cases hnames : t.names id with
        | true => cases hget : a.diagram.states.get? id <;> rfl
        | false => rfl
      | _ => rfl

/-- a state that is placed once is as it was placed -/
theorem get?_performAll_of_placed (hnodup : ((placed ds).map State.id).Nodup) (hs : s ∈ placed ds) :
    (performAll ds a).diagram.states.get? s.id = some s := by
  induction ds generalizing a with
  | nil => exact absurd hs (by simp [placed])
  | cons x ds ih =>
    have hrest : s ∈ placed ds → ((placed ds).map State.id).Nodup → (performAll (x :: ds) a).diagram.states.get? s.id = some s :=
      fun hs hnodup => ih hnodup hs
    cases x with
    | place t =>
      have hplaced : placed (.place t :: ds) = t :: placed ds := rfl
      rw [hplaced, List.map_cons, List.nodup_cons] at hnodup
      rw [hplaced] at hs
      rcases List.mem_cons.1 hs with rfl | hs
      · have hget : ((Deed.place s).perform a).diagram.states.get? s.id = some s := by
          change ((a.diagram.states.erase s.id).insert s.id s).get? s.id = _
          rw [Entries.get?_insert, if_pos rfl]
        have hfree : ∀ t ∈ placed ds, t.id ≠ s.id := fun t ht e => hnodup.1 (e ▸ List.mem_map_of_mem ht)
        have hkeep := get?_performAll_of_not_placed (a := (Deed.place s).perform a) hfree
        rw [hget] at hkeep
        exact hkeep
      · exact hrest hs hnodup.2
    | _ => exact hrest hs hnodup

end

end DiagramText.StateDiagram

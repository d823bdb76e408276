/-
The canonical text of a state diagram written again. `reread` is what the deeds of a text come to, and `get?_reread` says
which states it has: those whose scope is open, settled where they have a line of their own, and bare where transitions
imply them. In every open scope the states that are written come in the order in which they were written
(`filter_scopeStates_reread`), so each scope has the lines it had (`scopeLines_reread`). `render_stable` puts this together:
a diagram that is read and loses nothing that transitions name is written, read and written again as the same text.
-/
import DiagramText.Proofs.Closed
import DiagramText.Proofs.StateDiagram.Kept

namespace DiagramText.StateDiagram

open DiagramText.Text

variable {d : StateDiagram} {o : RenderOptions} {c : Option Text} {id : Text} {s : State}

/-! ## What is read again -/

/-- the diagram that is read from the text of a diagram -/
def reread (d : StateDiagram) (o : RenderOptions) : StateDiagram := (performAll (pageDeeds d o) ⟨{}, []⟩).diagram

/-- a state that is read again: settled if it has a line of its own, and bare if transitions imply it -/
def State.reread (d : StateDiagram) (s : State) : State :=
  if isWritten d s then s.settled else { id := s.id, parent := s.parent }

/-- transitions are in open scopes, and so are the states that they name -/
structure IsWhole (d : StateDiagram) : Prop where
  nested : IsNested d
  ids : ∀ id ∈ d.states.keys, id ≠ terminal
  scope : ∀ t ∈ d.transitions, IsOpen d t.scope
  named : ∀ t ∈ d.transitions, ∀ {id}, t.names id = true → ∃ s, d.states.get? id = some s ∧ IsOpen d s.parent

@[simp] theorem parent_settled (s : State) : s.settled.parent = s.parent := by
  unfold State.settled
  split <;> rfl

@[simp] theorem kind_settled (s : State) : s.settled.kind = s.kind := by
  unfold State.settled
  split <;> simp [*]

@[simp] theorem id_reread : (s.reread d).id = s.id := by
  unfold State.reread
  split
  · exact id_settled s
  · rfl

@[simp] theorem parent_reread : (s.reread d).parent = s.parent := by
  unfold State.reread
  split
  · exact parent_settled s
  · rfl

/-! ### States -/

namespace IsWhole

variable (h : d.IsWhole)
include h

/-- a state that is written is read as it was written -/
theorem get?_reread_of_isWritten (hs : d.states.get? id = some s) (hp : IsOpen d s.parent) (hw : isWritten d s = true) :
    (d.reread o).states.get? id = some (s.reread d) := by
  obtain rfl := h.nested.byId hs
  have hmem : s.settled ∈ placed (pageDeeds d o) :=
    (mem_placed_pageDeeds h.nested).2 ⟨s, by rw [id_settled]; exact hs, hp, hw, rfl⟩
  have hget := get?_performAll_of_placed (a := ⟨{}, []⟩) (nodup_placed_pageDeeds h.nested) hmem
  rw [id_settled] at hget
  rw [State.reread, if_pos hw]
  exact hget

/-- a state that is not written comes back from the transitions that name it -/
theorem get?_reread_of_not_isWritten (hs : d.states.get? id = some s) (hw : isWritten d s = false) :
    (d.reread o).states.get? id = some (s.reread d) := by
  obtain rfl := h.nested.byId hs
  have hfree : ∀ t ∈ placed (pageDeeds d o), t.id ≠ s.id := by
    intro t ht e
    obtain ⟨u, hu, -, hwu, -⟩ := (mem_placed_pageDeeds h.nested).1 ht
    rw [e, hs] at hu
    exact absurd (Option.some.inj hu ▸ hwu) (by simp [hw])
  obtain ⟨-, -, ⟨t, ht, hnames⟩, hall⟩ := named_of_not_isWritten (h.ids s.id (Entries.mem_keys_of_get? hs)) hw
  refine (get?_performAll_of_not_placed hfree).trans ?_
  change ((linked (pageDeeds d o)).find? (·.names s.id)).map (fun t => ({ id := s.id, parent := t.scope } : State)) = _
  cases hfind : (linked (pageDeeds d o)).find? (·.names s.id) with
  | none =>
    rw [List.find?_eq_none] at hfind
    exact absurd hnames (hfind t ((mem_linked_pageDeeds h.nested).2 ⟨ht, h.scope t ht⟩))
  | some u =>
    have hu := ((mem_linked_pageDeeds h.nested).1 (List.mem_of_find?_eq_some hfind)).1
    rw [Option.map_some, hall u hu (by simpa using List.find?_some hfind), State.reread, if_neg (by simp [hw])]

theorem get?_reread_of_isOpen (hs : d.states.get? id = some s) (hp : IsOpen d s.parent) :
    (d.reread o).states.get? id = some (s.reread d) := by
  cases hw : isWritten d s with
  | true => exact h.get?_reread_of_isWritten hs hp hw
  | false => exact h.get?_reread_of_not_isWritten hs hw

/-- what is read was there, in an open scope: placed there, or named by a transition -/
theorem exists_of_get?_reread {s' : State} (hs' : (d.reread o).states.get? id = some s') :
    ∃ s, d.states.get? id = some s ∧ IsOpen d s.parent := by
  by_cases hmem : ∃ s ∈ placed (pageDeeds d o), s.id = id
  · obtain ⟨t, ht, rfl⟩ := hmem
    obtain ⟨s, hs, hp, -⟩ := (mem_placed_pageDeeds h.nested).1 ht
    exact ⟨s, hs, hp⟩
  · have hfree : ∀ s ∈ placed (pageDeeds d o), s.id ≠ id := fun s hs e => hmem ⟨s, hs, e⟩
    have hget := get?_performAll_of_not_placed (a := ⟨{}, []⟩) hfree
    rw [show (performAll (pageDeeds d o) ⟨{}, []⟩).diagram.states.get? id = some s' from hs'] at hget
    obtain ⟨t, ht, -⟩ := Option.map_eq_some_iff.1 hget.symm
    have hnames : t.names id = true := by simpa using List.find?_some ht
    exact h.named t ((mem_linked_pageDeeds h.nested).1 (List.mem_of_find?_eq_some ht)).1 hnames

/-- **the states that are read again** are those whose scope is open -/
theorem get?_reread {s' : State} : (d.reread o).states.get? id = some s' ↔
    ∃ s, d.states.get? id = some s ∧ IsOpen d s.parent ∧ s' = s.reread d := by
  constructor
  · intro hs'
    obtain ⟨s, hs, hp⟩ := h.exists_of_get?_reread hs'
    exact ⟨s, hs, hp, Option.some.inj (hs'.symm.trans (h.get?_reread_of_isOpen hs hp))⟩
  · rintro ⟨s, hs, hp, rfl⟩
    exact h.get?_reread_of_isOpen hs hp

theorem byId_reread {s' : State} (hs : (d.reread o).states.get? id = some s') : s'.id = id := by
  obtain ⟨s, hold, -, rfl⟩ := h.get?_reread.1 hs
  rw [id_reread]
  exact h.nested.byId hold

/-! ### Transitions and notes -/

theorem transitions_reread : (d.reread o).transitions.Perm d.transitions := by
  have htransitions : (d.reread o).transitions = linked (pageDeeds d o) := transitions_performAll _ _
  rw [htransitions, linked_pageDeeds]
  exact (perm_flatMap_scope_iff (nodup_scopes h.nested)).2 fun t ht => (mem_scopes_iff h.nested).2 (h.scope t ht)

theorem filter_transitions_reread (hc : IsOpen d c) :
    (d.reread o).transitions.filter (fun t => t.scope == c) = d.transitions.filter fun t => t.scope == c := by
  have htransitions : (d.reread o).transitions = linked (pageDeeds d o) := transitions_performAll _ _
  rw [htransitions]
  exact filter_linked_pageDeeds h.nested hc

omit h in
theorem isImplied_congr {d' : StateDiagram} {s' : State} (ht : d'.transitions.Perm d.transitions) (hid : s'.id = s.id)
    (hp : s'.parent = s.parent) : isImplied d' s' = isImplied d s := by
  have hnaming := ht.filter fun t => t.source == s.id || t.target == s.id
  unfold isImplied
  dsimp only
  rw [hid, hp, hnaming.isEmpty_eq, hnaming.all_eq]

/-- a state has a line of its own again if it had one -/
theorem isWritten_reread : isWritten (d.reread o) (s.reread d) = isWritten d s := by
  have himplied : isImplied (d.reread o) (s.reread d) = isImplied d s :=
    isImplied_congr h.transitions_reread id_reread parent_reread
  cases hw : isWritten d s with
  | false =>
    have himp : isImplied d s = true := by
      simp only [isWritten, Bool.not_eq_false', Bool.and_eq_true] at hw
      exact hw.2
    rw [isWritten, himplied, himp, State.reread, if_neg (by simp [hw])]
    rfl
  | true =>
    rw [isWritten, himplied, State.reread, if_pos hw, kind_settled, ← hw, isWritten]
    by_cases hk : s.kind = .plain
    · rw [State.settled, hk]
    · rw [beq_eq_false_iff_ne.2 hk, Bool.false_and, Bool.false_and]
      rfl

/-- a note is in the scope where it was, if that is open -/
theorem noteScope_reread {n : Note} (hopen : IsOpen d (noteScope d n)) :
    noteScope (d.reread o) n = noteScope d n := by
  unfold noteScope at hopen ⊢
  cases hs : d.states.get? n.stateId with
  | none =>
    have hnone : (d.reread o).states.get? n.stateId = none := by
      rw [Option.eq_none_iff_forall_not_mem]
      intro s' hs'
      obtain ⟨s, hs'', -⟩ := h.get?_reread.1 hs'
      rw [hs] at hs''
      cases hs''
    rw [hnone]
  | some s =>
    rw [hs] at hopen
    rw [h.get?_reread.2 ⟨s, hs, hopen, rfl⟩, Option.bind_some, Option.bind_some, parent_reread]

end IsWhole

/-! ### The order of states -/

/-- a link puts new states behind the others -/
theorem keys_link {a : Assembly} (t : Transition) : ∃ new,
    ((Deed.link t).perform a).diagram.states.keys = a.diagram.states.keys ++ new ∧ ∀ k ∈ new, k ∉ a.diagram.states.keys := by
  have hreference : ∀ (a : Assembly) (id : Text) (scope : Option Text), ∃ new,
      (a.reference id scope).diagram.states.keys = a.diagram.states.keys ++ new ∧ ∀ k ∈ new, k ∉ a.diagram.states.keys := by
    intro a id scope
    unfold Assembly.reference
    split
    · exact ⟨[], by simp, by simp⟩
    · dsimp only
      rw [Entries.keys_insertNew]
      split
      · exact ⟨[], by simp, by simp⟩
      · exact ⟨[id], rfl, by simpa⟩
  obtain ⟨ks, hks, hfresh⟩ := hreference a t.source t.scope
  obtain ⟨ks', hks', hfresh'⟩ := hreference (a.reference t.source t.scope) t.target t.scope
  refine ⟨ks ++ ks', ?_, List.forall_mem_append.2 ⟨hfresh, fun k hk hm => hfresh' k hk ?_⟩⟩
  · change ((a.reference t.source t.scope).reference t.target t.scope).diagram.states.keys = _
    rw [hks', hks, List.append_assoc]
  · exact hks ▸ List.mem_append_left ks hm

/-- the states that are placed come in the order in which they are placed, by induction from the last deed -/
theorem filter_keys_performAll {ds : List Deed} (hnodup : ((placed ds).map State.id).Nodup) :
    (performAll ds ⟨{}, []⟩).diagram.states.keys.filter (· ∈ (placed ds).map State.id) = (placed ds).map State.id := by
  induction ds using List.reverseRecOn with
  | nil => rfl
  | append_singleton ds x ih =>
    have hperform : performAll (ds ++ [x]) ⟨{}, []⟩ = x.perform (performAll ds ⟨{}, []⟩) := performAll_append ds [x] _
    have hplaced : placed (ds ++ [x]) = placed ds ++ placed [x] := List.filterMap_append
    rw [hperform]
    rw [hplaced, List.map_append] at hnodup ⊢
    have hrest := ih (List.nodup_append.1 hnodup).1
    cases x with
    | place s =>
      have hkeys : ((Deed.place s).perform (performAll ds ⟨{}, []⟩)).diagram.states.keys
          = (performAll ds ⟨{}, []⟩).diagram.states.keys.filter (· ≠ s.id) ++ [s.id] := Entries.keys_insert_erase _ _ _
      have hfresh : s.id ∉ (placed ds).map State.id := fun hm => (List.nodup_append.1 hnodup).2.2 _ hm s.id (by simp [placed, Deed.placed?]) rfl
      have hlast : (placed [Deed.place s]).map State.id = [s.id] := rfl
      rw [hkeys, hlast, List.filter_append, List.filter_filter]
      refine congrArg₂ (· ++ ·) ?_ (by simp)
      conv_rhs => rw [← hrest]
      refine List.filter_congr fun k _ => ?_
      by_cases e : k = s.id
      · subst e
        simpa using hfresh
      · simp [e]
    | link t =>
      obtain ⟨new, hkeys, hnew⟩ := keys_link (a := performAll ds ⟨{}, []⟩) t
      have hlast : (placed [Deed.link t]).map State.id = [] := rfl
      rw [hkeys, hlast, List.append_nil, List.filter_append, hrest]
      have hnone : new.filter (· ∈ (placed ds).map State.id) = [] := by
        refine List.filter_eq_nil_iff.2 fun k hk => ?_
        simp only [decide_eq_true_eq]
        exact fun hm => hnew k hk (List.mem_of_mem_filter (hrest ▸ hm))
      rw [hnone, List.append_nil]
    | _ =>
      have hlast : ((placed ds).map State.id ++ []) = (placed ds).map State.id := List.append_nil _
      change List.filter (· ∈ (placed ds).map State.id ++ []) _ = (placed ds).map State.id ++ []
      rw [hlast]
      exact hrest

/-- what is written in a scope is written in its order -/
theorem ownStates_sublist {fuel : Nat} {scope : Option Text} (hc : c ∈ scopes d o fuel scope) :
    (ownStates d o c).Sublist (placed (scopeDeeds d o fuel scope)) := by
  induction fuel generalizing scope with
  | zero => exact absurd hc (by simp [scopes])
  | succ fuel ih =>
    rw [placed_scopeDeeds]
    rcases List.mem_append.1 hc with hc | hc
    · obtain ⟨s, hs, hc⟩ := List.mem_flatMap.1 hc
      have hk : s.kind = .composite := by
        by_contra hk
        rw [if_neg hk] at hc
        cases hc
      rw [if_pos hk] at hc
      refine ((ih hc).trans ?_).trans (List.sublist_flatten_of_mem (List.mem_map_of_mem hs))
      rw [if_pos hk]
      exact List.sublist_append_right _ _
    · obtain rfl := List.mem_singleton.1 hc
      rw [ownStates_eq_flatMap]
      exact List.Sublist.flatMap_right _ fun s _ => List.sublist_append_left _ _

/-- what is written in an open scope, among all that is written -/
theorem filter_placed_pageDeeds (hn : IsNested d) (hc : IsOpen d c) :
    (placed (pageDeeds d o)).filter (fun s => s.parent == c) = ownStates d o c := by
  have hplaced : placed (pageDeeds d o) = placed (scopeDeeds d o (d.states.toList.length + 1) none) :=
    filterMap_pageDeeds_local (fun _ => rfl) (fun _ => rfl) (fun _ _ => rfl) (fun _ _ => rfl)
  have hsublist : (ownStates d o c).Sublist ((placed (pageDeeds d o)).filter fun s => s.parent == c) := by
    have hown : (ownStates d o c).filter (fun s => s.parent == c) = ownStates d o c := by
      refine List.filter_eq_self.2 fun s hs => ?_
      obtain ⟨t, -, rfl, -, rfl⟩ := (mem_ownStates hn).1 hs
      rw [parent_settled, beq_self_eq_true]
    rw [← hown, hplaced]
    exact (ownStates_sublist ((mem_scopes_iff hn).2 hc)).filter _
  have hperm : ((placed (pageDeeds d o)).filter fun s => s.parent == c).Perm (ownStates d o c) := by
    have hnodup : ((placed (pageDeeds d o)).filter fun s => s.parent == c).Nodup :=
      (nodup_placed_pageDeeds hn).of_map.filter _
    refine (List.perm_ext_iff_of_nodup hnodup (hnodup.sublist hsublist)).2 fun s => ?_
    rw [List.mem_filter, mem_placed_pageDeeds hn, mem_ownStates hn, beq_iff_eq]
    constructor
    · rintro ⟨⟨t, ht, -, hw, rfl⟩, hp⟩
      exact ⟨t, ht, (parent_settled t).symm.trans hp, hw, rfl⟩
    · rintro ⟨t, ht, rfl, hw, rfl⟩
      exact ⟨⟨t, ht, hc, hw, rfl⟩, parent_settled t⟩
  exact (hsublist.eq_of_length hperm.length_eq.symm).symm

/-- the states that are written come in the order of writing -/
theorem filter_values_reread (h : d.IsWhole) :
    (d.reread o).states.values.filter (fun s => s.id ∈ (placed (pageDeeds d o)).map State.id) = placed (pageDeeds d o) := by
  have hnodup := nodup_placed_pageDeeds (o := o) h.nested
  have hkeys : (d.reread o).states.keys.filter (· ∈ (placed (pageDeeds d o)).map State.id) = (placed (pageDeeds d o)).map State.id :=
    filter_keys_performAll hnodup
  rw [Entries.filter_values (fun hs => h.byId_reread hs), hkeys, List.filterMap_map]
  refine (List.filterMap_congr fun s hs => ?_).trans List.filterMap_some
  exact get?_performAll_of_placed hnodup hs

namespace IsWhole

variable (h : d.IsWhole)
include h

/-- a state is written again if it was -/
theorem isWritten_iff {s' : State} (hs : s' ∈ (d.reread o).states.values) :
    isWritten (d.reread o) s' = true ↔ s'.id ∈ (placed (pageDeeds d o)).map State.id := by
  obtain ⟨id, hs⟩ := Entries.mem_values_iff.1 hs
  obtain ⟨s, hold, hp, rfl⟩ := h.get?_reread.1 hs
  obtain rfl := h.nested.byId hold
  rw [h.isWritten_reread, id_reread, List.mem_map]
  constructor
  · intro hw
    exact ⟨s.settled, (mem_placed_pageDeeds h.nested).2 ⟨s, by rw [id_settled]; exact hold, hp, hw, rfl⟩, id_settled s⟩
  · rintro ⟨t, ht, e⟩
    obtain ⟨u, hu, -, hw, -⟩ := (mem_placed_pageDeeds h.nested).1 ht
    rw [e, hold] at hu
    exact Option.some.inj hu ▸ hw

/-- **an open scope has its states in the order of writing** -/
theorem filter_scopeStates_reread (hc : IsOpen d c) :
    (scopeStates (d.reread o) o c).filter (isWritten (d.reread o)) = ownStates d o c := by
  have hchildren : ((d.reread o).childrenOf c).filter (isWritten (d.reread o)) = ownStates d o c := by
    have hcomm : ((d.reread o).childrenOf c).filter (isWritten (d.reread o))
        = ((d.reread o).states.values.filter fun s => s.id ∈ (placed (pageDeeds d o)).map State.id).filter fun s => s.parent == c := by
      rw [StateDiagram.childrenOf, List.filter_filter, List.filter_filter]
      refine List.filter_congr fun s hs => ?_
      rw [Bool.and_comm, Bool.eq_iff_iff.2 (h.isWritten_iff hs |>.trans decide_eq_true_iff.symm)]
    rw [hcomm, filter_values_reread h, filter_placed_pageDeeds h.nested hc]
  unfold scopeStates
  split
  · rename_i hsort
    -- sorted again, what was written in order stays in order: ids tell states apart
    have hperm : (((d.reread o).childrenOf c).mergeSort fun a b => le a.id b.id).Perm ((d.reread o).childrenOf c) :=
      List.mergeSort_perm _ _
    refine List.Perm.eq_of_pairwise (fun a b ha hb hab hba => ?_) ((pairwise_mergeSort State.id _).filter _) ?_
      ((hperm.filter _).trans (.of_eq hchildren))
    · have hmem : ∀ s', s' ∈ (d.reread o).childrenOf c → (d.reread o).states.get? s'.id = some s' := by
        intro s' hs'
        exact (Entries.mem_values_iff_of_byId h.byId_reread).1 (List.mem_of_mem_filter hs')
      have ha := hmem a (List.mem_mergeSort.1 (List.mem_of_mem_filter ha))
      have hb := hmem b (List.mem_of_mem_filter (hchildren ▸ hb))
      exact Option.some.inj (ha.symm.trans (le_antisymm hab hba ▸ hb))
    · rw [ownStates, scopeStates, if_pos hsort, List.pairwise_map]
      simp only [id_settled]
      exact (pairwise_mergeSort State.id _).filter _
  · exact hchildren

end IsWhole

/-! ## The lines of a scope -/

/-- the lines of a state, with what is inside it -/
def stateLines (d : StateDiagram) (o : RenderOptions) (fuel depth : Nat) (s : State) : List Text :=
  match s.kind with
  | .composite =>
    (o.levels depth ++ compositeHead s)
        :: (s.direction.map fun dir => o.levels depth ++ o.unit ++ "direction " ++ dir.toText).toList
      ++ scopeLines d o fuel (some s.id) (depth + 1) ++ [o.levels depth ++ "\x7d"]
  | .pseudo marker => [o.levels depth ++ "state " ++ s.id ++ " <<" ++ marker ++ ">>"]
  | .plain =>
    match s.label with
    | some label => [Text.trimRight (o.levels depth ++ s.id ++ " : " ++ label)]
    | none => if isImplied d s then [] else [o.levels depth ++ s.id]

theorem scopeLines_succ (d : StateDiagram) (o : RenderOptions) (fuel : Nat) (c : Option Text) (depth : Nat) :
    scopeLines d o (fuel + 1) c depth = (scopeStates d o c).flatMap (stateLines d o fuel depth)
      ++ (d.transitions.filter fun t => t.scope == c).map (fun t => o.levels depth ++ t.toText)
      ++ (d.notes.filter fun n => noteScope d n == c).flatMap (Note.lines o (o.levels depth)) := rfl

/-- only states that are written have lines -/
theorem flatMap_stateLines (fuel depth : Nat) (l : List State) :
    l.flatMap (stateLines d o fuel depth) = (l.filter (isWritten d)).flatMap (stateLines d o fuel depth) := by
  have hnil : ∀ s, isWritten d s = false → stateLines d o fuel depth s = [] := by
    intro s hw
    simp only [isWritten, Bool.not_eq_false', Bool.and_eq_true, beq_iff_eq, Option.isNone_iff_eq_none] at hw
    obtain ⟨⟨hk, hl⟩, himplied⟩ := hw
    rw [stateLines, hk]
    dsimp only
    rw [hl]
    exact if_pos himplied
  induction l with
  | nil => rfl
  | cons s l ih =>
    cases hw : isWritten d s with
    | true => rw [List.filter_cons_of_pos hw, List.flatMap_cons, List.flatMap_cons, ih]
    | false => rw [List.filter_cons_of_neg (by simp [hw]), List.flatMap_cons, hnil s hw, List.nil_append, ih]

/-- a state that is read again has the lines it had, if what is inside it has -/
theorem stateLines_settled (h : d.IsWhole) (fuel depth : Nat) (hs : isWritten d s = true)
    (hinner : s.kind = .composite →
      scopeLines (d.reread o) o fuel (some s.id) (depth + 1) = scopeLines d o fuel (some s.id) (depth + 1)) :
    stateLines (d.reread o) o fuel depth s.settled = stateLines d o fuel depth s := by
  have himplied : isImplied (d.reread o) s.settled = isImplied d s :=
    IsWhole.isImplied_congr h.transitions_reread (id_settled s) (parent_settled s)
  obtain ⟨id, label, kind, parent, direction⟩ := s
  cases kind with
  | composite =>
    have hhead : compositeHead ⟨id, label.map readEntities, .composite, parent, direction⟩
        = compositeHead ⟨id, label, .composite, parent, direction⟩ := by
      cases label with
      | none => rfl
      | some t =>
        have hquote : quote (readEntities t) = quote t := unquote_quote t ▸ quote_unquote_quote t
        change "state " ++ quote (readEntities t) ++ " as " ++ id ++ " \x7b" = "state " ++ quote t ++ " as " ++ id ++ " \x7b"
        rw [hquote]
    simp only [stateLines, State.settled, hhead, hinner rfl]
  | pseudo marker => rfl
  | plain =>
    cases label with
    | some t => rfl
    | none =>
      simp only [stateLines]
      exact congrArg (fun b : Bool => if b then [] else [o.levels depth ++ id]) himplied

namespace IsWhole

/-- the notes of an open scope are read again in their order -/
theorem filter_notes_reread (h : d.IsWhole) (ht : d.IsTaken) (hc : IsOpen d c) :
    (d.reread o).notes.filter (fun n => noteScope (d.reread o) n == c) = d.notes.filter fun n => noteScope d n == c := by
  have hnotes : (d.reread o).notes = (pageScopes d o).flatMap fun c => d.notes.filter fun n => noteScope d n == c :=
    (notes_performAll _ _).trans (attached_eq ht)
  have hscope : ∀ n ∈ (d.reread o).notes, noteScope (d.reread o) n = noteScope d n := by
    intro n hn
    rw [hnotes] at hn
    obtain ⟨c', hc', hn⟩ := List.mem_flatMap.1 hn
    obtain rfl := beq_iff_eq.1 (List.mem_filter.1 hn).2
    exact h.noteScope_reread ((mem_scopes_iff h.nested).1 hc')
  rw [List.filter_congr fun n hn => by rw [hscope n hn], hnotes]
  exact filter_flatMap_scope (nodup_scopes h.nested) d.notes ((mem_scopes_iff h.nested).2 hc)

/-- **an open scope has the lines it had**, by induction on how deep the text goes on -/
theorem scopeLines_reread (h : d.IsWhole) (ht : d.IsTaken) (hc : IsOpen d c) (fuel depth : Nat) :
    scopeLines (d.reread o) o fuel c depth = scopeLines d o fuel c depth := by
  induction fuel generalizing c depth with
  | zero => rfl
  | succ fuel ih =>
    rw [scopeLines_succ, scopeLines_succ, h.filter_transitions_reread hc, h.filter_notes_reread ht hc,
      flatMap_stateLines (d := d.reread o), flatMap_stateLines (d := d), h.filter_scopeStates_reread hc, ownStates, List.flatMap_map]
    refine congrArg (· ++ _ ++ _) (List.flatMap_congr fun s hs => ?_)
    obtain ⟨hmem, hw⟩ := List.mem_filter.1 hs
    obtain ⟨hget, rfl⟩ := (mem_scopeStates h.nested).1 hmem
    exact stateLines_settled h fuel depth hw fun hk => ih (.inner hget hk hc) (depth + 1)

end IsWhole

/-! ## Whole texts -/

/-- the accessibility text that a deed sets -/
def Deed.described? : Deed → Option AccessibilityLine
  | describe line => some line
  | _ => none

/-- the style class that a deed defines -/
def Deed.defined? : Deed → Option (Text × Style)
  | define name style => some (name, style)
  | _ => none

/-- the style class that a deed gives to a state -/
def Deed.assigned? : Deed → Option (Text × Text)
  | assign id name => some (id, name)
  | _ => none

/-- what the scopes of a text do not do -/
theorem filterMap_pageDeeds_global {α : Type} {f : Deed → Option α} (hplace : ∀ s, f (.place s) = none)
    (hlink : ∀ t, f (.link t) = none) (hattach : ∀ n, f (.attach n) = none) (horient : ∀ dir, f (.orient dir) = none) :
    (pageDeeds d o).filterMap f
      = ((present d.accessibility.title).map fun t => Deed.describe (.title t)).toList.filterMap f
        ++ ((present d.accessibility.description).map fun t => Deed.describe (.description t)).toList.filterMap f
        ++ (d.classDefs.toList.map fun x => Deed.define x.1 x.2).filterMap f
        ++ (d.classAssignments.toList.flatMap fun x => x.2.map (Deed.assign x.1)).filterMap f := by
  have hdirection : (if d.direction = .tb then [] else [Deed.orient d.direction]).filterMap f = [] := by
    split <;> simp [horient]
  simp only [pageDeeds, List.filterMap_append, hdirection, filterMap_scopeDeeds_eq_nil hplace hlink hattach, List.nil_append,
    List.append_nil]

theorem described_pageDeeds : (pageDeeds d o).filterMap Deed.described? = d.accessibility.written := by
  rw [filterMap_pageDeeds_global (fun _ => rfl) (fun _ => rfl) (fun _ => rfl) fun _ => rfl, List.filterMap_map,
    List.filterMap_flatMap, Accessibility.written]
  cases present d.accessibility.title <;> cases present d.accessibility.description <;>
    simp [List.filterMap_map, Function.comp_def, Deed.described?]

theorem defined_pageDeeds : (pageDeeds d o).filterMap Deed.defined? = d.classDefs.toList := by
  rw [filterMap_pageDeeds_global (fun _ => rfl) (fun _ => rfl) (fun _ => rfl) fun _ => rfl, List.filterMap_map,
    List.filterMap_flatMap]
  cases present d.accessibility.title <;> cases present d.accessibility.description <;>
    simp [List.filterMap_map, List.filterMap_cons, Function.comp_def, Deed.defined?]

theorem assigned_pageDeeds :
    (pageDeeds d o).filterMap Deed.assigned? = d.classAssignments.toList.flatMap fun x => x.2.map (x.1, ·) := by
  rw [filterMap_pageDeeds_global (fun _ => rfl) (fun _ => rfl) (fun _ => rfl) fun _ => rfl, List.filterMap_map,
    List.filterMap_flatMap]
  cases present d.accessibility.title <;> cases present d.accessibility.description <;>
    simp [List.filterMap_map, List.filterMap_cons, Function.comp_def, Deed.assigned?]

/-- empty accessibility texts are not written, so they are not read again -/
theorem accessibility_reread : (d.reread o).accessibility = d.accessibility.settled := by
  refine (performAll_eq_foldl Deed.described? Accessibility.put (fun a x => ?_) _ _).trans ?_
  · cases x with
    | link t =>
      obtain ⟨states, h⟩ := diagram_link (a := a) t
      rw [h]
      rfl
    | _ => rfl
  · rw [described_pageDeeds]
    exact Accessibility.foldl_put_written d.accessibility

theorem classDefs_reread : (d.reread o).classDefs = d.classDefs := by
  refine (performAll_eq_foldl Deed.defined? (fun e x => e.insert x.1 x.2) (fun a x => ?_) _ _).trans ?_
  · cases x with
    | link t =>
      obtain ⟨states, h⟩ := diagram_link (a := a) t
      rw [h]
      rfl
    | _ => rfl
  · rw [defined_pageDeeds]
    exact Entries.update_toList d.classDefs

theorem classAssignments_reread (ht : d.IsTaken) : (d.reread o).classAssignments = d.classAssignments := by
  refine (performAll_eq_foldl Deed.assigned? (fun e x => e.assign x.1 x.2) (fun a x => ?_) _ _).trans ?_
  · cases x with
    | link t =>
      obtain ⟨states, h⟩ := diagram_link (a := a) t
      rw [h]
      rfl
    | _ => rfl
  · rw [assigned_pageDeeds]
    exact Entries.foldl_assign_toList fun x hx => ⟨(ht.classAssignment x hx).ne_nil, (ht.classAssignment x hx).distinct⟩

/-- **rendering a diagram that is read again gives its text** -/
theorem render_reread (h : d.IsWhole) (ht : d.IsTaken) (hn : IsNested (d.reread o)) :
    render (d.reread o) o = render d o := by
  have hscope : scopeLines (d.reread o) o ((d.reread o).states.toList.length + 1) none 1
      = scopeLines d o (d.states.toList.length + 1) none 1 := by
    have hwalk : ∀ {d' : StateDiagram} {fuel : Nat}, IsNested d' → d'.states.toList.length ≤ fuel →
        scopeLines d' o (d'.states.toList.length + 1) none 1 = scopeLines d' o (fuel + 1) none 1 := by
      intro d' fuel hn' hfuel
      exact scopeLines_congr_fuel hn' 1 (Nat.zero_le _) (Nat.lt_succ_self _) (Nat.lt_succ_of_le hfuel)
    rw [hwalk hn (Nat.le_max_left _ d.states.toList.length),
      hwalk h.nested (Nat.le_max_right (d.reread o).states.toList.length _)]
    exact h.scopeLines_reread ht .top _ 1
  have hdirection : (d.reread o).direction = d.direction := direction_pageDeeds
  unfold render
  dsimp only
  rw [hscope, hdirection, accessibility_reread, Accessibility.lines_settled, classDefs_reread, classAssignments_reread ht]

/-- **the canonical text of a state diagram is stable**: a diagram that is read, of which no transition and no state that
a transition names is inside a pseudo-state, is written so that it is read again, and then written as the same text -/
theorem render_stable {text : Text} (h : read text = .ok d) (hl : d.IsLegible)
    (hscope : ∀ t ∈ d.transitions, ¬ d.IsLost t.scope)
    (hnamed : ∀ t ∈ d.transitions, ∀ s ∈ d.states.values, t.names s.id = true → ¬ d.IsLost s.parent) (ho : '\n' ∉ o.unit) :
    ∃ d', read (render d o) = .ok d' ∧ render d' o = render d o := by
  have hn := isNested_of_read h
  have ht := isTaken_of_read h
  have hscoped := isScoped_of_read h
  have hread : read (render d o) = .ok (d.reread o) :=
    read_render_eq hn (isPrintable_of_read h hl) ho (nodup_placed_pageDeeds hn)
  have hids : ∀ id ∈ d.states.keys, id ≠ terminal := by
    rintro id hid rfl
    obtain ⟨s, hs⟩ := Entries.exists_of_mem_keys hid
    exact not_isId_terminal (ht.state hs).1
  have hwhole : d.IsWhole := by
    refine ⟨hn, hids, fun t hm => ?_, fun t hm {id} hnames => ?_⟩
    · exact (isOpen_iff_not_isLost hn hscoped (hscoped.scope t hm)).2 (hscope t hm)
    · have hwithin := (closed_of_read h).transition t hm
      have hkey : id ∈ d.states.keys := by
        simp only [Transition.names, Bool.and_eq_true, Bool.or_eq_true, decide_eq_true_eq, beq_iff_eq] at hnames
        obtain ⟨hid, rfl | rfl⟩ := hnames
        · exact hwithin.source.resolve_left hid
        · exact hwithin.target.resolve_left hid
      obtain ⟨s, hs⟩ := Entries.exists_of_mem_keys hkey
      obtain rfl := hn.byId hs
      exact ⟨s, hs, (isOpen_iff_not_isLost hn hscoped fun p hp => hscoped.parent hs hp).2
        (hnamed t hm s (Entries.mem_values_iff.2 ⟨s.id, hs⟩) hnames)⟩
  exact ⟨_, hread, render_reread hwhole ht (isNested_of_read hread)⟩

/-- a composite state with transitions and a note in it, and a choice -/
def gated : Text := "stateDiagram-v2\nA --> F\nstate A \x7b\nB --> C : go\n\x7d\nnote left of B : kept\nstate F <<choice>>"

/-- what the text says -/
def gatedDiagram : StateDiagram where
  states := ⟨[("A", { id := "A", kind := .composite }), ("B", { id := "B", parent := some "A" }),
    ("C", { id := "C", parent := some "A" }), ("F", { id := "F", kind := .pseudo "choice" })], by decide⟩
  transitions := [⟨"A", "F", none, none⟩, ⟨"B", "C", some "go", some "A"⟩]
  notes := [⟨"B", "kept", "left of"⟩]

theorem isLegible_gatedDiagram : gatedDiagram.IsLegible := by
  have hget : ∀ {id s}, gatedDiagram.states.get? id = some s → (id, s) ∈ gatedDiagram.states.toList := Entries.mem_toList_iff.2
  have hstate : ∀ x ∈ gatedDiagram.states.toList, (x.2.kind = .plain → x.2.label = none) ∧
      (x.2.kind = .plain ∨ x.2.kind = .composite ∨ x.2.kind = .pseudo "choice") := by decide
  refine ⟨fun {id s t} hs hk ht => ?_, fun {id s m} hs hm => ?_, by decide, by decide, by decide, nofun, nofun, nofun⟩
  · exact absurd (((hstate _ (hget hs)).1 hk).symm.trans ht) nofun
  · rcases (hstate _ (hget hs)).2 with hk | hk | hk
    · exact absurd (hk.symm.trans hm) nofun
    · exact absurd (hk.symm.trans hm) nofun
    · exact StateKind.pseudo.inj (hk.symm.trans hm) ▸ by decide

theorem read_gated : read gated = .ok gatedDiagram := by exact rfl

theorem render_stable_gated : read gated = .ok gatedDiagram ∧ gatedDiagram.IsLegible ∧
    (∀ t ∈ gatedDiagram.transitions, ¬ gatedDiagram.IsLost t.scope) ∧
    (∀ t ∈ gatedDiagram.transitions, ∀ s ∈ gatedDiagram.states.values, t.names s.id = true → ¬ gatedDiagram.IsLost s.parent) ∧
    ∃ d', read (render gatedDiagram .default) = .ok d' ∧ render d' .default = render gatedDiagram .default := by
  have hopen : ∀ c : Option Text, c = none ∨ c = some ("A" : Text) → ¬ gatedDiagram.IsLost c := by
    have hn := isNested_of_read read_gated
    have hscoped := isScoped_of_read read_gated
    have hinner : IsOpen gatedDiagram (some "A") := .inner rfl rfl .top
    rintro c (rfl | rfl)
    · exact (isOpen_iff_not_isLost hn hscoped fun p hp => absurd hp (by simp)).1 .top
    · exact (isOpen_iff_not_isLost hn hscoped fun p hp => Option.some.inj hp ▸ ⟨_, rfl, by decide⟩).1 hinner
  have hscope : ∀ t ∈ gatedDiagram.transitions, ¬ gatedDiagram.IsLost t.scope := fun t ht =>
    hopen _ ((by decide : ∀ t ∈ gatedDiagram.transitions, t.scope = none ∨ t.scope = some ("A" : Text)) t ht)
  have hnamed : ∀ t ∈ gatedDiagram.transitions, ∀ s ∈ gatedDiagram.states.values, t.names s.id = true → ¬ gatedDiagram.IsLost s.parent :=
    fun _ _ s hs _ =>
      hopen _ ((by decide : ∀ s ∈ gatedDiagram.states.values, s.parent = none ∨ s.parent = some ("A" : Text)) s hs)
  exact ⟨read_gated, isLegible_gatedDiagram, hscope, hnamed,
    render_stable read_gated isLegible_gatedDiagram hscope hnamed (by decide)⟩

/-- a state that is named in a scope which is lost has a line of its own once, and none when it is written again -/
theorem render_unstable : ∃ d d', read "stateDiagram-v2\nX --> Z\nstate A \x7b\nX --> Y\n\x7d\nstate A <<fork>>" = .ok d ∧
    read (render d .default) = .ok d' ∧ render d' .default ≠ render d .default := ⟨_, _, rfl, rfl, by decide⟩

end DiagramText.StateDiagram

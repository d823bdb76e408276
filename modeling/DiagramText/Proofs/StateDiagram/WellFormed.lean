/-
State diagrams that are read. Whatever text is accepted, its states are kept under their ids, after the states they are
in (`isNested_of_read`): a scope is the id of a state that is declared, and a state that is declared stays in its place.
-/
import DiagramText.Proofs.StateDiagram.Accepted
import DiagramText.Proofs.StateDiagram.Replay

namespace DiagramText.StateDiagram

open DiagramText.Text

/-! ## Nested states -/

/-- of two keys in this order the first is found before the other -/
theorem idxOf_lt_of_sublist {p k : Text} {ks : List Text} (hks : ks.Nodup) (h : [p, k].Sublist ks) : ks.idxOf p < ks.idxOf k := by
  obtain ⟨before, after, rfl, hp, hk⟩ := List.cons_sublist_iff.1 h
  have hk : k ∈ after := List.singleton_sublist.1 hk
  have hfresh : k ∉ before := fun hm => (List.nodup_append.1 hks).2.2 k hm k hk rfl
  rw [List.idxOf_append_of_mem hp, List.idxOf_append_of_notMem hfresh]
  exact (List.idxOf_lt_length_of_mem hp).trans_le (Nat.le_add_right _ _)

namespace Assembly

/-- the states are kept under their ids, after the states they are in, and those are declared -/
structure IsNested (a : Assembly) : Prop where
  byId : ∀ {id s}, a.diagram.states.get? id = some s → s.id = id
  parent : ∀ {id s p}, a.diagram.states.get? id = some s → s.parent = some p →
    p ∈ a.declared ∧ [p, id].Sublist a.diagram.states.keys
  known : a.declared ⊆ a.diagram.states.keys

variable {a : Assembly} {id : Text} {scope : Option Text}

/-- a declaration moves its state to the end, where it is not declared yet -/
theorem IsNested.declare (h : a.IsNested) (hscope : ∀ p, scope = some p → p ∈ a.declared) : (a.declare id scope).IsNested := by
  unfold Assembly.declare
  split
  · exact h
  · rename_i hid
    have hid : id ∉ a.declared := fun hm => hid (List.contains_iff_mem.2 hm)
    have hother : ∀ {p}, p ∈ a.declared → p ≠ id := fun hp e => hid (e ▸ hp)
    refine ⟨fun {k s} hs => ?_, fun {k s p} hs hp => ?_, fun k hk => ?_⟩
    · obtain ⟨rfl, rfl⟩ | ⟨-, hs⟩ := Entries.get?_insert_erase_cases hs
      · cases hget : a.diagram.states.get? k with
        | none => rfl
        | some t =>
          have hkept : t.id = k := h.byId hget
          exact hkept
      · exact h.byId hs
    · rw [Entries.keys_insert_erase]
      obtain ⟨rfl, rfl⟩ | ⟨hk, hs⟩ := Entries.get?_insert_erase_cases hs
      · have hp : p ∈ a.declared := hscope p hp
        refine ⟨List.mem_cons_of_mem k hp, ?_⟩
        have hfirst : [p].Sublist (a.diagram.states.keys.filter (· ≠ k)) :=
          List.singleton_sublist.2 (List.mem_filter.2 ⟨h.known hp, by simpa using hother hp⟩)
        exact hfirst.append (List.Sublist.refl [k])
      · obtain ⟨hp, hsub⟩ := h.parent hs hp
        refine ⟨List.mem_cons_of_mem id hp, ?_⟩
        have hkeep := hsub.filter (· ≠ id)
        rw [List.filter_eq_self.2 (by simp [hother hp, hk])] at hkeep
        exact hkeep.trans (List.sublist_append_left _ _)
    · rw [Entries.keys_insert_erase, List.mem_append, List.mem_filter, List.mem_singleton]
      rcases List.mem_cons.1 hk with rfl | hk
      · exact Or.inr rfl
      · exact Or.inl ⟨h.known hk, by simpa using hother hk⟩

/-- what is said of a state leaves it in its place -/
theorem IsNested.alterState (h : a.IsNested) {f : State → State} (hid : ∀ s, (f s).id = s.id)
    (hparent : ∀ s, (f s).parent = s.parent) : (a.alterState id f).IsNested := by
  unfold Assembly.alterState
  split
  · exact h
  · rename_i s hs
    have hkeys : (a.diagram.states.insert id (f s)).keys = a.diagram.states.keys := by
      rw [Entries.keys_insert, if_pos (Entries.mem_keys_of_get? hs)]
    refine ⟨fun {k t} ht => ?_, fun {k t p} ht hp => ?_, fun k hk => hkeys ▸ h.known hk⟩
    · obtain ⟨rfl, rfl⟩ | ht := Entries.get?_insert_cases ht
      · exact (hid s).trans (h.byId hs)
      · exact h.byId ht
    · rw [hkeys]
      obtain ⟨rfl, rfl⟩ | ht := Entries.get?_insert_cases ht
      · exact h.parent hs ((hparent s).symm.trans hp)
      · exact h.parent ht hp

theorem IsNested.declareAs (h : a.IsNested) (hscope : ∀ p, scope = some p → p ∈ a.declared) {f : State → State}
    (hid : ∀ s, (f s).id = s.id) (hparent : ∀ s, (f s).parent = s.parent) : (a.declareAs id scope f).IsNested :=
  (h.declare hscope).alterState hid hparent

theorem IsNested.reference (h : a.IsNested) (id : Text) (hscope : ∀ p, scope = some p → p ∈ a.declared) :
    (a.reference id scope).IsNested := by
  unfold Assembly.reference
  split
  · exact h
  · by_cases hget : id ∈ a.diagram.states.keys
    · obtain ⟨s, hs⟩ := Entries.exists_of_mem_keys hget
      rw [Entries.insertNew_of_get? hs]
      exact h
    · have hkeys := Entries.keys_insertNew a.diagram.states id { id := id, parent := scope }
      rw [if_neg hget] at hkeys
      refine ⟨fun {k s} hs => ?_, fun {k s p} hs hp => ?_, fun k hk => ?_⟩
      · obtain ⟨rfl, rfl⟩ | hs := Entries.get?_insertNew_cases hs
        · rfl
        · exact h.byId hs
      · rw [hkeys]
        obtain ⟨rfl, rfl⟩ | hs := Entries.get?_insertNew_cases hs
        · have hp := hscope p hp
          exact ⟨hp, (List.singleton_sublist.2 (h.known hp)).append (List.Sublist.refl _)⟩
        · obtain ⟨hp, hsub⟩ := h.parent hs hp
          exact ⟨hp, hsub.trans (List.sublist_append_left _ _)⟩
      · rw [hkeys]
        exact List.mem_append_left _ (h.known hk)

theorem IsNested.isNested (h : a.IsNested) : StateDiagram.IsNested a.diagram where
  byId := h.byId
  parent hs hp := idxOf_lt_of_sublist a.diagram.states.nodup_keys (h.parent hs hp).2

end Assembly

/-! ## Lines -/

namespace Progress

/-- the states are nested, and the open composite states are declared -/
structure IsNested (p : Progress) : Prop where
  assembly : p.assembly.IsNested
  composite : ∀ c ∈ p.composites, c.1 ∈ p.assembly.declared

variable {p q : Progress} {l : SourceLine}

theorem IsNested.scope (h : p.IsNested) {id : Text} (hid : p.scope = some id) : id ∈ p.assembly.declared := by
  obtain ⟨c, hc, rfl⟩ := Option.map_eq_some_iff.1 hid
  exact h.composite c (List.mem_of_mem_head? hc)

/-- an update that keeps the states nested, and declared what is declared -/
theorem IsNested.update (h : p.IsNested) {f : Assembly → Assembly} (hf : (f p.assembly).IsNested)
    (hdeclared : p.assembly.declared ⊆ (f p.assembly).declared) : (p.update f).IsNested :=
  ⟨hf, fun c hc => hdeclared (h.composite c hc)⟩

theorem declared_subset_declare (a : Assembly) (id : Text) (scope : Option Text) :
    a.declared ⊆ (a.declare id scope).declared ∧ id ∈ (a.declare id scope).declared := by
  unfold Assembly.declare
  split
  · rename_i hid
    exact ⟨List.Subset.refl _, List.contains_iff_mem.1 hid⟩
  · exact ⟨List.subset_cons_self id _, by simp⟩

@[simp] theorem declared_alterState (a : Assembly) (id : Text) (f : State → State) :
    (a.alterState id f).declared = a.declared := by
  unfold Assembly.alterState
  split <;> rfl

theorem IsNested.declareAs (h : p.IsNested) (id : Text) {f : State → State} (hid : ∀ s, (f s).id = s.id)
    (hparent : ∀ s, (f s).parent = s.parent) :
    (p.update (·.declareAs id p.scope f)).IsNested ∧ id ∈ (p.assembly.declareAs id p.scope f).declared := by
  obtain ⟨hsub, hmem⟩ := declared_subset_declare p.assembly id p.scope
  rw [Assembly.declareAs, declared_alterState]
  refine ⟨h.update (h.assembly.declareAs (fun _ => h.scope) hid hparent) ?_, hmem⟩
  rw [Assembly.declareAs, declared_alterState]
  exact hsub

theorem IsNested.apply (h : p.IsNested) {line : Line} (hq : p.apply l line = .ok q) : q.IsNested := by
  have hsame : ∀ {f : Assembly → Assembly}, (f p.assembly).diagram.states = p.assembly.diagram.states →
      (f p.assembly).declared = p.assembly.declared → (p.update f).IsNested := by
    intro f hstates hdeclared
    refine h.update ⟨?_, ?_, ?_⟩ (hdeclared ▸ List.Subset.refl _)
    · exact fun hs => h.assembly.byId (hstates ▸ hs)
    · exact fun hs hp => hstates ▸ hdeclared ▸ h.assembly.parent (hstates ▸ hs) hp
    · exact hstates ▸ hdeclared ▸ h.assembly.known
  cases line with
  | direction d =>
    obtain rfl := Except.ok.inj hq
    unfold setDirection
    split
    · refine h.update (h.assembly.alterState (fun _ => rfl) fun _ => rfl) ?_
      rw [declared_alterState]
      exact List.Subset.refl _
    · exact hsame rfl rfl
  | openComposite id label =>
    obtain rfl := Except.ok.inj hq
    obtain ⟨hnested, hid⟩ := h.declareAs id (f := fun s => { s with kind := .composite, label := label <|> s.label })
      (fun _ => rfl) fun _ => rfl
    exact ⟨hnested.assembly, List.forall_mem_cons.2 ⟨hid, hnested.composite⟩⟩
  | closeComposite =>
    obtain ⟨a, composites, note⟩ := p
    cases composites with
    | nil => exact absurd hq (by simp [Progress.apply])
    | cons c cs =>
      obtain rfl := Except.ok.inj hq
      exact ⟨h.assembly, fun c' hc' => h.composite c' (List.mem_cons_of_mem c hc')⟩
  | label id label =>
    obtain rfl := Except.ok.inj hq
    exact (h.declareAs id (f := fun s => { s with label := some label }) (fun _ => rfl) fun _ => rfl).1
  | pseudo id marker =>
    obtain rfl := Except.ok.inj hq
    exact (h.declareAs id (f := fun s => { s with kind := .pseudo marker }) (fun _ => rfl) fun _ => rfl).1
  | declare id =>
    obtain rfl := Except.ok.inj hq
    exact h.update (h.assembly.declare fun _ => h.scope) (declared_subset_declare _ _ _).1
  | openNote id position =>
    obtain rfl := Except.ok.inj hq
    exact ⟨h.assembly, h.composite⟩
  | assignClass ids name =>
    obtain rfl := Except.ok.inj hq
    have hfold : ∀ (ids : List Text) (a : Assembly),
        (ids.foldl (fun a id => a.assignClass id name) a).diagram.states = a.diagram.states ∧
          (ids.foldl (fun a id => a.assignClass id name) a).declared = a.declared := by
      intro ids
      induction ids with
      | nil => exact fun a => ⟨rfl, rfl⟩
      | cons id ids ih => exact fun a => ih (a.assignClass id name)
    exact hsame (hfold ids p.assembly).1 (hfold ids p.assembly).2
  | transition source target label =>
    obtain rfl := Except.ok.inj hq
    have hsource := h.assembly.reference source fun _ => h.scope
    have hboth := hsource.reference target fun _ hid => (declared_reference _ source _).symm ▸ h.scope hid
    refine h.update ⟨hboth.byId, hboth.parent, hboth.known⟩ ?_
    have hdeclared : ((p.assembly.reference source p.scope).reference target p.scope).declared = p.assembly.declared :=
      (declared_reference _ target _).trans (declared_reference _ source _)
    exact hdeclared ▸ List.Subset.refl p.assembly.declared
  | _ =>
    obtain rfl := Except.ok.inj hq
    exact hsame rfl rfl

theorem IsNested.readLine (h : p.IsNested) (hq : p.readLine l = .ok q) : q.IsNested := by
  unfold Progress.readLine at hq
  split at hq
  · split at hq
    · obtain rfl := Except.ok.inj hq
      exact ⟨⟨h.assembly.byId, h.assembly.parent, h.assembly.known⟩, h.composite⟩
    · obtain rfl := Except.ok.inj hq
      exact ⟨h.assembly, h.composite⟩
  · split at hq
    · exact h.apply hq
    · exact absurd hq (by simp)

end Progress

/-! ## Texts -/

/-- a text that is accepted is read line by line, and nothing is open at its end -/
theorem exists_of_read {text : Text} {d : StateDiagram} (h : read text = .ok d) : ∃ p : Progress,
    (splitHeader .state (sourceLines true text)).2.foldlM Progress.readLine ⟨⟨{}, []⟩, [], none⟩ = .ok p ∧
      p.assembly.diagram = d := by
  unfold read at h
  dsimp only at h
  cases hheader : checkHeader .state (splitHeader .state (sourceLines true text)).1 with
  | error e =>
    rw [hheader] at h
    exact absurd h (by simp [bind, Except.bind])
  | ok u =>
    rw [hheader] at h
    cases hrun : (splitHeader .state (sourceLines true text)).2.foldlM Progress.readLine ⟨⟨{}, []⟩, [], none⟩ with
    | error e =>
      have h : (Except.error e : Except ParseError Progress).bind Progress.finish = .ok d := hrun ▸ h
      exact absurd h (by simp [Except.bind])
    | ok p =>
      have h : p.finish = .ok d := by
        have h : (Except.ok p : Except ParseError Progress).bind Progress.finish = .ok d := hrun ▸ h
        exact h
      refine ⟨p, rfl, ?_⟩
      unfold Progress.finish at h
      split at h
      · exact absurd h (by simp)
      · exact absurd h (by simp)
      · exact Except.ok.inj h

/-- **states that are read are nested**: none is inside itself, or inside one that stands after it -/
theorem isNested_of_read {text : Text} {d : StateDiagram} (h : read text = .ok d) : IsNested d := by
  obtain ⟨p, hrun, rfl⟩ := exists_of_read h
  have hempty : Progress.IsNested ⟨⟨{}, []⟩, [], none⟩ :=
    ⟨⟨fun hs => absurd hs (by simp), fun hs => absurd hs (by simp), List.nil_subset _⟩, by simp⟩
  exact (invariant_of_foldlM (fun _ _ _ _ hp hq => hp.readLine hq) hempty hrun).assembly.isNested

end DiagramText.StateDiagram

/-
Decoding undoes encoding of state diagrams. In a diagram whose states are all inside of composite states that stand
before them every scope is open (`IsPlain.isOpen`), so that all its transitions are written; a state without a line of its
own is named in its own scope only, and comes back from there. `exists_read_render` puts this together.
-/
import DiagramText.Proofs.StateDiagram.Meaning

namespace DiagramText.StateDiagram

open DiagramText.Text
open Sequence (IsLineText)

/-! ## Diagrams that read back -/

/-- a composite state of the diagram -/
def IsComposite (d : StateDiagram) (id : Text) : Prop := ∃ s, d.states.get? id = some s ∧ s.kind = .composite

/-- a diagram of nothing but states and transitions that fit the grammar, every scope a composite state -/
structure IsPlain (d : StateDiagram) : Prop where
  nested : IsNested d
  parent : ∀ {id s p}, d.states.get? id = some s → s.parent = some p → IsComposite d p
  ids : ∀ id ∈ d.states.keys, IsId id
  marker : ∀ {id s m}, d.states.get? id = some s → s.kind = .pseudo m → m ∈ (["fork", "join", "choice"] : List Text)
  direction : ∀ {id s}, d.states.get? id = some s → s.direction ≠ none → s.kind = .composite
  unlabelled : ∀ {id s m}, d.states.get? id = some s → s.kind = .pseudo m → s.label = none
  title : ∀ {id s t}, d.states.get? id = some s → s.kind = .composite → s.label = some t → '\n' ∉ t ∧ ¬ quoteEntity <:+: t
  label : ∀ {id s t}, d.states.get? id = some s → s.kind = .plain → s.label = some t →
    IsLineText t ∧ id ≠ "accTitle" ∧ id ≠ "accDescr"
  source : ∀ t ∈ d.transitions, t.source = terminal ∨ t.source ∈ d.states.keys
  target : ∀ t ∈ d.transitions, t.target = terminal ∨ t.target ∈ d.states.keys
  scope : ∀ t ∈ d.transitions, ∀ p, t.scope = some p → IsComposite d p
  transitionLabel : ∀ t ∈ d.transitions, ∀ l, t.label = some l → l ≠ [] ∧ IsLineText l
  notes : d.notes = []
  classDefs : d.classDefs = .empty
  classAssignments : d.classAssignments = .empty
  accessibility : d.accessibility = {}

theorem isMarker_of_mem {m : Text} (h : m ∈ (["fork", "join", "choice"] : List Text)) : IsMarker m := by
  intro rest
  simp only [List.mem_cons, List.not_mem_nil, or_false] at h
  rcases h with rfl | rfl | rfl <;> rfl

theorem not_isId_terminal : ¬ IsId terminal := fun h => absurd h.all (by decide)

namespace IsPlain

variable {d : StateDiagram} {o : RenderOptions} (h : d.IsPlain)
include h

theorem isEndpoint {id : Text} (hid : id = terminal ∨ id ∈ d.states.keys) : IsEndpoint id := hid.imp_right (h.ids id)

theorem isPrintable : IsPrintable d where
  state {id s} hs := by
    obtain rfl := h.nested.byId hs
    exact {
      id := h.ids s.id (Entries.mem_keys_of_get? hs)
      marker := fun m hm => isMarker_of_mem (h.marker hs hm)
      title := fun hk t ht => (h.title hs hk ht).1
      label := fun hk t ht => h.label hs hk ht }
  transition t ht := ⟨h.isEndpoint (h.source t ht), h.isEndpoint (h.target t ht), h.transitionLabel t ht⟩
  note n hn := absurd hn (by simp [h.notes])
  accTitle t ht := absurd ht (by simp [h.accessibility])
  accDescription t ht := absurd ht (by simp [h.accessibility])
  classDef x hx := absurd hx (by simp [h.classDefs, Entries.empty])
  classAssignment x hx := absurd hx (by simp [h.classAssignments, Entries.empty])

/-- every composite state is open, by induction on its place in the map -/
theorem isOpen {id : Text} (hid : IsComposite d id) : IsOpen d (some id) := by
  induction hplace : d.states.keys.idxOf id using Nat.strong_induction_on generalizing id with
  | _ place ih =>
    obtain ⟨s, hs, hk⟩ := hid
    refine .inner hs hk ?_
    cases hp : s.parent with
    | none => exact .top
    | some p => exact ih _ (hplace ▸ h.nested.parent hs hp) (h.parent hs hp) rfl

theorem isOpen_scope {t : Transition} (ht : t ∈ d.transitions) : IsOpen d t.scope := by
  cases hp : t.scope with
  | none => exact .top
  | some p => exact h.isOpen (h.scope t ht p hp)

theorem isOpen_parent {id : Text} {s : State} (hs : d.states.get? id = some s) : IsOpen d s.parent := by
  cases hp : s.parent with
  | none => exact .top
  | some p => exact h.isOpen (h.parent hs hp)

theorem settled_eq {id : Text} {s : State} (hs : d.states.get? id = some s) : s.settled = s := by
  have hdirection : s.kind ≠ .composite → s.direction = none := fun hk => by
    by_contra hne
    exact hk (h.direction hs hne)
  have hunlabelled := @h.unlabelled id s
  have htitle := @h.title id s
  obtain ⟨id', label, kind, parent, direction⟩ := s
  cases kind with
  | composite =>
    have hlabel : label.map readEntities = label := by
      cases label with
      | none => rfl
      | some t => exact congrArg some (readEntities_eq_self (htitle hs rfl rfl).2)
    change State.mk id' (label.map readEntities) _ _ _ = _
    rw [hlabel]
  | pseudo m =>
    obtain rfl : label = none := hunlabelled hs rfl
    obtain rfl : direction = none := hdirection (by simp)
    rfl
  | plain =>
    obtain rfl : direction = none := hdirection (by simp)
    rfl

theorem mem_keys_of_names {t : Transition} {id : Text} (ht : t ∈ d.transitions) (hnames : t.names id = true) :
    id ∈ d.states.keys := by
  simp only [Transition.names, Bool.and_eq_true, Bool.or_eq_true, decide_eq_true_eq, beq_iff_eq] at hnames
  obtain ⟨hid, rfl | rfl⟩ := hnames
  · exact (h.source t ht).resolve_left hid
  · exact (h.target t ht).resolve_left hid

/-- a state that has no line of its own is named in its scope, and in no other -/
theorem eq_of_implied {id : Text} {s : State} (hs : d.states.get? id = some s) (hw : isWritten d s = false) :
    s = { id := id, parent := s.parent } ∧ (∃ t ∈ d.transitions, t.names id = true) ∧
      ∀ t ∈ d.transitions, t.names id = true → t.scope = s.parent := by
  obtain rfl := h.nested.byId hs
  have hid : s.id ≠ terminal := fun e => not_isId_terminal (e ▸ h.ids s.id (Entries.mem_keys_of_get? hs))
  obtain ⟨hk, hl, hsome, hall⟩ := named_of_not_isWritten hid hw
  refine ⟨?_, hsome, hall⟩
  have hdirection : s.direction = none := by
    by_contra hne
    rw [h.direction hs hne] at hk
    exact absurd hk (by simp)
  obtain ⟨id', label, kind, parent, direction⟩ := s
  obtain rfl : kind = .plain := hk
  obtain rfl : label = none := hl
  obtain rfl : direction = none := hdirection
  rfl

/-! ## What is read back -/

/-- every state is read back, wherever it is written -/
theorem get?_performAll (id : Text) :
    (performAll (pageDeeds d o) ⟨{}, []⟩).diagram.states.get? id = d.states.get? id := by
  by_cases hmem : ∃ s ∈ placed (pageDeeds d o), s.id = id
  · obtain ⟨s, hs, rfl⟩ := hmem
    rw [get?_performAll_of_placed (nodup_placed_pageDeeds h.nested) hs]
    obtain ⟨t, ht, -, -, rfl⟩ := (mem_placed_pageDeeds h.nested).1 hs
    rw [ht, h.settled_eq ht]
  · have hfree : ∀ s ∈ placed (pageDeeds d o), s.id ≠ id := fun s hs e => hmem ⟨s, hs, e⟩
    refine (get?_performAll_of_not_placed hfree).trans ?_
    change ((linked (pageDeeds d o)).find? (·.names id)).map (fun t => ({ id := id, parent := t.scope } : State)) = _
    cases hget : d.states.get? id with
    | none =>
      rw [Option.map_eq_none_iff, List.find?_eq_none]
      intro t ht hnames
      exact absurd (h.mem_keys_of_names ((mem_linked_pageDeeds h.nested).1 ht).1 hnames) (Entries.get?_eq_none_iff.1 hget)
    | some s =>
      have hw : isWritten d s = false := by
        by_contra hw
        rw [Bool.not_eq_false] at hw
        have hmem : s ∈ placed (pageDeeds d o) :=
          (mem_placed_pageDeeds h.nested).2 ⟨s, by rw [h.nested.byId hget, hget], h.isOpen_parent hget, hw, h.settled_eq hget⟩
        exact hfree s hmem (h.nested.byId hget)
      obtain ⟨hs, ⟨t, ht, hnames⟩, hall⟩ := h.eq_of_implied hget hw
      cases hfind : (linked (pageDeeds d o)).find? (·.names id) with
      | none =>
        rw [List.find?_eq_none] at hfind
        exact absurd hnames (hfind t ((mem_linked_pageDeeds h.nested).2 ⟨ht, h.isOpen_scope ht⟩))
      | some u =>
        have hu := ((mem_linked_pageDeeds h.nested).1 (List.mem_of_find?_eq_some hfind)).1
        have hnames : u.names id = true := by simpa using List.find?_some hfind
        rw [Option.map_some, hall u hu hnames, ← hs]

end IsPlain

/-- **decoding undoes encoding** of states and transitions -/
theorem exists_read_render (h : d.IsPlain) {o : RenderOptions} (ho : '\n' ∉ o.unit) :
    ∃ d' : StateDiagram, read (render d o) = .ok d' ∧
      d'.direction = d.direction ∧
      d'.states.toList.Perm d.states.toList ∧
      d'.transitions.Perm d.transitions ∧
      ∀ scope, d'.transitions.filter (fun t => t.scope == scope) = d.transitions.filter fun t => t.scope == scope := by
  have htransitions : (performAll (pageDeeds d o) ⟨{}, []⟩).diagram.transitions = linked (pageDeeds d o) :=
    transitions_performAll _ _
  have hopen : ∀ t : Transition, ¬ IsOpen d t.scope → t ∉ d.transitions := fun t hc ht => hc (h.isOpen_scope ht)
  refine ⟨_, read_render_eq h.nested h.isPrintable ho (nodup_placed_pageDeeds h.nested), direction_pageDeeds,
    Entries.perm_of_get? h.get?_performAll, ?_, fun scope => ?_⟩
  · rw [htransitions, List.perm_iff_count]
    intro t
    by_cases hc : IsOpen d t.scope
    · exact count_linked_pageDeeds h.nested hc
    · have hlinked : t ∉ linked (pageDeeds d o) := fun ht => hc ((mem_linked_pageDeeds h.nested).1 ht).2
      rw [List.count_eq_zero_of_not_mem hlinked, List.count_eq_zero_of_not_mem (hopen t hc)]
  · rw [htransitions]
    by_cases hc : IsOpen d scope
    · exact filter_linked_pageDeeds h.nested hc
    · have hnone : ∀ l : List Transition, (∀ t ∈ l, t ∈ d.transitions) → l.filter (fun t => t.scope == scope) = [] := by
        intro l hl
        rw [List.filter_eq_nil_iff]
        intro t ht hscope
        exact hopen t (beq_iff_eq.1 hscope ▸ hc) (hl t ht)
      rw [hnone _ fun t ht => ((mem_linked_pageDeeds h.nested).1 ht).1, hnone _ fun t ht => ht]

/-- a composite state with a direction, in it a state that is named there only, and a choice -/
def turnstile : StateDiagram where
  direction := .lr
  states := ⟨[("Gate", { id := "Gate", label := some "the \"gate\"", kind := .composite, direction := some .bt }),
    ("Shut", { id := "Shut", parent := some "Gate" }),
    ("Paid", { id := "Paid", label := some "coin: taken", parent := some "Gate" }),
    ("Fair", { id := "Fair", kind := .pseudo "choice" })], by decide⟩
  transitions :=
    [⟨terminal, "Gate", none, none⟩, ⟨terminal, "Shut", none, some "Gate"⟩, ⟨"Gate", "Fair", some "push", none⟩,
      ⟨"Shut", "Paid", some "coin", some "Gate"⟩]

theorem isPlain_turnstile : turnstile.IsPlain := by
  have hget : ∀ {id s}, turnstile.states.get? id = some s → (id, s) ∈ turnstile.states.toList := Entries.mem_toList_iff.2
  have hgate : IsComposite turnstile "Gate" := ⟨_, rfl, rfl⟩
  have hline : ∀ t ∈ (["coin: taken", "push", "coin"] : List Text), t ≠ [] ∧ IsLineText t := by
    intro t ht
    simp only [List.mem_cons, List.not_mem_nil, or_false] at ht
    rcases ht with rfl | rfl | rfl <;> exact ⟨by decide, by decide, by decide +kernel, by decide⟩
  have hkey : ∀ x ∈ turnstile.states.toList, x.2.id = x.1 ∧ x.1 ≠ "accTitle" ∧ x.1 ≠ "accDescr" ∧
      (x.2.parent = none ∨ x.2.parent = some ("Gate" : Text) ∧
        turnstile.states.keys.idxOf ("Gate" : Text) < turnstile.states.keys.idxOf x.1) := by decide
  have hkind : ∀ x ∈ turnstile.states.toList,
      x.2.kind = .plain ∧ x.2.direction = none ∧ (x.2.label = none ∨ x.2.label = some ("coin: taken" : Text)) ∨
        x.2.kind = .composite ∧ x.2.label = some ("the \"gate\"" : Text) ∨
          x.2.kind = .pseudo "choice" ∧ x.2.direction = none ∧ x.2.label = none := by decide
  have htransition : ∀ t ∈ turnstile.transitions, (t.source = terminal ∨ t.source ∈ turnstile.states.keys) ∧
      (t.target = terminal ∨ t.target ∈ turnstile.states.keys) ∧ (t.scope = none ∨ t.scope = some ("Gate" : Text)) ∧
      (t.label = none ∨ t.label = some ("push" : Text) ∨ t.label = some ("coin" : Text)) := by decide
  refine {
    nested := ⟨fun hs => (hkey _ (hget hs)).1, ?_⟩, parent := ?_, ids := ?_, marker := ?_, direction := ?_,
    unlabelled := ?_, title := ?_, label := ?_, source := fun t ht => (htransition t ht).1,
    target := fun t ht => (htransition t ht).2.1, scope := ?_, transitionLabel := ?_, notes := rfl, classDefs := rfl,
    classAssignments := rfl, accessibility := rfl }
  · intro id s p hs hp
    rcases (hkey _ (hget hs)).2.2.2 with h | ⟨h, hlt⟩
    · exact absurd (h.symm.trans hp) (by simp)
    · exact Option.some.inj (h.symm.trans hp) ▸ hlt
  · intro id s p hs hp
    rcases (hkey _ (hget hs)).2.2.2 with h | ⟨h, -⟩
    · exact absurd (h.symm.trans hp) (by simp)
    · exact Option.some.inj (h.symm.trans hp) ▸ hgate
  · intro id hid
    have hall : ∀ id ∈ turnstile.states.keys, id ≠ [] ∧ id.all isWordOrHyphen = true := by decide +kernel
    exact ⟨(hall id hid).1, (hall id hid).2⟩
  · intro id s m hs hm
    rcases hkind _ (hget hs) with ⟨hk, -⟩ | ⟨hk, -⟩ | ⟨hk, -⟩
    · exact absurd (hk.symm.trans hm) (by simp)
    · exact absurd (hk.symm.trans hm) (by simp)
    · obtain rfl := StateKind.pseudo.inj (hk.symm.trans hm)
      decide
  · intro id s hs hd
    rcases hkind _ (hget hs) with ⟨-, h, -⟩ | ⟨hk, -⟩ | ⟨-, h, -⟩
    · exact absurd h hd
    · exact hk
    · exact absurd h hd
  · intro id s m hs hm
    rcases hkind _ (hget hs) with ⟨hk, -⟩ | ⟨hk, -⟩ | ⟨-, -, h⟩
    · exact absurd (hk.symm.trans hm) (by simp)
    · exact absurd (hk.symm.trans hm) (by simp)
    · exact h
  · intro id s t hs hm ht
    rcases hkind _ (hget hs) with ⟨hk, -⟩ | ⟨-, h⟩ | ⟨hk, -⟩
    · exact absurd (hk.symm.trans hm) (by simp)
    · obtain rfl := Option.some.inj (h.symm.trans ht)
      decide
    · exact absurd (hk.symm.trans hm) (by simp)
  · intro id s t hs hm ht
    refine ⟨?_, (hkey _ (hget hs)).2.1, (hkey _ (hget hs)).2.2.1⟩
    rcases hkind _ (hget hs) with ⟨-, -, h | h⟩ | ⟨hk, -⟩ | ⟨hk, -⟩
    · exact absurd (h.symm.trans ht) (by simp)
    · exact (hline t (by simp [← Option.some.inj (h.symm.trans ht)])).2
    · exact absurd (hk.symm.trans hm) (by simp)
    · exact absurd (hk.symm.trans hm) (by simp)
  · intro t ht p hp
    rcases (htransition t ht).2.2.1 with h | h
    · exact absurd (h.symm.trans hp) (by simp)
    · exact Option.some.inj (h.symm.trans hp) ▸ hgate
  · intro t ht l hl
    rcases (htransition t ht).2.2.2 with h | h | h
    · exact absurd (h.symm.trans hl) (by simp)
    · exact hline l (by simp [← Option.some.inj (h.symm.trans hl)])
    · exact hline l (by simp [← Option.some.inj (h.symm.trans hl)])

theorem exists_read_render_turnstile : turnstile.IsPlain ∧ '\n' ∉ RenderOptions.default.unit ∧
    ∃ d' : StateDiagram, read (render turnstile .default) = .ok d' ∧
      d'.direction = turnstile.direction ∧
      d'.states.toList.Perm turnstile.states.toList ∧
      d'.transitions.Perm turnstile.transitions ∧
      ∀ scope, d'.transitions.filter (fun t => t.scope == scope) = turnstile.transitions.filter fun t => t.scope == scope :=
  ⟨isPlain_turnstile, by decide, exists_read_render isPlain_turnstile (by decide)⟩

end DiagramText.StateDiagram

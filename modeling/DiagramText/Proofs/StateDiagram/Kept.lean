/-
What the canonical text keeps of a state diagram that is read. A scope is a state that was opened once, so that it is
composite, or declared again as a pseudo-state by now (`isScoped_of_read`); the printer does not go into the latter. Hence
`isOpen_iff_not_isLost`, and what is read back is known: a transition or a note is kept, and once, unless a pseudo-state is
around it (`transitions_kept`). `transitions_lost_forked` is a text for which one is.
-/
import DiagramText.Proofs.StateDiagram.Legible

namespace DiagramText.StateDiagram

open DiagramText.Text

/-! ## Scopes are states that were opened -/

/-- a state that was opened: a composite state, or a pseudo-state by now -/
def IsOpened (d : StateDiagram) (id : Text) : Prop := ∃ s, d.states.get? id = some s ∧ s.kind ≠ .plain

/-- everything is written in states that were opened -/
structure IsScoped (d : StateDiagram) : Prop where
  parent : ∀ {id s p}, d.states.get? id = some s → s.parent = some p → IsOpened d p
  scope : ∀ t ∈ d.transitions, ∀ p, t.scope = some p → IsOpened d p

variable {d : StateDiagram} {o : RenderOptions}

/-- no state that was opened becomes a plain one -/
def KeepsOpened (d d' : StateDiagram) : Prop := ∀ {id}, IsOpened d id → IsOpened d' id

namespace IsScoped

variable {a : Assembly} {scope : Option Text}

/-- the states change, and what is new is in a state that was opened -/
theorem withStates (h : d.IsScoped) {states : Entries State} (hkeep : KeepsOpened d { d with states := states })
    (hstates : ∀ {id s}, states.get? id = some s →
      (∃ s', d.states.get? id = some s' ∧ s'.parent = s.parent) ∨ ∀ p, s.parent = some p → IsOpened d p) :
    IsScoped { d with states := states } where
  parent hs hp := by
    rcases hstates hs with ⟨s', hs', hparent⟩ | hopened
    · exact hkeep (h.parent hs' (hparent.trans hp))
    · exact hkeep (hopened _ hp)
  scope t ht p hp := hkeep (h.scope t ht p hp)

theorem declare (h : a.diagram.IsScoped) (id : Text) (hscope : ∀ p, scope = some p → IsOpened a.diagram p) :
    (a.declare id scope).diagram.IsScoped ∧ KeepsOpened a.diagram (a.declare id scope).diagram := by
  unfold Assembly.declare
  split
  · exact ⟨h, fun hopened => hopened⟩
  · let moved : State := { (a.diagram.states.get? id).getD { id := id } with parent := scope }
    have hkeep : KeepsOpened a.diagram { a.diagram with states := (a.diagram.states.erase id).insert id moved } := by
      rintro k ⟨s, hs, hk⟩
      by_cases e : id = k
      · subst e
        refine ⟨moved, by rw [Entries.get?_insert_erase, if_pos rfl], ?_⟩
        change ((a.diagram.states.get? id).getD { id := id }).kind ≠ .plain
        rw [hs]
        exact hk
      · exact ⟨s, by rw [Entries.get?_insert_erase, if_neg e]; exact hs, hk⟩
    refine ⟨h.withStates hkeep fun {k s} hs => ?_, hkeep⟩
    obtain ⟨-, rfl⟩ | ⟨-, hs⟩ := Entries.get?_insert_erase_cases hs
    · exact Or.inr hscope
    · exact Or.inl ⟨s, hs, rfl⟩

/-- what is said of a state leaves it where it is, and opened if it was -/
theorem alterState (h : a.diagram.IsScoped) (id : Text) {f : State → State} (hparent : ∀ s, (f s).parent = s.parent)
    (hkind : ∀ s, s.kind ≠ .plain → (f s).kind ≠ .plain) :
    (a.alterState id f).diagram.IsScoped ∧ KeepsOpened a.diagram (a.alterState id f).diagram := by
  unfold Assembly.alterState
  split
  · exact ⟨h, fun hopened => hopened⟩
  · rename_i s hs
    have hkeep : KeepsOpened a.diagram { a.diagram with states := a.diagram.states.insert id (f s) } := by
      rintro k ⟨u, hu, hk⟩
      by_cases e : id = k
      · subst e
        obtain rfl := Option.some.inj (hs.symm.trans hu)
        exact ⟨_, by rw [Entries.get?_insert, if_pos rfl], hkind s hk⟩
      · exact ⟨u, by rw [Entries.get?_insert, if_neg e]; exact hu, hk⟩
    refine ⟨h.withStates hkeep fun {k u} hu => ?_, hkeep⟩
    obtain ⟨rfl, rfl⟩ | hu := Entries.get?_insert_cases hu
    · exact Or.inl ⟨s, hs, (hparent s).symm⟩
    · exact Or.inl ⟨u, hu, rfl⟩

theorem declareAs (h : a.diagram.IsScoped) (id : Text) (hscope : ∀ p, scope = some p → IsOpened a.diagram p) {f : State → State}
    (hparent : ∀ s, (f s).parent = s.parent) (hkind : ∀ s, s.kind ≠ .plain → (f s).kind ≠ .plain) :
    (a.declareAs id scope f).diagram.IsScoped ∧ KeepsOpened a.diagram (a.declareAs id scope f).diagram := by
  obtain ⟨hdeclared, hkeep⟩ := h.declare id hscope
  obtain ⟨haltered, hkeep'⟩ := hdeclared.alterState id hparent hkind
  exact ⟨haltered, fun hopened => hkeep' (hkeep hopened)⟩

theorem reference (h : a.diagram.IsScoped) (id : Text) (hscope : ∀ p, scope = some p → IsOpened a.diagram p) :
    (a.reference id scope).diagram.IsScoped ∧ KeepsOpened a.diagram (a.reference id scope).diagram := by
  have hkeep : KeepsOpened a.diagram (a.reference id scope).diagram := by
    rintro k ⟨s, hs, hk⟩
    refine ⟨s, ?_, hk⟩
    rw [get?_reference, hs]
    split <;> rfl
  refine ⟨⟨fun {k s p} hs hp => ?_, fun t ht p hp => ?_⟩, hkeep⟩
  · obtain ⟨-, rfl⟩ | hs := get?_reference_cases hs
    · exact hkeep (hscope p hp)
    · exact hkeep (h.parent hs hp)
  · have htransitions : (a.reference id scope).diagram.transitions = a.diagram.transitions := by
      unfold Assembly.reference
      split <;> rfl
    exact hkeep (h.scope t (htransitions ▸ ht) p hp)

end IsScoped

/-- a state that is opened has been opened -/
theorem isOpened_alterState {a : Assembly} {id : Text} {f : State → State} (hid : ∃ s, a.diagram.states.get? id = some s)
    (hf : ∀ s, (f s).kind ≠ .plain) : IsOpened (a.alterState id f).diagram id := by
  obtain ⟨s, hs⟩ := hid
  refine ⟨f s, ?_, hf s⟩
  rw [Assembly.alterState, hs]
  change (a.diagram.states.insert id (f s)).get? id = _
  rw [Entries.get?_insert, if_pos rfl]

namespace Progress

/-- everything is written in states that were opened, and what is open was -/
structure IsScoped (p : Progress) : Prop where
  diagram : p.assembly.diagram.IsScoped
  composite : ∀ c ∈ p.composites, IsOpened p.assembly.diagram c.1

variable {p q : Progress} {l : SourceLine}

theorem IsScoped.scope (h : p.IsScoped) (id : Text) (hid : p.scope = some id) : IsOpened p.assembly.diagram id := by
  obtain ⟨c, hc, rfl⟩ := Option.map_eq_some_iff.1 hid
  exact h.composite c (List.mem_of_mem_head? hc)

theorem IsScoped.update (h : p.IsScoped) {f : Assembly → Assembly}
    (hf : (f p.assembly).diagram.IsScoped ∧ KeepsOpened p.assembly.diagram (f p.assembly).diagram) : (p.update f).IsScoped :=
  ⟨hf.1, fun c hc => hf.2 (h.composite c hc)⟩

theorem IsScoped.apply (h : p.IsScoped) (hn : p.IsNested) {line : Line} (hq : p.apply l line = .ok q) : q.IsScoped := by
  have hsame : ∀ {f : Assembly → Assembly}, (f p.assembly).diagram.states = p.assembly.diagram.states →
      (f p.assembly).diagram.transitions = p.assembly.diagram.transitions → (p.update f).IsScoped := by
    intro f hstates htransitions
    have hkeep : KeepsOpened p.assembly.diagram (f p.assembly).diagram := by
      rintro k ⟨s, hs, hk⟩
      exact ⟨s, hstates ▸ hs, hk⟩
    refine h.update ⟨⟨fun hs hp => ?_, fun t ht => ?_⟩, hkeep⟩
    · exact hkeep (h.diagram.parent (hstates ▸ hs) hp)
    · exact fun u hu => hkeep (h.diagram.scope t (htransitions ▸ ht) u hu)
  cases line with
  | direction dir =>
    obtain rfl := Except.ok.inj hq
    unfold setDirection
    split
    · exact h.update (h.diagram.alterState _ (fun _ => rfl) fun _ hk => hk)
    · exact hsame rfl rfl
  | openComposite id label =>
    obtain rfl := Except.ok.inj hq
    have hupdated := h.update (f := (·.declareAs id p.scope fun s => { s with kind := .composite, label := label <|> s.label }))
      (h.diagram.declareAs id h.scope (fun _ => rfl) fun _ _ => by simp)
    refine ⟨hupdated.diagram, List.forall_mem_cons.2 ⟨?_, hupdated.composite⟩⟩
    refine isOpened_alterState ?_ fun _ => by simp
    exact Entries.exists_of_mem_keys ((hn.assembly.declare fun _ => hn.scope).known (declared_subset_declare _ _ _).2)
  | closeComposite =>
    obtain ⟨a, composites, note⟩ := p
    cases composites with
    | nil => exact absurd hq (by simp [Progress.apply])
    | cons c cs =>
      obtain rfl := Except.ok.inj hq
      exact ⟨h.diagram, fun c' hc' => h.composite c' (List.mem_cons_of_mem c hc')⟩
  | label id label =>
    obtain rfl := Except.ok.inj hq
    exact h.update (h.diagram.declareAs id h.scope (fun _ => rfl) fun _ hk => hk)
  | pseudo id marker =>
    obtain rfl := Except.ok.inj hq
    exact h.update (h.diagram.declareAs id h.scope (fun _ => rfl) fun _ _ => by simp)
  | declare id =>
    obtain rfl := Except.ok.inj hq
    exact h.update (h.diagram.declare id h.scope)
  | openNote id position =>
    obtain rfl := Except.ok.inj hq
    exact ⟨h.diagram, h.composite⟩
  | assignClass ids name =>
    obtain rfl := Except.ok.inj hq
    have hfold : ∀ (ids : List Text) (a : Assembly),
        (ids.foldl (fun a id => a.assignClass id name) a).diagram.states = a.diagram.states ∧
          (ids.foldl (fun a id => a.assignClass id name) a).diagram.transitions = a.diagram.transitions := by
      intro ids
      induction ids with
      | nil => exact fun a => ⟨rfl, rfl⟩
      | cons id ids ih => exact fun a => ih (a.assignClass id name)
    exact hsame (hfold ids p.assembly).1 (hfold ids p.assembly).2
  | transition source target label =>
    obtain rfl := Except.ok.inj hq
    obtain ⟨hsource, hkeep⟩ := h.diagram.reference source h.scope
    obtain ⟨htarget, hkeep'⟩ := hsource.reference target fun id hid => hkeep (h.scope id hid)
    refine h.update ⟨⟨htarget.parent, ?_⟩, fun hopened => hkeep' (hkeep hopened)⟩
    exact List.forall_mem_append.2 ⟨htarget.scope, List.forall_mem_singleton.2 fun id hid => hkeep' (hkeep (h.scope id hid))⟩
  | _ =>
    obtain rfl := Except.ok.inj hq
    exact hsame rfl rfl

theorem IsScoped.readLine (h : p.IsScoped) (hn : p.IsNested) (hq : p.readLine l = .ok q) : q.IsScoped := by
  unfold Progress.readLine at hq
  split at hq
  · split at hq
    · obtain rfl := Except.ok.inj hq
      exact ⟨⟨h.diagram.parent, h.diagram.scope⟩, h.composite⟩
    · obtain rfl := Except.ok.inj hq
      exact ⟨h.diagram, h.composite⟩
  · split at hq
    · exact h.apply hn hq
    · cases hq

end Progress

/-- **everything that is read is written in states that were opened** -/
theorem isScoped_of_read {text : Text} (h : read text = .ok d) : d.IsScoped := by
  obtain ⟨p, hrun, rfl⟩ := exists_of_read h
  have hinvariant : p.IsNested ∧ p.IsScoped := by
    refine invariant_of_foldlM (P := fun p => p.IsNested ∧ p.IsScoped) (fun _ _ _ _ hp hq => ?_)
      ⟨⟨⟨fun hs => absurd hs (by simp), fun hs => absurd hs (by simp), List.nil_subset _⟩, by simp⟩, ⟨nofun, nofun⟩, nofun⟩ hrun
    exact ⟨hp.1.readLine hq, hp.2.readLine hp.1 hq⟩
  exact hinvariant.2.diagram

/-! ## Open scopes -/

/-- inside a state that was declared again as a pseudo-state -/
def IsLost (d : StateDiagram) (scope : Option Text) : Prop :=
  ∃ id s m, IsAround d scope (some id) ∧ d.states.get? id = some s ∧ s.kind = .pseudo m

/-- what is around an open scope is open -/
theorem IsOpen.of_isAround {scope c : Option Text} (h : IsOpen d scope) (hc : IsAround d scope c) : IsOpen d c := by
  induction hc with
  | refl => exact h
  | tail _ hstep ih =>
    obtain ⟨id, rfl, hmap⟩ := Option.bind_eq_some_iff.1 hstep
    obtain ⟨s, hs, rfl⟩ := Option.map_eq_some_iff.1 hmap
    cases ih with
    | inner hs' _ hparent => exact Option.some.inj (hs'.symm.trans hs) ▸ hparent

/-- **a scope is open unless a pseudo-state is around it** -/
theorem isOpen_iff_not_isLost (hn : IsNested d) (hd : d.IsScoped) {scope : Option Text}
    (hscope : ∀ p, scope = some p → IsOpened d p) : IsOpen d scope ↔ ¬ d.IsLost scope := by
  constructor
  · rintro h ⟨id, s, m, haround, hs, hm⟩
    cases h.of_isAround haround with
    | inner hs' hk _ =>
      rw [Option.some.inj (hs'.symm.trans hs), hm] at hk
      cases hk
  · intro h
    -- by induction on how deep the scope is
    induction hrank : rank d scope using Nat.strong_induction_on generalizing scope with
    | _ place ih =>
      cases scope with
      | none => exact .top
      | some id =>
        obtain ⟨s, hs, hplain⟩ := hscope id rfl
        obtain rfl := hn.byId hs
        have hstep := outer?_id hs
        have hk : s.kind = .composite := by
          cases hk : s.kind with
          | plain => exact absurd hk hplain
          | composite => rfl
          | pseudo m => exact absurd ⟨s.id, s, m, .refl, hs, hk⟩ h
        refine .inner hs hk (ih _ (hrank ▸ rank_lt hn hstep) (fun p hp => hd.parent hs hp) ?_ rfl)
        rintro ⟨id, u, m, haround, hu, hm⟩
        exact h ⟨id, u, m, .head hstep haround, hu, hm⟩

/-! ## What is kept -/

section

variable {α : Type} {f : α → Option Text} {cs : List (Option Text)}

/-- of a list by scopes, without repetition: the part in these scopes, each time it stands in the list -/
theorem perm_flatMap_scope (hcs : cs.Nodup) (l : List α) :
    (cs.flatMap fun c => l.filter fun x => f x == c).Perm (l.filter fun x => f x ∈ cs) := by
  induction cs with
  | nil => simp
  | cons c cs ih =>
    rw [List.nodup_cons] at hcs
    have hfirst : (l.filter fun x => f x ∈ c :: cs).filter (fun x => f x == c) = l.filter fun x => f x == c := by
      rw [List.filter_filter]
      refine List.filter_congr fun x _ => ?_
      by_cases e : f x = c <;> simp [e]
    have hrest : (l.filter fun x => f x ∈ c :: cs).filter (fun x => !(f x == c)) = l.filter fun x => f x ∈ cs := by
      rw [List.filter_filter]
      refine List.filter_congr fun x _ => ?_
      by_cases e : f x = c
      · simp [e, hcs.1]
      · simp [e]
    rw [List.flatMap_cons, ← hfirst]
    refine ((ih hcs.2).append_left _).trans ?_
    rw [← hrest]
    exact List.filter_append_perm _ _

/-- the parts in these scopes are everything if and only if everything is in one of them -/
theorem perm_flatMap_scope_iff (hcs : cs.Nodup) {l : List α} :
    (cs.flatMap fun c => l.filter fun x => f x == c).Perm l ↔ ∀ x ∈ l, f x ∈ cs := by
  rw [(perm_flatMap_scope hcs l).congr_left]
  constructor
  · intro h x hx
    exact of_decide_eq_true (List.mem_filter.1 (h.mem_iff.2 hx)).2
  · intro h
    rw [List.filter_eq_self.2 fun x hx => decide_eq_true (h x hx)]

end

/-- the notes of a diagram that is read are written as they are -/
theorem attached_eq (hd : d.IsTaken) :
    attached (pageDeeds d o) = (pageScopes d o).flatMap fun c => d.notes.filter fun n => noteScope d n == c := by
  rw [attached_pageDeeds]
  refine List.flatMap_congr fun c _ => ?_
  refine (List.map_congr_left fun n hn => ?_).trans (List.map_id _)
  exact (hd.note n (List.mem_of_mem_filter hn)).settled

/-- **transitions and notes are kept**: a diagram that is read is written so that it is read again, and what is read then
has each of its transitions and each of its notes as often as it has, unless a pseudo-state is around it; with one around
it, it is lost -/
theorem transitions_kept {text : Text} (h : read text = .ok d) (hl : d.IsLegible) (ho : '\n' ∉ o.unit) :
    ∃ d', read (render d o) = .ok d' ∧
      (∀ t, t ∈ d'.transitions ↔ t ∈ d.transitions ∧ ¬ d.IsLost t.scope) ∧
      (∀ n, n ∈ d'.notes ↔ n ∈ d.notes ∧ ¬ d.IsLost (noteScope d n)) ∧
      (d'.transitions.Perm d.transitions ↔ ∀ t ∈ d.transitions, ¬ d.IsLost t.scope) ∧
      (d'.notes.Perm d.notes ↔ ∀ n ∈ d.notes, ¬ d.IsLost (noteScope d n)) := by
  have hn := isNested_of_read h
  have hscoped := isScoped_of_read h
  have hread := read_render_eq hn (isPrintable_of_read h hl) ho (nodup_placed_pageDeeds hn)
  have htransitions : (performAll (pageDeeds d o) ⟨{}, []⟩).diagram.transitions
      = (pageScopes d o).flatMap fun c => d.transitions.filter fun t => t.scope == c :=
    (transitions_performAll _ _).trans linked_pageDeeds
  have hnotes : (performAll (pageDeeds d o) ⟨{}, []⟩).diagram.notes
      = (pageScopes d o).flatMap fun c => d.notes.filter fun n => noteScope d n == c :=
    (notes_performAll _ _).trans (attached_eq (isTaken_of_read h))
  have hscope : ∀ t ∈ d.transitions, t.scope ∈ pageScopes d o ↔ ¬ d.IsLost t.scope := fun t ht =>
    (mem_scopes_iff hn).trans (isOpen_iff_not_isLost hn hscoped (hscoped.scope t ht))
  have hplace : ∀ n ∈ d.notes, noteScope d n ∈ pageScopes d o ↔ ¬ d.IsLost (noteScope d n) := by
    refine fun n _ => (mem_scopes_iff hn).trans (isOpen_iff_not_isLost hn hscoped fun p hp => ?_)
    obtain ⟨s, hs, hparent⟩ := Option.bind_eq_some_iff.1 hp
    exact hscoped.parent hs hparent
  have hnodup : (pageScopes d o).Nodup := nodup_scopes hn
  refine ⟨_, hread, fun t => ?_, fun n => ?_, ?_, ?_⟩
  · rw [htransitions, (perm_flatMap_scope hnodup _).mem_iff, List.mem_filter, decide_eq_true_eq]
    exact and_congr_right (hscope t)
  · rw [hnotes, (perm_flatMap_scope hnodup _).mem_iff, List.mem_filter, decide_eq_true_eq]
    exact and_congr_right (hplace n)
  · rw [htransitions, perm_flatMap_scope_iff hnodup]
    exact forall₂_congr hscope
  · rw [hnotes, perm_flatMap_scope_iff hnodup]
    exact forall₂_congr hplace

/-- a composite state that is declared again as a fork -/
def forked : Text := "stateDiagram-v2\nX --> A\nstate A \x7b\nB --> C : go\n\x7d\nnote left of B : lost\nstate A <<fork>>"

/-- the fork, with the states and the transition that were written in it -/
def forkedDiagram : StateDiagram where
  states := ⟨[("X", { id := "X" }), ("A", { id := "A", kind := .pseudo "fork" }), ("B", { id := "B", parent := some "A" }),
    ("C", { id := "C", parent := some "A" })], by decide⟩
  transitions := [⟨"X", "A", none, none⟩, ⟨"B", "C", some "go", some "A"⟩]
  notes := [⟨"B", "lost", "left of"⟩]

theorem isLegible_forkedDiagram : forkedDiagram.IsLegible := by
  have hget : ∀ {id s}, forkedDiagram.states.get? id = some s → (id, s) ∈ forkedDiagram.states.toList := Entries.mem_toList_iff.2
  have hstate : ∀ x ∈ forkedDiagram.states.toList, x.2.label = none ∧ (x.2.kind = .plain ∨ x.2.kind = .pseudo "fork") := by decide
  refine ⟨fun {id s t} hs _ ht => ?_, fun {id s m} hs hm => ?_, by decide, by decide, by decide, nofun, nofun, nofun⟩
  · exact absurd ((hstate _ (hget hs)).1.symm.trans ht) nofun
  · rcases (hstate _ (hget hs)).2 with hk | hk
    · exact absurd (hk.symm.trans hm) nofun
    · exact StateKind.pseudo.inj (hk.symm.trans hm) ▸ by decide

theorem transitions_lost_forked : read forked = .ok forkedDiagram ∧ forkedDiagram.IsLegible ∧ '\n' ∉ RenderOptions.default.unit ∧
    ∃ d', read (render forkedDiagram .default) = .ok d' ∧ ⟨"X", "A", none, none⟩ ∈ d'.transitions ∧
      ⟨"B", "C", some "go", some "A"⟩ ∉ d'.transitions ∧ ¬ d'.transitions.Perm forkedDiagram.transitions := by
  have hread : read forked = .ok forkedDiagram := rfl
  have hlost : forkedDiagram.IsLost (some "A") := ⟨"A", _, "fork", .refl, rfl, rfl⟩
  have htop : ¬ forkedDiagram.IsLost none := by
    refine (isOpen_iff_not_isLost (isNested_of_read hread) (isScoped_of_read hread) ?_).1 .top
    exact fun p hp => absurd hp (by simp)
  obtain ⟨d', hd', hmem, -, hperm, -⟩ := transitions_kept hread isLegible_forkedDiagram (o := .default) (by decide)
  refine ⟨hread, isLegible_forkedDiagram, by decide, d', hd', (hmem _).2 ⟨by decide, htop⟩, fun ht => ((hmem _).1 ht).2 hlost, ?_⟩
  exact fun h => hperm.1 h ⟨"B", "C", some "go", some "A"⟩ (by decide) hlost

end DiagramText.StateDiagram

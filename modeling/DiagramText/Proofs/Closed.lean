/-
Diagrams that are read are closed: whatever text is accepted, the parts of its diagram refer to parts that are in it
(`isClosed_of_read`). Each reader keeps this from line to line, for what is finished and for what is still open: the blocks and
the box of a sequence diagram, the namespace and the class body of a class diagram, the composite states of a state diagram.
Names are never taken back, so what was known stays known.
-/
import DiagramText.Proofs.ClassDiagram.Builder
import DiagramText.Proofs.EntityDiagram.Accepted
import DiagramText.Proofs.Flowchart.Accepted
import DiagramText.Proofs.Indentation.Diagram
import DiagramText.Proofs.SankeyDiagram
import DiagramText.Proofs.Sequence.Builder
import DiagramText.Proofs.StateDiagram.WellFormed

namespace DiagramText

/-! ## Sequence diagrams -/

namespace Sequence

theorem namesOfSections_append (a b : List (Text × List Statement)) :
    namesOfSections (a ++ b) = namesOfSections a ++ namesOfSections b := by
  induction a with
  | nil => rw [namesOfSections, List.nil_append, List.nil_append]
  | cons x a ih => rw [List.cons_append, namesOfSections, namesOfSections, ih, List.append_assoc]

variable {P Q : Text → Prop}

theorem RefersOnlyTo.mono {d : Sequence} (h : d.RefersOnlyTo P) (hPQ : ∀ id, P id → Q id) : d.RefersOnlyTo Q where
  named id hid := hPQ id (h.named id hid)
  boxed x hx id hid := hPQ id (h.boxed x hx id hid)

/-- every actor that the statements of an open block name is one of these -/
structure Frame.RefersOnlyTo (P : Text → Prop) (f : Frame) : Prop where
  finished : ∀ id ∈ namesOfSections f.finished, P id
  statements : ∀ id ∈ namesOfAll f.statements, P id

namespace Frame.RefersOnlyTo

variable {f : Frame}

theorem sections (h : f.RefersOnlyTo P) : ∀ id ∈ namesOfSections f.sections, P id := by
  intro id hid
  rw [Frame.sections, namesOfSections_append, namesOfSections, namesOfSections, List.append_nil] at hid
  exact (List.mem_append.1 hid).elim (h.finished id) (h.statements id)

/-- the statement that closes a block names the actors of the block -/
theorem close (h : f.RefersOnlyTo P) : ∀ id ∈ f.close.names, P id := by
  intro id hid
  unfold Frame.close at hid
  split at hid
  · rw [Statement.names] at hid
    exact h.statements id hid
  · rw [Statement.names] at hid
    exact h.sections id hid

end Frame.RefersOnlyTo

namespace Progress

variable {p q : Progress} {l : SourceLine}

/-- every actor that a statement or a box names is one of these, in what is still open too -/
structure RefersOnlyTo (P : Text → Prop) (p : Progress) : Prop where
  diagram : p.diagram.RefersOnlyTo P
  frame : ∀ f ∈ p.frames, f.RefersOnlyTo P
  box : ∀ b ∈ p.box, ∀ id ∈ b.actorIds, P id

theorem RefersOnlyTo.mono (h : p.RefersOnlyTo P) (hPQ : ∀ id, P id → Q id) : p.RefersOnlyTo Q where
  diagram := h.diagram.mono hPQ
  frame f hf := ⟨fun id hid => hPQ id ((h.frame f hf).finished id hid), fun id hid => hPQ id ((h.frame f hf).statements id hid)⟩
  box b hb id hid := hPQ id (h.box b hb id hid)

theorem RefersOnlyTo.emit {s : Statement} (h : p.RefersOnlyTo P) (hs : ∀ id ∈ s.names, P id) : (p.emit s).RefersOnlyTo P := by
  have hconcat : ∀ ss : List Statement, (∀ id ∈ namesOfAll ss, P id) → ∀ id ∈ namesOfAll (ss ++ [s]), P id := by
    intro ss hss id hid
    rw [namesOfAll_append, namesOfAll, namesOfAll, List.append_nil] at hid
    exact (List.mem_append.1 hid).elim (hss id) (hs id)
  unfold Progress.emit
  split
  · exact ⟨⟨hconcat _ h.diagram.named, h.diagram.boxed⟩, h.frame, h.box⟩
  · rename_i f fs hframes
    obtain ⟨hf, hfs⟩ := List.forall_mem_cons.1 (hframes ▸ h.frame)
    exact ⟨h.diagram, List.forall_mem_cons.2 ⟨⟨hf.finished, hconcat _ hf.statements⟩, hfs⟩, h.box⟩

/-- every actor that is named is known -/
def IsClosed (p : Progress) : Prop := p.RefersOnlyTo (· ∈ p.diagram.actors.keys)

namespace IsClosed

/-- a statement of known actors -/
theorem emit {s : Statement} (h : p.IsClosed) (hs : ∀ id ∈ s.names, id ∈ p.diagram.actors.keys) : (p.emit s).IsClosed := by
  have hactors : (p.emit s).diagram.actors = p.diagram.actors := by
    unfold Progress.emit
    split <;> rfl
  rw [IsClosed, hactors]
  exact RefersOnlyTo.emit h hs

/-- an actor that is named is known from then on -/
theorem ensureActor (h : p.IsClosed) (id : Text) : (p.ensureActor id).IsClosed := by
  have hmono := RefersOnlyTo.mono h (Q := (· ∈ (p.ensureActor id).diagram.actors.keys)) fun k hk =>
    Entries.mem_keys_insertNew.2 (Or.inl hk)
  exact ⟨⟨hmono.diagram.named, hmono.diagram.boxed⟩, hmono.frame, hmono.box⟩

theorem ensureActors (h : p.IsClosed) (ids : List Text) : (ids.foldl (fun p id => p.ensureActor id) p).IsClosed ∧
    ∀ id, id ∈ ids ∨ id ∈ p.diagram.actors.keys → id ∈ (ids.foldl (fun p id => p.ensureActor id) p).diagram.actors.keys := by
  induction ids generalizing p with
  | nil => exact ⟨h, fun id hid => hid.elim (fun hnil => absurd hnil List.not_mem_nil) fun hk => hk⟩
  | cons k ids ih =>
    obtain ⟨hclosed, hknown⟩ := ih (h.ensureActor k)
    refine ⟨hclosed, fun id hid => hknown id ?_⟩
    rcases hid with hid | hid
    · rcases List.mem_cons.1 hid with rfl | hid
      · exact Or.inr (Entries.mem_keys_insertNew.2 (Or.inr rfl))
      · exact Or.inl hid
    · exact Or.inr (Entries.mem_keys_insertNew.2 (Or.inl hid))

theorem declare (h : p.IsClosed) (a : Actor) : (p.declare a).IsClosed := by
  have hmono := RefersOnlyTo.mono h (Q := (· ∈ (p.declare a).diagram.actors.keys)) fun k hk => Entries.mem_keys_insert.2 (Or.inl hk)
  refine ⟨⟨hmono.diagram.named, hmono.diagram.boxed⟩, hmono.frame, fun b hb id hid => ?_⟩
  obtain ⟨b', hb', rfl⟩ := Option.map_eq_some_iff.1 hb
  split at hid
  · exact hmono.box b' hb' id hid
  · rcases List.mem_append.1 hid with hid | hid
    · exact hmono.box b' hb' id hid
    · exact Entries.mem_keys_insert.2 (Or.inr (List.mem_singleton.1 hid))

/-- the next section of a block begins with no statements -/
theorem divide {keyword label : Text} (h : p.IsClosed) (hq : p.divide l keyword label = .ok q) : q.IsClosed := by
  unfold Progress.divide at hq
  split at hq
  · rename_i f fs hframes
    split at hq
    · obtain rfl := Except.ok.inj hq
      obtain ⟨hf, hfs⟩ := List.forall_mem_cons.1 (hframes ▸ h.frame)
      refine ⟨h.diagram, List.forall_mem_cons.2 ⟨⟨hf.sections, ?_⟩, hfs⟩, h.box⟩
      rw [namesOfAll]
      nofun
    · cases hq
  · cases hq

theorem close (h : p.IsClosed) (hq : p.close l = .ok q) : q.IsClosed := by
  unfold Progress.close at hq
  split at hq
  · rename_i f fs hframes
    obtain rfl := Except.ok.inj hq
    obtain ⟨hf, hfs⟩ := List.forall_mem_cons.1 (hframes ▸ h.frame)
    exact emit (p := { p with frames := fs }) ⟨h.diagram, hfs, h.box⟩ hf.close
  · cases hq

theorem apply (h : p.IsClosed) {line : Line} (hq : p.apply l line = .ok q) : q.IsClosed := by
  cases line with
  | actor a =>
    obtain rfl := Except.ok.inj hq
    exact h.declare a
  | accessibility line =>
    obtain rfl := Except.ok.inj hq
    exact ⟨⟨h.diagram.named, h.diagram.boxed⟩, h.frame, h.box⟩
  | title t =>
    obtain rfl := Except.ok.inj hq
    exact ⟨⟨h.diagram.named, h.diagram.boxed⟩, h.frame, h.box⟩
  | openBox label color =>
    rw [Progress.apply] at hq
    split at hq
    · obtain rfl := Except.ok.inj hq
      exact ⟨h.diagram, h.frame, by simp⟩
    · cases hq
  | note n =>
    have hq : p.addNote l n = .ok q := exceptMapError_eq_ok_iff.1 hq
    rw [addNote] at hq
    split at hq
    · cases hq
    · obtain rfl := Except.ok.inj hq
      obtain ⟨hclosed, hknown⟩ := h.ensureActors n.actorIds
      apply hclosed.emit
      rw [Statement.names]
      exact fun id hid => hknown id (Or.inl hid)
  | openBlock o label =>
    obtain rfl := Except.ok.inj hq
    refine ⟨h.diagram, List.forall_mem_cons.2 ⟨⟨?_, ?_⟩, h.frame⟩, h.box⟩
    · rw [namesOfSections]
      exact fun id hid => absurd hid List.not_mem_nil
    · rw [namesOfAll]
      exact fun id hid => absurd hid List.not_mem_nil
  | divide keyword label =>
    have hq : p.divide l keyword label = .ok q := exceptMapError_eq_ok_iff.1 hq
    exact h.divide hq
  | close => exact h.close (exceptMapError_eq_ok_iff.1 hq)
  | activation id active =>
    obtain rfl := Except.ok.inj hq
    refine (h.ensureActor id).emit fun k hk => ?_
    rw [Statement.names] at hk
    exact Entries.mem_keys_insertNew.2 (Or.inr (List.mem_singleton.1 hk))
  | autonumberOff =>
    obtain rfl := Except.ok.inj hq
    refine h.emit ?_
    rw [Statement.names]
    exact fun id hid => absurd hid List.not_mem_nil
  | autonumber start step =>
    obtain ⟨m, -, hq⟩ := exceptBind_eq_ok_iff.1 hq
    obtain ⟨n, -, hq⟩ := exceptBind_eq_ok_iff.1 hq
    obtain rfl := Except.ok.inj hq
    refine h.emit ?_
    rw [Statement.names]
    exact fun id hid => absurd hid List.not_mem_nil
  | message m =>
    obtain rfl := Except.ok.inj hq
    refine ((h.ensureActor m.source).ensureActor m.target).emit fun k hk => ?_
    rw [Statement.names] at hk
    rcases List.mem_cons.1 hk with rfl | hk
    · exact Entries.mem_keys_insertNew.2 (Or.inl (Entries.mem_keys_insertNew.2 (Or.inr rfl)))
    · exact Entries.mem_keys_insertNew.2 (Or.inr (List.mem_singleton.1 hk))

theorem readLine (h : p.IsClosed) (hq : p.readLine l = .ok q) : q.IsClosed := by
  unfold Progress.readLine at hq
  split at hq
  · exact h.apply hq
  · split at hq
    · rename_i b hb
      split at hq
      · obtain rfl := Except.ok.inj hq
        exact ⟨⟨h.diagram.named, List.forall_mem_append.2 ⟨h.diagram.boxed, List.forall_mem_singleton.2 (h.box b hb)⟩⟩, h.frame, nofun⟩
      · cases hq
    · split at hq
      · exact h.apply hq
      · cases hq

end IsClosed

end Progress

/-- **every actor that is named in a text is an actor of its diagram**, at any depth of blocks and in boxes -/
theorem isSelfContained_of_read {text : Text} {d : Sequence} (h : read text = .ok d) : d.IsSelfContained := by
  obtain ⟨p, hrun, hfinish⟩ := exceptBind_eq_ok_iff.1 h
  have hstart : Progress.IsClosed ⟨{}, [], none⟩ := ⟨⟨by rw [namesOfAll]; nofun, nofun⟩, nofun, nofun⟩
  have hclosed : p.IsClosed := invariant_of_foldlM (fun _ _ _ _ hp hq => hp.readLine hq) hstart hrun
  have hfinish : p.finish = .ok d := exceptMapError_eq_ok_iff.1 hfinish
  unfold Progress.finish at hfinish
  split at hfinish
  · cases hfinish
  · cases hfinish
  · exact Except.ok.inj hfinish ▸ hclosed.diagram

end Sequence

/-! ## Class diagrams -/

namespace ClassDiagram

variable {P Q : Text → Prop}

/-- every end of a relationship and every member of a namespace is a class -/
structure IsClosed (d : ClassDiagram) : Prop where
  related : ∀ r ∈ d.relationships, r.source ∈ d.classes.keys ∧ r.target ∈ d.classes.keys
  grouped : ∀ n ∈ d.namespaces, ∀ id ∈ n.classIds, id ∈ d.classes.keys

/-- a change of a class makes it known, and takes none back -/
theorem IsClosed.alterClass {d : ClassDiagram} (h : d.IsClosed) (id : Text) (f : Class → Class) : (d.alterClass id f).IsClosed where
  related r hr := ⟨Builder.mem_keys_alterClass.2 (Or.inl (h.related r hr).1), Builder.mem_keys_alterClass.2 (Or.inl (h.related r hr).2)⟩
  grouped n hn k hk := Builder.mem_keys_alterClass.2 (Or.inl (h.grouped n hn k hk))

namespace Progress

variable {p q : Progress} {l : SourceLine}

/-- a closed diagram, with the members of the open namespace -/
structure IsClosed (p : Progress) : Prop where
  diagram : p.diagram.IsClosed
  openNamespace : ∀ n ∈ p.openNamespace, ∀ id ∈ n.classIds, id ∈ p.diagram.classes.keys

theorem classIds_include (id : Text) (n : OpenNamespace) : (include_ id n).classIds = Entries.addTo n.classIds id := by
  unfold include_ Entries.addTo
  split <;> rfl

namespace IsClosed

theorem alterClass (h : p.IsClosed) (id : Text) (f : Class → Class) :
    IsClosed { p with diagram := p.diagram.alterClass id f } where
  diagram := h.diagram.alterClass id f
  openNamespace n hn k hk := Builder.mem_keys_alterClass.2 (Or.inl (h.openNamespace n hn k hk))

theorem apply (h : p.IsClosed) {line : Line} (hq : p.apply l line = .ok q) : q.IsClosed := by
  cases line with
  | direction token =>
    rw [Progress.apply] at hq
    split at hq
    · obtain rfl := Except.ok.inj hq
      exact ⟨⟨h.diagram.related, h.diagram.grouped⟩, h.openNamespace⟩
    · cases hq
  | openNamespace name =>
    rw [Progress.apply] at hq
    split at hq
    · cases hq
    · obtain rfl := Except.ok.inj hq
      exact ⟨h.diagram, by simp⟩
  | closeBrace =>
    rw [Progress.apply, closeNamespace] at hq
    split at hq
    · cases hq
    · rename_i n hn
      obtain rfl := Except.ok.inj hq
      have hmembers := h.openNamespace n hn
      exact ⟨⟨h.diagram.related, List.forall_mem_append.2 ⟨h.diagram.grouped, List.forall_mem_singleton.2 hmembers⟩⟩, nofun⟩
  | declare id generic label opensBody =>
    obtain rfl := Except.ok.inj hq
    obtain ⟨hdiagram, hopen⟩ := h.alterClass id (declare id generic label)
    refine ⟨hdiagram, fun n hn k hk => ?_⟩
    obtain ⟨n', hn', rfl⟩ := Option.map_eq_some_iff.1 hn
    rw [classIds_include] at hk
    rcases Entries.mem_addTo.1 hk with hk | rfl
    · exact hopen n' hn' k hk
    · exact Builder.mem_keys_alterClass.2 (Or.inr rfl)
  | annotate id text =>
    obtain rfl := Except.ok.inj hq
    exact h.alterClass id fun c => { c with stereotype := some text }
  | relate r =>
    obtain rfl := Except.ok.inj hq
    have hmono : ∀ k ∈ p.diagram.classes.keys, k ∈ ((p.diagram.ensureClass r.source).ensureClass r.target).classes.keys :=
      fun k hk => Entries.mem_keys_insertNew.2 (Or.inl (Entries.mem_keys_insertNew.2 (Or.inl hk)))
    refine ⟨⟨List.forall_mem_append.2 ⟨?_, List.forall_mem_singleton.2 ⟨?_, ?_⟩⟩, ?_⟩, ?_⟩
    · exact fun r hr => ⟨hmono _ (h.diagram.related r hr).1, hmono _ (h.diagram.related r hr).2⟩
    · exact Entries.mem_keys_insertNew.2 (Or.inl (Entries.mem_keys_insertNew.2 (Or.inr rfl)))
    · exact Entries.mem_keys_insertNew.2 (Or.inr rfl)
    · exact fun n hn k hk => hmono k (h.diagram.grouped n hn k hk)
    · exact fun n hn k hk => hmono k (h.openNamespace n hn k hk)
  | member id m =>
    obtain rfl := Except.ok.inj hq
    exact h.alterClass id fun c => (m.map c.addMember).getD c
  | _ =>
    obtain rfl := Except.ok.inj hq
    exact ⟨⟨h.diagram.related, h.diagram.grouped⟩, h.openNamespace⟩

theorem applyInBody (h : p.IsClosed) (id : Text) (line : BodyLine) : (p.applyInBody id line).IsClosed := by
  cases line with
  | close => exact ⟨h.diagram, h.openNamespace⟩
  | stereotype text => exact h.alterClass id fun c => { c with stereotype := some text }
  | member m => exact h.alterClass id fun c => (m.map c.addMember).getD c

theorem readLine (h : p.IsClosed) (hq : p.readLine l = .ok q) : q.IsClosed := by
  unfold Progress.readLine at hq
  split at hq
  · obtain rfl := Except.ok.inj hq
    exact h.applyInBody _ _
  · split at hq
    · exact h.apply hq
    · cases hq

end IsClosed

end Progress

/-- **every end of a relationship and every member of a namespace that a text names is a class of its diagram** -/
theorem closed_of_read {text : Text} {d : ClassDiagram} (h : read text = .ok d) : d.IsClosed := by
  obtain ⟨p, hrun, hfinish⟩ := exceptBind_eq_ok_iff.1 h
  have hstart : Progress.IsClosed ⟨{}, none, none⟩ := ⟨⟨nofun, nofun⟩, nofun⟩
  have hclosed : p.IsClosed := invariant_of_foldlM (fun _ _ _ _ hp hq => hp.readLine hq) hstart hrun
  unfold Progress.finish at hfinish
  split at hfinish
  · cases hfinish
  · cases hfinish
  · exact Except.ok.inj hfinish ▸ hclosed.diagram

end ClassDiagram

/-! ## State diagrams -/

namespace StateDiagram

/-- a state that is known, or the beginning and the end -/
def HasEndpoint (d : StateDiagram) (id : Text) : Prop := id = terminal ∨ id ∈ d.states.keys

/-- a transition joins known states, in a scope that is one -/
structure Transition.IsWithin (d : StateDiagram) (t : Transition) : Prop where
  source : d.HasEndpoint t.source
  target : d.HasEndpoint t.target
  scope : ∀ id ∈ t.scope, id ∈ d.states.keys

/-- transitions join states, and the scope of a transition and the parent of a state are states -/
structure IsClosed (d : StateDiagram) : Prop where
  transition : ∀ t ∈ d.transitions, t.IsWithin d
  parent : ∀ s ∈ d.states.values, ∀ id ∈ s.parent, id ∈ d.states.keys

/-- a transition of known states, when more states are known -/
theorem Transition.IsWithin.mono {d d' : StateDiagram} {t : Transition} (h : t.IsWithin d)
    (hkeys : d.states.keys ⊆ d'.states.keys) : t.IsWithin d' where
  source := h.source.imp_right fun hid => hkeys hid
  target := h.target.imp_right fun hid => hkeys hid
  scope id hid := hkeys (h.scope id hid)

namespace Assembly

variable {a : Assembly}

/-- every transition joins known states -/
def IsJoined (a : Assembly) : Prop := ∀ t ∈ a.diagram.transitions, t.IsWithin a.diagram

/-- a change that keeps the transitions and takes no state back -/
theorem IsJoined.of_keys {a' : Assembly} (h : a.IsJoined) (htransitions : a'.diagram.transitions = a.diagram.transitions)
    (hkeys : a.diagram.states.keys ⊆ a'.diagram.states.keys) : a'.IsJoined := by
  intro t ht
  exact (h t (htransitions ▸ ht)).mono hkeys

theorem IsJoined.declare (h : a.IsJoined) (id : Text) (scope : Option Text) : (a.declare id scope).IsJoined := by
  unfold Assembly.declare
  split
  · exact h
  · refine h.of_keys rfl fun k hk => ?_
    rw [Entries.keys_insert_erase, List.mem_append, List.mem_filter, List.mem_singleton]
    by_cases e : k = id
    · exact Or.inr e
    · exact Or.inl ⟨hk, by simpa using e⟩

theorem IsJoined.alterState (h : a.IsJoined) (id : Text) (f : State → State) : (a.alterState id f).IsJoined := by
  unfold Assembly.alterState
  split
  · exact h
  · exact h.of_keys rfl fun k hk => Entries.mem_keys_insert.2 (Or.inl hk)

theorem IsJoined.declareAs (h : a.IsJoined) (id : Text) (scope : Option Text) (f : State → State) :
    (a.declareAs id scope f).IsJoined := (h.declare id scope).alterState id f

theorem keys_subset_reference (a : Assembly) (id : Text) (scope : Option Text) :
    a.diagram.states.keys ⊆ (a.reference id scope).diagram.states.keys := by
  intro k hk
  unfold Assembly.reference
  split
  · exact hk
  · exact Entries.mem_keys_insertNew.2 (Or.inl hk)

/-- what a transition names is known from then on -/
theorem hasEndpoint_reference (a : Assembly) (id : Text) (scope : Option Text) : (a.reference id scope).diagram.HasEndpoint id := by
  unfold Assembly.reference
  split
  · exact Or.inl ‹_›
  · exact Or.inr (Entries.mem_keys_insertNew.2 (Or.inr rfl))

/-- a transition in a known scope, after references to its ends -/
theorem IsJoined.transition (h : a.IsJoined) {scope : Option Text} (hscope : ∀ id ∈ scope, id ∈ a.diagram.states.keys)
    (source target : Text) (label : Option Text) :
    (((a.reference source scope).reference target scope).addTransition ⟨source, target, label, scope⟩).IsJoined := by
  have htransitions : ((a.reference source scope).reference target scope).diagram.transitions = a.diagram.transitions := by
    unfold Assembly.reference
    split <;> split <;> rfl
  have hsource := keys_subset_reference a source scope
  have htarget := keys_subset_reference (a.reference source scope) target scope
  refine List.forall_mem_append.2 ⟨?_, List.forall_mem_singleton.2 ⟨?_, ?_, ?_⟩⟩
  · exact fun t ht => (h t (htransitions ▸ ht)).mono fun k hk => htarget (hsource hk)
  · exact (hasEndpoint_reference a source scope).imp_right fun hk => htarget hk
  · exact hasEndpoint_reference _ target scope
  · exact fun id hid => htarget (hsource (hscope id hid))

end Assembly

namespace Progress

variable {p q : Progress} {l : SourceLine}

theorem isJoined_of_apply (hnested : p.IsNested) (h : p.assembly.IsJoined) {line : Line} (hq : p.apply l line = .ok q) :
    q.assembly.IsJoined := by
  cases line with
  | direction d =>
    obtain rfl := Except.ok.inj hq
    unfold setDirection
    split
    · exact h.alterState _ _
    · exact h.of_keys rfl (List.Subset.refl _)
  | closeComposite =>
    rw [Progress.apply] at hq
    split at hq
    · cases hq
    · obtain rfl := Except.ok.inj hq
      exact h
  | transition source target label =>
    obtain rfl := Except.ok.inj hq
    exact h.transition (fun id hid => hnested.assembly.known (hnested.scope hid)) source target label
  | declare id =>
    obtain rfl := Except.ok.inj hq
    exact h.declare id p.scope
  | openComposite id label =>
    obtain rfl := Except.ok.inj hq
    exact h.declareAs id p.scope _
  | label id label =>
    obtain rfl := Except.ok.inj hq
    exact h.declareAs id p.scope _
  | pseudo id marker =>
    obtain rfl := Except.ok.inj hq
    exact h.declareAs id p.scope _
  | assignClass ids name =>
    obtain rfl := Except.ok.inj hq
    change (ids.foldl (fun a id => a.assignClass id name) p.assembly).IsJoined
    exact List.foldlRecOn (motive := Assembly.IsJoined) ids _ h fun a ha id hid => ha.of_keys rfl (List.Subset.refl _)
  | _ =>
    obtain rfl := Except.ok.inj hq
    exact h.of_keys rfl (List.Subset.refl _)

theorem isJoined_of_readLine (hnested : p.IsNested) (h : p.assembly.IsJoined) (hq : p.readLine l = .ok q) : q.assembly.IsJoined := by
  unfold Progress.readLine at hq
  split at hq
  · split at hq
    · obtain rfl := Except.ok.inj hq
      exact h.of_keys rfl (List.Subset.refl _)
    · obtain rfl := Except.ok.inj hq
      exact h
  · split at hq
    · exact isJoined_of_apply hnested h hq
    · cases hq

end Progress

/-- **transitions that are read join states, and scopes and parents are states** -/
theorem closed_of_read {text : Text} {d : StateDiagram} (h : read text = .ok d) : d.IsClosed := by
  have hnested := isNested_of_read h
  obtain ⟨p, hrun, rfl⟩ := exists_of_read h
  constructor
  · have hinvariant : p.IsNested ∧ p.assembly.IsJoined := by
      refine invariant_of_foldlM (P := fun p => p.IsNested ∧ p.assembly.IsJoined) (fun _ _ _ _ hp hq => ?_)
        ⟨⟨⟨fun hs => absurd hs (by simp), fun hs => absurd hs (by simp), List.nil_subset _⟩, by simp⟩, nofun⟩ hrun
      exact ⟨hp.1.readLine hq, Progress.isJoined_of_readLine hp.1 hp.2 hq⟩
    exact hinvariant.2
  · intro s hs id hid
    obtain ⟨k, hk⟩ := Entries.mem_values_iff.1 hs
    have hbefore := hnested.parent hk hid
    exact List.idxOf_lt_length_iff.1 (hbefore.trans_le List.idxOf_le_length)

end StateDiagram

/-! ## Entity diagrams -/

namespace EntityDiagram

/-- every end of a relationship is an entity -/
def IsClosed (d : EntityDiagram) : Prop := ∀ r ∈ d.relationships, r.source ∈ d.entities.keys ∧ r.target ∈ d.entities.keys

theorem IsClosed.alterEntity {d : EntityDiagram} (h : d.IsClosed) (id : Text) (f : Entity → Entity) : (alterEntity id f d).IsClosed :=
  fun r hr => ⟨mem_keys_alterEntity f (Or.inl (h r hr).1), mem_keys_alterEntity f (Or.inl (h r hr).2)⟩

namespace Progress

variable {p q : Progress} {l : SourceLine}

theorem isClosed_of_apply (h : p.diagram.IsClosed) {line : Line} (hq : p.apply l line = .ok q) : q.diagram.IsClosed := by
  cases line with
  | accessibility line =>
    obtain rfl := Except.ok.inj hq
    exact h
  | direction token =>
    rw [Progress.apply] at hq
    split at hq
    · obtain rfl := Except.ok.inj hq
      exact h
    · cases hq
  | declare id label opensBlock =>
    obtain rfl := Except.ok.inj hq
    exact h.alterEntity id _
  | relate text =>
    obtain ⟨r, -, rfl⟩ := exceptMap_eq_ok_iff.1 hq
    have hboth := (h.alterEntity r.source id).alterEntity r.target id
    have hsource := mem_keys_alterEntity (d := p.diagram) (k := r.source) id (Or.inr rfl)
    refine List.forall_mem_append.2 ⟨hboth, List.forall_mem_singleton.2 ⟨?_, ?_⟩⟩
    · exact mem_keys_alterEntity id (Or.inl hsource)
    · exact mem_keys_alterEntity id (Or.inr rfl)

theorem isClosed_of_readLine (h : p.diagram.IsClosed) (hq : p.readLine l = .ok q) : q.diagram.IsClosed := by
  unfold Progress.readLine at hq
  split at hq
  · split at hq
    · obtain rfl := Except.ok.inj hq
      exact h
    · unfold addColumn at hq
      split at hq
      · obtain rfl := Except.ok.inj hq
        exact h.alterEntity _ _
      · cases hq
  · split at hq
    · exact isClosed_of_apply h hq
    · cases hq

end Progress

/-- **every end of a relationship that is read is an entity of the diagram** -/
theorem closed_of_read {text : Text} {d : EntityDiagram} (h : read text = .ok d) : d.IsClosed := by
  obtain ⟨p, hrun, hfinish⟩ := exceptBind_eq_ok_iff.1 h
  have hclosed : p.diagram.IsClosed :=
    invariant_of_foldlM (P := fun p => p.diagram.IsClosed) (fun _ _ _ _ hp hq => Progress.isClosed_of_readLine hp hq) nofun hrun
  unfold Progress.finish at hfinish
  split at hfinish
  · cases hfinish
  · exact Except.ok.inj hfinish ▸ hclosed

end EntityDiagram

/-! ## Sankey diagrams -/

namespace SankeyDiagram

/-- the two nodes of a flow -/
def Link.ends (k : Link) : List Text := [k.source, k.target]

/-- the nodes are the ends of the flows, in the order in which those first come -/
def IsClosed (d : SankeyDiagram) : Prop := d.nodes.keys = (d.links.flatMap Link.ends).eraseDups

/-- nodes are named in the order in which the flows name them -/
theorem foldl_namedBy (nodes : Entries Node) (ks : List Link) :
    ks.foldl namedBy nodes = (ks.flatMap Link.ends).foldl (fun nodes id => nodes.insertNew id ⟨id, id⟩) nodes := by
  induction ks generalizing nodes with
  | nil => rfl
  | cons k ks ih =>
    rw [List.foldl_cons, ih, List.flatMap_cons, List.foldl_append]
    rfl

/-- **the nodes that are read are the ends of the flows**, in order of first mention -/
theorem closed_of_read {text : Text} {d : SankeyDiagram} (h : read text = .ok d) : d.IsClosed := by
  obtain ⟨-, -, h⟩ := exceptBind_eq_ok_iff.1 h
  obtain ⟨ks, -, h⟩ := exceptBind_eq_ok_iff.1 h
  obtain rfl := Except.ok.inj h
  calc (ks.foldl addLink {}).nodes.keys
      = ((ks.flatMap Link.ends).foldl (fun (nodes : Entries Node) id => nodes.insertNew id ⟨id, id⟩) .empty).keys := by
        rw [foldl_addLink, foldl_namedBy]
    _ = (ks.flatMap Link.ends).eraseDups := Entries.keys_foldl_insertNew _ _
    _ = ((ks.foldl addLink {}).links.flatMap Link.ends).eraseDups := by rw [foldl_addLink, List.nil_append]

end SankeyDiagram

/-! ## Any dialect -/

namespace Diagram

/-- the parts of a diagram refer only to parts that are in it; the other dialects have no references -/
def IsClosed : Diagram → Prop
  | flowchart d => d.IsClosed
  | sequence d => d.IsSelfContained
  | .classDiagram d => d.IsClosed
  | state d => d.IsClosed
  | er d => d.IsClosed
  | sankey d => d.IsClosed
  | pie _ | mindmap _ | quadrant _ | timeline _ | journey _ | xychart _ => True

/-- **diagrams that are read are closed**: whatever text is accepted, what its parts refer to is in the diagram -/
theorem isClosed_of_read {dialect : Dialect} {text : Text} {d : Diagram} (h : dialect.read text = .ok d) : d.IsClosed := by
  cases dialect
  case flowchart =>
    obtain ⟨d, hd, rfl⟩ := exists_of_read h
    exact (Flowchart.isWellFormed_of_read hd).toIsClosed
  case sequence =>
    obtain ⟨d, hd, rfl⟩ := exceptMap_eq_ok_iff.1 h
    exact Sequence.isSelfContained_of_read hd
  case classDiagram =>
    obtain ⟨d, hd, rfl⟩ := exists_of_read h
    exact ClassDiagram.closed_of_read hd
  case state =>
    obtain ⟨d, hd, rfl⟩ := exists_of_read h
    exact StateDiagram.closed_of_read hd
  case er =>
    obtain ⟨d, hd, rfl⟩ := exists_of_read h
    exact EntityDiagram.closed_of_read hd
  case sankey =>
    obtain ⟨d, hd, rfl⟩ := exists_of_read h
    exact SankeyDiagram.closed_of_read hd
  all_goals
    obtain ⟨_, -, rfl⟩ := exists_of_read h
    trivial

/-- a message and a note in nested blocks, and a box -/
def nestedBlocks : Text := "sequenceDiagram\nbox\nparticipant C\nend\nloop x\nalt y\nA->>B: m\nelse z\nNote over D: n\nend\nend"

/-- a state that is named in a composite state before its declaration moves it there -/
def movedState : Text := "stateDiagram-v2\nB --> C\nstate A \x7b\nB\n[*] --> D\n\x7d"

theorem isClosed_of_read_nested : ∃ d d', Dialect.sequence.read nestedBlocks = .ok d ∧ d.IsClosed ∧
    Dialect.state.read movedState = .ok d' ∧ d'.IsClosed := by
  obtain ⟨d, hd⟩ : ∃ d, Dialect.sequence.read nestedBlocks = .ok d := ⟨_, rfl⟩
  obtain ⟨d', hd'⟩ : ∃ d, Dialect.state.read movedState = .ok d := ⟨_, rfl⟩
  exact ⟨d, d', hd, isClosed_of_read hd, hd', isClosed_of_read hd'⟩

end Diagram

end DiagramText

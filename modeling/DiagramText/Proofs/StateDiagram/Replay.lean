/-
The printed text of a state diagram as a list of deeds. A deed is what one printed statement does to the diagram that the
reader puts together, `performAll` does deeds one after another, and `Enacts` says that printed lines do certain deeds
wherever they stand in a scope. `enacts_scope` is the simulation: the lines of a scope, with all that is nested in it,
place the states that are written there, link their transitions and attach their notes. `read_render_eq` reads a whole
text.
-/
import DiagramText.Proofs.Entries
import DiagramText.Proofs.Reading
import DiagramText.Proofs.StateDiagram.Line
import DiagramText.Proofs.StateDiagram.Scopes
import DiagramText.StateDiagram.Reader

namespace DiagramText

namespace StateDiagram

open DiagramText.Text
open Sequence (IsLineText)

/-! ## Deeds -/

/-- what a printed statement does to a diagram that is being put together -/
inductive Deed where
  | describe (line : AccessibilityLine)
  | orient (d : Direction)
  /-- declares a state with all that is said of it -/
  | place (s : State)
  | link (t : Transition)
  | attach (n : Note)
  | define (name : Text) (style : Style)
  | assign (id name : Text)

/-- the diagram after a deed -/
def Deed.perform (a : Assembly) : Deed → Assembly
  | describe line => a.describe line
  | orient d => { a with diagram := { a.diagram with direction := d } }
  | place s =>
    { diagram := { a.diagram with states := (a.diagram.states.erase s.id).insert s.id s }
      declared := s.id :: a.declared }
  | link t => ((a.reference t.source t.scope).reference t.target t.scope).addTransition t
  | attach n => a.addNote n
  | define name style => a.defineClass name style
  | assign id name => a.assignClass id name

/-- the diagram after deeds one after another -/
def performAll (ds : List Deed) (a : Assembly) : Assembly := ds.foldl Deed.perform a

/-- the state that a deed places -/
def Deed.placed? : Deed → Option State
  | place s => some s
  | _ => none

/-- the states that deeds place -/
def placed (ds : List Deed) : List State := ds.filterMap Deed.placed?

theorem performAll_append (ds es : List Deed) (a : Assembly) : performAll (ds ++ es) a = performAll es (performAll ds a) :=
  List.foldl_append

theorem get?_reference (a : Assembly) (id k : Text) (scope : Option Text) :
    (a.reference id scope).diagram.states.get? k
      = if id = k ∧ id ≠ terminal then some ((a.diagram.states.get? k).getD { id := k, parent := scope })
        else a.diagram.states.get? k := by
  unfold Assembly.reference
  by_cases ht : id = terminal
  · rw [if_pos ht, if_neg fun h => h.2 ht]
  · rw [if_neg ht]
    dsimp only
    rw [Entries.get?_insertNew]
    by_cases hk : id = k
    · subst hk
      simp [ht]
    · simp [hk]

/-- a state that is found after a reference was created by it, or was there before -/
theorem get?_reference_cases {a : Assembly} {id k : Text} {scope : Option Text} {s : State}
    (h : (a.reference id scope).diagram.states.get? k = some s) :
    (k = id ∧ s = { id := id, parent := scope }) ∨ a.diagram.states.get? k = some s := by
  unfold Assembly.reference at h
  split at h
  · exact Or.inr h
  · exact Entries.get?_insertNew_cases h

theorem declared_reference (a : Assembly) (id : Text) (scope : Option Text) :
    (a.reference id scope).declared = a.declared := by
  unfold Assembly.reference
  split <;> rfl

/-- states that are not declared have nothing but an id and a scope -/
def IsProvisional (a : Assembly) : Prop :=
  ∀ id s, a.diagram.states.get? id = some s → id ∉ a.declared → s = { id := id, parent := s.parent }

theorem IsProvisional.reference {a : Assembly} (h : IsProvisional a) (id : Text) (scope : Option Text) :
    IsProvisional (a.reference id scope) := by
  intro k s hs hk
  rw [declared_reference] at hk
  obtain ⟨rfl, rfl⟩ | hs := get?_reference_cases hs
  · rfl
  · exact h k s hs hk

/-- deeds that place each state once, and none that is declared -/
structure Admits (ds : List Deed) (a : Assembly) : Prop where
  nodup : ((placed ds).map State.id).Nodup
  fresh : ∀ s ∈ placed ds, s.id ∉ a.declared
  provisional : IsProvisional a

theorem Admits.perform {x : Deed} {ds : List Deed} {a : Assembly} (h : Admits (x :: ds) a) : Admits ds (x.perform a) := by
  cases x with
  | place s =>
    have hnodup : ((s :: placed ds).map State.id).Nodup := h.nodup
    rw [List.map_cons, List.nodup_cons] at hnodup
    refine ⟨hnodup.2, fun t ht hm => ?_, fun id t ht hid => ?_⟩
    · rcases List.mem_cons.1 hm with e | hm
      · exact hnodup.1 (e ▸ List.mem_map_of_mem ht)
      · exact h.fresh t (List.mem_cons_of_mem s ht) hm
    · have hid : id ≠ s.id ∧ id ∉ a.declared := not_or.1 fun h => hid (List.mem_cons.2 h)
      change ((a.diagram.states.erase s.id).insert s.id s).get? id = some t at ht
      rw [Entries.get?_insert, if_neg (Ne.symm hid.1), Entries.get?_erase, if_neg (Ne.symm hid.1)] at ht
      exact h.provisional id t ht hid.2
  | link t =>
    refine ⟨h.nodup, fun s hs => ?_, (h.provisional.reference t.source t.scope).reference t.target t.scope⟩
    have hdeclared : ((Deed.link t).perform a).declared = a.declared :=
      (declared_reference _ t.target t.scope).trans (declared_reference a t.source t.scope)
    exact hdeclared ▸ h.fresh s hs
  | describe line => exact ⟨h.nodup, h.fresh, h.provisional⟩
  | orient d => exact ⟨h.nodup, h.fresh, h.provisional⟩
  | attach n => exact ⟨h.nodup, h.fresh, h.provisional⟩
  | define name style => exact ⟨h.nodup, h.fresh, h.provisional⟩
  | assign id name => exact ⟨h.nodup, h.fresh, h.provisional⟩

theorem Admits.append {ds es : List Deed} {a : Assembly} (h : Admits (ds ++ es) a) :
    Admits ds a ∧ Admits es (performAll ds a) := by
  constructor
  · have hplaced : placed (ds ++ es) = placed ds ++ placed es := List.filterMap_append
    refine ⟨?_, fun s hs => h.fresh s (hplaced ▸ List.mem_append_left _ hs), h.provisional⟩
    exact h.nodup.sublist (hplaced ▸ (List.sublist_append_left _ _).map State.id)
  · induction ds generalizing a with
    | nil => exact h
    | cons x ds ih => exact ih h.perform

/-! ## Declarations -/

section

variable {id : Text} {scope : Option Text} {a : Assembly}

theorem declare_eq (hid : id ∉ a.declared) (ha : IsProvisional a) :
    a.declare id scope = (Deed.place { id := id, parent := scope }).perform a := by
  have hstate : { (a.diagram.states.get? id).getD { id := id } with parent := scope } = ({ id := id, parent := scope } : State) := by
    cases h : a.diagram.states.get? id with
    | none => rfl
    | some s => rw [Option.getD_some, ha id s h hid]
  rw [Assembly.declare, if_neg (by simpa using hid)]
  dsimp only
  rw [hstate]
  rfl

theorem alterState_place {s : State} {f : State → State} (hf : (f s).id = s.id) :
    ((Deed.place s).perform a).alterState s.id f = (Deed.place (f s)).perform a := by
  have hget : ((Deed.place s).perform a).diagram.states.get? s.id = some s := by
    change ((a.diagram.states.erase s.id).insert s.id s).get? s.id = _
    rw [Entries.get?_insert, if_pos rfl]
  have hinsert : ((a.diagram.states.erase s.id).insert s.id s).insert s.id (f s)
      = (a.diagram.states.erase s.id).insert s.id (f s) := Entries.insert_insert _ _ _ _
  rw [Assembly.alterState, hget]
  simp only [Deed.perform, hinsert, hf]

/-- a state that is declared with what is said of it -/
theorem declareAs_eq (hid : id ∉ a.declared) (ha : IsProvisional a) {f : State → State}
    (hf : (f { id := id, parent := scope }).id = id) :
    a.declareAs id scope f = (Deed.place (f { id := id, parent := scope })).perform a := by
  rw [Assembly.declareAs, declare_eq hid ha]
  exact alterState_place hf

end

/-! ## Reading printed lines -/

/-- a line in its margin that does what it says -/
theorem reads_line {p q : Progress} {margin : Text} {line : Line} {raws : List Text} (hm : IsMargin margin)
    (hl : line.IsPlain) (hp : p.note = none)
    (h : ∀ l, ∃ p', p.apply l line.settled = .ok p' ∧ Reads Progress.readLine p' raws q) :
    Reads Progress.readLine p ((margin ++ line.toText) :: raws) q := by
  refine .line hm (isContent_toText hl) fun l ht => ?_
  rw [Progress.readLine, hp]
  dsimp only
  rw [ht, read?_toText hl]
  exact h l

/-- printed lines that do deeds wherever they stand in a scope -/
def Enacts (scope : Option Text) (raws : List Text) (ds : List Deed) : Prop :=
  ∀ p : Progress, p.note = none → p.scope = scope → Admits ds p.assembly → Reads Progress.readLine p raws (p.update (performAll ds))

namespace Enacts

variable {scope : Option Text} {raws raws' : List Text} {ds es : List Deed}

theorem nil : Enacts scope [] [] := fun _ _ _ _ => .nil

theorem append (h : Enacts scope raws ds) (h' : Enacts scope raws' es) : Enacts scope (raws ++ raws') (ds ++ es) := by
  intro p hn hs ha
  have hrest := h' (p.update (performAll ds)) hn hs ha.append.2
  have hq : (p.update (performAll ds)).update (performAll es) = p.update (performAll (ds ++ es)) := by
    simp only [Progress.update, performAll_append]
  rw [hq] at hrest
  exact (h p hn hs ha.append.1).append hrest

theorem flatMap {α : Type} {items : List α} {lines : α → List Text} {deeds : α → List Deed}
    (h : ∀ x ∈ items, Enacts scope (lines x) (deeds x)) : Enacts scope (items.flatMap lines) (items.flatMap deeds) := by
  induction items with
  | nil => exact nil
  | cons x items ih =>
    rw [List.flatMap_cons, List.flatMap_cons]
    exact (h x (by simp)).append (ih fun y hy => h y (by simp [hy]))

theorem map {α : Type} {items : List α} {line : α → Text} {deed : α → Deed}
    (h : ∀ x ∈ items, Enacts scope [line x] [deed x]) : Enacts scope (items.map line) (items.map deed) := by
  rw [List.map_eq_flatMap, List.map_eq_flatMap]
  exact flatMap h

/-- a line that does one deed -/
theorem line {margin : Text} {line : Line} {x : Deed} (hm : IsMargin margin) (hl : line.IsPlain)
    (h : ∀ l (p : Progress), p.scope = scope → Admits [x] p.assembly → p.apply l line.settled = .ok (p.update x.perform)) :
    Enacts scope [margin ++ line.toText] [x] :=
  fun p hn hs ha => reads_line hm hl hn fun l => ⟨_, h l p hs ha, .nil⟩

end Enacts

/-! ## What can be written -/

/-- the lines of a note that are written -/
def Note.textLines (n : Note) : List Text := ((splitOn '\n' n.text).map trim).filter (· ≠ [])

/-- a note that can be written -/
structure Note.IsPlain (n : Note) : Prop where
  stateId : IsId n.stateId
  position : IsPlace n.position
  line : ∀ t ∈ n.textLines, IsLineText t
  /-- what stands on lines of its own is no comment, and does not close the note -/
  body : 1 < n.textLines.length → ∀ t ∈ n.textLines, dropPrefix? "%%" t = none ∧ isEndNote t = false

/-- a state that can be written -/
structure State.IsPlain (s : State) : Prop where
  id : IsId s.id
  marker : ∀ m, s.kind = .pseudo m → IsMarker m
  title : s.kind = .composite → ∀ t, s.label = some t → '\n' ∉ t
  label : s.kind = .plain → ∀ t, s.label = some t → IsLineText t ∧ s.id ≠ "accTitle" ∧ s.id ≠ "accDescr"

/-- a diagram whose states, transitions and notes can be written, with whatever style classes -/
structure IsPrintable (d : StateDiagram) : Prop where
  state : ∀ {id s}, d.states.get? id = some s → s.IsPlain
  transition : ∀ t ∈ d.transitions, Line.IsPlain (.transition t.source t.target t.label)
  note : ∀ n ∈ d.notes, n.IsPlain
  accTitle : ∀ t, d.accessibility.title = some t → IsLineText t
  accDescription : ∀ t, d.accessibility.description = some t → IsLineText t
  classDef : ∀ x ∈ d.classDefs.toList, Line.IsPlain (.classDef x.1 x.2)
  classAssignment : ∀ x ∈ d.classAssignments.toList, ∀ name ∈ x.2, Line.IsPlain (.assignClass [x.1] name)

/-! ## The deeds of a printed text -/

/-- a state as it is read back: only composite states keep a direction, pseudo-states have no label, and entities in the
title of a composite state are read -/
def State.settled (s : State) : State :=
  match s.kind with
  | .composite => { s with label := s.label.map readEntities }
  | .pseudo _ => { s with label := none, direction := none }
  | .plain => { s with direction := none }

/-- a note as it is read back: trimmed lines, and none of them empty -/
def Note.settled (n : Note) : Note := { n with text := join "\n" n.textLines }

/-- whether a line is written for a state -/
def isWritten (d : StateDiagram) (s : State) : Bool := !(s.kind == .plain && s.label.isNone && isImplied d s)

/-- what the lines of a scope do -/
def scopeDeeds (d : StateDiagram) (o : RenderOptions) : Nat → Option Text → List Deed
  | 0, _ => []
  | fuel + 1, scope =>
    (scopeStates d o scope).flatMap (fun s =>
        (if isWritten d s then [.place s.settled] else [])
          ++ (if s.kind = .composite then scopeDeeds d o fuel (some s.id) else []))
      ++ (d.transitions.filter fun t => t.scope == scope).map .link
      ++ (d.notes.filter fun n => noteScope d n == scope).map fun n => .attach n.settled

/-- what the lines of a text do -/
def pageDeeds (d : StateDiagram) (o : RenderOptions) : List Deed :=
  (if d.direction = .tb then [] else [.orient d.direction])
    ++ ((present d.accessibility.title).map fun t => Deed.describe (.title t)).toList
    ++ ((present d.accessibility.description).map fun t => Deed.describe (.description t)).toList
    ++ scopeDeeds d o (d.states.toList.length + 1) none
    ++ d.classDefs.toList.map (fun x => .define x.1 x.2)
    ++ d.classAssignments.toList.flatMap fun x => x.2.map (.assign x.1)

variable {d : StateDiagram} {o : RenderOptions} {margin : Text} {s : State}

/-! ## Notes -/

/-- what stands on the lines of an open note becomes part of it -/
theorem reads_body {p : Progress} {n : OpenNote} (hp : p.note = some n) (hm : IsMargin margin) {ts : List Text}
    (h : ∀ t ∈ ts, SourceLine.IsContent t ∧ isEndNote t = false) :
    Reads Progress.readLine p (ts.map (margin ++ ·)) { p with note := some { n with lines := n.lines ++ ts } } := by
  induction ts generalizing p n with
  | nil =>
    obtain ⟨assembly, composites, note⟩ := p
    obtain rfl : note = some n := hp
    rw [List.append_nil]
    exact .nil
  | cons t ts ih =>
    obtain ⟨hcontent, hend⟩ := h t (by simp)
    refine .line hm hcontent fun l ht => ?_
    refine ⟨{ p with note := some { n with lines := n.lines ++ [t] } }, ?_, ?_⟩
    · rw [Progress.readLine, hp]
      dsimp only
      rw [ht, if_neg (by simp [hend])]
    · have hrest := ih (p := { p with note := some { n with lines := n.lines ++ [t] } }) rfl fun u hu => h u (by simp [hu])
      rw [List.append_assoc] at hrest
      exact hrest

theorem isContent_of_isLineText {t : Text} (h : IsLineText t) (hne : t ≠ []) (hc : dropPrefix? "%%" t = none) :
    SourceLine.IsContent t where
  tight := h.isTight hne
  lineFeed := h.lineFeed
  semicolon := endsWith_mono (fun _ hc => (Bool.and_eq_true_iff.1 hc).2) (h.endsWith hne)
  comment := hc

theorem isContent_endNote : SourceLine.IsContent "end note" := .of_ends (by decide) (by decide) (by decide)

/-- a note is attached on one line -/
theorem enacts_note_inline {scope : Option Text} {n : Note} (hn : n.IsPlain) (hm : IsMargin margin) {t : Text}
    (e : n.settled.text = t) (ht : IsLineText t) :
    Enacts scope [trimRight (margin ++ (("note " : Text) ++ n.position ++ " " ++ n.stateId ++ " : " ++ t))] [.attach n.settled] := by
  have hplain : Line.IsPlain (.note n.settled) := ⟨hn.stateId, hn.position, e ▸ ht⟩
  rw [trimRight_margin margin (by simp only [List.append_assoc]; exact startsWith_append _ (by decide)), ← e]
  exact .line hm hplain fun l p _ _ => rfl

/-- a note is attached on several lines, up to the one that closes it -/
theorem enacts_note_block {scope : Option Text} {n : Note} (hn : n.IsPlain) (hm : IsMargin margin) (ho : '\n' ∉ o.unit)
    (hlong : 1 < n.textLines.length) :
    Enacts scope ((margin ++ "note " ++ n.position ++ " " ++ n.stateId) :: n.textLines.map (margin ++ o.unit ++ ·)
      ++ [margin ++ "end note"]) [.attach n.settled] := by
  intro p hp _ _
  have hhead : margin ++ "note " ++ n.position ++ " " ++ n.stateId = margin ++ (Line.openNote n.stateId n.position).toText := by
    change _ = margin ++ ("note " ++ n.position ++ " " ++ n.stateId)
    simp only [List.append_assoc]
  have hopen : Line.IsPlain (.openNote n.stateId n.position) := ⟨hn.stateId, hn.position⟩
  rw [hhead, List.cons_append]
  refine reads_line hm hopen hp fun l => ⟨_, rfl, ?_⟩
  refine (reads_body rfl (hm.unit ho) fun t ht => ?_).append ?_
  · have hne : t ≠ [] := by simpa using (List.mem_filter.1 ht).2
    obtain ⟨hcomment, hend⟩ := hn.body hlong t ht
    exact ⟨isContent_of_isLineText (hn.line t ht) hne hcomment, hend⟩
  · refine .line hm isContent_endNote fun l' ht => ?_
    obtain ⟨assembly, composites, note⟩ := p
    obtain rfl : note = none := hp
    refine ⟨_, ?_, .nil⟩
    rw [Progress.readLine]
    dsimp only
    rw [ht]
    rfl

/-- a note is attached, on one line or on several -/
theorem enacts_note {scope : Option Text} {n : Note} (hn : n.IsPlain) (hm : IsMargin margin) (ho : '\n' ∉ o.unit) :
    Enacts scope (n.lines o margin) [.attach n.settled] := by
  have hsettled : n.settled.text = join "\n" n.textLines := rfl
  unfold Note.lines
  dsimp only
  split
  · rename_i e
    have hempty : n.settled.text = [] := by rw [hsettled, Note.textLines, e]; rfl
    have hline : Enacts scope _ _ := enacts_note_inline hn hm hempty ⟨by simp, rfl, by decide⟩
    have hcolon : (" : " : Text) = [' ', ':', ' '] := rfl
    have htrim : trimRight (margin ++ (("note " : Text) ++ n.position ++ " " ++ n.stateId ++ " : " ++ ([] : Text)))
        = margin ++ "note " ++ n.position ++ " " ++ n.stateId ++ " :" := by
      have hblank : margin ++ (("note " : Text) ++ n.position ++ " " ++ n.stateId ++ " : " ++ ([] : Text))
          = margin ++ "note " ++ n.position ++ " " ++ n.stateId ++ " :" ++ [' '] := by
        rw [hcolon]
        simp only [List.append_assoc, List.append_nil]
        rfl
      rw [hblank, trimRight_append (by decide)]
      exact trimRight_of_endsWith (endsWith_append _ (by decide))
    rw [htrim] at hline
    exact hline
  · rename_i t e
    have ht : t ∈ n.textLines := by rw [Note.textLines, e]; simp
    have hone : n.settled.text = t := by rw [hsettled, Note.textLines, e, join_singleton]
    have hne : t ≠ [] := by simpa using (List.mem_filter.1 ht).2
    have hline : Enacts scope _ _ := enacts_note_inline hn hm hone (hn.line t ht)
    have htrim : trimRight (margin ++ (("note " : Text) ++ n.position ++ " " ++ n.stateId ++ " : " ++ t))
        = margin ++ "note " ++ n.position ++ " " ++ n.stateId ++ " : " ++ t := by
      simp only [← List.append_assoc]
      exact trimRight_of_endsWith (endsWith_append _ ((hn.line t ht).isTight hne).last)
    rw [htrim] at hline
    exact hline
  · rename_i hnil hsingle
    refine enacts_note_block hn hm ho ?_
    rcases hlines : n.textLines with _ | ⟨t, _ | ⟨u, ts⟩⟩
    · exact absurd hlines hnil
    · exact absurd hlines (hsingle t)
    · simp

/-! ## States -/

@[simp] theorem id_settled (s : State) : s.settled.id = s.id := by
  unfold State.settled
  split <;> rfl

theorem Admits.place {a : Assembly} (h : Admits [.place s] a) : s.id ∉ a.declared ∧ IsProvisional a :=
  ⟨h.fresh s (by simp [placed, Deed.placed?]), h.provisional⟩

theorem update_congr {p : Progress} {f g : Assembly → Assembly} (h : f p.assembly = g p.assembly) : p.update f = p.update g :=
  congrArg (fun a => { p with assembly := a }) h

theorem enacts_declare (hs : s.IsPlain) (hk : s.kind = .plain) (hl : s.label = none) (hm : IsMargin margin) :
    Enacts s.parent [margin ++ s.id] [.place s.settled] := by
  obtain ⟨id, label, kind, parent, direction⟩ := s
  obtain rfl : kind = .plain := hk
  obtain rfl : label = none := hl
  have hplain : Line.IsPlain (.declare id) := hs.id
  refine .line hm hplain fun l p hp ha => ?_
  obtain ⟨hfresh, hprovisional⟩ := ha.place
  subst hp
  exact congrArg Except.ok (update_congr (declare_eq hfresh hprovisional))

theorem enacts_label (hs : s.IsPlain) (hk : s.kind = .plain) {t : Text} (hl : s.label = some t) (hm : IsMargin margin) :
    Enacts s.parent [trimRight (margin ++ s.id ++ " : " ++ t)] [.place s.settled] := by
  obtain ⟨ht, hid⟩ := hs.label hk t hl
  have hline : trimRight (margin ++ s.id ++ " : " ++ t) = margin ++ (Line.label s.id t).toText := by
    change _ = margin ++ trimRight (s.id ++ " : " ++ t)
    simp only [List.append_assoc]
    exact trimRight_margin margin (startsWith_append _ hs.id.isTight.first)
  rw [hline]
  obtain ⟨id, label, kind, parent, direction⟩ := s
  obtain rfl : kind = .plain := hk
  obtain rfl : label = some t := hl
  have hplain : Line.IsPlain (.label id t) := ⟨hs.id, ht, hid⟩
  refine .line hm hplain fun l p hp ha => ?_
  obtain ⟨hfresh, hprovisional⟩ := ha.place
  subst hp
  exact congrArg Except.ok (update_congr (declareAs_eq hfresh hprovisional rfl))

theorem enacts_pseudo (hs : s.IsPlain) {marker : Text} (hk : s.kind = .pseudo marker) (hm : IsMargin margin) :
    Enacts s.parent [margin ++ "state " ++ s.id ++ " <<" ++ marker ++ ">>"] [.place s.settled] := by
  obtain ⟨id, label, kind, parent, direction⟩ := s
  obtain rfl : kind = .pseudo marker := hk
  have hline : margin ++ "state " ++ id ++ " <<" ++ marker ++ ">>" = margin ++ (Line.pseudo id marker).toText := by
    change _ = margin ++ ("state " ++ id ++ " <<" ++ marker ++ ">>")
    simp only [List.append_assoc]
  dsimp only
  rw [hline]
  refine .line hm ⟨hs.id, hs.marker marker rfl⟩ fun l p hp ha => ?_
  obtain ⟨hfresh, hprovisional⟩ := ha.place
  subst hp
  exact congrArg Except.ok (update_congr (declareAs_eq hfresh hprovisional rfl))

/-- a composite state is placed before what is inside it -/
theorem enacts_composite (hs : s.IsPlain) (hk : s.kind = .composite) (hm : IsMargin margin) (ho : '\n' ∉ o.unit)
    {body : List Text} {ds : List Deed} (hbody : Enacts (some s.id) body ds) :
    Enacts s.parent
      ((margin ++ compositeHead s) :: (s.direction.map fun dir => margin ++ o.unit ++ "direction " ++ dir.toText).toList
        ++ body ++ [margin ++ "\x7d"])
      (.place s.settled :: ds) := by
  intro p hp hscope ha
  have hplace : Admits ([.place s.settled] ++ ds) p.assembly := ha
  obtain ⟨hfresh, hprovisional⟩ := hplace.append.1.place
  rw [id_settled] at hfresh
  -- inside the composite state, whatever line opened it
  have hrest : ∀ l : SourceLine,
      Reads Progress.readLine { assembly := (Deed.place s.settled).perform p.assembly, composites := (s.id, l) :: p.composites, note := p.note }
        (body ++ [margin ++ "\x7d"]) (p.update (performAll (.place s.settled :: ds))) := by
    intro l
    have hclose : Line.IsPlain .closeComposite := trivial
    exact (hbody ⟨_, (s.id, l) :: p.composites, p.note⟩ hp rfl ha.perform).append (reads_line hm hclose hp fun l' => ⟨_, rfl, .nil⟩)
  obtain ⟨id, label, kind, parent, direction⟩ := s
  obtain rfl : kind = .composite := hk
  have hplain : Line.IsPlain (.openComposite id label) := ⟨hs.id, hs.title rfl⟩
  refine reads_line hm hplain hp fun l => ⟨_, rfl, ?_⟩
  have hopen : p.openComposite l id (label.map readEntities)
      = { assembly := (Deed.place ⟨id, label.map readEntities, .composite, parent, none⟩).perform p.assembly
          composites := (id, l) :: p.composites
          note := p.note } := by
    have hlabel : (label.map readEntities <|> none) = label.map readEntities := by cases label <;> rfl
    rw [Progress.openComposite, hscope]
    dsimp only [Progress.update]
    rw [declareAs_eq hfresh hprovisional (by rfl)]
    dsimp only
    rw [hlabel]
  change Reads Progress.readLine (p.openComposite l id (label.map readEntities)) _ _
  rw [hopen]
  cases direction with
  | none => exact hrest l
  | some dir =>
    have hline : margin ++ o.unit ++ "direction " ++ dir.toText = margin ++ o.unit ++ (Line.direction dir).toText := by
      change _ = margin ++ o.unit ++ ("direction " ++ dir.toText)
      simp only [List.append_assoc]
    change Reads Progress.readLine _ ((margin ++ o.unit ++ "direction " ++ dir.toText) :: (body ++ [margin ++ "\x7d"])) _
    rw [hline]
    have hdirection : Line.IsPlain (.direction dir) := trivial
    refine reads_line (hm.unit ho) hdirection hp fun l' => ⟨_, rfl, ?_⟩
    have haltered := alterState_place (a := p.assembly) (s := ⟨id, label.map readEntities, .composite, parent, none⟩)
      (f := fun s => { s with direction := some dir }) rfl
    have hread := hrest l
    change Reads Progress.readLine ⟨(Deed.place ⟨id, label.map readEntities, .composite, parent, some dir⟩).perform p.assembly, _, _⟩ _ _ at hread
    change Reads Progress.readLine ⟨((Deed.place _).perform p.assembly).alterState id _, _, _⟩ _ _
    rw [haltered]
    exact hread

/-! ## Scopes -/

/-- **the lines of a scope** do its deeds, with the lines of the composite states inside it -/
theorem enacts_scope (hn : IsNested d) (h : IsPrintable d) (ho : '\n' ∉ o.unit) (fuel : Nat) (scope : Option Text)
    (depth : Nat) : Enacts scope (scopeLines d o fuel scope depth) (scopeDeeds d o fuel scope) := by
  induction fuel generalizing scope depth with
  | zero => exact .nil
  | succ fuel ih =>
    have hm := isMargin_levels ho depth
    rw [scopeLines, scopeDeeds]
    refine .append (.append (.flatMap fun s hs => ?_) (.map fun t ht => ?_)) ?_
    · obtain ⟨hget, rfl⟩ := (mem_scopeStates hn).1 hs
      have hplain := h.state hget
      cases hk : s.kind with
      | plain =>
        have hinner : ¬ StateKind.plain = .composite := by simp
        dsimp only
        rw [if_neg hinner, List.append_nil]
        cases hl : s.label with
        | some t =>
          rw [if_pos (by simp [isWritten, hl] : isWritten d s = true)]
          exact enacts_label hplain hk hl hm
        | none =>
          by_cases himplied : isImplied d s = true
          · rw [if_neg (by simp [isWritten, hk, hl, himplied] : ¬ isWritten d s = true)]
            dsimp only
            rw [if_pos himplied]
            exact .nil
          · rw [if_pos (by simp [isWritten, himplied] : isWritten d s = true)]
            dsimp only
            rw [if_neg himplied]
            exact enacts_declare hplain hk hl hm
      | pseudo marker =>
        have hinner : ¬ StateKind.pseudo marker = .composite := by simp
        rw [if_pos (by simp [isWritten, hk] : isWritten d s = true), if_neg hinner]
        exact enacts_pseudo hplain hk hm
      | composite =>
        rw [if_pos (by simp [isWritten, hk] : isWritten d s = true), if_pos rfl]
        exact enacts_composite hplain hk hm ho (ih (some s.id) (depth + 1))
    · obtain ⟨hmem, hscope⟩ := List.mem_filter.1 ht
      obtain ⟨source, target, label, scope'⟩ := t
      obtain rfl : scope' = scope := beq_iff_eq.1 hscope
      have hplain : Line.IsPlain (.transition source target label) := h.transition ⟨source, target, label, scope'⟩ hmem
      exact .line hm hplain fun l p hp ha => by
        change Except.ok (p.addTransition source target label) = _
        rw [Progress.addTransition, hp]
        rfl
    · rw [List.map_eq_flatMap]
      exact .flatMap fun n hn => enacts_note (h.note n (List.mem_filter.1 hn).1) hm ho

/-! ## Texts -/

/-- an accessibility text, where there is one -/
theorem enacts_accessibility {t : Option Text} (ht : ∀ v, t = some v → IsLineText v) (hm : IsMargin margin) {keyword : Text}
    {line : Text → AccessibilityLine} (hkeyword : ∀ v, accessibilityText (line v) = keyword ++ v)
    (hplain : ∀ v, v ≠ [] → IsLineText v → Line.IsPlain (.accessibility (line v))) :
    Enacts none ((present t).map (margin ++ keyword ++ ·)).toList ((present t).map fun v => Deed.describe (line v)).toList := by
  cases h : present t with
  | none => exact .nil
  | some v =>
    obtain ⟨e, hne⟩ := present_eq_some_iff.1 h
    have hline : margin ++ keyword ++ v = margin ++ (Line.accessibility (line v)).toText := by
      change _ = margin ++ accessibilityText (line v)
      rw [hkeyword, List.append_assoc]
    change Enacts none [margin ++ keyword ++ v] [Deed.describe (line v)]
    rw [hline]
    exact .line hm (hplain v hne (ht v e)) fun l p _ _ => rfl

/-- **the lines of a text** after its header do the deeds of the diagram -/
theorem enacts_page (hn : IsNested d) (h : IsPrintable d) (ho : '\n' ∉ o.unit) :
    Enacts none
      ((if d.direction = .tb then [] else [o.unit ++ "direction " ++ d.direction.toText])
        ++ d.accessibility.lines o.unit
        ++ scopeLines d o (d.states.toList.length + 1) none 1
        ++ d.classDefs.toList.map (fun x => trimRight (o.unit ++ "classDef " ++ x.1 ++ " " ++ x.2.toText))
        ++ d.classAssignments.toList.flatMap fun x => x.2.map fun name => o.unit ++ "class " ++ x.1 ++ " " ++ name)
      (pageDeeds d o) := by
  have hm : IsMargin o.unit := o.levels_one ▸ isMargin_levels ho 1
  rw [pageDeeds, Accessibility.lines, List.append_assoc _ (Option.toList _) (Option.toList _)]
  refine .append (.append (.append (.append ?_ (.append ?_ ?_)) (enacts_scope hn h ho _ none 1)) (.map fun x hx => ?_))
    (.flatMap fun x hx => .map fun name hname => ?_)
  · split
    · exact .nil
    · have hline : o.unit ++ "direction " ++ d.direction.toText = o.unit ++ (Line.direction d.direction).toText :=
        List.append_assoc _ _ _
      rw [hline]
      refine .line hm trivial fun l p hp _ => ?_
      change Except.ok (p.setDirection d.direction) = _
      rw [Progress.setDirection, hp]
      rfl
  · exact enacts_accessibility h.accTitle hm (fun _ => rfl) fun v hne hv => ⟨hne, hv⟩
  · exact enacts_accessibility h.accDescription hm (fun _ => rfl) fun v hne hv => ⟨hne, hv⟩
  · have hline : trimRight (o.unit ++ "classDef " ++ x.1 ++ " " ++ x.2.toText) = o.unit ++ (Line.classDef x.1 x.2).toText := by
      change _ = o.unit ++ trimRight ("classDef " ++ x.1 ++ " " ++ x.2.toText)
      simp only [List.append_assoc]
      exact trimRight_margin o.unit (startsWith_append _ (by decide))
    rw [hline]
    exact .line hm (h.classDef x hx) fun l p _ _ => rfl
  · have hline : o.unit ++ "class " ++ x.1 ++ " " ++ name = o.unit ++ (Line.assignClass [x.1] name).toText := by
      change _ = o.unit ++ ("class " ++ join "," [x.1] ++ " " ++ name)
      rw [join_singleton]
      simp only [List.append_assoc]
    rw [hline]
    exact .line hm (h.classAssignment x hx name hname) fun l p _ _ => rfl

/-- **reading a printed text** does the deeds of the diagram -/
theorem read_render_eq (hn : IsNested d) (h : IsPrintable d) (ho : '\n' ∉ o.unit)
    (hplaced : ((placed (pageDeeds d o)).map State.id).Nodup) :
    read (render d o) = .ok (performAll (pageDeeds d o) ⟨{}, []⟩).diagram := by
  have hreads := enacts_page hn h ho ⟨⟨{}, []⟩, [], none⟩ rfl rfl
    ⟨hplaced, by simp, fun id s hs => absurd hs (by simp)⟩
  obtain ⟨head, body, hsplit, hrun⟩ := hreads.run_ofLines (by decide : '\n' ∉ ("stateDiagram-v2" : Text))
    (by decide +kernel) (by decide +kernel : Dialect.state.header? "stateDiagram-v2" = some [])
  have hrender : splitHeader .state (sourceLines true (render d o)) = (some (head, []), body) := hsplit
  rw [read, hrender]
  dsimp only
  rw [hrun]
  rfl

end StateDiagram

end DiagramText

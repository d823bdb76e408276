/-
State diagrams that are read and can be written again. What a text says is taken over piece by piece (`IsTaken`), and that
makes a diagram printable but for a few texts that only some notations can hold: a label in quotes may have white space at
its ends, a text that ends with a semicolon loses it at the end of a line, and a marker or a place that is spelled with a
dotted capital i is no keyword in small letters. `IsLegible` leaves these out, and `isPrintable_of_read` says that nothing
else stands in the way.
-/
import DiagramText.Proofs.StateDiagram.RoundTrip
import DiagramText.Proofs.StateDiagram.WellFormed

namespace DiagramText.StateDiagram

open DiagramText.Text
open Sequence (IsLineText)

/-! ## What reading makes sure of -/

/-- a note that is read: nothing is lost of it when it is written, and a line of it does not close it -/
structure Note.IsTaken (n : Note) : Prop where
  stateId : IsId n.stateId
  settled : n.settled = n
  body : 1 < n.textLines.length → ∀ t ∈ n.textLines, dropPrefix? "%%" t = none ∧ isEndNote t = false

/-- a text that is read at the end of a line, before a semicolon perhaps -/
def IsTrimmed (t : Text) : Prop := '\n' ∉ t ∧ trim t = t

/-- what reading makes sure of -/
structure IsTaken (d : StateDiagram) : Prop where
  state : ∀ {id s}, d.states.get? id = some s → IsId id ∧ ∀ t, s.label = some t → '\n' ∉ t
  transition : ∀ t ∈ d.transitions,
    IsEndpoint t.source ∧ IsEndpoint t.target ∧ ∀ l, t.label = some l → l ≠ [] ∧ IsTrimmed l
  note : ∀ n ∈ d.notes, n.IsTaken
  accTitle : ∀ t, d.accessibility.title = some t → IsTrimmed t
  accDescription : ∀ t, d.accessibility.description = some t → IsTrimmed t
  classDef : ∀ x ∈ d.classDefs.toList, IsId x.1 ∧ x.2.IsPlain
  classAssignment : ∀ x ∈ d.classAssignments.toList, Entries.IsAssigned IsId IsId x

variable {d : StateDiagram}

/-! ### Notes -/

/-- a note on one line -/
theorem Note.isTaken_line {n : Note} (hid : IsId n.stateId) (ht : IsTrimmed n.text) : n.IsTaken := by
  have hlines : n.textLines = [n.text].filter (· ≠ []) := by
    rw [Note.textLines, splitOn_of_not_mem ht.1, List.map_singleton, ht.2]
  refine ⟨hid, ?_, fun hlong => ?_⟩
  · obtain ⟨stateId, text, position⟩ := n
    change (⟨stateId, join "\n" (Note.textLines _), position⟩ : Note) = _
    rw [hlines]
    by_cases hempty : text = []
    · subst hempty
      rfl
    · rw [List.filter_cons_of_pos (by simpa using hempty), List.filter_nil, join_singleton]
  · have hle := List.length_filter_le (· ≠ []) [n.text]
    rw [hlines] at hlong
    exact absurd hlong (not_lt_of_ge hle)

/-- a note on several lines, each of which stood on a line of its own -/
theorem Note.isTaken_lines {id position : Text} {ts : List Text} (hid : IsId id)
    (hts : ∀ t ∈ ts, SourceLine.IsLine t ∧ isEndNote t = false) : Note.IsTaken ⟨id, join "\n" ts, position⟩ := by
  have hlines : Note.textLines ⟨id, join "\n" ts, position⟩ = ts := by
    cases ts with
    | nil => rfl
    | cons t ts =>
      have hsplit : splitOn '\n' (join "\n" (t :: ts)) = t :: ts :=
        splitOn_join (by simp) fun u hu => (hts u hu).1.lineFeed
      have htrim : (t :: ts).map trim = t :: ts :=
        (List.map_congr_left fun u hu => trim_of_isTight (hts u hu).1.tight).trans (List.map_id _)
      rw [Note.textLines, hsplit, htrim]
      exact List.filter_eq_self.2 fun u hu => by simpa using (hts u hu).1.tight.ne_nil
  refine ⟨hid, ?_, fun _ t ht => ?_⟩
  · change (⟨id, join "\n" (Note.textLines _), position⟩ : Note) = _
    rw [hlines]
  · rw [hlines] at ht
    exact ⟨(hts t ht).1.comment, (hts t ht).2⟩

/-! ### States -/

namespace IsTaken

/-- a state under an id, with a label on one line if any, among those that are there -/
theorem withStates (h : d.IsTaken) {states : Entries State} (hstates : ∀ {id s}, states.get? id = some s →
    d.states.get? id = some s ∨ IsId id ∧ ∀ t, s.label = some t → '\n' ∉ t) : IsTaken { d with states := states } where
  state hs := (hstates hs).elim h.state id
  transition := h.transition
  note := h.note
  accTitle := h.accTitle
  accDescription := h.accDescription
  classDef := h.classDef
  classAssignment := h.classAssignment

variable {a : Assembly} {id : Text} {scope : Option Text}

theorem declare (h : a.diagram.IsTaken) (hid : IsId id) : (a.declare id scope).diagram.IsTaken := by
  unfold Assembly.declare
  split
  · exact h
  · refine h.withStates fun {k s} hs => ?_
    obtain ⟨rfl, rfl⟩ | ⟨-, hs⟩ := Entries.get?_insert_erase_cases hs
    · refine Or.inr ⟨hid, fun t ht => ?_⟩
      cases hget : a.diagram.states.get? k with
      | none =>
        rw [hget] at ht
        cases ht
      | some s =>
        rw [hget] at ht
        exact (h.state hget).2 t ht
    · exact Or.inl hs

/-- what is said of a state gives it a label on one line, if any -/
theorem alterState (h : a.diagram.IsTaken) {f : State → State}
    (hf : ∀ s t, (f s).label = some t → s.label = some t ∨ '\n' ∉ t) : (a.alterState id f).diagram.IsTaken := by
  unfold Assembly.alterState
  split
  · exact h
  · rename_i s hs
    refine h.withStates fun {k u} hu => ?_
    obtain ⟨rfl, rfl⟩ | hu := Entries.get?_insert_cases hu
    · exact Or.inr ⟨(h.state hs).1, fun t ht => (hf s t ht).elim ((h.state hs).2 t) fun hnone => hnone⟩
    · exact Or.inl hu

theorem declareAs (h : a.diagram.IsTaken) (hid : IsId id) {f : State → State}
    (hf : ∀ s t, (f s).label = some t → s.label = some t ∨ '\n' ∉ t) : (a.declareAs id scope f).diagram.IsTaken :=
  (h.declare hid).alterState hf

theorem reference (h : a.diagram.IsTaken) (hid : IsEndpoint id) (scope : Option Text) : (a.reference id scope).diagram.IsTaken := by
  unfold Assembly.reference
  split
  · exact h
  · rename_i hterminal
    refine h.withStates fun {k s} hs => ?_
    obtain ⟨rfl, rfl⟩ | hs := Entries.get?_insertNew_cases hs
    · exact Or.inr ⟨hid.resolve_left hterminal, nofun⟩
    · exact Or.inl hs

end IsTaken

/-! ### Lines -/

namespace Progress

/-- a diagram that has been taken over, and so have the lines of an open note -/
structure IsTaken (p : Progress) : Prop where
  diagram : p.assembly.diagram.IsTaken
  note : ∀ n, p.note = some n → IsId n.stateId ∧ ∀ t ∈ n.lines, SourceLine.IsLine t ∧ isEndNote t = false

variable {p q : Progress} {l : SourceLine} {t : Text}

/-- a label taken from a line is on one line -/
theorem lineFeed_not_mem_of_taken (ht : '\n' ∉ t) {v : Text} (hv : ∀ c ∈ v, c = '"' ∨ c ∈ t) : '\n' ∉ v :=
  fun hm => (hv _ hm).elim (by decide) ht

theorem IsTaken.apply (h : p.IsTaken) (ht : '\n' ∉ t) {line : Line} (hline : line.IsFrom t) (hq : p.apply l line = .ok q) :
    q.IsTaken := by
  have htrimmed : ∀ {v : Text}, v ⊆ t ∧ trim v = v → IsTrimmed v := fun hv => ⟨fun hm => ht (hv.1 hm), hv.2⟩
  cases line with
  | accessibility line =>
    obtain rfl := Except.ok.inj hq
    cases line with
    | title v => exact ⟨{ h.diagram with accTitle := fun w hw => Option.some.inj hw ▸ htrimmed hline }, h.note⟩
    | description v => exact ⟨{ h.diagram with accDescription := fun w hw => Option.some.inj hw ▸ htrimmed hline }, h.note⟩
  | direction dir =>
    obtain rfl := Except.ok.inj hq
    unfold setDirection
    split
    · exact ⟨h.diagram.alterState fun s u hu => Or.inl hu, h.note⟩
    · exact ⟨{ h.diagram with }, h.note⟩
  | openComposite id label =>
    obtain rfl := Except.ok.inj hq
    refine ⟨h.diagram.declareAs hline.1 fun s u hu => ?_, h.note⟩
    cases label with
    | none => exact Or.inl hu
    | some v => exact Or.inr (Option.some.inj hu ▸ lineFeed_not_mem_of_taken ht (hline.2 v rfl))
  | closeComposite =>
    rw [Progress.apply] at hq
    split at hq
    · cases hq
    · obtain rfl := Except.ok.inj hq
      exact ⟨h.diagram, h.note⟩
  | label id label =>
    obtain rfl := Except.ok.inj hq
    exact ⟨h.diagram.declareAs hline.1 fun s u hu =>
      Or.inr (Option.some.inj hu ▸ lineFeed_not_mem_of_taken ht hline.2), h.note⟩
  | pseudo id marker =>
    obtain rfl := Except.ok.inj hq
    exact ⟨h.diagram.declareAs hline.1 fun s u hu => Or.inl hu, h.note⟩
  | declare id =>
    obtain rfl := Except.ok.inj hq
    exact ⟨h.diagram.declare hline, h.note⟩
  | note n =>
    obtain rfl := Except.ok.inj hq
    refine ⟨{ h.diagram with note := List.forall_mem_append.2 ⟨h.diagram.note, List.forall_mem_singleton.2 ?_⟩ }, h.note⟩
    exact Note.isTaken_line hline.1 (htrimmed hline.2.2)
  | openNote id position =>
    obtain rfl := Except.ok.inj hq
    exact ⟨h.diagram, fun n hn => Option.some.inj hn ▸ ⟨hline.1, fun t ht => absurd ht List.not_mem_nil⟩⟩
  | classDef name style =>
    obtain rfl := Except.ok.inj hq
    obtain ⟨hname, props, hprops, rfl⟩ := hline
    refine ⟨{ h.diagram with classDef := fun x hx => ?_ }, h.note⟩
    rcases Entries.mem_put hx with rfl | hx
    · exact ⟨hname, Style.isPlain_ofText fun hm => ht (hprops hm)⟩
    · exact h.diagram.classDef x hx
  | assignClass ids name =>
    obtain rfl := Except.ok.inj hq
    refine ⟨?_, h.note⟩
    refine List.foldlRecOn (motive := fun a : Assembly => a.diagram.IsTaken) ids _ h.diagram fun a ha id hid => ?_
    exact { ha with classAssignment := Entries.isAssigned_assign ha.classAssignment (hline.1 id hid) hline.2 }
  | transition source target label =>
    obtain rfl := Except.ok.inj hq
    obtain ⟨hsource, htarget, hlabel⟩ := hline
    have hstates := (h.diagram.reference hsource p.scope).reference htarget p.scope
    refine ⟨{ hstates with transition := List.forall_mem_append.2 ⟨hstates.transition, List.forall_mem_singleton.2 ?_⟩ }, h.note⟩
    exact ⟨hsource, htarget, fun v hv => ⟨(hlabel v hv).1, htrimmed (hlabel v hv).2⟩⟩

theorem IsTaken.readLine (h : p.IsTaken) (hl : SourceLine.IsLine l.text) (hq : p.readLine l = .ok q) : q.IsTaken := by
  unfold Progress.readLine at hq
  split at hq
  · rename_i n hn
    obtain ⟨hid, hlines⟩ := h.note n hn
    split at hq
    · obtain rfl := Except.ok.inj hq
      refine ⟨{ h.diagram with note := List.forall_mem_append.2 ⟨h.diagram.note, List.forall_mem_singleton.2 ?_⟩ }, nofun⟩
      exact Note.isTaken_lines hid hlines
    · rename_i hend
      obtain rfl := Except.ok.inj hq
      refine ⟨h.diagram, fun n' hn' => ?_⟩
      obtain rfl := Option.some.inj hn'
      exact ⟨hid, List.forall_mem_append.2 ⟨hlines, List.forall_mem_singleton.2 ⟨hl, Bool.not_eq_true _ ▸ hend⟩⟩⟩
  · split at hq
    · rename_i line hline
      exact h.apply hl.lineFeed (isFrom_of_read? hline) hq
    · cases hq

end Progress

/-- **what is read has been taken over piece by piece** -/
theorem isTaken_of_read {text : Text} (h : read text = .ok d) : d.IsTaken := by
  obtain ⟨p, hrun, rfl⟩ := exists_of_read h
  have hstart : Progress.IsTaken ⟨⟨{}, []⟩, [], none⟩ := ⟨⟨nofun, nofun, nofun, nofun, nofun, nofun, nofun⟩, nofun⟩
  exact (invariant_of_foldlM (fun l hl _ _ hp hq =>
    hp.readLine (isLine_of_mem_sourceLines (body_subset .state _ hl)) hq) hstart hrun).diagram

/-! ## What reading does not make sure of -/

/-- no text of the diagram stands where its notation cannot hold it -/
structure IsLegible (d : StateDiagram) : Prop where
  label : ∀ {id s t}, d.states.get? id = some s → s.kind = .plain → s.label = some t →
    IsLineText t ∧ id ≠ "accTitle" ∧ id ≠ "accDescr"
  marker : ∀ {id s m}, d.states.get? id = some s → s.kind = .pseudo m → m ∈ (["fork", "join", "choice"] : List Text)
  place : ∀ n ∈ d.notes, n.position ∈ (["left of", "right of"] : List Text)
  note : ∀ n ∈ d.notes, ∀ t ∈ n.textLines, ¬ endsWith (· = ';') t = true
  transition : ∀ t ∈ d.transitions, ∀ l, t.label = some l → ¬ endsWith (· = ';') l = true
  accTitle : ∀ t, d.accessibility.title = some t → ¬ endsWith (· = ';') t = true
  accDescription : ∀ t, d.accessibility.description = some t → ¬ endsWith (· = ';') t = true
  style : ∀ x ∈ d.classDefs.toList, ¬ endsWith (· = ';') x.2.toText = true

theorem isPlace_of_mem {m : Text} (h : m ∈ (["left of", "right of"] : List Text)) : IsPlace m := by
  intro rest
  simp only [List.mem_cons, List.not_mem_nil, or_false] at h
  rcases h with rfl | rfl <;> rfl

theorem isTrimmed_of_mem_textLines {n : Note} {t : Text} (h : t ∈ n.textLines) : IsTrimmed t := by
  obtain ⟨piece, hpiece, rfl⟩ := List.mem_map.1 (List.mem_of_mem_filter h)
  exact ⟨fun hm => not_mem_of_mem_splitOn hpiece (mem_of_mem_trim hm), trim_trim piece⟩

theorem IsTrimmed.isLineText {t : Text} (h : IsTrimmed t) (hs : ¬ endsWith (· = ';') t = true) : IsLineText t := ⟨h.1, h.2, hs⟩

/-- **a diagram that is read can be written**, unless a text of it stands where its notation cannot hold it -/
theorem isPrintable_of_read {text : Text} (h : read text = .ok d) (hl : d.IsLegible) : IsPrintable d := by
  have ht := isTaken_of_read h
  have hnested := isNested_of_read h
  constructor
  · intro id s hs
    obtain ⟨hid, hlabel⟩ := ht.state hs
    obtain rfl := hnested.byId hs
    exact {
      id := hid
      marker := fun m hm => isMarker_of_mem (hl.marker hs hm)
      title := fun _ t => hlabel t
      label := fun hk t => hl.label hs hk }
  · intro t hmem
    obtain ⟨hsource, htarget, hlabel⟩ := ht.transition t hmem
    exact ⟨hsource, htarget, fun v hv => ⟨(hlabel v hv).1, (hlabel v hv).2.isLineText (hl.transition t hmem v hv)⟩⟩
  · intro n hn
    exact {
      stateId := (ht.note n hn).stateId
      position := isPlace_of_mem (hl.place n hn)
      line := fun t hmem => (isTrimmed_of_mem_textLines hmem).isLineText (hl.note n hn t hmem)
      body := (ht.note n hn).body }
  · exact fun t e => (ht.accTitle t e).isLineText (hl.accTitle t e)
  · exact fun t e => (ht.accDescription t e).isLineText (hl.accDescription t e)
  · exact fun x hx => ⟨(ht.classDef x hx).1, (ht.classDef x hx).2, hl.style x hx⟩
  · intro x hx name hname
    have hassigned := ht.classAssignment x hx
    exact ⟨⟨x.1, rfl, hassigned.key⟩, hassigned.member name hname⟩

end DiagramText.StateDiagram

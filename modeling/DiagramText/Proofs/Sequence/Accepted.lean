/-
Printed sequence diagrams are accepted, though not always as the diagram that was printed: the arrow `-x` may be taken into
the name of its source, and of two marks one is written. So nothing is said here of the actors and statements that the reader
has collected. Its `Place` is what decides whether a line is accepted, namely the blocks that are open and whether a box is,
with the captions that it has read, and `Leads` says that lines lead from one place to another. `leads_statement` is the
simulation, by induction on the statement, and `exists_read_render_of_isLegible` puts the page together, boxes included: the
captions are those of the diagram, but for a title that begins with a colon. What calls on a builder must keep to is
`Call.IsLegible`; two counterexamples show what the calls alone do not ensure.
-/
import DiagramText.Proofs.Reading
import DiagramText.Proofs.Sequence.Builder
import DiagramText.Proofs.Sequence.RoundTrip

namespace DiagramText.Sequence

open DiagramText.Text

/-! ## Legible diagrams -/

/-- numbering that can be written: natural numbers within the limit of digits, as far as they are written -/
structure Autonumber.IsLegible (a : Autonumber) : Prop where
  start : a.enabled = true → ∀ n, a.start = some n → IsCount n
  step : a.enabled = true → a.start ≠ none → ∀ n, a.step = some n → IsCount n

mutual

/-- a statement whose parts fit the grammar -/
def Statement.IsLegible : Statement → Prop
  | .message m => m.IsLegible
  | .note n => n.IsLegible
  | .activation id _ => Scan.isName isActorChar id = true
  | .autonumber a => a.IsLegible
  | .block _ label body => IsLineText label ∧ AllLegible body
  | .sectioned _ sections => sections ≠ [] ∧ SectionsLegible sections

/-- statements whose parts fit the grammar -/
def AllLegible : List Statement → Prop
  | [] => True
  | s :: rest => s.IsLegible ∧ AllLegible rest

/-- sections whose parts fit the grammar -/
def SectionsLegible : List (Text × List Statement) → Prop
  | [] => True
  | (label, body) :: rest => IsLineText label ∧ AllLegible body ∧ SectionsLegible rest

end

/-- a box whose parts fit the grammar; what is missing is as good as empty -/
structure Box.IsLegible (b : Box) : Prop where
  label : IsLineText (b.label.getD [])
  color : IsLineText (b.color.getD [])
  names : ∀ id ∈ b.actorIds, Scan.isName isActorChar id = true

/-- a diagram whose parts fit the grammar -/
structure IsLegible (d : Sequence) : Prop where
  title : ∀ t, d.title = some t → IsLineText t
  accTitle : ∀ t, d.accessibility.title = some t → IsLineText t
  accDescription : ∀ t, d.accessibility.description = some t → IsLineText t
  actors : ∀ a ∈ d.actors.values, a.IsPlain
  boxes : ∀ b ∈ d.boxes, b.IsLegible
  statements : AllLegible d.statements

/-! ## Places -/

/-- what is said about a diagram as a whole -/
def captions (d : Sequence) : Captions := ⟨d.title, d.accessibility⟩

/-- where in a diagram a line stands: the blocks that are open, the innermost first, whether a box is, and the captions that
were read before it -/
structure Place where
  openings : List Opening
  isBoxed : Bool
  captions : Captions

/-- outside of boxes -/
abbrev Place.inside (c : Captions) (os : List Opening) : Place := ⟨os, false, c⟩

/-- where the next line stands -/
def Progress.place (p : Progress) : Place := ⟨p.frames.map Frame.opening, p.box.isSome, p.diagram.captions⟩

variable {c : Captions}

section

variable {p : Progress} {os : List Opening}

@[simp] theorem place_emit (s : Statement) : (p.emit s).place = p.place := by
  unfold Progress.emit
  split
  · rfl
  · rename_i f fs hf
    simp [Progress.place, hf]

@[simp] theorem place_ensureActor (id : Text) : (p.ensureActor id).place = p.place := rfl

@[simp] theorem place_declare (a : Actor) : (p.declare a).place = p.place := by
  simp [Progress.declare, Progress.place, captions]

theorem place_foldl_ensureActor (ids : List Text) : (ids.foldl (fun p id => p.ensureActor id) p).place = p.place := by
  induction ids generalizing p with
  | nil => rfl
  | cons id ids ih => rw [List.foldl_cons, ih, place_ensureActor]

theorem box_eq_none (h : p.place = .inside c os) : p.box = none :=
  Option.not_isSome_iff_eq_none.1 (by simp [(Place.mk.inj h).2.1])

end

/-- printed lines are accepted, and lead from one place to another -/
structure Leads (a : Place) (raws : List Text) (b : Place) : Prop where
  lineFeed : ∀ raw ∈ raws, '\n' ∉ raw
  run : ∀ {p : Progress}, p.place = a → ∀ ls : List SourceLine,
    ls.map SourceLine.text = raws.filterMap (SourceLine.content? true) → ∃ q, ls.foldlM Progress.readLine p = .ok q ∧ q.place = b

namespace Leads

variable {a b c : Place} {raws raws' : List Text}

theorem nil (a : Place) : Leads a [] a where
  lineFeed := nofun
  run {p} hp ls hls := by
    rw [List.map_eq_nil_iff.1 hls]
    exact ⟨p, rfl, hp⟩

theorem append (h : Leads a raws b) (h' : Leads b raws' c) : Leads a (raws ++ raws') c where
  lineFeed := List.forall_mem_append.2 ⟨h.lineFeed, h'.lineFeed⟩
  run {p} hp ls hls := by
    rw [List.filterMap_append] at hls
    obtain ⟨as, bs, rfl, ha, hb⟩ := List.map_eq_append_iff.1 hls
    obtain ⟨q, hq, hplace⟩ := h.run hp as ha
    obtain ⟨r, hr, hplace⟩ := h'.run hplace bs hb
    refine ⟨r, ?_, hplace⟩
    rw [List.foldlM_append, hq]
    exact hr

/-- lines that lead nowhere else, item by item -/
theorem flatMap {α : Type} {xs : List α} {f : α → List Text} (h : ∀ x ∈ xs, Leads a (f x) a) : Leads a (xs.flatMap f) a := by
  induction xs with
  | nil => exact nil a
  | cons x xs ih =>
    rw [List.flatMap_cons]
    exact (h x List.mem_cons_self).append (ih fun y hy => h y (List.mem_cons_of_mem x hy))

theorem map {α : Type} {xs : List α} {f : α → Text} (h : ∀ x ∈ xs, Leads a [f x] a) : Leads a (xs.map f) a := by
  rw [List.map_eq_flatMap]
  exact flatMap h

/-- a line in its margin -/
theorem line {o : RenderOptions} (ho : '\n' ∉ o.unit) (depth : Nat) {line : Line} (hline : SourceLine.IsContent line.toText)
    (h : ∀ {p : Progress} {l : SourceLine}, p.place = a → l.text = line.toText → ∃ q, p.readLine l = .ok q ∧ q.place = b) :
    Leads a [marginLine o (depth, line)] b where
  lineFeed := by
    rw [List.forall_mem_singleton, marginLine, List.mem_append, not_or]
    exact ⟨RenderOptions.lineFeed_not_mem_levels ho depth, hline.lineFeed⟩
  run {p} hp ls hls := by
    rw [List.filterMap_cons, marginLine, SourceLine.content?_margin true (o.all_isBlank_levels depth) hline] at hls
    obtain ⟨l, rfl, hl⟩ := List.map_eq_singleton_iff.1 hls
    obtain ⟨q, hq, hplace⟩ := h hp hl
    refine ⟨q, ?_, hplace⟩
    rw [List.foldlM_cons, hq]
    rfl

end Leads

/-! ## Lines -/

section

variable {o : RenderOptions} (ho : '\n' ∉ o.unit) {os : List Opening} {a b : Place} (depth : Nat)
include ho

/-- outside of boxes -/
theorem leads_plain (line : Line) (hline : line.IsPlain) (hactor : ∀ x, line ≠ .actor x)
    (h : ∀ {p : Progress} (l : SourceLine), p.place = .inside c os → ∃ q, p.apply l line = .ok q ∧ q.place = b) :
    Leads (.inside c os) [marginLine o (depth, line)] b := by
  refine .line ho depth (isContent_toText hline) ?_
  intro p l hp ht
  rw [readLine_toText line hline hactor (box_eq_none hp) ht]
  exact h l hp

/-- actors are declared anywhere -/
theorem leads_actor {x : Actor} (hx : x.IsPlain) : Leads a [marginLine o (depth, .actor x)] a := by
  refine .line ho depth (isContent_actor hx) ?_
  intro p l hp ht
  have htext : l.text = x.toText := ht
  rw [Progress.readLine, htext, actor?_toText hx]
  exact ⟨_, rfl, (place_declare x).trans hp⟩

theorem leads_message {m : Message} (hm : m.IsLegible) : Leads (.inside c os) [marginLine o (depth, .message m)] (.inside c os) := by
  refine .line ho depth (isContent_message hm) ?_
  intro p l hp ht
  have htext : l.text = m.toText := ht
  obtain ⟨hactor, hread⟩ := read?_message_eq hm
  obtain ⟨m', hm'⟩ := exists_message?_toText hm.isSpelled
  rw [Progress.readLine, htext, hactor, box_eq_none hp, hread, hm', Option.map_some]
  exact ⟨_, rfl, by simp [hp]⟩

theorem leads_note {n : Note} (hn : n.IsLegible) : Leads (.inside c os) [marginLine o (depth, .note n)] (.inside c os) := by
  refine .line ho depth (isContent_note hn) ?_
  intro p l hp ht
  obtain ⟨hactor, hread⟩ := read?_note hn
  rw [Progress.readLine, ht, hactor, box_eq_none hp, hread]
  dsimp only
  rw [Progress.apply, addNote_of_isLegible hn]
  exact ⟨_, rfl, by rw [place_emit, place_foldl_ensureActor, hp]⟩

theorem leads_autonumber {x : Autonumber} (hx : x.IsLegible) :
    Leads (.inside c os) [marginLine o (depth, x.line)] (.inside c os) := by
  cases henabled : x.enabled with
  | false =>
    rw [Autonumber.line, henabled, if_neg Bool.false_ne_true]
    exact leads_plain ho depth .autonumberOff trivial (by simp) fun {p} l hp => ⟨_, rfl, by simp [hp]⟩
  | true =>
    have hstep : ∀ n, (if x.start.isSome then x.step else none) = some n → x.start ≠ none ∧ IsCount n := by
      intro n hn
      rw [Option.ite_none_right_eq_some] at hn
      have hsome := Option.isSome_iff_ne_none.1 hn.1
      exact ⟨hsome, hx.step henabled hsome n hn.2⟩
    have hline : x.line = .autonumber (x.start.map ofInt) ((if x.start.isSome then x.step else none).map ofInt) := by
      rw [Autonumber.line, henabled, if_pos rfl]
      split <;> rfl
    have hplain : x.line.IsPlain := by
      rw [hline]
      refine ⟨fun t ht => ?_, fun t ht => ?_⟩
      · obtain ⟨n, hn, rfl⟩ := Option.map_eq_some_iff.1 ht
        exact isDigits_ofInt (hx.start henabled n hn).1
      · obtain ⟨n, hn, rfl⟩ := Option.map_eq_some_iff.1 ht
        exact ⟨isDigits_ofInt (hstep n hn).2.1, Option.map_eq_none_iff.not.2 (hstep n hn).1⟩
    refine leads_plain ho depth x.line hplain (by simp [hline]) ?_
    intro p l hp
    rw [hline, Progress.apply, mapM_number (hx.start henabled), mapM_number fun n hn => (hstep n hn).2]
    exact ⟨_, rfl, by simp [hp]⟩

theorem leads_openBlock (opening : Opening) {label : Text} (hlabel : IsLineText label) :
    Leads (.inside c os) [marginLine o (depth, .openBlock opening label)] (.inside c (opening :: os)) := by
  refine leads_plain ho depth (.openBlock opening label) hlabel (by simp) ?_
  intro p l hp
  refine ⟨_, rfl, ?_⟩
  rw [Progress.place] at hp ⊢
  simp [Place.mk.inj hp]

theorem leads_divide (kind : SectionedKind) {label : Text} (hlabel : IsLineText label) :
    Leads (.inside c (.sectioned kind :: os)) [marginLine o (depth, .divide kind.divider label)]
      (.inside c (.sectioned kind :: os)) := by
  refine leads_plain ho depth (.divide kind.divider label) ⟨⟨kind, rfl⟩, hlabel⟩ (by simp) ?_
  intro p l hp
  obtain ⟨hframes, hbox, hcaptions⟩ := Place.mk.inj hp
  obtain ⟨f, fs, hf, hopening, hfs⟩ := List.map_eq_cons_iff.1 hframes
  rw [Progress.apply, divide_of_sectioned hf hopening]
  exact ⟨_, rfl, by simp [Progress.place, hopening, hfs, hbox, hcaptions]⟩

theorem leads_close (opening : Opening) : Leads (.inside c (opening :: os)) [marginLine o (depth, .close)] (.inside c os) := by
  refine leads_plain ho depth .close trivial (by simp) ?_
  intro p l hp
  obtain ⟨hframes, hbox, hcaptions⟩ := Place.mk.inj hp
  obtain ⟨f, fs, hf, -, hfs⟩ := List.map_eq_cons_iff.1 hframes
  rw [Progress.apply, Progress.close, hf]
  refine ⟨_, rfl, (place_emit _).trans ?_⟩
  simp [Progress.place, hfs, hbox, hcaptions]

end

/-! ## Statements -/

mutual

/-- the lines of a statement leave the open blocks as they are -/
theorem leads_statement {o : RenderOptions} (ho : '\n' ∉ o.unit) {os : List Opening} (depth : Nat) : (s : Statement) → s.IsLegible →
    Leads (.inside c os) ((script depth s).map (marginLine o)) (.inside c os)
  | .message m, h => by
    rw [Statement.IsLegible] at h
    rw [script, List.map_singleton]
    exact leads_message ho depth h
  | .note n, h => by
    rw [Statement.IsLegible] at h
    rw [script, List.map_singleton]
    exact leads_note ho depth h
  | .activation id active, h => by
    rw [Statement.IsLegible] at h
    rw [script, List.map_singleton]
    exact leads_plain ho depth (.activation id active) h (by simp) fun {p} l hp => ⟨_, rfl, by simp [hp]⟩
  | .autonumber a, h => by
    rw [Statement.IsLegible] at h
    rw [script, List.map_singleton]
    exact leads_autonumber ho depth h
  | .block kind label body, h => by
    rw [Statement.IsLegible] at h
    rw [script, List.map_append, List.map_cons, List.map_singleton]
    exact ((leads_openBlock ho depth (.block kind) h.1).append (leads_statements ho (depth + 1) body h.2)).append
      (leads_close ho depth (.block kind))
  | .sectioned kind [], h => by
    rw [Statement.IsLegible] at h
    exact absurd rfl h.1
  | .sectioned kind ((label, body) :: rest), h => by
    rw [Statement.IsLegible, SectionsLegible] at h
    rw [script, sectionsScript, List.map_append, List.map_append, List.map_cons, List.map_singleton]
    exact (((leads_openBlock ho depth (.sectioned kind) h.2.1).append (leads_statements ho (depth + 1) body h.2.2.1)).append
      (leads_sections ho depth kind rest h.2.2.2)).append (leads_close ho depth (.sectioned kind))

/-- the lines of statements one after another -/
theorem leads_statements {o : RenderOptions} (ho : '\n' ∉ o.unit) {os : List Opening} (depth : Nat) : (ss : List Statement) → AllLegible ss →
    Leads (.inside c os) ((scriptAll depth ss).map (marginLine o)) (.inside c os)
  | [], _ => by
    rw [scriptAll]
    exact .nil _
  | s :: rest, h => by
    rw [AllLegible] at h
    rw [scriptAll, List.map_append]
    exact (leads_statement ho depth s h.1).append (leads_statements ho depth rest h.2)

/-- the lines of further sections -/
theorem leads_sections {o : RenderOptions} (ho : '\n' ∉ o.unit) {os : List Opening} (depth : Nat) (kind : SectionedKind) :
    (sections : List (Text × List Statement)) → SectionsLegible sections →
      Leads (.inside c (.sectioned kind :: os)) ((sectionsScript depth kind false sections).map (marginLine o))
        (.inside c (.sectioned kind :: os))
  | [], _ => by
    rw [sectionsScript]
    exact .nil _
  | (label, body) :: rest, h => by
    rw [SectionsLegible] at h
    rw [sectionsScript, List.map_append, List.map_cons]
    exact ((leads_divide ho depth kind h.1).append (leads_statements ho (depth + 1) body h.2.1)).append
      (leads_sections ho depth kind rest h.2.2)

end

/-! ## Boxes -/

theorem isLineText_of_isName {id : Text} (h : Scan.isName isActorChar id = true) : IsLineText id where
  lineFeed := lineFeed_not_mem_actor h
  trimmed := by
    refine trim_of_isTight ⟨startsWith_mono (fun _ => isMark_of_isActorChar) (startsWith_actor h), ?_⟩
    exact endsWith_mono (fun c hc => (Bool.and_eq_true_iff.1 hc).1) (endsWith_actor h)
  semicolon := not_endsWith_of_not_mem fun hm => absurd (List.all_eq_true.1 (all_of_isActorName h) _ hm) (by decide)

/-- an actor who shows the id -/
theorem isPlain_of_isName {id : Text} (h : Scan.isName isActorChar id = true) (kind : ActorKind) :
    Actor.IsPlain ⟨id, id, kind⟩ := ⟨h, isLineText_of_isName h, ne_nil_of_isName h⟩

theorem Box.head_eq (b : Box) :
    b.head = "box" ++ (afterKeyword (b.color.getD []) ++ afterKeyword (b.label.getD [])) := by
  have hpresent : ∀ t : Option Text, present t = if t.getD [] = [] then none else some (t.getD []) := by
    rintro (_ | _ | ⟨c, t⟩) <;> rfl
  rw [Box.head, hpresent, hpresent, afterKeyword, afterKeyword]
  split <;> split <;> simp [join]

/-- whatever follows the keyword, it opens a box -/
theorem read?_openBox (b : Box) : actor? b.head = none ∧
    ∃ label color, Line.read? b.head = some (.openBox label color) := by
  obtain ⟨r, hr, hrest⟩ : ∃ r, b.head = "box" ++ r ∧ (r = [] ∨ ∃ r', r = ' ' :: r') := by
    refine ⟨_, b.head_eq, ?_⟩
    rcases afterKeyword_eq (b.color.getD []) with h | ⟨r', h⟩ <;> rw [h]
    · exact afterKeyword_eq _
    · exact Or.inr ⟨_, rfl⟩
  have hoptional : ∃ t, Scan.optionalRest? r = some t := by
    rcases hrest with rfl | ⟨r', rfl⟩
    · exact ⟨_, rfl⟩
    · exact ⟨Scan.blanks r', rfl⟩
  obtain ⟨t, ht⟩ := hoptional
  rw [hr]
  have hnone : actor? ("box" ++ r) = none ∧ Accessibility.line? ("box" ++ r) = none ∧ title? ("box" ++ r) = none :=
    ⟨actor?_eq_none rfl rfl, line?_eq_none rfl, title?_eq_none rfl⟩
  refine ⟨hnone.1, (boxHeader t).1, (boxHeader t).2, ?_⟩
  rw [Line.read?, hnone.2.1, hnone.2.2, dropPrefix?_append, Option.bind_some, ht]
  rfl

theorem isContent_openBox {b : Box} (hlabel : IsLineText (b.label.getD [])) (hcolor : IsLineText (b.color.getD [])) :
    SourceLine.IsContent b.head := by
  rw [b.head_eq]
  refine SourceLine.IsContent.keyword (by decide) (by decide) ?_ ?_
  · rw [← List.append_assoc]
    exact endsWith_afterKeyword (endsWith_afterKeyword (by decide) hcolor) hlabel
  · rw [List.mem_append, not_or]
    exact ⟨lineFeed_not_mem_afterKeyword hcolor, lineFeed_not_mem_afterKeyword hlabel⟩

theorem leads_box {o : RenderOptions} (ho : '\n' ∉ o.unit) {d : Sequence} (hactors : ∀ a ∈ d.actors.values, a.IsPlain)
    {b : Box} (h : b.IsLegible) : Leads (.inside c []) (boxLines d o b) (.inside c []) := by
  have hopen : Leads (.inside c []) [marginLine o (1, .openBox b.label b.color)] ⟨[], true, c⟩ := by
    refine .line ho 1 (isContent_openBox (b := ⟨b.label, b.color, []⟩) h.label h.color) ?_
    intro p l hp ht
    have htext : l.text = b.head := ht
    obtain ⟨hactor, label, color, hread⟩ := read?_openBox b
    obtain ⟨hopenings, -, hcaptions⟩ := Place.mk.inj hp
    have hframes : p.frames = [] := List.map_eq_nil_iff.1 hopenings
    rw [Progress.readLine, htext, hactor, box_eq_none hp, hread]
    dsimp only
    rw [Progress.apply, if_pos hframes]
    exact ⟨_, rfl, by simp [Progress.place, hframes, hcaptions]⟩
  have hclose : Leads ⟨[], true, c⟩ [marginLine o (1, .close)] (.inside c []) := by
    refine .line ho 1 (.of_ends (by decide) (by decide) (by decide)) ?_
    intro p l hp ht
    have htext : l.text = "end" := ht
    obtain ⟨hframes, hbox, hcaptions⟩ := Place.mk.inj hp
    obtain ⟨x, hx⟩ := Option.isSome_iff_exists.1 hbox
    have hactor : actor? "end" = none := rfl
    rw [Progress.readLine, htext, hactor, hx]
    exact ⟨_, rfl, by rw [← hcaptions]; simp [Progress.place, Progress.closeBox, hframes, captions]⟩
  have hbody : Leads ⟨[], true, c⟩ (b.actorIds.map fun id =>
      o.levels 2 ++ ((d.actors.get? id).getD ⟨id, id, .participant⟩).toText) ⟨[], true, c⟩ := by
    refine .map fun id hid => leads_actor ho 2 ?_
    cases hget : d.actors.get? id with
    | some a => exact hactors a (Entries.mem_values_iff.2 ⟨id, hget⟩)
    | none => exact isPlain_of_isName (h.names id hid) _
  have hlines := (hopen.append hbody).append hclose
  rw [marginLine, marginLine, o.levels_one] at hlines
  exact hlines

/-! ## Pages -/

section

variable {d : Sequence} (h : d.IsLegible) {o : RenderOptions} (ho : '\n' ∉ o.unit)
include h ho

/-- the line of the title sets the title that is shown -/
theorem leads_title : Leads (.inside {} []) ((present d.title).map (o.unit ++ "title " ++ ·)).toList
    (.inside ⟨(present d.title).map shownTitle, {}⟩ []) := by
  cases ht : present d.title with
  | none => exact .nil _
  | some t =>
    obtain ⟨htitle, hne⟩ := present_eq_some_iff.1 ht
    have hl := h.title t htitle
    have hleads : Leads (.inside {} []) [marginLine o (1, .title t)] (.inside ⟨some (shownTitle t), {}⟩ []) := by
      refine .line ho 1 (isContent_title hl hne) ?_
      intro p l hp htext
      have htext : l.text = "title" ++ ' ' :: t := htext
      obtain ⟨hactor, hread⟩ := read?_title hl hne
      rw [Progress.readLine, htext, hactor, box_eq_none hp, hread]
      obtain ⟨hframes, hbox, hcaptions⟩ := Place.mk.inj hp
      refine ⟨_, rfl, ?_⟩
      rw [Progress.place, hframes, hbox, captions, (Captions.mk.inj hcaptions).2]
    rw [marginLine, o.levels_one] at hleads
    rw [Option.map_some, Option.toList_some, List.append_assoc]
    exact hleads

omit h in
/-- lines of accessibility texts are put one after the other -/
theorem leads_put {title : Option Text} {lines : List AccessibilityLine} (hlines : ∀ x ∈ lines, Line.IsPlain (.accessibility x))
    (a : Accessibility) : Leads (.inside ⟨title, a⟩ []) (lines.map (o.unit ++ accessibilityText ·))
      (.inside ⟨title, lines.foldl Accessibility.put a⟩ []) := by
  induction lines generalizing a with
  | nil => exact .nil _
  | cons x lines ih =>
    obtain ⟨hx, hlines⟩ := List.forall_mem_cons.1 hlines
    have hleads : Leads (.inside ⟨title, a⟩ []) [marginLine o (1, .accessibility x)] (.inside ⟨title, a.put x⟩ []) := by
      refine leads_plain ho 1 (.accessibility x) hx (by simp) ?_
      intro p l hp
      obtain ⟨hframes, hbox, hcaptions⟩ := Place.mk.inj hp
      obtain ⟨htitle, haccessibility⟩ := Captions.mk.inj hcaptions
      refine ⟨_, rfl, ?_⟩
      rw [Progress.place, hframes, hbox, captions, htitle, haccessibility]
    rw [marginLine, o.levels_one] at hleads
    exact hleads.append (ih hlines (a.put x))

theorem leads_accessibility {title : Option Text} :
    Leads (.inside ⟨title, {}⟩ []) (d.accessibility.lines o.unit) (.inside ⟨title, d.accessibility.settled⟩ []) := by
  rw [Accessibility.lines_eq, ← Accessibility.foldl_put_written]
  refine leads_put ho (fun line hline => ?_) {}
  simp only [Accessibility.written, List.mem_append, Option.mem_toList, Option.map_eq_some_iff, present_eq_some_iff] at hline
  rcases hline with ⟨t, ht, rfl⟩ | ⟨t, ht, rfl⟩
  · exact ⟨h.accTitle t ht.1, ht.2⟩
  · exact ⟨h.accDescription t ht.1, ht.2⟩

theorem leads_freeActors : Leads (.inside c []) ((freeActors d o).map fun a => o.unit ++ a.toText) (.inside c []) := by
  refine .map fun a ha => ?_
  have hmem : a ∈ d.actors.values := by
    unfold freeActors at ha
    dsimp only at ha
    split at ha
    · exact (List.mem_filter.1 (List.mem_mergeSort.1 ha)).1
    · exact (List.mem_filter.1 ha).1
  have hleads := leads_actor (a := .inside c []) ho 1 (h.actors a hmem)
  rwa [marginLine, o.levels_one] at hleads

/-- **a legible diagram is printed as an accepted text**, whatever the options, and its captions are read from it -/
theorem exists_read_render_of_isLegible :
    ∃ d', read (render d o) = .ok d' ∧ d'.captions = ⟨(present d.title).map shownTitle, d.accessibility.settled⟩ := by
  have hboxes : ∀ c, Leads (.inside c []) (d.boxes.flatMap (boxLines d o)) (.inside c []) :=
    fun c => .flatMap fun b hb => leads_box ho h.actors (h.boxes b hb)
  have hstatements : ∀ c, Leads (.inside c []) ((scriptAll 1 d.statements).map (marginLine o)) (.inside c []) :=
    fun c => leads_statements ho 1 d.statements h.statements
  rw [← statementsLines_eq] at hstatements
  have hpage := ((((leads_title h ho).append (leads_accessibility h ho)).append (hboxes _)).append (leads_freeActors h ho)).append
    (hstatements _)
  obtain ⟨head, hsplit⟩ := @splitHeader_ofLines .sequence true ("sequenceDiagram" : Text) [] _
    (by decide) (by decide +kernel) (by decide +kernel) hpage.lineFeed
  obtain ⟨p, hp, hplace⟩ := hpage.run (p := ⟨{}, [], none⟩) rfl _ (SourceLine.map_text_ofRaws true 2 _)
  have hframes : p.frames = [] := List.map_eq_nil_iff.1 (Place.mk.inj hplace).1
  refine ⟨p.diagram, ?_, (Place.mk.inj hplace).2.2⟩
  rw [render, read, List.cons_append, List.cons_append, List.cons_append, List.cons_append, hsplit]
  dsimp only
  rw [hp]
  change (p.finish).mapError ReadError.malformed = _
  rw [Progress.finish, box_eq_none hplace, hframes]
  rfl

end

/-! ## Diagrams that are built -/

/-- a declaration whose parts fit the grammar -/
structure Declaration.IsLegible (a : Declaration) : Prop where
  id : Scan.isName isActorChar a.id = true
  label : ∀ t, a.label = some t → IsLineText t ∧ t ≠ []

mutual

/-- a call whose parts fit the grammar -/
def StatementCall.IsLegible : StatementCall → Prop
  | .message m => m.IsLegible
  | .note n => n.IsLegible
  | .activation id _ => Scan.isName isActorChar id = true
  | .autonumber a => a.IsLegible
  | .block _ label body => IsLineText label ∧ CallsLegible body
  | .sectioned _ sections => CallSectionsLegible sections

/-- calls whose parts fit the grammar -/
def CallsLegible : List StatementCall → Prop
  | [] => True
  | c :: cs => c.IsLegible ∧ CallsLegible cs

/-- sections of calls whose parts fit the grammar -/
def CallSectionsLegible : List (Text × List StatementCall) → Prop
  | [] => True
  | (label, body) :: rest => IsLineText label ∧ CallsLegible body ∧ CallSectionsLegible rest

end

/-- a call whose parts fit the grammar -/
def Call.IsLegible : Call → Prop
  | .statement c => c.IsLegible
  | .declare a => a.IsLegible
  | .box label color body => IsLineText (label.getD []) ∧ IsLineText (color.getD []) ∧ ∀ a ∈ body, a.IsLegible
  | .title t => IsLineText t
  | .describe line => IsLineText line.value

mutual

theorem StatementCall.isLegible_run (log : List Reference) : (c : StatementCall) → c.IsLegible → (s : Statement) →
    (c.run log).2 = .ok s → s.IsLegible
  | .message m, h, s, hs | .note m, h, s, hs | .autonumber m, h, s, hs => by
    rw [StatementCall.IsLegible] at h
    rw [StatementCall.run] at hs
    obtain rfl := Except.ok.inj hs
    rwa [Statement.IsLegible]
  | .activation k active, h, s, hs => by
    rw [StatementCall.IsLegible] at h
    rw [StatementCall.run] at hs
    obtain rfl := Except.ok.inj hs
    rwa [Statement.IsLegible]
  | .block kind label body, h, s, hs => by
    rw [StatementCall.IsLegible] at h
    rw [StatementCall.run] at hs
    obtain ⟨statements, hbody, rfl⟩ := exceptMap_eq_ok_iff.1 hs
    rw [Statement.IsLegible]
    exact ⟨h.1, allLegible_runAll log body h.2 _ hbody⟩
  | .sectioned kind sections, h, s, hs => by
    rw [StatementCall.IsLegible] at h
    rw [StatementCall.run] at hs
    split at hs
    · exact absurd hs nofun
    · rename_i hne
      obtain ⟨filled, hsections, rfl⟩ := exceptMap_eq_ok_iff.1 hs
      obtain ⟨hlegible, hlength⟩ := sectionsLegible_runSections log sections h _ hsections
      rw [Statement.IsLegible]
      refine ⟨?_, hlegible⟩
      rintro rfl
      exact hne (List.isEmpty_iff_length_eq_zero.2 hlength.symm)

theorem allLegible_runAll (log : List Reference) : (cs : List StatementCall) → CallsLegible cs → (ss : List Statement) →
    (runAll log cs).2 = .ok ss → AllLegible ss
  | [], _, ss, hs => by
    rw [runAll] at hs
    obtain rfl := Except.ok.inj hs
    rw [AllLegible]
    trivial
  | c :: cs, h, ss, hs => by
    rw [CallsLegible] at h
    have hc := StatementCall.isLegible_run log c h.1
    rw [runAll] at hs
    generalize c.run log = result at hc hs
    obtain ⟨l, e | s⟩ := result
    · exact absurd hs nofun
    · obtain ⟨rest, hrest, rfl⟩ := exceptMap_eq_ok_iff.1 hs
      rw [AllLegible]
      exact ⟨hc _ rfl, allLegible_runAll l cs h.2 _ hrest⟩

theorem sectionsLegible_runSections (log : List Reference) : (sections : List (Text × List StatementCall)) →
    CallSectionsLegible sections → (filled : List (Text × List Statement)) → (runSections log sections).2 = .ok filled →
      SectionsLegible filled ∧ filled.length = sections.length
  | [], _, filled, hs => by
    rw [runSections] at hs
    obtain rfl := Except.ok.inj hs
    rw [SectionsLegible]
    exact ⟨trivial, rfl⟩
  | (label, body) :: rest, h, filled, hs => by
    rw [CallSectionsLegible] at h
    have hbody := allLegible_runAll log body h.2.1
    rw [runSections] at hs
    generalize runAll log body = result at hbody hs
    obtain ⟨l, e | statements⟩ := result
    · exact absurd hs nofun
    · obtain ⟨sections, hsections, rfl⟩ := exceptMap_eq_ok_iff.1 hs
      obtain ⟨hrest, hlength⟩ := sectionsLegible_runSections l rest h.2.2 _ hsections
      rw [SectionsLegible]
      exact ⟨⟨h.1, hbody _ rfl, hrest⟩, congrArg (· + 1) hlength⟩

end

theorem allLegible_concat {ss : List Statement} {s : Statement} (hss : AllLegible ss) (hs : s.IsLegible) :
    AllLegible (ss ++ [s]) := by
  induction ss with
  | nil =>
    rw [List.nil_append, AllLegible, AllLegible]
    exact ⟨hs, trivial⟩
  | cons t ss ih =>
    rw [AllLegible] at hss
    rw [List.cons_append, AllLegible]
    exact ⟨hss.1, ih hss.2⟩

namespace IsLegible

variable {b : Builder} (h : b.diagram.IsLegible)
include h

theorem declare {a : Declaration} (ha : a.IsLegible) : (b.declare a).diagram.IsLegible :=
  { h with
    actors := by
      intro x hx
      obtain ⟨k, hk⟩ := Entries.mem_values_iff.1 hx
      obtain ⟨-, rfl⟩ | hk := Entries.get?_insert_cases hk
      · cases hlabel : a.label with
        | none => exact isPlain_of_isName ha.id a.kind
        | some t => exact ⟨ha.id, (ha.label t hlabel).1, (ha.label t hlabel).2⟩
      · exact h.actors x (Entries.mem_values_iff.2 ⟨k, hk⟩) }

theorem foldl_declare {body : List Declaration} (hbody : ∀ a ∈ body, a.IsLegible) :
    (body.foldl Builder.declare b).diagram.IsLegible := by
  induction body generalizing b with
  | nil => exact h
  | cons a body ih =>
    exact ih (h.declare (hbody a List.mem_cons_self)) fun x hx => hbody x (List.mem_cons_of_mem a hx)

theorem call {c : Call} (hc : c.IsLegible) : (c.run b).1.diagram.IsLegible := by
  cases c with
  | statement c =>
    have hs := StatementCall.isLegible_run b.log c hc
    rw [Call.run]
    generalize c.run b.log = result at hs
    obtain ⟨log, e | s⟩ := result
    · exact h
    · exact { h with statements := allLegible_concat h.statements (hs _ rfl) }
  | declare a => exact h.declare hc
  | box label color body =>
    obtain ⟨hlabel, hcolor, hbody⟩ := hc
    have hdeclared := h.foldl_declare hbody
    refine { hdeclared with boxes := List.forall_mem_append.2 ⟨hdeclared.boxes, List.forall_mem_singleton.2 ?_⟩ }
    refine ⟨hlabel, hcolor, fun id hid => ?_⟩
    obtain ⟨a, ha, rfl⟩ := List.mem_map.1 (Builder.mem_distinct.1 hid)
    exact (hbody a ha).id
  | title t => exact { h with title := fun u hu => Option.some.inj hu ▸ hc }
  | describe line =>
    cases line with
    | title v => exact { h with accTitle := fun u hu => Option.some.inj hu ▸ hc }
    | description v => exact { h with accDescription := fun u hu => Option.some.inj hu ▸ hc }

theorem run {calls : List Call} (hcalls : ∀ c ∈ calls, c.IsLegible) : (b.run calls).diagram.IsLegible := by
  induction calls generalizing b with
  | nil => exact h
  | cons c calls ih =>
    exact ih (h.call (hcalls c List.mem_cons_self)) fun x hx => hcalls x (List.mem_cons_of_mem c hx)

end IsLegible

/-- **what is built of legible calls is printed as an accepted text** -/
theorem exists_read_render_of_build {calls : List Call} (hcalls : ∀ c ∈ calls, c.IsLegible) {d : Sequence}
    (hd : (Builder.start.run calls).build = .ok d) {o : RenderOptions} (ho : '\n' ∉ o.unit) :
    ∃ d', read (render d o) = .ok d' := by
  obtain ⟨rfl, -⟩ := Reference.check_eq_ok_iff.1 hd
  have hstart : Builder.start.diagram.IsLegible :=
    ⟨nofun, nofun, nofun, nofun, nofun, by rw [Builder.start, AllLegible]; trivial⟩
  obtain ⟨d', hd', -⟩ := exists_read_render_of_isLegible (hstart.run hcalls) ho
  exact ⟨d', hd'⟩

/-- a note beside two actors is built and printed, but not accepted -/
theorem refused_note_beside_two : ∃ d, (Builder.start.run [.declare ⟨.participant, "A", none⟩, .declare ⟨.participant, "B", none⟩,
      .statement (.note ⟨"right of", ["A", "B"], "x"⟩)]).build = .ok d ∧ (read (render d .default)).toOption.isNone = true :=
  ⟨_, rfl, by decide +kernel⟩

/-- numbering from a negative number is built and printed, but not accepted -/
theorem refused_negative_number : ∃ d, (Builder.start.run [.statement (.autonumber ⟨some (-1), none, true⟩)]).build = .ok d ∧
    (read (render d .default)).toOption.isNone = true :=
  ⟨_, rfl, by decide +kernel⟩

end DiagramText.Sequence

/-
Sequence diagrams that are read are legible. What a line says can be written again (`Line.isLegible_of_read?`), and a line
leaves a diagram of which every part was said by a line, in the blocks and the box that are still open too
(`Progress.IsLegible.readLine`). So the text of an accepted diagram is accepted, and its captions are read from it
(`captions_kept_iff`), but for a title that begins with a colon. Semicolons are left out, since one at the end of a text ends
the line that the text is written on, and the dotted capital i, whose small form in the place of a note is two characters.
-/
import DiagramText.Proofs.Sequence.Accepted
import DiagramText.Proofs.Sequence.Cross
import DiagramText.Proofs.Sequence.Numbers

namespace DiagramText.Sequence

open DiagramText.Text
open Scan (orElse_eq_some_iff)

variable {t rest : Text}

/-! ## What lines say -/

/-- one actor, or two -/
def IsOneOrTwo (ids : List Text) : Prop := (∃ a, ids = [a]) ∨ ∃ a b, ids = [a, b]

/-- what a line says, where it can be written again -/
def Line.IsLegible : Line → Prop
  | .actor a => a.IsPlain
  | .accessibility line => IsLineText line.value
  | .title t | .openBlock _ t | .divide _ t => IsLineText t
  | .openBox label color => IsLineText (label.getD []) ∧ IsLineText (color.getD [])
  | .note n =>
    IsPlace n.position ∧ IsOneOrTwo n.actorIds ∧ (∀ id ∈ n.actorIds, Scan.isName isActorChar id = true) ∧ IsLineText n.text
  | .close | .autonumberOff => True
  | .activation id _ => Scan.isName isActorChar id = true
  | .autonumber start step => ∀ n ∈ start.toList ++ step.toList, IsDigits n
  | .message m => m.IsLegible

theorem isName_of_actorId? {id : Text} (h : actorId? t = some (id, rest)) : Scan.isName isActorChar id = true ∧ rest ⊆ t :=
  ⟨((Scan.name?_eq_some_iff isActorChar_hyphen).1 h).2.1, Scan.name?_subset h⟩

theorem isName_of_soleActor? {w id : Text} (h : soleActor? w t = some id) : Scan.isName isActorChar id = true := by
  obtain ⟨⟨id', rest⟩, hid, h⟩ := Option.bind_eq_some_iff.1 h
  obtain ⟨r, -, hid⟩ := Option.bind_eq_some_iff.1 hid
  obtain ⟨-, h⟩ := Option.ite_none_right_eq_some.1 h
  exact Option.some.inj h ▸ (isName_of_actorId? hid).1

/-- what is left of the parentheses after the name of a colour function -/
theorem exists_of_parenthesized? (h : parenthesized? t = some rest) : ∃ arguments, t = arguments ++ ')' :: rest := by
  unfold parenthesized? at h
  split at h
  · rename_i r
    split at h
    · rename_i rest' hdrop
      obtain rfl := Option.some.inj h
      refine ⟨'(' :: r.takeWhile (· ≠ ')'), ?_⟩
      rw [List.cons_append, ← hdrop, List.takeWhile_append_dropWhile]
    · exact absurd h (by simp)
  · exact absurd h (by simp)

/-- a colour function ends with its parentheses -/
theorem exists_of_colorFunction? {name : Text} (h : colorFunction? dropPrefix? t name = some rest) :
    ∃ arguments, t = arguments ++ ')' :: rest := by
  obtain ⟨r, hr, h⟩ := Option.bind_eq_some_iff.1 h
  obtain ⟨before, u, rfl, hu⟩ : ∃ before u, t = before ++ u ∧ parenthesized? u = some rest := by
    rcases orElse_eq_some_iff.1 h with h | ⟨-, h⟩
    · obtain ⟨u, hu, h⟩ := Option.bind_eq_some_iff.1 h
      refine ⟨name ++ "a", u, ?_, h⟩
      rw [dropPrefix?_eq_some_iff.1 hr, dropPrefix?_eq_some_iff.1 hu, List.append_assoc]
    · exact ⟨name, r, dropPrefix?_eq_some_iff.1 hr, h⟩
  obtain ⟨arguments, rfl⟩ := exists_of_parenthesized? hu
  exact ⟨before ++ arguments, (List.append_assoc _ _ _).symm⟩

/-- the first word of a box header ends with a mark, and what follows it is a part of the header -/
theorem endsWith_of_colorWord? {color : Text} (h : colorWord? t = some (color, rest)) :
    color <+: t ∧ endsWith isMark color = true ∧ rest ⊆ t := by
  rcases orElse_eq_some_iff.1 h with h | ⟨-, h⟩
  · obtain ⟨name, -, h⟩ := List.exists_of_findSome?_eq_some h
    obtain ⟨after, hafter, h⟩ := Option.bind_eq_some_iff.1 h
    obtain ⟨label, hlabel, h⟩ := Option.map_eq_some_iff.1 h
    obtain ⟨rfl, rfl⟩ := Prod.mk.inj h
    obtain ⟨arguments, rfl⟩ := exists_of_colorFunction? hafter
    have hword : (arguments ++ ')' :: after).take ((arguments ++ ')' :: after).length - after.length) = arguments ++ [')'] := by
      have hlength : (arguments ++ ')' :: after).length - after.length = (arguments ++ [')']).length := by
        simp only [List.length_append, List.length_cons, List.length_nil]
        omega
      rw [hlength, List.append_cons arguments ')' after, List.take_left]
    refine ⟨List.take_prefix _ _, ?_, fun x hx => ?_⟩
    · rw [hword]
      exact endsWith_append _ (by decide)
    · exact List.mem_append_right _ (List.mem_cons_of_mem _ (Scan.optionalRest?_subset hlabel hx))
  · obtain ⟨⟨word, after⟩, hword, h⟩ := Option.bind_eq_some_iff.1 h
    obtain ⟨label, hlabel, h⟩ := Option.map_eq_some_iff.1 h
    obtain ⟨rfl, rfl⟩ := Prod.mk.inj h
    obtain ⟨hne, hall, hsub⟩ := Scan.run?_eq_some hword
    refine ⟨⟨after, (Scan.run?_eq_append hword).symm⟩, ?_, fun x hx => hsub (Scan.optionalRest?_subset hlabel hx)⟩
    exact endsWith_mono (fun c hc => hc) (endsWith_of_all hne hall)

theorem isLineText_nil : IsLineText [] := ⟨List.not_mem_nil, rfl, by decide⟩

/-- a beginning of a text without white space around it -/
theorem isTight_of_prefix {u : Text} (ht : Scan.startsWith isMark t = true) (hu : u <+: t) (hends : endsWith isMark u = true) :
    IsTight u := by
  obtain ⟨r, rfl⟩ := hu
  cases u with
  | nil => exact absurd hends (by decide)
  | cons c u => exact ⟨ht, hends⟩

section

variable (hl : '\n' ∉ t) (hs : ';' ∉ t)
include hl hs

/-- what is trimmed of a line stands on a line of its own -/
theorem isLineText_trim {u : Text} (h : u ⊆ t) : IsLineText (trim u) where
  lineFeed hm := hl (h (mem_of_mem_trim hm))
  trimmed := trim_trim u
  semicolon := not_endsWith_of_not_mem fun hm => hs (h (mem_of_mem_trim hm))

theorem isLineText_accessibility {line : AccessibilityLine} (h : Accessibility.line? t = some line) : IsLineText line.value := by
  obtain ⟨htrim, hsub⟩ := Accessibility.value_of_line? h
  exact htrim ▸ isLineText_trim hl hs hsub

theorem isPlain_of_declaration? {a : Actor} {kind : ActorKind} (h : declaration? t kind = some a) : a.IsPlain := by
  obtain ⟨r, hr, h⟩ := Option.bind_eq_some_iff.1 h
  obtain ⟨⟨id, rest⟩, hid, h⟩ := Option.bind_eq_some_iff.1 h
  obtain ⟨hid, hsub⟩ := isName_of_actorId? hid
  dsimp only at h
  split at h
  · exact Option.some.inj h ▸ isPlain_of_isName hid kind
  · obtain ⟨label, hlabel, h⟩ := Option.bind_eq_some_iff.1 h
    obtain ⟨u, hu, hlabel⟩ := Option.bind_eq_some_iff.1 hlabel
    obtain ⟨hne, h⟩ := Option.ite_none_left_eq_some.1 h
    obtain rfl := Option.some.inj h
    have hafter : label ⊆ t := List.Subset.trans (Scan.word?_subset hlabel)
      (List.Subset.trans (Scan.blanks?_subset hu) (List.Subset.trans hsub (Scan.word?_subset hr)))
    refine ⟨hid, isLineText_trim hl hs hafter, ?_⟩
    -- white space before the label was dropped with the word before it
    obtain ⟨v, -, hblanks⟩ := Option.bind_eq_some_iff.1 hlabel
    obtain rfl : label = trimLeft v := (Scan.blanks?_eq_some hblanks).2
    have hstart := (trimLeft_eq_nil_or v).resolve_left hne
    change trim (trimLeft v) ≠ []
    rw [trim, trimLeft_of_startsWith hstart]
    exact trimRight_ne_nil hstart

theorem isPlain_of_actor? {a : Actor} (h : actor? t = some a) : a.IsPlain := by
  obtain ⟨kind, -, h⟩ := List.exists_of_findSome?_eq_some h
  exact isPlain_of_declaration? hl hs h

theorem isLineText_of_title? {u : Text} (h : title? t = some u) : IsLineText u := by
  obtain ⟨r, hr, h⟩ := Option.bind_eq_some_iff.1 h
  have hsub := dropPrefix?_subset hr
  split at h
  · rename_i v hv
    refine Option.some.inj h ▸ isLineText_trim hl hs fun c hc => hsub (Scan.blanks_subset r ?_)
    exact hv ▸ List.mem_cons_of_mem _ hc
  · obtain ⟨v, hv, rfl⟩ := Option.map_eq_some_iff.1 h
    exact isLineText_trim hl hs (List.Subset.trans (Scan.blanks?_subset hv) hsub)

theorem isLegible_boxHeader : IsLineText ((boxHeader t).1.getD []) ∧ IsLineText ((boxHeader t).2.getD []) := by
  have hrest : IsLineText (trim t) := isLineText_trim hl hs (List.Subset.refl t)
  unfold boxHeader
  dsimp only
  split
  · exact ⟨isLineText_nil, isLineText_nil⟩
  · rename_i hne
    split
    · rename_i color label hword
      obtain ⟨hcolor, hends, hsub⟩ := endsWith_of_colorWord? hword
      split
      · refine ⟨?_, ?_⟩
        · have hlabel := isLineText_trim hl hs (List.Subset.trans hsub (trim_subset t))
          rw [present, Option.filter]
          split
          · exact hlabel
          · exact isLineText_nil
        · have hin : color ⊆ t := List.Subset.trans hcolor.subset (trim_subset t)
          have htight : IsTight color := isTight_of_prefix (isTight_trim hne).first hcolor hends
          exact trim_of_isTight htight ▸ isLineText_trim hl hs hin
      · exact ⟨hrest, isLineText_nil⟩
    · exact ⟨hrest, isLineText_nil⟩

omit hl hs in
theorem isOneOrTwo_of_noteActors? {ids : List Text} (h : noteActors? t = some (ids, rest)) :
    IsOneOrTwo ids ∧ (∀ id ∈ ids, Scan.isName isActorChar id = true) ∧ rest ⊆ t := by
  obtain ⟨⟨first, after⟩, hfirst, h⟩ := Option.map_eq_some_iff.1 h
  obtain ⟨hname, hafter⟩ := isName_of_actorId? hfirst
  dsimp only at h
  split at h
  · rename_i second rest' hsecond
    obtain ⟨rfl, rfl⟩ := Prod.mk.inj h
    obtain ⟨r, hr, hsecond⟩ := Option.bind_eq_some_iff.1 hsecond
    obtain ⟨hname', hrest⟩ := isName_of_actorId? hsecond
    refine ⟨Or.inr ⟨first, second, rfl⟩, ?_, List.Subset.trans hrest (List.Subset.trans (Scan.comma?_subset hr) hafter)⟩
    exact List.forall_mem_cons.2 ⟨hname, List.forall_mem_singleton.2 hname'⟩
  · obtain ⟨rfl, rfl⟩ := Prod.mk.inj h
    exact ⟨Or.inl ⟨first, rfl⟩, List.forall_mem_singleton.2 hname, hafter⟩

omit hl hs in
theorem isPlace_of_notePlace? {place : Text} (hdotted : 'İ' ∉ t)
    (h : notePlace? ["left of", "right of", "over"] t = some (place, rest)) : IsPlace place ∧ rest ⊆ t := by
  refine ⟨findSome?_lower ⟨by decide, by decide, by decide⟩ hdotted h, ?_⟩
  obtain ⟨k, -, h⟩ := List.exists_of_findSome?_eq_some h
  obtain ⟨r, hr, e⟩ := Option.map_eq_some_iff.1 h
  exact (Prod.mk.inj e).2 ▸ Scan.dropKeyword?_subset hr

theorem isLegible_of_note? (hdotted : 'İ' ∉ t) {n : Note} (h : note? t = some n) : (Line.note n).IsLegible := by
  obtain ⟨r, hr, h⟩ := Option.bind_eq_some_iff.1 h
  obtain ⟨⟨place, afterPlace⟩, hplace, h⟩ := Option.bind_eq_some_iff.1 h
  obtain ⟨actors, hactors, h⟩ := Option.bind_eq_some_iff.1 h
  obtain ⟨⟨ids, afterActors⟩, hids, h⟩ := Option.bind_eq_some_iff.1 h
  obtain ⟨text, htext, rfl⟩ := Option.map_eq_some_iff.1 h
  have hr := Scan.keyword?_subset hr
  obtain ⟨hplace, hsub⟩ := isPlace_of_notePlace? (fun hm => hdotted (hr hm)) hplace
  obtain ⟨hcount, hnames, hafter⟩ := isOneOrTwo_of_noteActors? hids
  refine ⟨hplace, hcount, hnames, isLineText_trim hl hs ?_⟩
  exact List.Subset.trans (Scan.afterColon?_subset htext) (List.Subset.trans hafter
    (List.Subset.trans (Scan.blanks?_subset hactors) (List.Subset.trans hsub hr)))

theorem isLineText_of_labelled? {w label : Text} (h : labelled? w t = some label) : IsLineText label := by
  obtain ⟨u, hu, rfl⟩ := Option.map_eq_some_iff.1 h
  obtain ⟨r, hr, hu⟩ := Option.bind_eq_some_iff.1 hu
  exact isLineText_trim hl hs (List.Subset.trans (Scan.optionalRest?_subset hu) (dropPrefix?_subset hr))

omit hl hs in
theorem mark_subset (t : Text) : (mark t).2 ⊆ t := by
  unfold mark
  split
  · exact List.subset_cons_self _ _
  · exact List.subset_cons_self _ _
  · exact List.Subset.refl t

theorem isLegible_of_messageTail? {source : Text} {arrow : Arrow} {m : Message} (hsource : Scan.isName isActorChar source = true)
    (h : messageTail? source arrow t = some m) : m.IsLegible := by
  obtain ⟨⟨target, after⟩, htarget, h⟩ := Option.bind_eq_some_iff.1 h
  obtain ⟨htarget, hafter⟩ := isName_of_actorId? htarget
  dsimp only at h
  split at h
  · exact Option.some.inj h ▸ ⟨hsource, htarget, isLineText_nil⟩
  · obtain ⟨text, htext, rfl⟩ := Option.map_eq_some_iff.1 h
    refine ⟨hsource, htarget, isLineText_trim hl hs ?_⟩
    exact List.Subset.trans (Scan.afterColon?_subset htext)
      (List.Subset.trans hafter (List.Subset.trans (Scan.blanks_subset _)
        (List.Subset.trans (mark_subset _) (Scan.blanks_subset t))))

theorem isLegible_of_message? {m : Message} (h : message? t = some m) : m.IsLegible := by
  rw [message?_eq] at h
  cases t with
  | nil => exact absurd h (by simp [Scan.longestName])
  | cons c r =>
    obtain ⟨hc, h⟩ := Option.ite_none_right_eq_some.1 h
    obtain ⟨more, rest, rfl, hmore, h⟩ := Scan.exists_of_longestTail h
    obtain ⟨arrow, u, hu, hm⟩ := exists_of_afterSource? h
    have hsource : Scan.isName isActorChar (c :: more) = true := by
      rw [Scan.isName_eq isActorChar_hyphen, Bool.and_eq_true, Scan.isNameTail, hmore]
      exact ⟨hc, by simp [hc]⟩
    have hsub : u ⊆ c :: (more ++ rest) := fun x hx =>
      List.mem_cons_of_mem c (List.mem_append_right more (Scan.blanks_subset rest (hu ▸ List.mem_append_right _ hx)))
    exact isLegible_of_messageTail? (fun hx => hl (hsub hx)) (fun hx => hs (hsub hx)) hsource hm

/-- **what a line says can be written again** -/
theorem Line.isLegible_of_read? (hdotted : 'İ' ∉ t) {line : Line} (h : Line.read? t = some line) : line.IsLegible := by
  simp only [Line.read?, orElse_eq_some_iff] at h
  rcases h with h | ⟨-, h | ⟨-, h | ⟨-, h | ⟨-, h | ⟨-, h | ⟨-, h | ⟨-, h | ⟨-, h | ⟨-, h | ⟨-, h⟩⟩⟩⟩⟩⟩⟩⟩⟩⟩
  · obtain ⟨line, hline, rfl⟩ := Option.map_eq_some_iff.1 h
    exact isLineText_accessibility hl hs hline
  · obtain ⟨u, hu, rfl⟩ := Option.map_eq_some_iff.1 h
    exact isLineText_of_title? hl hs hu
  · obtain ⟨r, hr, rfl⟩ := Option.map_eq_some_iff.1 h
    obtain ⟨u, hu, hr⟩ := Option.bind_eq_some_iff.1 hr
    have hsub : r ⊆ t := List.Subset.trans (Scan.optionalRest?_subset hr) (dropPrefix?_subset hu)
    exact isLegible_boxHeader (fun hm => hl (hsub hm)) (fun hm => hs (hsub hm))
  · obtain ⟨n, hn, rfl⟩ := Option.map_eq_some_iff.1 h
    exact isLegible_of_note? hl hs hdotted hn
  · obtain ⟨⟨o, label⟩, ho, rfl⟩ := Option.map_eq_some_iff.1 h
    obtain ⟨o', -, ho⟩ := List.exists_of_findSome?_eq_some ho
    obtain ⟨label', hlabel, e⟩ := Option.map_eq_some_iff.1 ho
    exact (Prod.mk.inj e).2 ▸ isLineText_of_labelled? hl hs hlabel
  · obtain ⟨⟨keyword, label⟩, hdivider, rfl⟩ := Option.map_eq_some_iff.1 h
    obtain ⟨w, -, hdivider⟩ := List.exists_of_findSome?_eq_some hdivider
    obtain ⟨label', hlabel, e⟩ := Option.map_eq_some_iff.1 hdivider
    exact (Prod.mk.inj e).2 ▸ isLineText_of_labelled? hl hs hlabel
  · obtain ⟨-, h⟩ := Option.ite_none_right_eq_some.1 h
    exact Option.some.inj h ▸ trivial
  · obtain ⟨⟨id, active⟩, hactivation, rfl⟩ := Option.map_eq_some_iff.1 h
    rcases orElse_eq_some_iff.1 hactivation with h | ⟨-, h⟩ <;>
      · obtain ⟨id', hid, e⟩ := Option.map_eq_some_iff.1 h
        exact (Prod.mk.inj e).1 ▸ isName_of_soleActor? hid
  · obtain ⟨r, -, h⟩ := Option.bind_eq_some_iff.1 h
    obtain ⟨-, h⟩ := Option.ite_none_right_eq_some.1 h
    exact Option.some.inj h ▸ trivial
  · obtain ⟨⟨start, step⟩, hnumbers, rfl⟩ := Option.map_eq_some_iff.1 h
    exact isDigits_of_autonumber? hnumbers
  · obtain ⟨m, hm, rfl⟩ := Option.map_eq_some_iff.1 h
    exact isLegible_of_message? hl hs hm

end

/-! ## What lines leave -/

theorem sectionsLegible_append {a b : List (Text × List Statement)} (ha : SectionsLegible a) (hb : SectionsLegible b) :
    SectionsLegible (a ++ b) := by
  induction a with
  | nil => exact hb
  | cons x a ih =>
    rw [SectionsLegible] at ha
    rw [List.cons_append, SectionsLegible]
    exact ⟨ha.1, ha.2.1, ih ha.2.2⟩

/-- an open block of which every part was said by a line -/
structure Frame.IsLegible (f : Frame) : Prop where
  finished : SectionsLegible f.finished
  label : IsLineText f.label
  statements : AllLegible f.statements

theorem Frame.IsLegible.sections {f : Frame} (h : f.IsLegible) : SectionsLegible f.sections := by
  refine sectionsLegible_append h.finished ?_
  rw [SectionsLegible, SectionsLegible]
  exact ⟨h.label, h.statements, trivial⟩

theorem Frame.IsLegible.close {f : Frame} (h : f.IsLegible) : f.close.IsLegible := by
  unfold Frame.close
  split
  · rw [Statement.IsLegible]
    exact ⟨h.label, h.statements⟩
  · rw [Statement.IsLegible]
    exact ⟨List.append_ne_nil_of_right_ne_nil _ (List.cons_ne_nil _ _), h.sections⟩

namespace Progress

variable {p q : Progress} {l : SourceLine}

/-- what has been read so far, with the blocks and the box that are open -/
structure IsLegible (p : Progress) : Prop where
  diagram : p.diagram.IsLegible
  frames : ∀ f ∈ p.frames, f.IsLegible
  box : ∀ b ∈ p.box, Box.IsLegible ⟨b.label, b.color, b.actorIds⟩

/-- digits within the limit are a number that can be written -/
theorem isCount_of_mapM_number {n : Option Text} {m : Option Int} (h : n.mapM number = .ok m) : ∀ k, m = some k → IsCount k := by
  rintro k rfl
  cases n with
  | none => exact absurd (Except.ok.inj h) (by simp)
  | some t =>
    rw [mapM_number] at h
    obtain ⟨k', hk, e⟩ := exceptMap_eq_ok_iff.1 h
    obtain rfl := Option.some.inj e
    obtain ⟨i, hi, rfl⟩ := exceptMap_eq_ok_iff.1 (exceptMapError_eq_ok_iff.1 hk)
    refine ⟨Int.natCast_nonneg i, ?_⟩
    change (ofInt (i : Int)).length ≤ 4300
    rw [ofInt_natCast]
    exact Integer.length_ofNat_of_read hi

namespace IsLegible

variable (h : p.IsLegible)
include h

theorem emit {s : Statement} (hs : s.IsLegible) : (p.emit s).IsLegible := by
  unfold Progress.emit
  split
  · exact ⟨{ h.diagram with statements := allLegible_concat h.diagram.statements hs }, h.frames, h.box⟩
  · rename_i f fs hframes
    obtain ⟨hf, hfs⟩ := List.forall_mem_cons.1 (hframes ▸ h.frames)
    refine ⟨h.diagram, List.forall_mem_cons.2 ⟨{ hf with statements := allLegible_concat hf.statements hs }, hfs⟩, h.box⟩

theorem ensureActor {id : Text} (hid : Scan.isName isActorChar id = true) : (p.ensureActor id).IsLegible := by
  refine ⟨{ h.diagram with actors := fun a ha => ?_ }, h.frames, h.box⟩
  obtain ⟨k, hk⟩ := Entries.mem_values_iff.1 ha
  obtain ⟨-, rfl⟩ | hk := Entries.get?_insertNew_cases hk
  · exact isPlain_of_isName hid .participant
  · exact h.diagram.actors a (Entries.mem_values_iff.2 ⟨k, hk⟩)

theorem ensureActors {ids : List Text} (hids : ∀ id ∈ ids, Scan.isName isActorChar id = true) :
    (ids.foldl (fun p id => p.ensureActor id) p).IsLegible :=
  List.foldlRecOn (motive := IsLegible) ids _ h fun _ hp _ hid => hp.ensureActor (hids _ hid)

theorem declare {a : Actor} (ha : a.IsPlain) : (p.declare a).IsLegible := by
  refine ⟨{ h.diagram with actors := fun x hx => ?_ }, h.frames, fun b hb => ?_⟩
  · obtain ⟨k, hk⟩ := Entries.mem_values_iff.1 hx
    obtain ⟨-, rfl⟩ | hk := Entries.get?_insert_cases hk
    · exact ha
    · exact h.diagram.actors x (Entries.mem_values_iff.2 ⟨k, hk⟩)
  · obtain ⟨b', hb', rfl⟩ := Option.map_eq_some_iff.1 hb
    have hbox := h.box b' hb'
    split
    · exact hbox
    · exact { hbox with names := List.forall_mem_append.2 ⟨hbox.names, List.forall_mem_singleton.2 ha.id⟩ }

theorem divide {keyword label : Text} (hlabel : IsLineText label) (hq : p.divide l keyword label = .ok q) : q.IsLegible := by
  unfold Progress.divide at hq
  split at hq
  · rename_i f fs hframes
    split at hq
    · obtain rfl := Except.ok.inj hq
      obtain ⟨hf, hfs⟩ := List.forall_mem_cons.1 (hframes ▸ h.frames)
      refine ⟨h.diagram, List.forall_mem_cons.2 ⟨⟨hf.sections, hlabel, ?_⟩, hfs⟩, h.box⟩
      rw [AllLegible]
      trivial
    · cases hq
  · cases hq

theorem close (hq : p.close l = .ok q) : q.IsLegible := by
  unfold Progress.close at hq
  split at hq
  · rename_i f fs hframes
    obtain rfl := Except.ok.inj hq
    obtain ⟨hf, hfs⟩ := List.forall_mem_cons.1 (hframes ▸ h.frames)
    exact emit (p := { p with frames := fs }) ⟨h.diagram, hfs, h.box⟩ hf.close
  · cases hq

theorem apply {line : Line} (hline : line.IsLegible) (hq : p.apply l line = .ok q) : q.IsLegible := by
  cases line with
  | actor a =>
    obtain rfl := Except.ok.inj hq
    exact h.declare hline
  | accessibility line =>
    obtain rfl := Except.ok.inj hq
    cases line with
    | title v => exact ⟨{ h.diagram with accTitle := fun t ht => Option.some.inj ht ▸ hline }, h.frames, h.box⟩
    | description v => exact ⟨{ h.diagram with accDescription := fun t ht => Option.some.inj ht ▸ hline }, h.frames, h.box⟩
  | title t =>
    obtain rfl := Except.ok.inj hq
    exact ⟨{ h.diagram with title := fun u hu => Option.some.inj hu ▸ hline }, h.frames, h.box⟩
  | openBox label color =>
    rw [Progress.apply] at hq
    split at hq
    · obtain rfl := Except.ok.inj hq
      exact ⟨h.diagram, h.frames, fun b hb => Option.some.inj hb ▸ ⟨hline.1, hline.2, nofun⟩⟩
    · cases hq
  | note n =>
    have hq : p.addNote l n = .ok q := exceptMapError_eq_ok_iff.1 hq
    rw [addNote] at hq
    split at hq
    · cases hq
    · rename_i hsingle
      obtain rfl := Except.ok.inj hq
      obtain ⟨hplace, hcount, hnames, htext⟩ := hline
      refine (h.ensureActors hnames).emit ?_
      rw [Statement.IsLegible]
      refine ⟨hplace, hcount.imp_right fun htwo => ⟨?_, htwo⟩, hnames, htext⟩
      obtain ⟨a, b, hids⟩ := htwo
      by_contra hover
      exact hsingle ⟨by rw [hids]; exact Nat.one_lt_two, hover⟩
  | openBlock o label =>
    obtain rfl := Except.ok.inj hq
    refine ⟨h.diagram, List.forall_mem_cons.2 ⟨⟨?_, hline, ?_⟩, h.frames⟩, h.box⟩
    · rw [SectionsLegible]
      trivial
    · rw [AllLegible]
      trivial
  | divide keyword label => exact h.divide hline (exceptMapError_eq_ok_iff.1 hq)
  | close => exact h.close (exceptMapError_eq_ok_iff.1 hq)
  | activation id active =>
    obtain rfl := Except.ok.inj hq
    refine (h.ensureActor hline).emit ?_
    rwa [Statement.IsLegible]
  | autonumberOff =>
    obtain rfl := Except.ok.inj hq
    refine h.emit ?_
    rw [Statement.IsLegible]
    exact ⟨by simp, by simp⟩
  | autonumber start step =>
    obtain ⟨m, hm, hq⟩ := exceptBind_eq_ok_iff.1 hq
    obtain ⟨n, hn, hq⟩ := exceptBind_eq_ok_iff.1 hq
    obtain rfl := Except.ok.inj hq
    refine h.emit ?_
    rw [Statement.IsLegible]
    exact ⟨fun _ => isCount_of_mapM_number hm, fun _ _ => isCount_of_mapM_number hn⟩
  | message m =>
    obtain rfl := Except.ok.inj hq
    refine ((h.ensureActor hline.source).ensureActor hline.target).emit ?_
    rwa [Statement.IsLegible]

theorem readLine (hl : '\n' ∉ l.text) (hs : ';' ∉ l.text) (hdotted : 'İ' ∉ l.text) (hq : p.readLine l = .ok q) : q.IsLegible := by
  unfold Progress.readLine at hq
  split at hq
  · rename_i a ha
    have hline : (Line.actor a).IsLegible := isPlain_of_actor? hl hs ha
    exact h.apply hline hq
  · split at hq
    · rename_i b hb
      split at hq
      · obtain rfl := Except.ok.inj hq
        have hboxes := List.forall_mem_append.2 ⟨h.diagram.boxes, List.forall_mem_singleton.2 (h.box b hb)⟩
        exact ⟨{ h.diagram with boxes := hboxes }, h.frames, nofun⟩
      · cases hq
    · split at hq
      · rename_i line hline
        exact h.apply (Line.isLegible_of_read? hl hs hdotted hline) hq
      · cases hq

end IsLegible

end Progress

/-! ## What is read can be written -/

theorem map_shownTitle {title : Option Text} (h : ∀ t, title = some t → Scan.startsWith (· = ':') t = false) :
    (present title).map shownTitle = present title := by
  cases hp : present title with
  | none => rfl
  | some t => rw [Option.map_some, shownTitle_eq_self_iff.2 (h t (present_eq_some_iff.1 hp).1)]

/-- a title that is shown is the title, an empty one aside, exactly when no colon begins it -/
theorem present_shownTitle_iff (title : Option Text) : present ((present title).map shownTitle) = present title ↔
    ∀ t, title = some t → Scan.startsWith (· = ':') t = false := by
  cases title with
  | none => exact iff_of_true rfl nofun
  | some t =>
    have hforall : (∀ u, some t = some u → Scan.startsWith (· = ':') u = false) ↔ Scan.startsWith (· = ':') t = false := by simp
    rw [hforall]
    by_cases hne : t = []
    · subst hne
      exact iff_of_true rfl rfl
    · rw [present_eq_some_iff.2 ⟨rfl, hne⟩, Option.map_some, present_eq_some_iff, Option.some.injEq, shownTitle_eq_self_iff]
      exact and_iff_left hne

section

variable {text : Text} {d : Sequence} (hs : ';' ∉ text) (hdotted : 'İ' ∉ text) (h : read text = .ok d)
include hs hdotted h

/-- **a diagram that is read is legible** -/
theorem isLegible_of_read : d.IsLegible := by
  obtain ⟨p, hrun, hfinish⟩ := exceptBind_eq_ok_iff.1 h
  have hstart : Progress.IsLegible ⟨{}, [], none⟩ :=
    ⟨⟨nofun, nofun, nofun, nofun, nofun, by rw [AllLegible]; trivial⟩, nofun, nofun⟩
  have hlegible : p.IsLegible := by
    refine invariant_of_foldlM (fun l hl p q hp hq => ?_) hstart hrun
    obtain ⟨hcontent, hsub⟩ := isContent_of_mem_sourceLines hs (body_subset .sequence _ hl)
    exact hp.readLine hcontent.lineFeed (fun hm => hs (hsub hm)) (fun hm => hdotted (hsub hm)) hq
  have hfinish : p.finish = .ok d := exceptMapError_eq_ok_iff.1 hfinish
  unfold Progress.finish at hfinish
  split at hfinish
  · cases hfinish
  · cases hfinish
  · exact Except.ok.inj hfinish ▸ hlegible.diagram

/-- **the captions of a sequence diagram are kept**: what is written is read again, with the same accessibility texts, and with
the same title exactly when no colon begins it -/
theorem captions_kept_iff {o : RenderOptions} (ho : '\n' ∉ o.unit) :
    ∃ d', read (render d o) = .ok d' ∧ d'.accessibility = d.accessibility.settled ∧
      (present d'.title = present d.title ↔ ∀ t, d.title = some t → Scan.startsWith (· = ':') t = false) := by
  obtain ⟨d', hd', hcaptions⟩ := exists_read_render_of_isLegible (isLegible_of_read hs hdotted h) ho
  obtain ⟨htitle, haccessibility⟩ := Captions.mk.inj hcaptions
  exact ⟨d', hd', haccessibility, htitle ▸ present_shownTitle_iff d.title⟩

end

/-- a title with a colon in it, a colour function, a source that takes an arrow in, and a dotless i -/
def ferry : Text := "sequenceDiagram\ntitle to : b\naccTitle : a: b\nbox rgb(1) q\nactor A as  B\nend\nA-xB-xC: m\nNote rıght of A: n"

/-- the captions of the ferry are kept -/
theorem captions_kept_iff_ferry : ∃ d d', ';' ∉ ferry ∧ 'İ' ∉ ferry ∧ '\n' ∉ RenderOptions.default.unit ∧ read ferry = .ok d ∧
    read (render d .default) = .ok d' ∧ d'.accessibility = d.accessibility.settled ∧ present d'.title = present d.title := by
  have hs : ';' ∉ ferry := by decide +kernel
  have hdotted : 'İ' ∉ ferry := by decide +kernel
  have hunit : '\n' ∉ RenderOptions.default.unit := by decide
  have htitle : (read ferry).toOption.map Sequence.title = some (some ("to : b" : Text)) := by decide +kernel
  cases hread : read ferry with
  | error e =>
    rw [hread] at htitle
    exact absurd htitle nofun
  | ok d =>
    rw [hread] at htitle
    obtain ⟨d', hread', haccessibility, hkept⟩ := captions_kept_iff hs hdotted hread hunit
    refine ⟨d, d', hs, hdotted, hunit, rfl, hread', haccessibility, hkept.2 fun t ht => ?_⟩
    obtain rfl : "to : b" = t := Option.some.inj ((Option.some.inj htitle).symm.trans ht)
    decide

/-- a title that begins with a colon loses it -/
theorem title_lost_colon : ∃ d d', read "sequenceDiagram\ntitle:: x" = .ok d ∧ d.title = some ": x" ∧
    read (render d .default) = .ok d' ∧ d'.title = some "x" :=
  ⟨_, _, rfl, rfl, rfl, rfl⟩

/-- with a dotted capital i the place of a note is read, printed with one character more, and refused -/
theorem refused_dotted_place : ∃ d, read "sequenceDiagram\nNote rİght of A: x" = .ok d ∧
    (read (render d .default)).toOption.isNone = true :=
  ⟨_, rfl, by decide +kernel⟩

end DiagramText.Sequence

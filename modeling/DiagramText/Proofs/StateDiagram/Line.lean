/-
Lines of a state diagram read back. `Line.toText` is a line as the printer writes it and `Line.IsPlain` says which lines
can be written. A line that starts with the id of a state is not claimed by a keyword (`read?_sequel`), even where the id
is that keyword: what follows the id in print is nothing, an arrow, or a colon. `read?_toText` puts the rules in order.
-/
import DiagramText.Proofs.Accessibility
import DiagramText.Proofs.Style
import DiagramText.Proofs.Text.Statement
import DiagramText.StateDiagram.Line
import DiagramText.StateDiagram.Printer

namespace DiagramText.StateDiagram

open DiagramText.Text
open Sequence (IsLineText)

/-! ## What can be written -/

/-- a state, or the beginning and the end -/
def IsEndpoint (t : Text) : Prop := t = terminal ∨ IsId t

/-- a marker of pseudo-states that is read as it is written -/
def IsMarker (m : Text) : Prop := ∀ rest, marker? (m ++ rest) = some (m, rest)

/-- a place of notes that is read as it is written -/
def IsPlace (p : Text) : Prop := ∀ rest, notePlace? (p ++ rest) = some (p, rest)

/-- a line as the printer writes it -/
def Line.toText : Line → Text
  | .accessibility line => accessibilityText line
  | .direction d => "direction " ++ d.toText
  | .openComposite id title => compositeHead { id := id, label := title }
  | .closeComposite => "\x7d"
  | .label id text => trimRight (id ++ " : " ++ text)
  | .pseudo id marker => "state " ++ id ++ " <<" ++ marker ++ ">>"
  | .declare id => id
  | .note n => trimRight ("note " ++ n.position ++ " " ++ n.stateId ++ " : " ++ n.text)
  | .openNote id position => "note " ++ position ++ " " ++ id
  | .classDef name style => trimRight ("classDef " ++ name ++ " " ++ style.toText)
  | .assignClass ids name => "class " ++ join "," ids ++ " " ++ name
  | .transition source target text => Transition.toText ⟨source, target, text, none⟩

/-- a line that can be written -/
def Line.IsPlain : Line → Prop
  | .accessibility (.title v) | .accessibility (.description v) => v ≠ [] ∧ IsLineText v
  | .direction _ | .closeComposite => True
  | .openComposite id title => IsId id ∧ ∀ t, title = some t → '\n' ∉ t
  | .label id text => IsId id ∧ IsLineText text ∧ id ≠ "accTitle" ∧ id ≠ "accDescr"
  | .pseudo id marker => IsId id ∧ IsMarker marker
  | .declare id => IsId id
  | .note n => IsId n.stateId ∧ IsPlace n.position ∧ IsLineText n.text
  | .openNote id position => IsId id ∧ IsPlace position
  | .classDef name style => IsId name ∧ style.IsPlain ∧ ¬ endsWith (· = ';') style.toText = true
  | .assignClass ids name => (∃ id, ids = [id] ∧ IsId id) ∧ IsId name
  | .transition source target text =>
    IsEndpoint source ∧ IsEndpoint target ∧ ∀ t, text = some t → t ≠ [] ∧ IsLineText t

/-- what a printed line is read as: the entities in the label of a composite state are read -/
def Line.settled : Line → Line
  | .openComposite id title => .openComposite id (title.map readEntities)
  | l => l

/-! ## Ids -/

theorem stateId?_append {id rest : Text} (h : IsId id) (hr : Scan.startsWith isWordOrHyphen rest = false) :
    stateId? (id ++ rest) = some (id, rest) := h.run?_append hr

theorem aliased?_id {id : Text} (h : IsId id) (rest : Text) : aliased? (id ++ rest) = none := by
  rw [aliased?, h.quoted?_append]
  rfl

/-! ## What may follow an id -/

/-- what stands after the id that a printed line starts with: nothing, an arrow, or a colon -/
inductive Sequel : Text → Prop
  | nil : Sequel []
  | arrow (u : Text) : Sequel (' ' :: ("-->" ++ u))
  | colon (u : Text) : Sequel (' ' :: ':' :: u)

theorem Sequel.startsWith {s : Text} (h : Sequel s) : Scan.startsWith isWordOrHyphen s = false := by
  cases h <;> rfl

theorem blanks?_arrow (u : Text) : Scan.blanks? (' ' :: ("-->" ++ u)) = some ("-->" ++ u) :=
  Scan.blanks?_space (by decide : isMark '-' = true)

theorem blanks?_colon (u : Text) : Scan.blanks? (' ' :: ':' :: u) = some (':' :: u) :=
  Scan.blanks?_space (by decide : isMark ':' = true)

/-- what keyword rules find after white space -/
theorem Sequel.blanks? {s u : Text} (h : Sequel s) (hb : Scan.blanks? s = some u) :
    (∃ v, u = "-->" ++ v) ∨ ∃ v, u = ':' :: v := by
  cases h with
  | nil => exact absurd hb (by simp [Scan.blanks?])
  | arrow v =>
    rw [blanks?_arrow, Option.some.injEq] at hb
    exact Or.inl ⟨v, hb.symm⟩
  | colon v =>
    rw [blanks?_colon, Option.some.injEq] at hb
    exact Or.inr ⟨v, hb.symm⟩

/-- an id read at an arrow is its two hyphens -/
theorem stateId?_arrow (v : Text) : stateId? ("-->" ++ v) = some (['-', '-'], '>' :: v) := by
  have hid : IsId ['-', '-'] := ⟨by simp, by decide⟩
  exact stateId?_append hid rfl

theorem stateId?_colon (v : Text) : stateId? (':' :: v) = none :=
  run?_eq_none (by decide : isWordOrHyphen ':' = false)

section

variable {id s : Text} (hid : IsId id) (hs : Sequel s)
include hid hs

theorem word?_sequel {α : Type} {k : Text} (hk : k.all isWordOrHyphen = true) {f : Text → Option α}
    (harrow : ∀ v, f ("-->" ++ v) = none) (hcolon : ∀ v, f (':' :: v) = none) :
    (Scan.word? k (id ++ s)).bind f = none := by
  rw [Option.bind_eq_none_iff]
  intro u hu
  rcases hs.blanks? (hid.of_word? hs.startsWith hk hu).2 with ⟨v, rfl⟩ | ⟨v, rfl⟩
  · exact harrow v
  · exact hcolon v

theorem keyword?_sequel {α : Type} {k : Text} (hk : (k.map foldCase).all isLetter = true) {f : Text → Option α}
    (harrow : ∀ v, f ("-->" ++ v) = none) (hcolon : ∀ v, f (':' :: v) = none) :
    (Scan.keyword? k (id ++ s)).bind f = none := by
  rw [Option.bind_eq_none_iff]
  intro u hu
  rcases hs.blanks? (hid.of_keyword? hs.startsWith hk hu) with ⟨v, rfl⟩ | ⟨v, rfl⟩
  · exact harrow v
  · exact hcolon v

/-- no keyword claims a line that starts with an id -/
theorem read?_sequel (h : (id ≠ "accTitle" ∧ id ≠ "accDescr") ∨ ∀ u, s ≠ ' ' :: ':' :: u) :
    Line.read? (id ++ s) =
      (transition? (id ++ s) <|> description? (id ++ s) <|> (Scan.whole? isWordOrHyphen (id ++ s)).map .declare) := by
  have hacc : Accessibility.line? (id ++ s) = none := by
    refine hid.accessibility_eq_none hs.startsWith (h.imp_right fun h => ?_)
    cases hs with
    | nil => rfl
    | arrow u => rfl
    | colon u => exact absurd rfl (h u)
  have hdirection : direction? (id ++ s) = none :=
    keyword?_sequel hid hs (by decide) (fun v => rfl) fun v => rfl
  have hcomposite : composite? (id ++ s) = none := by
    refine word?_sequel hid hs (by decide) (fun v => ?_) fun v => ?_
    · have h1 : aliased? ("-->" ++ v) = none := rfl
      have h2 : opened? ("-->" ++ v) = none := by
        rw [opened?, stateId?_arrow]
        rfl
      rw [h1, h2]
      rfl
    · have h1 : aliased? (':' :: v) = none := rfl
      have h2 : opened? (':' :: v) = none := by
        rw [opened?, stateId?_colon]
        rfl
      rw [h1, h2]
      rfl
  have hclose : id ++ s ≠ "\x7d" := by
    obtain ⟨c, r, rfl, hc⟩ := exists_cons_of_startsWith hid.startsWith
    intro e
    rw [List.cons_append] at e
    obtain rfl := (List.cons.inj e).1
    exact absurd hc (by decide)
  have halias : alias? (id ++ s) = none := by
    have hword : (Scan.word? "state" (id ++ s)).bind aliased? = none :=
      word?_sequel hid hs (by decide) (fun v => rfl) fun v => rfl
    rw [alias?, hword]
    rfl
  have hpseudo : pseudo? (id ++ s) = none := by
    rw [pseudo?, Option.bind_assoc]
    refine keyword?_sequel hid hs (by decide) (fun v => ?_) fun v => ?_
    · rw [stateId?_arrow]
      rfl
    · rw [stateId?_colon]
      rfl
  have hdeclare : (Scan.word? "state" (id ++ s)).bind (Scan.whole? isWordOrHyphen) = none := by
    refine word?_sequel hid hs (by decide) (fun v => if_neg ?_) fun v => if_neg ?_
    · rintro ⟨-, hall⟩
      exact absurd (List.all_eq_true.1 hall '>' (by simp)) (by decide)
    · rintro ⟨-, hall⟩
      exact absurd (List.all_eq_true.1 hall ':' (by simp)) (by decide)
  have hnote : note? (id ++ s) = none := by
    have hplace : (Scan.keyword? "note" (id ++ s)).bind notePlace? = none :=
      keyword?_sequel hid hs (by decide) (fun v => rfl) fun v => rfl
    rw [note?, hplace]
    rfl
  have hclassDef : classDef? (id ++ s) = none := by
    rw [classDef?, Option.bind_assoc]
    refine word?_sequel hid hs (by decide) (fun v => ?_) fun v => ?_
    · rw [stateId?_arrow]
      rfl
    · rw [stateId?_colon]
      rfl
  have hassign : assignClass? (id ++ s) = none := by
    refine word?_sequel hid hs (by decide) (fun v => ?_) fun v => ?_
    · have hcomma : Scan.comma? ('>' :: v) = none := rfl
      rw [Scan.lists, stateId?_arrow]
      dsimp only
      rw [hcomma]
      rfl
    · rw [Scan.lists, stateId?_colon]
      rfl
  rw [Line.read?, hacc, hdirection, hcomposite, if_neg hclose, halias, hpseudo, hdeclare, hnote, hclassDef, hassign]
  rfl

end

/-! ## Transitions -/

theorem toText_transition {source target : Text} {label : Option Text} (h : ∀ t, label = some t → t ≠ []) :
    (Line.transition source target label).toText = source ++ (' ' :: ("-->" ++ ' ' :: (target ++ labelText label))) := by
  have harrow : (" --> " : Text) = ' ' :: ("-->" ++ [' ']) := rfl
  have hcolon : (" : " : Text) = [' ', ':', ' '] := rfl
  cases label with
  | none =>
    have hp : present (none : Option Text) = none := rfl
    change Transition.toText ⟨source, target, none, none⟩ = _
    rw [Transition.toText, hp, harrow, labelText]
    simp
  | some t =>
    have hp : present (some t) = some t := by simp [present, h t rfl]
    change Transition.toText ⟨source, target, some t, none⟩ = _
    rw [Transition.toText, hp, harrow, hcolon, labelText]
    simp

theorem startsWith_endpoint {t : Text} (h : IsEndpoint t) (rest : Text) : Scan.startsWith isMark (t ++ rest) = true := by
  rcases h with rfl | h
  · rfl
  · exact startsWith_append rest h.isTight.first

theorem dropPrefix?_terminal_id {id : Text} (h : IsId id) (rest : Text) : dropPrefix? terminal (id ++ rest) = none := by
  obtain ⟨c, r, rfl, hc⟩ := exists_cons_of_startsWith h.startsWith
  refine if_neg ?_
  rintro rfl
  exact absurd hc (by decide)

theorem endpoint?_append {t rest : Text} (h : IsEndpoint t) (hr : Scan.startsWith isWordOrHyphen rest = false) :
    endpoint? (t ++ rest) = some (t, rest) := by
  rcases h with rfl | h
  · rw [endpoint?, dropPrefix?_append]
    rfl
  · rw [endpoint?, dropPrefix?_terminal_id h, stateId?_append h hr]
    rfl

theorem transitionTail?_arrow (source : Text) {target : Text} (ht : IsEndpoint target) {label : Option Text}
    (hl : ∀ t, label = some t → t ≠ [] ∧ IsLineText t) :
    transitionTail? source (' ' :: ("-->" ++ ' ' :: (target ++ labelText label)))
      = some (.transition source target label) := by
  have harrow : Scan.blanks (' ' :: ("-->" ++ ' ' :: (target ++ labelText label)))
      = "-->" ++ ' ' :: (target ++ labelText label) := by
    rw [Scan.blanks_space, Scan.blanks_of_startsWith (by rfl)]
  obtain ⟨l, hlabel, hpresent⟩ := optionalLabel?_labelText fun t e => (hl t e).2.isTight (hl t e).1
  rw [transitionTail?, harrow, dropPrefix?_append, Option.bind_some, Scan.blanks_space,
    Scan.blanks_of_startsWith (startsWith_endpoint ht _), endpoint?_append ht (startsWith_labelText label),
    Option.bind_some]
  dsimp only
  rw [hlabel, Option.map_some, hpresent]

/-- a line that starts with an id and goes on without an arrow is no transition -/
theorem transition?_eq_none {id s : Text} (hid : IsId id) (hs : s = [] ∨ ∃ u, s = ' ' :: ':' :: u) :
    transition? (id ++ s) = none := by
  rw [transition?, dropPrefix?_terminal_id hid]
  dsimp only
  rw [Option.eq_none_iff_forall_not_mem]
  intro line hline
  obtain ⟨run, rest, e, hrun, hk⟩ := Scan.exists_of_longest_all hline
  obtain ⟨n, rfl, rfl⟩ : ∃ n, id = run ++ n ∧ rest = n ++ s := by
    rcases List.append_eq_append_iff.1 e with ⟨n, rfl, rfl⟩ | ⟨n, rfl, rfl⟩
    · cases n with
      | nil => exact ⟨[], by simp, by simp⟩
      | cons c n =>
        rw [List.all_append, List.all_cons, Bool.and_eq_true, Bool.and_eq_true] at hrun
        rcases hs with hs | ⟨u, hs⟩
        · exact absurd hs (by simp)
        · rw [List.cons_append] at hs
          rw [(List.cons.inj hs).1] at hrun
          exact absurd hrun.2.1 (by decide)
    · exact ⟨n, rfl, rfl⟩
  rw [Option.ite_none_left_eq_some] at hk
  obtain ⟨x, hx, -⟩ := Option.bind_eq_some_iff.1 hk.2
  obtain ⟨r, hr, -⟩ := Option.bind_eq_some_iff.1 hx
  have harrow := dropPrefix?_eq_some_iff.1 hr
  have hgreater : '>' ∉ n := fun hc =>
    absurd (List.all_eq_true.1 hid.all '>' (by simp [hc])) (by decide)
  cases n with
  | nil =>
    rw [List.nil_append] at harrow
    rcases hs with rfl | ⟨u, rfl⟩
    · exact absurd harrow (by simp [Scan.blanks])
    · rw [Scan.blanks_space, Scan.blanks_of_startsWith (by rfl)] at harrow
      exact absurd (List.cons.inj harrow).1 (by decide)
  | cons c n =>
    -- the arrow would have to begin in the rest of the id, where it cannot end
    have hc : isMark c = true := isMark_of_isWordOrHyphen (List.all_eq_true.1 hid.all c (by simp))
    have hmark : Scan.startsWith isMark (c :: n ++ s) = true := hc
    rw [Scan.blanks_of_startsWith hmark] at harrow
    rcases List.append_eq_append_iff.1 harrow with ⟨m, em, es⟩ | ⟨m, em, -⟩
    · cases m with
      | nil =>
        rw [List.append_nil] at em
        exact hgreater (by rw [← em]; simp)
      | cons d m =>
        have hd : d ∈ ("-->" : Text) := by
          rw [em]
          simp
        rcases hs with rfl | ⟨u, rfl⟩
        · exact absurd es (by simp)
        · rw [← (List.cons.inj es).1] at hd
          exact absurd hd (by decide)
    · exact hgreater (by rw [em]; simp)

theorem transition?_toText {source target : Text} {label : Option Text}
    (h : Line.IsPlain (.transition source target label)) :
    transition? (Line.transition source target label).toText = some (.transition source target label) := by
  obtain ⟨hs, ht, hl⟩ := h
  have htail := transitionTail?_arrow source ht hl
  rw [toText_transition fun t e => (hl t e).1, transition?]
  rcases hs with rfl | hs
  · rw [dropPrefix?_append]
    exact htail
  · rw [dropPrefix?_terminal_id hs]
    exact Scan.longest_append hs.all rfl (by rw [if_neg hs.ne_nil, htail])

/-! ## Labels -/

/-- a label after an id and a colon; the space before an empty one would be trimmed away -/
theorem toText_label {id label : Text} (h : IsLineText label) :
    (Line.label id label).toText = id ++ (' ' :: ':' :: if label = [] then [] else ' ' :: label) := by
  have hcolon : (" : " : Text) = [' ', ':', ' '] := rfl
  change trimRight (id ++ " : " ++ label) = _
  rw [hcolon]
  by_cases hl : label = []
  · have htrim : trimRight (id ++ ([' ', ':'] ++ [' '])) = trimRight (id ++ [' ', ':']) := by
      rw [← List.append_assoc]
      exact trimRight_append (by decide)
    have hend : trimRight (id ++ [' ', ':']) = id ++ [' ', ':'] := trimRight_of_endsWith (endsWith_append id (by decide))
    rw [if_pos hl, hl, List.append_nil]
    exact htrim.trans hend
  · rw [if_neg hl, List.append_assoc, trimRight_of_endsWith (endsWith_append _ (endsWith_append _ (h.isTight hl).last))]
    rfl

theorem description?_toText {id label : Text} (hid : IsId id) (h : IsLineText label) :
    description? (id ++ (' ' :: ':' :: if label = [] then [] else ' ' :: label)) = some (.label id label) := by
  have hafter : Scan.afterColon? (' ' :: ':' :: if label = [] then [] else ' ' :: label) = some label := by
    rw [Scan.afterColon?, Scan.blanks_space, Scan.blanks_of_startsWith (by rfl)]
    change some (Scan.blanks _) = some label
    by_cases hl : label = []
    · rw [if_pos hl, hl]
      rfl
    · rw [if_neg hl, Scan.blanks_space, Scan.blanks_of_startsWith (h.isTight hl).first]
  rw [description?, stateId?_append hid rfl, Option.bind_some]
  dsimp only
  rw [hafter, Option.map_some, h.trimmed]

/-! ## Composite states and pseudo-states -/

/-- the title of a composite state, before its id -/
def titleText : Option Text → Text
  | none => []
  | some t => quote t ++ (' ' :: ("as" ++ [' ']))

theorem toText_openComposite (id : Text) (title : Option Text) :
    (Line.openComposite id title).toText = "state" ++ ' ' :: (titleText title ++ (id ++ [' ', '\x7b'])) := by
  have hstate : ("state " : Text) = "state" ++ [' '] := rfl
  have has : (" as " : Text) = ' ' :: ("as" ++ [' ']) := rfl
  have hbrace : (" \x7b" : Text) = [' ', '\x7b'] := rfl
  cases title with
  | none =>
    change ("state " : Text) ++ id ++ " \x7b" = _
    rw [hstate, hbrace, titleText]
    simp
  | some t =>
    change ("state " : Text) ++ quote t ++ " as " ++ id ++ " \x7b" = _
    rw [hstate, has, hbrace, titleText]
    simp

theorem startsWith_title {id : Text} (hid : IsId id) (title : Option Text) (rest : Text) :
    Scan.startsWith isMark (titleText title ++ (id ++ rest)) = true := by
  cases title with
  | none => exact startsWith_append rest hid.isTight.first
  | some t =>
    rw [titleText, List.append_assoc]
    exact startsWith_quote t _

theorem opened?_id {id : Text} (hid : IsId id) : opened? (id ++ [' ', '\x7b']) = some id := by
  rw [opened?, stateId?_append hid rfl, Option.bind_some]
  exact if_pos rfl

theorem composite?_toText {id : Text} (hid : IsId id) (title : Option Text) :
    composite? (Line.openComposite id title).toText = some (.openComposite id (title.map readEntities)) := by
  rw [toText_openComposite, composite?, word?_append (startsWith_title hid title _), Option.bind_some]
  cases title with
  | none =>
    rw [titleText, List.nil_append, aliased?_id hid, opened?_id hid]
    rfl
  | some t =>
    have hword : Scan.word? "as" ("as" ++ ' ' :: (id ++ [' ', '\x7b'])) = some (id ++ [' ', '\x7b']) :=
      word?_append (startsWith_append _ hid.isTight.first)
    have halias : aliased? (quote t ++ (' ' :: ("as" ++ ' ' :: (id ++ [' ', '\x7b']))))
        = some (readEntities t, id ++ [' ', '\x7b']) := by
      rw [aliased?, quoted?_quote, Option.bind_some]
      dsimp only
      rw [Scan.blanks?_space (by rfl), Option.bind_some, hword, Option.map_some, unquote_quote]
    have hshape : titleText (some t) ++ (id ++ [' ', '\x7b']) = quote t ++ (' ' :: ("as" ++ ' ' :: (id ++ [' ', '\x7b']))) := by
      simp [titleText]
    rw [hshape, halias, Option.bind_some]
    dsimp only
    rw [opened?_id hid]
    rfl

theorem toText_pseudo (id marker : Text) :
    (Line.pseudo id marker).toText = "state" ++ ' ' :: (id ++ (' ' :: ("<<" ++ (marker ++ ">>")))) := by
  have hstate : ("state " : Text) = "state" ++ [' '] := rfl
  have hopen : (" <<" : Text) = ' ' :: "<<" := rfl
  change ("state " : Text) ++ id ++ " <<" ++ marker ++ ">>" = _
  rw [hstate, hopen]
  simp

theorem pseudo?_toText {id marker : Text} (hid : IsId id) (hm : IsMarker marker) :
    pseudo? (Line.pseudo id marker).toText = some (.pseudo id marker) := by
  rw [toText_pseudo, pseudo?, keyword?_append (startsWith_append _ hid.isTight.first), Option.bind_some,
    stateId?_append hid rfl, Option.bind_some]
  dsimp only
  rw [Scan.blanks_space, Scan.blanks_of_startsWith (by rfl), dropPrefix?_append, Option.bind_some, hm, Option.bind_some]
  exact if_pos rfl

/-! ## Notes -/

theorem IsMarker.exists_keyword {m : Text} (h : IsMarker m) :
    ∃ k ∈ (["fork", "join", "choice"] : List Text), m.map foldCase = k.map foldCase := by
  have h := h []
  rw [List.append_nil] at h
  exact Text.exists_keyword h

theorem IsPlace.exists_keyword {p : Text} (h : IsPlace p) :
    ∃ k ∈ (["left of", "right of"] : List Text), p.map foldCase = k.map foldCase := by
  have h := h []
  rw [List.append_nil] at h
  exact Text.exists_keyword h

theorem IsPlace.startsWith {p : Text} (h : IsPlace p) : Scan.startsWith isMark p = true :=
  startsWith_keyword (by decide) h.exists_keyword

theorem toText_note {n : Note} (h : IsLineText n.text) :
    (Line.note n).toText
      = "note" ++ ' ' :: (n.position ++ ' ' :: (n.stateId ++ (' ' :: ':' :: if n.text = [] then [] else ' ' :: n.text))) := by
  have hnote : ("note " : Text) = "note" ++ [' '] := rfl
  have hspace : (" " : Text) = [' '] := rfl
  have htext : trimRight ("note" ++ ' ' :: (n.position ++ ' ' :: n.stateId) ++ " : " ++ n.text) = _ := toText_label h
  change trimRight ("note " ++ n.position ++ " " ++ n.stateId ++ " : " ++ n.text) = _
  rw [hnote, hspace]
  simp only [List.append_assoc, List.cons_append, List.nil_append] at htext ⊢
  exact htext

theorem toText_openNote (id position : Text) :
    (Line.openNote id position).toText = "note" ++ ' ' :: (position ++ ' ' :: (id ++ [])) := by
  have hnote : ("note " : Text) = "note" ++ [' '] := rfl
  have hspace : (" " : Text) = [' '] := rfl
  change ("note " : Text) ++ position ++ " " ++ id = _
  rw [hnote, hspace]
  simp

/-- the beginning of a note, before what follows its place -/
theorem place?_append {position : Text} (hp : IsPlace position) (u : Text) :
    (Scan.keyword? "note" ("note" ++ ' ' :: (position ++ u))).bind notePlace? = some (position, u) := by
  rw [keyword?_append (startsWith_append _ hp.startsWith), Option.bind_some, hp]

/-- the state of a note, and what follows its id -/
theorem noted?_append {id rest : Text} (hid : IsId id) (hr : Scan.startsWith isWordOrHyphen rest = false) :
    (Scan.blanks? (' ' :: (id ++ rest))).bind stateId? = some (id, rest) := by
  rw [Scan.blanks?_space (startsWith_append _ hid.isTight.first), Option.bind_some, stateId?_append hid hr]

theorem note?_openNote {id position : Text} (hid : IsId id) (hp : IsPlace position) :
    note? ("note" ++ ' ' :: (position ++ ' ' :: (id ++ []))) = some (.openNote id position) := by
  rw [note?, place?_append hp, Option.bind_some]
  dsimp only
  rw [noted?_append hid rfl]
  rfl

theorem note?_toText {n : Note} (h : Line.IsPlain (.note n)) : note? (Line.note n).toText = some (.note n) := by
  obtain ⟨hid, hp, ht⟩ := h
  have hblanks : Scan.blanks (' ' :: ':' :: if n.text = [] then [] else ' ' :: n.text)
      = ':' :: if n.text = [] then [] else ' ' :: n.text := by
    rw [Scan.blanks_space, Scan.blanks_of_startsWith (by rfl)]
  have htrim : trim (if n.text = [] then [] else ' ' :: n.text) = n.text := by
    split
    · rename_i e
      rw [e]
      rfl
    · rename_i hne
      exact trim_space (ht.isTight hne)
  rw [toText_note ht, note?, place?_append hp, Option.bind_some]
  dsimp only
  rw [noted?_append hid rfl, Option.bind_some]
  dsimp only
  rw [hblanks]
  change some (Line.note ⟨n.stateId, trim (if n.text = [] then [] else ' ' :: n.text), n.position⟩) = _
  rw [htrim]

/-! ## Style classes -/

theorem toText_classDef {name : Text} (hn : IsId name) {style : Style} (hs : style.IsPlain) :
    (Line.classDef name style).toText = "classDef" ++ ' ' :: (name ++ propertiesText style) := trimRight_classDef hn hs

theorem classDef?_toText {name : Text} (hn : IsId name) {style : Style} (hs : style.IsPlain) :
    classDef? (Line.classDef name style).toText = some (.classDef name style) := by
  obtain ⟨props, hprops, hstyle⟩ := Option.map_eq_some_iff.1 (optionalRest?_propertiesText hs)
  rw [toText_classDef hn hs, classDef?, word?_append (startsWith_append _ hn.isTight.first), Option.bind_some,
    stateId?_append hn (startsWith_propertiesText style), Option.bind_some]
  dsimp only
  rw [hprops, Option.map_some, hstyle]

theorem toText_assignClass (id name : Text) :
    (Line.assignClass [id] name).toText = "class" ++ ' ' :: (id ++ ' ' :: name) := by
  have hclass : ("class " : Text) = "class" ++ [' '] := rfl
  have hspace : (" " : Text) = [' '] := rfl
  change ("class " : Text) ++ join "," [id] ++ " " ++ name = _
  rw [hclass, hspace, join_singleton]
  simp

theorem assignClass?_toText {id name : Text} (hid : IsId id) (hn : IsId name) :
    assignClass? (Line.assignClass [id] name).toText = some (.assignClass [id] name) := by
  have hcomma : Scan.comma? (' ' :: name) = none := by
    rw [Scan.comma?, Scan.blanks_space, Scan.blanks_of_startsWith hn.isTight.first]
    obtain ⟨c, r, rfl, hc⟩ := exists_cons_of_startsWith hn.startsWith
    split
    · rename_i e
      rw [(List.cons.inj e).1] at hc
      exact absurd hc (by decide)
    · rfl
  rw [toText_assignClass, assignClass?, word?_append (startsWith_append _ hid.isTight.first), Option.bind_some, Scan.lists,
    stateId?_append hid rfl]
  dsimp only
  rw [hcomma, List.findSome?_cons]
  dsimp only
  rw [Scan.blanks?_space hn.isTight.first, Option.bind_some, hn.whole?]
  rfl

/-! ## Rules in order -/

/-- no rule before that of notes claims a line with their keyword -/
theorem read?_note {u : Text} {l : Line} (h : note? ("note" ++ u) = some l) : Line.read? ("note" ++ u) = some l := by
  have hacc : Accessibility.line? ("note" ++ u) = none := rfl
  have hdirection : direction? ("note" ++ u) = none := rfl
  have hcomposite : composite? ("note" ++ u) = none := rfl
  have hclose : ("note" : Text) ++ u ≠ "\x7d" := fun e => absurd (List.cons.inj e).1 (by decide)
  have halias : alias? ("note" ++ u) = none := rfl
  have hpseudo : pseudo? ("note" ++ u) = none := rfl
  have hdeclare : Scan.word? "state" ("note" ++ u) = none := rfl
  rw [Line.read?, hacc, hdirection, hcomposite, if_neg hclose, halias, hpseudo, hdeclare, h]
  rfl

/-- no rule before those of style classes claims a line with their keywords -/
theorem read?_class {u : Text} {l : Line} (h : (classDef? ("class" ++ u) <|> assignClass? ("class" ++ u)) = some l) :
    Line.read? ("class" ++ u) = some l := by
  have hacc : Accessibility.line? ("class" ++ u) = none := rfl
  have hdirection : direction? ("class" ++ u) = none := rfl
  have hcomposite : composite? ("class" ++ u) = none := rfl
  have hclose : ("class" : Text) ++ u ≠ "\x7d" := fun e => absurd (List.cons.inj e).1 (by decide)
  have halias : alias? ("class" ++ u) = none := rfl
  have hpseudo : pseudo? ("class" ++ u) = none := rfl
  have hdeclare : Scan.word? "state" ("class" ++ u) = none := rfl
  have hnote : note? ("class" ++ u) = none := rfl
  rw [Line.read?, hacc, hdirection, hcomposite, if_neg hclose, halias, hpseudo, hdeclare, hnote]
  rcases Scan.orElse_eq_some_iff.1 h with h | ⟨hdef, h⟩
  · rw [h]
    rfl
  · rw [hdef, h]
    rfl

/-- no rule before that of transitions claims a line that starts at the beginning -/
theorem read?_terminal {u : Text} {l : Line} (h : transition? (terminal ++ u) = some l) :
    Line.read? (terminal ++ u) = some l := by
  have hacc : Accessibility.line? (terminal ++ u) = none := rfl
  have hdirection : direction? (terminal ++ u) = none := rfl
  have hcomposite : composite? (terminal ++ u) = none := rfl
  have hclose : terminal ++ u ≠ "\x7d" := fun e => absurd (List.cons.inj e).1 (by decide)
  have halias : alias? (terminal ++ u) = none := rfl
  have hpseudo : pseudo? (terminal ++ u) = none := rfl
  have hdeclare : Scan.word? "state" (terminal ++ u) = none := rfl
  have hnote : note? (terminal ++ u) = none := rfl
  have hclassDef : classDef? (terminal ++ u) = none := rfl
  have hassign : assignClass? (terminal ++ u) = none := rfl
  rw [Line.read?, hacc, hdirection, hcomposite, if_neg hclose, halias, hpseudo, hdeclare, hnote, hclassDef, hassign, h]
  rfl

/-- **lines read back**, with the entities of titles read -/
theorem read?_toText {l : Line} (h : l.IsPlain) : Line.read? l.toText = some l.settled := by
  cases l with
  | accessibility line =>
    have hline : line.IsPlain := by cases line <;> exact AccessibilityLine.isPlain_of_isLineText h.1 h.2
    change Line.read? (accessibilityText line) = _
    rw [Line.read?, line?_accessibilityText hline]
    rfl
  | direction d => cases d <;> rfl
  | openComposite id title =>
    have hread := composite?_toText h.1 title
    rw [toText_openComposite] at hread ⊢
    have hacc : Accessibility.line? ("state" ++ ' ' :: (titleText title ++ (id ++ [' ', '\x7b']))) = none := rfl
    have hdirection : direction? ("state" ++ ' ' :: (titleText title ++ (id ++ [' ', '\x7b']))) = none := rfl
    rw [Line.read?, hacc, hdirection, hread]
    rfl
  | closeComposite => rfl
  | label id text =>
    obtain ⟨hid, ht, hne⟩ := h
    rw [toText_label ht, read?_sequel hid (.colon _) (Or.inl hne), transition?_eq_none hid (Or.inr ⟨_, rfl⟩),
      description?_toText hid ht]
    rfl
  | pseudo id marker =>
    have hread := pseudo?_toText h.1 h.2
    rw [toText_pseudo] at hread ⊢
    generalize hrest : ' ' :: ("<<" ++ (marker ++ ">>")) = rest at hread ⊢
    have hopened : opened? (id ++ rest) = none := by
      rw [← hrest, opened?, stateId?_append h.1 rfl]
      rfl
    have hword : Scan.word? "state" ("state" ++ ' ' :: (id ++ rest)) = some (id ++ rest) :=
      word?_append (startsWith_append _ h.1.isTight.first)
    have hcomposite : composite? ("state" ++ ' ' :: (id ++ rest)) = none := by
      rw [composite?, hword, Option.bind_some, aliased?_id h.1, hopened]
      rfl
    have halias : alias? ("state" ++ ' ' :: (id ++ rest)) = none := by
      rw [alias?, hword, Option.bind_some, aliased?_id h.1]
      rfl
    have hacc : Accessibility.line? ("state" ++ ' ' :: (id ++ rest)) = none := rfl
    have hdirection : direction? ("state" ++ ' ' :: (id ++ rest)) = none := rfl
    have hclose : ("state" : Text) ++ ' ' :: (id ++ rest) ≠ "\x7d" := fun e => absurd (List.cons.inj e).1 (by decide)
    rw [Line.read?, hacc, hdirection, hcomposite, if_neg hclose, halias, hread]
    rfl
  | declare id =>
    have hread := read?_sequel h .nil (Or.inr fun _ e => absurd e (by simp))
    have hdescription : description? (id ++ []) = none := by
      rw [description?, stateId?_append h rfl]
      rfl
    rw [transition?_eq_none h (Or.inl rfl), hdescription, List.append_nil, h.whole?] at hread
    exact hread
  | note n =>
    have hread := note?_toText h
    rw [toText_note h.2.2] at hread ⊢
    exact read?_note hread
  | openNote id position =>
    have hread := note?_openNote h.1 h.2
    rw [toText_openNote]
    exact read?_note hread
  | classDef name style =>
    have hread := classDef?_toText h.1 h.2.1
    rw [toText_classDef h.1 h.2.1] at hread ⊢
    exact read?_class (u := "Def" ++ ' ' :: (name ++ propertiesText style))
      (Scan.orElse_eq_some_iff.2 (Or.inl hread))
  | assignClass ids name =>
    obtain ⟨⟨id, rfl, hid⟩, hn⟩ := h
    have hread := assignClass?_toText hid hn
    rw [toText_assignClass] at hread ⊢
    exact read?_class (Scan.orElse_eq_some_iff.2 (Or.inr ⟨rfl, hread⟩))
  | transition source target text =>
    have hread := transition?_toText h
    rw [toText_transition fun t e => (h.2.2 t e).1] at hread ⊢
    rcases h.1 with rfl | hs
    · exact read?_terminal hread
    · rw [read?_sequel hs (.arrow _) (Or.inr fun u e => absurd (List.cons.inj (List.cons.inj e).2).1 (by decide)), hread]
      rfl

/-! ## Ends of lines -/

theorem IsEndpoint.isLineStart {t : Text} (h : IsEndpoint t) : Scan.startsWith isLineStart t = true := by
  rcases h with rfl | h
  · decide
  · exact h.isLineStart

theorem IsEndpoint.endsWith {t : Text} (h : IsEndpoint t) : Text.endsWith isLineEnd t = true := by
  rcases h with rfl | h
  · decide
  · exact h.endsWith

theorem IsEndpoint.lineFeed {t : Text} (h : IsEndpoint t) : '\n' ∉ t := by
  rcases h with rfl | h
  · decide
  · exact h.lineFeed

theorem IsMarker.lineFeed {m : Text} (h : IsMarker m) : '\n' ∉ m :=
  lineFeed_not_mem_keyword (by decide) h.exists_keyword

theorem IsPlace.lineFeed {p : Text} (h : IsPlace p) : '\n' ∉ p :=
  lineFeed_not_mem_keyword (by decide) h.exists_keyword

/-- a text after a colon, with nothing but the colon where it is empty -/
theorem endsWith_afterColon {u : Text} (h : IsLineText u) (t : Text) :
    endsWith isLineEnd (t ++ (' ' :: ':' :: if u = [] then [] else ' ' :: u)) = true := by
  split
  · exact endsWith_append t (by decide)
  · rename_i hne
    exact endsWith_append t (endsWith_cons ' ' (endsWith_cons ':' (endsWith_cons ' ' (h.endsWith hne))))

theorem lineFeed_not_mem_afterColon {u : Text} (h : '\n' ∉ u) :
    '\n' ∉ ' ' :: ':' :: if u = [] then ([] : Text) else ' ' :: u := by
  split <;> simp [h]

theorem isContent_transition {source target : Text} {label : Option Text}
    (h : Line.IsPlain (.transition source target label)) :
    SourceLine.IsContent (Line.transition source target label).toText := by
  obtain ⟨hs, ht, hl⟩ := h
  rw [toText_transition fun t e => (hl t e).1]
  refine .keyword hs.isLineStart hs.lineFeed ?_ ?_
  · exact endsWith_append _ (endsWith_cons ' ' (endsWith_append _ (endsWith_cons ' ' (endsWith_labelText ht.endsWith hl))))
  · simp only [List.mem_cons, List.mem_append, not_or]
    exact ⟨by decide, by decide, by decide, ht.lineFeed, lineFeed_not_mem_labelText fun t e => (hl t e).2.lineFeed⟩

/-- what is printed on a line is what the line holds -/
theorem isContent_toText {l : Line} (h : l.IsPlain) : SourceLine.IsContent l.toText := by
  cases l with
  | accessibility line =>
    have hline : line.value ≠ [] ∧ IsLineText line.value := by cases line <;> exact h
    exact isContent_accessibilityText (AccessibilityLine.isPlain_of_isLineText hline.1 hline.2) hline.2.semicolon
  | direction d =>
    change SourceLine.IsContent ("direction " ++ d.toText)
    have hd : endsWith isLineEnd d.toText = true ∧ '\n' ∉ d.toText := by cases d <;> decide
    exact .keyword (by decide) (by decide) (endsWith_append _ hd.1) hd.2
  | openComposite id title =>
    rw [toText_openComposite]
    refine .keyword (by decide) (by decide) ?_ ?_
    · exact endsWith_append _ (endsWith_cons ' ' (endsWith_append _ (endsWith_append _ (by decide))))
    · have htitle : '\n' ∉ titleText title := by
        cases title with
        | none => simp [titleText]
        | some t =>
          rw [titleText, List.mem_append, not_or]
          exact ⟨lineFeed_not_mem_quote (h.2 t rfl), by decide⟩
      simp only [List.mem_cons, List.mem_append, not_or]
      exact ⟨by decide, htitle, h.1.lineFeed, by decide, by decide, by simp⟩
  | closeComposite => exact .of_ends (by decide) (by decide) (by decide)
  | label id text =>
    rw [toText_label h.2.1]
    exact .keyword h.1.isLineStart h.1.lineFeed (endsWith_afterColon h.2.1 id) (lineFeed_not_mem_afterColon h.2.1.lineFeed)
  | pseudo id marker =>
    rw [toText_pseudo]
    refine .keyword (by decide) (by decide) ?_ ?_
    · exact endsWith_append _ (endsWith_cons ' ' (endsWith_append _ (endsWith_cons ' ' (endsWith_append _
        (endsWith_append _ (by decide))))))
    · simp only [List.mem_cons, List.mem_append, not_or]
      exact ⟨by decide, h.1.lineFeed, by decide, by decide, h.2.lineFeed, by decide⟩
  | declare id => exact .of_ends h.isLineStart h.endsWith h.lineFeed
  | note n =>
    obtain ⟨hid, hp, ht⟩ := h
    have hend := endsWith_afterColon ht ("note" ++ ' ' :: (n.position ++ ' ' :: n.stateId))
    simp only [List.append_assoc, List.cons_append] at hend
    rw [toText_note ht]
    refine .keyword (by decide) (by decide) hend ?_
    simp only [List.mem_cons, List.mem_append, not_or]
    have hrest := lineFeed_not_mem_afterColon ht.lineFeed
    rw [List.mem_cons, List.mem_cons, not_or, not_or] at hrest
    exact ⟨by decide, hp.lineFeed, by decide, hid.lineFeed, hrest⟩
  | openNote id position =>
    rw [toText_openNote, List.append_nil]
    refine .keyword (by decide) (by decide) ?_ ?_
    · exact endsWith_append _ (endsWith_cons ' ' (endsWith_append _ (endsWith_cons ' ' h.1.endsWith)))
    · simp only [List.mem_cons, List.mem_append, not_or]
      exact ⟨by decide, h.2.lineFeed, by decide, h.1.lineFeed⟩
  | classDef name style =>
    obtain ⟨hn, hs, hsemi⟩ := h
    rw [toText_classDef hn hs]
    exact isContent_classDef hn hs hsemi
  | assignClass ids name =>
    obtain ⟨⟨id, rfl, hid⟩, hn⟩ := h
    rw [toText_assignClass]
    refine .keyword (by decide) (by decide) ?_ ?_
    · exact endsWith_append _ (endsWith_cons ' ' (endsWith_append _ (endsWith_cons ' ' hn.endsWith)))
    · simp only [List.mem_cons, List.mem_append, not_or]
      exact ⟨by decide, hid.lineFeed, by decide, hn.lineFeed⟩
  | transition source target text => exact isContent_transition h

end DiagramText.StateDiagram

/-
Lines of a sequence diagram read back. `Line.toText` writes a line, and `Line.IsPlain` says that its parts fit the
grammar. The rules are tried in a fixed order, so `read?_toText` shows for each kind of line that no earlier rule takes
it: a keyword is told from its letters, and the name at the beginning of a message from what follows it.
-/
import DiagramText.Proofs.Accessibility
import DiagramText.Proofs.Sequence.Message
import Mathlib.Data.List.TakeWhile

namespace DiagramText.Sequence

open DiagramText.Text

/-! ## Writing -/

/-- digits after a keyword, if there are any -/
def digitsText : Option Text → Text
  | some digits => ' ' :: digits
  | none => []

/-- a line as it is written -/
def Line.toText : Line → Text
  | .actor a => a.toText
  | .accessibility line => accessibilityText line
  | .title t => "title " ++ t
  | .openBox label color => Box.head ⟨label, color, []⟩
  | .note n => trimRight ("Note " ++ n.position ++ " " ++ join "," n.actorIds ++ ": " ++ n.text)
  | .openBlock opening label => trimRight (opening.keyword ++ " " ++ label)
  | .divide keyword label => trimRight (keyword ++ " " ++ label)
  | .close => "end"
  | .activation id active => (if active then "activate " else "deactivate ") ++ id
  | .autonumberOff => "autonumber off"
  | .autonumber start step => "autonumber" ++ digitsText start ++ digitsText step
  | .message m => m.toText

/-- an actor that can be written -/
structure Actor.IsPlain (a : Actor) : Prop where
  id : Scan.isName isActorChar a.id = true
  label : IsLineText a.label
  ne_nil : a.label ≠ []

/-- a note that can be written: beside one actor, or over one or two -/
structure Note.IsPlain (n : Note) : Prop where
  position : n.position ∈ (["left of", "right of", "over"] : List Text)
  actors : (∃ a, n.actorIds = [a]) ∨ n.position = "over" ∧ ∃ a b, n.actorIds = [a, b]
  names : ∀ id ∈ n.actorIds, Scan.isName isActorChar id = true
  text : IsLineText n.text

/-- a place of notes that is read as it is written -/
def IsPlace (place : Text) : Prop := ∀ rest, notePlace? ["left of", "right of", "over"] (place ++ rest) = some (place, rest)

/-- a note whose parts fit the grammar: its place may be written in any form of its letters -/
structure Note.IsLegible (n : Note) : Prop where
  position : IsPlace n.position
  actors : (∃ a, n.actorIds = [a]) ∨ n.position = "over" ∧ ∃ a b, n.actorIds = [a, b]
  names : ∀ id ∈ n.actorIds, Scan.isName isActorChar id = true
  text : IsLineText n.text

theorem Note.IsPlain.isLegible {n : Note} (h : n.IsPlain) : n.IsLegible where
  position rest := by
    have hp := h.position
    simp only [List.mem_cons, List.not_mem_nil, or_false] at hp
    rcases hp with hp | hp | hp <;> rw [hp] <;> rfl
  actors := h.actors
  names := h.names
  text := h.text

theorem IsPlace.exists_keyword {place : Text} (h : IsPlace place) :
    ∃ k ∈ (["left of", "right of", "over"] : List Text), place.map foldCase = k.map foldCase := by
  have h := h []
  rw [List.append_nil] at h
  exact Text.exists_keyword h

/-- decimal digits -/
def IsDigits (t : Text) : Prop := t ≠ [] ∧ t.all isDigit = true

/-- a line whose parts fit the grammar; boxes are left out -/
def Line.IsPlain : Line → Prop
  | .actor a => a.IsPlain
  | .accessibility (.title v) | .accessibility (.description v) => IsLineText v ∧ v ≠ []
  | .title t => IsLineText t ∧ t ≠ [] ∧ Scan.startsWith (· = ':') t = false
  | .openBox _ _ => False
  | .note n => n.IsPlain
  | .openBlock _ label => IsLineText label
  | .divide keyword label => (∃ kind : SectionedKind, keyword = kind.divider) ∧ IsLineText label
  | .close => True
  | .activation id _ => Scan.isName isActorChar id = true
  | .autonumberOff => True
  | .autonumber start step => (∀ t, start = some t → IsDigits t) ∧ (∀ t, step = some t → IsDigits t ∧ start ≠ none)
  | .message m => m.IsPlain

/-- trailing white space of a keyword without a label goes -/
theorem trimRight_label {t label : Text} (ht : endsWith isMark t = true) (hl : IsLineText label) :
    trimRight (t ++ " " ++ label) = t ++ afterKeyword label := by
  unfold afterKeyword
  split
  · rename_i he
    rw [he, List.append_nil, List.append_nil, trimRight_append (by decide), trimRight_of_endsWith ht]
  · rename_i he
    rw [trimRight_of_endsWith (endsWith_append _ (hl.isTight he).last), List.append_assoc]
    rfl

/-! ## Rules that do not apply -/

section

variable {t : Text}

theorem word?_eq_none {w : Text} (h : dropPrefix? w t = none) : Scan.word? w t = none := by
  rw [Scan.word?, h]
  rfl

theorem declaration?_eq_none (kind : ActorKind) (h : Scan.word? kind.keyword t = none) : declaration? t kind = none := by
  rw [declaration?, h]
  rfl

theorem actor?_eq_none (h1 : Scan.word? "participant" t = none) (h2 : Scan.word? "actor" t = none) : actor? t = none := by
  rw [actor?, List.findSome?_cons, declaration?_eq_none .participant h1, List.findSome?_cons,
    declaration?_eq_none .actor h2]
  rfl

theorem title?_eq_none (h : dropPrefix? "title" t = none) : title? t = none := by
  rw [title?, h]
  rfl

theorem note?_eq_none (h : Scan.keyword? "note" t = none) : note? t = none := by
  rw [note?, h]
  rfl

theorem labelled?_eq_none {w : Text} (h : dropPrefix? w t = none) : labelled? w t = none := by
  rw [labelled?, h]
  rfl

theorem opening?_eq_none (h : ∀ o ∈ Opening.all, labelled? o.keyword t = none) : opening? t = none := by
  rw [opening?, List.findSome?_eq_none_iff]
  intro o ho
  rw [h o ho]
  rfl

theorem divider?_eq_none (h : ∀ w ∈ (["else", "and", "option"] : List Text), labelled? w t = none) : divider? t = none := by
  rw [divider?, List.findSome?_eq_none_iff]
  intro w hw
  rw [h w hw]
  rfl

theorem activation?_eq_none (h1 : Scan.word? "activate" t = none) (h2 : Scan.word? "deactivate" t = none) :
    activation? t = none := by
  rw [activation?, soleActor?, soleActor?, h1, h2]
  rfl

end

/-! ## Each kind of line -/

/-- a label after its keyword -/
theorem labelled?_keyword (w : Text) {label : Text} (hl : IsLineText label) :
    labelled? w (w ++ afterKeyword label) = some label := by
  rw [labelled?, dropPrefix?_append, Option.bind_some]
  unfold afterKeyword
  split
  · rename_i he
    rw [he]
    rfl
  · rename_i he
    rw [Scan.optionalRest?, if_neg (by simp), Scan.blanks?_space (hl.isTight he).first, Option.map_some, hl.trimmed]

theorem actor?_toText {a : Actor} (h : a.IsPlain) : actor? a.toText = some a := by
  obtain ⟨id, label, kind⟩ := a
  have hid : Scan.startsWith isMark id = true := startsWith_mono (fun _ => isMark_of_isActorChar) (startsWith_actor h.id)
  have hdeclaration : declaration? (Actor.toText ⟨id, label, kind⟩) kind = some ⟨id, label, kind⟩ := by
    unfold Actor.toText
    by_cases hl : label = id
    · subst hl
      have hw : Scan.word? kind.keyword (kind.keyword ++ " " ++ label) = some label := by
        rw [List.append_assoc]
        exact word?_append hid
      simp only [if_true]
      rw [declaration?, hw, Option.bind_some, actorId?_isName h.id, Option.bind_some]
      rfl
    · have ht : Scan.startsWith isMark label = true := (h.label.isTight h.ne_nil).first
      have hw : Scan.word? kind.keyword (kind.keyword ++ " " ++ id ++ " as " ++ label)
          = some (id ++ ' ' :: ("as" ++ ' ' :: label)) := by
        have := word?_append (w := kind.keyword) (startsWith_append (' ' :: ("as" ++ ' ' :: label)) hid)
        simpa [List.append_assoc] using this
      have hactor : actorId? (id ++ ' ' :: ("as" ++ ' ' :: label)) = some (id, ' ' :: ("as" ++ ' ' :: label)) :=
        actorId?_append h.id (Scan.stops_cons _ (by decide) (by decide))
      have hblanks : Scan.blanks? (' ' :: ("as" ++ ' ' :: label)) = some ("as" ++ ' ' :: label) :=
        Scan.blanks?_space (startsWith_append _ (by decide))
      simp only [hl, if_false]
      rw [declaration?, hw, Option.bind_some, hactor, Option.bind_some]
      dsimp only
      rw [if_neg (by simp), hblanks, Option.bind_some, word?_append ht, Option.bind_some, if_neg h.ne_nil, h.label.trimmed]
  rw [actor?, List.findSome?_cons]
  cases kind with
  | participant => rw [hdeclaration]
  | actor =>
    have hnone : declaration? (Actor.toText ⟨id, label, .actor⟩) .participant = none := by
      refine declaration?_eq_none .participant (word?_eq_none ?_)
      unfold Actor.toText
      split <;> rfl
    rw [hnone, List.findSome?_cons, hdeclaration]

/-- the title that a title is read as once it is written: a colon at its beginning is taken for the one that may follow the
keyword -/
def shownTitle (t : Text) : Text :=
  match t with
  | ':' :: r => trim r
  | _ => t

theorem shownTitle_eq_self_iff {t : Text} : shownTitle t = t ↔ Scan.startsWith (· = ':') t = false := by
  unfold shownTitle
  split
  · rename_i r
    have hshorter : trim r ≠ ':' :: r := fun he => absurd (congrArg List.length he) (by
      have htrim : (trim r).length ≤ r.length :=
        (length_dropRightWhile_le isBlank _).trans (List.dropWhile_sublist isBlank).length_le
      rw [List.length_cons]
      omega)
    simp [hshorter, Scan.startsWith]
  · rename_i hne
    refine iff_of_true rfl ?_
    cases t with
    | nil => rfl
    | cons c r => exact decide_eq_false fun hc => hne r (hc ▸ rfl)

theorem title?_toText {t : Text} (hl : IsLineText t) (hn : t ≠ []) : title? ("title" ++ ' ' :: t) = some (shownTitle t) := by
  have ht := hl.isTight hn
  rw [title?, dropPrefix?_append, Option.bind_some, Scan.blanks_space, Scan.blanks_of_startsWith ht.first,
    Scan.blanks?_space ht.first]
  split
  · rfl
  · rename_i hcolon
    have hc : Scan.startsWith (· = ':') t = false := Bool.eq_false_iff.2 fun hc => by
      obtain ⟨c, r, rfl, hc⟩ := exists_cons_of_startsWith hc
      exact hcolon r (of_decide_eq_true hc ▸ rfl)
    rw [Option.map_some, hl.trimmed, shownTitle_eq_self_iff.2 hc]

/-- the line of a title sets a title -/
theorem read?_title {t : Text} (hl : IsLineText t) (hn : t ≠ []) : actor? ("title" ++ ' ' :: t) = none ∧
    Line.read? ("title" ++ ' ' :: t) = some (.title (shownTitle t)) := by
  refine ⟨actor?_eq_none rfl rfl, ?_⟩
  rw [Line.read?, line?_eq_none rfl, title?_toText hl hn]
  rfl

/-- the actors of a note, as far as its text -/
theorem noteActors?_join {n : Note} (h : n.IsLegible) (rest : Text) :
    noteActors? (join "," n.actorIds ++ ':' :: rest) = some (n.actorIds, ':' :: rest) := by
  have hcolon : Scan.comma? (':' :: rest) = none := by
    have hb : Scan.blanks (':' :: rest) = ':' :: rest := Scan.blanks_of_startsWith rfl
    rw [Scan.comma?, hb]
    rfl
  have hsingle : ∀ a, n.actorIds = [a] → noteActors? (a ++ ':' :: rest) = some ([a], ':' :: rest) := by
    intro a ha
    simp only [noteActors?, actorId?_colon (h.names a (by simp [ha])), Option.map_some, hcolon, Option.bind_none]
  rcases h.actors with ⟨a, ha⟩ | ⟨-, a, b, hab⟩
  · rw [ha, join_singleton]
    exact hsingle a ha
  · have hb := h.names b (by simp [hab])
    have hcomma : Scan.comma? (',' :: (b ++ ':' :: rest)) = some (b ++ ':' :: rest) := by
      have hblanks : Scan.blanks (',' :: (b ++ ':' :: rest)) = ',' :: (b ++ ':' :: rest) := Scan.blanks_of_startsWith rfl
      rw [Scan.comma?, hblanks]
      refine congrArg some (Scan.blanks_of_startsWith (startsWith_append _ ?_))
      exact startsWith_mono (fun _ => isMark_of_isActorChar) (startsWith_actor hb)
    have ha : actorId? (a ++ ',' :: (b ++ ':' :: rest)) = some (a, ',' :: (b ++ ':' :: rest)) :=
      actorId?_append (h.names a (by simp [hab])) (Scan.stops_cons _ (by decide) (by decide))
    have htext : join "," [a, b] ++ ':' :: rest = a ++ ',' :: (b ++ ':' :: rest) := by
      rw [join_cons_cons, join_singleton]
      simp
    simp only [hab, htext, noteActors?, ha, Option.map_some, hcomma, Option.bind_some, actorId?_colon hb]

theorem toText_note {n : Note} (h : IsLineText n.text) : Line.toText (.note n)
    = "Note" ++ ' ' :: (n.position ++ ' ' :: (join "," n.actorIds ++ ':' :: afterKeyword n.text)) := by
  have hends : endsWith isMark ("Note " ++ n.position ++ " " ++ join "," n.actorIds ++ ":") = true :=
    endsWith_append _ (by decide : endsWith isMark [':'] = true)
  have hnote : ("Note " : Text) = "Note" ++ [' '] := rfl
  have hcolon : (": " : Text) = ":" ++ " " := rfl
  have htrim := trimRight_label hends h
  change trimRight ("Note " ++ n.position ++ " " ++ join "," n.actorIds ++ ": " ++ n.text) = _
  rw [hcolon, ← List.append_assoc, htrim, hnote]
  simp only [List.append_assoc, List.cons_append, List.nil_append]
  rfl

theorem note?_toText {n : Note} (h : n.IsLegible) : note? (Line.toText (.note n)) = some n := by
  obtain ⟨position, ids, text⟩ := n
  have hactors := noteActors?_join h (afterKeyword text)
  have hfirst : Scan.startsWith isMark (join "," ids ++ ':' :: afterKeyword text) = true := by
    rcases h.actors with ⟨a, ha⟩ | ⟨-, a, b, hab⟩
    · dsimp only at ha
      rw [ha, join_singleton]
      exact startsWith_append _ (startsWith_mono (fun _ => isMark_of_isActorChar)
        (startsWith_actor (h.names a (by simp [ha]))))
    · dsimp only at hab
      rw [hab, join_cons_cons, List.append_assoc]
      exact startsWith_append _ (startsWith_append _ (startsWith_mono (fun _ => isMark_of_isActorChar)
        (startsWith_actor (h.names a (by simp [hab])))))
  have hposition : Scan.startsWith isMark position = true := startsWith_keyword (by decide) h.position.exists_keyword
  have hkeyword : dropKeyword? "note" ("Note" ++ ' ' :: (position ++ ' ' :: (join "," ids ++ ':' :: afterKeyword text)))
      = some (' ' :: (position ++ ' ' :: (join "," ids ++ ':' :: afterKeyword text))) := rfl
  have hafter : Scan.afterColon? (':' :: afterKeyword text) = some text := by
    have hb : Scan.blanks (':' :: afterKeyword text) = ':' :: afterKeyword text := Scan.blanks_of_startsWith rfl
    rw [Scan.afterColon?, hb]
    change some (Scan.blanks (afterKeyword text)) = some text
    unfold afterKeyword
    split
    · rename_i he
      rw [he]
      rfl
    · rename_i he
      rw [Scan.blanks_space, Scan.blanks_of_startsWith (h.text.isTight he).first]
  rw [toText_note h.text, note?, Scan.keyword?, hkeyword, Option.bind_some, Scan.blanks?_space (startsWith_append _ hposition),
    Option.bind_some, h.position, Option.bind_some]
  dsimp only
  rw [Scan.blanks?_space hfirst, Option.bind_some, hactors, Option.bind_some]
  dsimp only
  rw [hafter, Option.map_some, h.text.trimmed]

theorem read?_note {n : Note} (h : n.IsLegible) : actor? (Line.toText (.note n)) = none ∧
    Line.read? (Line.toText (.note n)) = some (.note n) := by
  have hread := note?_toText h
  rw [toText_note h.text] at hread ⊢
  refine ⟨actor?_eq_none rfl rfl, ?_⟩
  rw [Line.read?, line?_eq_none rfl, title?_eq_none rfl, hread]
  rfl

theorem soleActor?_keyword (w : Text) {id : Text} (h : Scan.isName isActorChar id = true) :
    soleActor? w (w ++ ' ' :: id) = some id := by
  rw [soleActor?, word?_append (startsWith_mono (fun _ => isMark_of_isActorChar) (startsWith_actor h)), Option.bind_some,
    actorId?_isName h, Option.bind_some]
  rfl

theorem digits?_append {t rest : Text} (h : IsDigits t) (hr : Scan.startsWith isDigit rest = false) :
    digits? (' ' :: (t ++ rest)) = some (t, rest) := by
  have hmark : Scan.startsWith isMark (t ++ rest) = true :=
    startsWith_append _ (startsWith_mono (fun _ => isMark_of_isDigit) (startsWith_of_all h.1 h.2))
  rw [digits?, Scan.blanks?_space hmark, Option.bind_some, run?_digits h.1 h.2 hr]

theorem autonumber?_toText {start step : Option Text} (h : Line.IsPlain (.autonumber start step)) :
    autonumber? ("autonumber" ++ (digitsText start ++ digitsText step)) = some (start, step) := by
  rw [autonumber?, dropPrefix?_append, Option.bind_some]
  cases start with
  | none =>
    cases step with
    | none => rfl
    | some t => exact absurd rfl (h.2 t rfl).2
  | some s =>
    have hs := h.1 s rfl
    cases step with
    | none =>
      have hd : digits? (digitsText (some s) ++ digitsText none) = some (s, []) := digits?_append hs rfl
      rw [hd]
      rfl
    | some t =>
      have ht := (h.2 t rfl).1
      have hd : digits? (digitsText (some s) ++ digitsText (some t)) = some (s, ' ' :: t) :=
        digits?_append hs (by decide : isDigit ' ' = false)
      have hd' : digits? (' ' :: t) = some (t, []) := by simpa using digits?_append ht (rfl : Scan.startsWith isDigit [] = false)
      rw [hd]
      dsimp only
      rw [hd']
      rfl

/-! ## The rules in order -/

/-- what may follow a beginning of a message that only holds characters of names -/
def isAfterName (c : Char) : Bool := isActorChar c || c = '-' || c = '<'

theorem isAfterName_ne {c : Char} (h : isAfterName c = true) : isMark c = true ∧ c ≠ ':' := by
  simp only [isAfterName, Bool.or_eq_true, decide_eq_true_eq] at h
  rcases h with (h | rfl) | rfl
  · refine ⟨isMark_of_isActorChar h, ?_⟩
    rintro rfl
    exact absurd h (by decide)
  all_goals decide

section

variable {m : Message} (h : m.IsLegible)
include h

/-- a beginning that only holds characters of names ends in the source or before the arrow -/
theorem startsWith_isAfterName {pre r : Text} (hpre : pre.all isActorChar = true) (he : m.toText = pre ++ r) :
    Scan.startsWith isAfterName r = true := by
  have harrow : ∀ t, Scan.startsWith (fun c => !isActorChar c && isAfterName c) (m.arrow.toText ++ t) = true := by
    intro t
    refine startsWith_append t ?_
    cases m.arrow <;> decide
  rw [Message.toText_eq h.isSpelled] at he
  rcases List.append_eq_append_iff.1 he with ⟨n, rfl, e⟩ | ⟨n, e, rfl⟩
  · -- the beginning goes beyond the source, where only the arrow can follow
    cases n with
    | nil =>
      rw [List.nil_append] at e
      rw [← e]
      exact startsWith_mono (fun c hc => (Bool.and_eq_true_iff.1 hc).2) (harrow _)
    | cons c n =>
      have hc := harrow (markText m ++ (m.target ++ tailText m.text))
      rw [e] at hc
      simp only [List.all_append, List.all_cons, Bool.and_eq_true] at hpre
      simp [Scan.startsWith, hpre.2.1] at hc
  · cases n with
    | nil => exact startsWith_mono (fun c hc => (Bool.and_eq_true_iff.1 hc).2) (harrow _)
    | cons c n =>
      have hsource := h.source
      rw [Scan.isName_eq isActorChar_hyphen, Bool.and_eq_true] at hsource
      have hall := Scan.all_of_isNameTail hsource.2
      rw [e] at hall
      simp only [List.all_append, List.all_cons, Bool.and_eq_true] at hall
      have hc : (isActorChar c || decide (c = '-')) = true := hall.2.1
      change isAfterName c = true
      rw [isAfterName, hc, Bool.true_or]

theorem dropPrefix?_message {w r : Text} (hw : w.all isActorChar = true) (hd : dropPrefix? w m.toText = some r) :
    Scan.startsWith isMark r = true ∧ Scan.startsWith (· = ':') r = false := by
  have hr := startsWith_isAfterName h hw (dropPrefix?_eq_some_iff.1 hd)
  obtain ⟨c, r, rfl, hc⟩ := exists_cons_of_startsWith hr
  exact ⟨(isAfterName_ne hc).1, decide_eq_false (isAfterName_ne hc).2⟩

theorem blanks?_message {w r : Text} (hw : w.all isActorChar = true) (hd : dropPrefix? w m.toText = some r) :
    Scan.blanks? r = none := by
  obtain ⟨c, r, rfl, hc⟩ := exists_cons_of_startsWith (dropPrefix?_message h hw hd).1
  exact Scan.blanks?_eq_none (by simpa [Scan.startsWith, isMark] using hc)

theorem word?_message {w : Text} (hw : w.all isActorChar = true) : Scan.word? w m.toText = none := by
  rw [Scan.word?]
  cases hd : dropPrefix? w m.toText with
  | none => rfl
  | some r => exact blanks?_message h hw hd

theorem labelled?_message {w : Text} (hw : w.all isActorChar = true) : labelled? w m.toText = none := by
  rw [labelled?]
  cases hd : dropPrefix? w m.toText with
  | none => rfl
  | some r =>
    have hne : r ≠ [] := by
      rintro rfl
      exact absurd (dropPrefix?_message h hw hd).1 (by decide)
    rw [Option.bind_some, Scan.optionalRest?, if_neg hne, blanks?_message h hw hd]
    rfl

theorem value?_message {w : Text} (hw : w.all isActorChar = true) : Accessibility.value? w m.toText = none := by
  rw [Accessibility.value?]
  cases hd : dropPrefix? w m.toText with
  | none => rfl
  | some r =>
    obtain ⟨hmark, hcolon⟩ := dropPrefix?_message h hw hd
    rw [Option.bind_some, Scan.blanks_of_startsWith hmark]
    split
    · exact absurd hcolon (by simp [Scan.startsWith])
    · rfl

theorem title?_message : title? m.toText = none := by
  rw [title?]
  cases hd : dropPrefix? "title" m.toText with
  | none => rfl
  | some r =>
    obtain ⟨hmark, hcolon⟩ := dropPrefix?_message h (by decide) hd
    rw [Option.bind_some, Scan.blanks_of_startsWith hmark, blanks?_message h (by decide) hd]
    split
    · exact absurd hcolon (by simp [Scan.startsWith])
    · rfl

theorem note_message : Scan.keyword? "note" m.toText = none := by
  rw [Scan.keyword?]
  cases hd : dropKeyword? "note" m.toText with
  | none => rfl
  | some r =>
    obtain ⟨pre, he, hpre⟩ := dropFolded?_eq_some hd
    -- what is taken for the keyword in another letter case is made of letters
    have hletters : (pre.map foldCase).all isLetter = true := by
      rw [hpre]
      decide
    have hall : pre.all isActorChar = true := by
      rw [List.all_map, List.all_eq_true] at hletters
      rw [List.all_eq_true]
      intro c hc
      simp [isActorChar, isWord_of_foldCase (hletters c hc)]
    obtain ⟨c, r, rfl, hc⟩ := exists_cons_of_startsWith (startsWith_isAfterName h hall he)
    exact Scan.blanks?_eq_none (t := c :: r) (by simpa [Scan.startsWith, isMark] using (isAfterName_ne hc).1)

theorem autonumber?_message : autonumber? m.toText = none := by
  rw [autonumber?]
  cases hd : dropPrefix? "autonumber" m.toText with
  | none => rfl
  | some r =>
    have hne : r ≠ [] := by
      rintro rfl
      exact absurd (dropPrefix?_message h (by decide) hd).1 (by decide)
    rw [Option.bind_some, digits?, blanks?_message h (by decide) hd]
    exact if_neg hne

/-- no keyword claims a message -/
theorem read?_message_eq : actor? m.toText = none ∧ Line.read? m.toText = (message? m.toText).map .message := by
  have hend : m.toText ≠ "end" := by
    intro he
    exact absurd (startsWith_isAfterName (r := []) h (by decide : List.all "end" isActorChar = true) (by rw [he]; rfl)) (by decide)
  have hbox := labelled?_message h (w := "box") (by decide)
  rw [labelled?, Option.map_eq_none_iff] at hbox
  refine ⟨actor?_eq_none (word?_message h (by decide)) (word?_message h (by decide)), ?_⟩
  rw [Line.read?, Accessibility.line?, value?_message h (by decide), value?_message h (by decide), title?_message h, hbox,
    note?_eq_none (note_message h), opening?_eq_none fun o _ => labelled?_message h (by revert o; decide),
    divider?_eq_none fun w hw => labelled?_message h (by revert w; decide), if_neg hend,
    activation?_eq_none (word?_message h (by decide)) (word?_message h (by decide)), word?_message h (by decide),
    autonumber?_message h]
  rfl

omit h in
theorem read?_message (h : m.IsPlain) : actor? m.toText = none ∧ Line.read? m.toText = some (.message m) := by
  obtain ⟨hactor, hread⟩ := read?_message_eq h.isLegible
  exact ⟨hactor, by rw [hread, message?_toText h, Option.map_some]⟩

end

theorem read?_openBlock (opening : Opening) {label : Text} (h : IsLineText label) :
    actor? (opening.keyword ++ afterKeyword label) = none ∧
      Line.read? (opening.keyword ++ afterKeyword label) = some (.openBlock opening label) := by
  have hself := labelled?_keyword opening.keyword h
  have hopening : opening? (opening.keyword ++ afterKeyword label) = some (opening, label) := by
    rw [opening?]
    refine findSome?_eq_some_of_takeWhile (x := opening) (by rcases opening with (_ | _ | _ | _) | (_ | _ | _) <;> decide)
      (fun o ho => ?_) (by rw [hself]; rfl)
    have hnone : dropPrefix? o.keyword (opening.keyword ++ afterKeyword label) = none := by
      rcases opening with (_ | _ | _ | _) | (_ | _ | _) <;> rcases o with (_ | _ | _ | _) | (_ | _ | _) <;>
        first | rfl | exact absurd ho (by decide)
    rw [labelled?_eq_none hnone]
    rfl
  have hkeep : ∀ t : Text, t = [] ∨ (∃ r, t = ' ' :: r) → actor? (opening.keyword ++ t) = none ∧
      Accessibility.line? (opening.keyword ++ t) = none ∧ title? (opening.keyword ++ t) = none ∧
      dropPrefix? "box" (opening.keyword ++ t) = none ∧ note? (opening.keyword ++ t) = none := by
    intro t ht
    refine ⟨actor?_eq_none (word?_eq_none ?_) (word?_eq_none ?_), line?_eq_none ?_, title?_eq_none ?_, ?_,
      note?_eq_none ?_⟩
    all_goals rcases ht with rfl | ⟨r, rfl⟩ <;> rcases opening with (_ | _ | _ | _) | (_ | _ | _) <;> rfl
  obtain ⟨h1, h2, h3, h4, h5⟩ := hkeep _ (afterKeyword_eq label)
  refine ⟨h1, ?_⟩
  rw [Line.read?, h2, h3, h4, h5, hopening]
  rfl

theorem read?_divide (kind : SectionedKind) {label : Text} (h : IsLineText label) :
    actor? (kind.divider ++ afterKeyword label) = none ∧
      Line.read? (kind.divider ++ afterKeyword label) = some (.divide kind.divider label) := by
  have hself := labelled?_keyword kind.divider h
  have hkeep : ∀ t : Text, t = [] ∨ (∃ r, t = ' ' :: r) → actor? (kind.divider ++ t) = none ∧
      Accessibility.line? (kind.divider ++ t) = none ∧ title? (kind.divider ++ t) = none ∧
      dropPrefix? "box" (kind.divider ++ t) = none ∧ note? (kind.divider ++ t) = none ∧
      opening? (kind.divider ++ t) = none := by
    intro t ht
    refine ⟨actor?_eq_none (word?_eq_none ?_) (word?_eq_none ?_), line?_eq_none ?_, title?_eq_none ?_, ?_,
      note?_eq_none ?_, opening?_eq_none fun o _ => ?_⟩
    case refine_7 =>
      rcases ht with rfl | ⟨r, rfl⟩ <;> rcases o with (_ | _ | _ | _) | (_ | _ | _) <;> cases kind <;> rfl
    all_goals rcases ht with rfl | ⟨r, rfl⟩ <;> cases kind <;> rfl
  have hdivider : divider? (kind.divider ++ afterKeyword label) = some (kind.divider, label) := by
    have hnone : ∀ w ∈ (["else", "and", "option"] : List Text), w ≠ kind.divider →
        labelled? w (kind.divider ++ afterKeyword label) = none := by
      intro w hw hne
      refine labelled?_eq_none ?_
      simp only [List.mem_cons, List.not_mem_nil, or_false] at hw
      rcases hw with rfl | rfl | rfl <;> cases kind <;> first | rfl | exact absurd rfl hne
    rw [divider?]
    refine findSome?_eq_some_of_takeWhile (x := kind.divider) (by cases kind <;> decide) (fun w hw => ?_) ?_
    · rw [hnone w ((List.takeWhile_sublist _).subset hw) (by simpa using List.mem_takeWhile_imp hw)]
      rfl
    · rw [hself]
      rfl
  obtain ⟨h1, h2, h3, h4, h5, h6⟩ := hkeep _ (afterKeyword_eq label)
  refine ⟨h1, ?_⟩
  rw [Line.read?, h2, h3, h4, h5, h6, hdivider]
  rfl

theorem read?_activation {id : Text} (h : Scan.isName isActorChar id = true) (active : Bool) :
    actor? ((if active then "activate " else "deactivate ") ++ id) = none ∧
      Line.read? ((if active then "activate " else "deactivate ") ++ id) = some (.activation id active) := by
  have hactive := soleActor?_keyword "activate" h
  have hinactive := soleActor?_keyword "deactivate" h
  have hopening : ∀ o ∈ Opening.all, labelled? o.keyword ("activate" ++ ' ' :: id) = none ∧
      labelled? o.keyword ("deactivate" ++ ' ' :: id) = none := by
    intro o _
    rcases o with (_ | _ | _ | _) | (_ | _ | _) <;> exact ⟨rfl, rfl⟩
  have hdivider : ∀ w ∈ (["else", "and", "option"] : List Text), labelled? w ("activate" ++ ' ' :: id) = none ∧
      labelled? w ("deactivate" ++ ' ' :: id) = none := by
    intro w hw
    simp only [List.mem_cons, List.not_mem_nil, or_false] at hw
    rcases hw with rfl | rfl | rfl <;> exact ⟨rfl, rfl⟩
  cases active with
  | true =>
    change actor? ("activate" ++ ' ' :: id) = none ∧ Line.read? ("activate" ++ ' ' :: id) = _
    refine ⟨actor?_eq_none rfl rfl, ?_⟩
    rw [Line.read?, line?_eq_none rfl, title?_eq_none rfl, note?_eq_none rfl,
      opening?_eq_none fun o ho => (hopening o ho).1, divider?_eq_none fun w hw => (hdivider w hw).1, activation?, hactive]
    rfl
  | false =>
    change actor? ("deactivate" ++ ' ' :: id) = none ∧ Line.read? ("deactivate" ++ ' ' :: id) = _
    have hnone : soleActor? "activate" ("deactivate" ++ ' ' :: id) = none := rfl
    refine ⟨actor?_eq_none rfl rfl, ?_⟩
    rw [Line.read?, line?_eq_none rfl, title?_eq_none rfl, note?_eq_none rfl,
      opening?_eq_none fun o ho => (hopening o ho).2, divider?_eq_none fun w hw => (hdivider w hw).2, activation?,
      hnone, hinactive]
    rfl

theorem read?_autonumber {start step : Option Text} (h : Line.IsPlain (.autonumber start step)) :
    actor? ("autonumber" ++ (digitsText start ++ digitsText step)) = none ∧
      Line.read? ("autonumber" ++ (digitsText start ++ digitsText step)) = some (.autonumber start step) := by
  have hread := autonumber?_toText h
  have hdivider : ∀ w ∈ (["else", "and", "option"] : List Text),
      labelled? w ("autonumber" ++ (digitsText start ++ digitsText step)) = none := by
    intro w hw
    simp only [List.mem_cons, List.not_mem_nil, or_false] at hw
    rcases hw with rfl | rfl | rfl <;> rfl
  have hoff : ((Scan.word? "autonumber" ("autonumber" ++ (digitsText start ++ digitsText step))).bind fun r =>
      if r = "off" then some Line.autonumberOff else none) = none := by
    rw [Option.bind_eq_none_iff]
    intro r hr
    refine if_neg ?_
    rintro rfl
    obtain ⟨r, hr, hb⟩ := Option.bind_eq_some_iff.1 hr
    rw [dropPrefix?_append, Option.some.injEq] at hr
    subst hr
    cases start with
    | none =>
      cases step with
      | none => exact absurd hb (by simp [digitsText, Scan.blanks?])
      | some t => exact absurd rfl (h.2 t rfl).2
    | some s =>
      have hs := h.1 s rfl
      obtain ⟨c, t, rfl, hc⟩ := exists_cons_of_startsWith (startsWith_of_all hs.1 hs.2)
      have hblanks : Scan.blanks? (digitsText (some (c :: t)) ++ digitsText step) = some (c :: (t ++ digitsText step)) :=
        Scan.blanks?_space (isMark_of_isDigit hc)
      rw [hblanks, Option.some.injEq] at hb
      obtain rfl : c = 'o' := (List.cons.inj hb).1
      exact absurd hc (by decide)
  refine ⟨actor?_eq_none rfl rfl, ?_⟩
  rw [Line.read?, line?_eq_none rfl, title?_eq_none rfl, note?_eq_none rfl,
    opening?_eq_none fun o _ => by rcases o with (_ | _ | _ | _) | (_ | _ | _) <;> rfl,
    divider?_eq_none hdivider, activation?_eq_none rfl rfl, hoff, hread]
  rfl

/-- **lines read back**, whatever they say but the declaration of an actor -/
theorem read?_toText {line : Line} (h : line.IsPlain) (ha : ∀ a, line ≠ .actor a) :
    actor? line.toText = none ∧ Line.read? line.toText = some line := by
  cases line with
  | actor a => exact absurd rfl (ha a)
  | accessibility l =>
    have hl : l.IsPlain := by
      cases l <;> exact ⟨h.1.isTight h.2, h.1.lineFeed⟩
    have hread := line?_accessibilityText hl
    refine ⟨actor?_eq_none ?_ ?_, ?_⟩
    · cases l <;> rfl
    · cases l <;> rfl
    · change Line.read? (accessibilityText l) = _
      rw [Line.read?, hread]
      rfl
  | title t =>
    obtain ⟨hactor, hread⟩ := read?_title h.1 h.2.1
    exact ⟨hactor, hread.trans (by rw [shownTitle_eq_self_iff.2 h.2.2])⟩
  | openBox label color => exact h.elim
  | note n => exact read?_note h.isLegible
  | openBlock opening label =>
    have ht : Line.toText (.openBlock opening label) = opening.keyword ++ afterKeyword label :=
      trimRight_label (by rcases opening with (_ | _ | _ | _) | (_ | _ | _) <;> decide) h
    rw [ht]
    exact read?_openBlock opening h
  | divide keyword label =>
    obtain ⟨⟨kind, rfl⟩, h⟩ := h
    have ht : Line.toText (.divide kind.divider label) = kind.divider ++ afterKeyword label :=
      trimRight_label (by cases kind <;> decide) h
    rw [ht]
    exact read?_divide kind h
  | close => exact ⟨rfl, rfl⟩
  | activation id active => exact read?_activation h active
  | autonumberOff => exact ⟨rfl, rfl⟩
  | autonumber start step =>
    have ht : Line.toText (.autonumber start step) = "autonumber" ++ (digitsText start ++ digitsText step) :=
      List.append_assoc _ _ _
    rw [ht]
    exact read?_autonumber h
  | message m => exact read?_message h

/-! ## Lines are contents -/

theorem all_of_isActorName {id : Text} (h : Scan.isName isActorChar id = true) :
    id.all (fun c => isActorChar c || c = '-') = true := by
  rw [Scan.isName_eq isActorChar_hyphen, Bool.and_eq_true] at h
  exact Scan.all_of_isNameTail h.2

theorem endsWith_actor {id : Text} (h : Scan.isName isActorChar id = true) : endsWith isLineEnd id = true := by
  refine endsWith_mono (fun c hc => ?_) (endsWith_of_all (ne_nil_of_isName h) (all_of_isActorName h))
  simp only [Bool.or_eq_true, decide_eq_true_eq] at hc
  rcases hc with hc | rfl
  · rw [isLineEnd, isMark_of_isActorChar hc, Bool.true_and, decide_eq_true_eq]
    rintro rfl
    exact absurd hc (by decide)
  · decide

theorem lineFeed_not_mem_actor {id : Text} (h : Scan.isName isActorChar id = true) : '\n' ∉ id :=
  fun hm => absurd (List.all_eq_true.1 (all_of_isActorName h) _ hm) (by decide)

theorem endsWith_afterKeyword {t label : Text} (ht : endsWith isLineEnd t = true) (h : IsLineText label) :
    endsWith isLineEnd (t ++ afterKeyword label) = true := by
  unfold afterKeyword
  split
  · rwa [List.append_nil]
  · exact endsWith_append _ (endsWith_cons ' ' (h.endsWith ‹_›))

theorem lineFeed_not_mem_afterKeyword {label : Text} (h : IsLineText label) : '\n' ∉ afterKeyword label := by
  unfold afterKeyword
  split
  · simp
  · simp [h.lineFeed]

theorem lineFeed_not_mem_digits {t : Text} (h : IsDigits t) : '\n' ∉ t :=
  fun hm => absurd (List.all_eq_true.1 h.2 _ hm) (by decide)

theorem endsWith_digits {t : Text} (h : IsDigits t) : endsWith isLineEnd t = true :=
  endsWith_mono (fun _ => isLineEnd_of_isDigit) (endsWith_of_all h.1 h.2)

theorem isContent_actor {a : Actor} (h : a.IsPlain) : SourceLine.IsContent a.toText := by
  obtain ⟨id, label, kind⟩ := a
  have hkind : Scan.startsWith isLineStart kind.keyword = true ∧ '\n' ∉ kind.keyword := by cases kind <;> decide
  have hid := lineFeed_not_mem_actor h.id
  unfold Actor.toText
  split
  · simp only [List.append_assoc]
    exact SourceLine.IsContent.keyword hkind.1 hkind.2 (endsWith_append _ (endsWith_append _ (endsWith_actor h.id)))
      (by simpa using hid)
  · simp only [List.append_assoc]
    refine SourceLine.IsContent.keyword hkind.1 hkind.2 ?_ ?_
    · exact endsWith_append _ (endsWith_append _ (endsWith_append _ (endsWith_append _ (h.label.endsWith h.ne_nil))))
    · simp only [List.mem_append, not_or]
      exact ⟨by decide, hid, by decide, h.label.lineFeed⟩

theorem isContent_message {m : Message} (h : m.IsLegible) : SourceLine.IsContent m.toText := by
  have hstart : Scan.startsWith isLineStart m.source = true := by
    refine startsWith_mono (fun c hc => ?_) (startsWith_actor h.source)
    rw [isLineStart, isMark_of_isActorChar hc, Bool.true_and, decide_eq_true_eq]
    rintro rfl
    exact absurd hc (by decide)
  rw [Message.toText_eq h.isSpelled]
  refine SourceLine.IsContent.keyword hstart (lineFeed_not_mem_actor h.source) ?_ ?_
  · refine endsWith_append _ (endsWith_append _ (endsWith_append _ ?_))
    unfold tailText
    split
    · rw [List.append_nil]
      exact endsWith_actor h.target
    · exact endsWith_append _ (endsWith_append _ (h.text.endsWith ‹_›))
  · have harrow : '\n' ∉ m.arrow.toText := by cases m.arrow <;> decide
    have hmark : '\n' ∉ markText m := by
      unfold markText
      cases m.activate <;> cases m.deactivate <;> decide
    have htail : '\n' ∉ tailText m.text := by
      unfold tailText
      split
      · simp
      · simp only [List.mem_append, not_or]
        exact ⟨by decide, h.text.lineFeed⟩
    simp only [List.mem_append, not_or]
    exact ⟨harrow, hmark, lineFeed_not_mem_actor h.target, htail⟩

theorem isContent_note {n : Note} (h : n.IsLegible) : SourceLine.IsContent (Line.toText (.note n)) := by
  rw [toText_note h.text]
  refine SourceLine.IsContent.keyword (w := "Note") (by decide) (by decide) ?_ ?_
  · have hcolon : endsWith isLineEnd ("Note" ++ ' ' :: (n.position ++ ' ' :: (join "," n.actorIds ++ [':']))) = true :=
      endsWith_append _ (endsWith_cons ' ' (endsWith_append _ (endsWith_cons ' ' (endsWith_append _ (by decide)))))
    have := endsWith_afterKeyword hcolon h.text
    simpa only [List.append_assoc, List.cons_append, List.nil_append] using this
  · have hposition : '\n' ∉ n.position := lineFeed_not_mem_keyword (by decide) h.position.exists_keyword
    have hactors : '\n' ∉ join "," n.actorIds := by
      rcases h.actors with ⟨a, ha⟩ | ⟨-, a, b, hab⟩
      · rw [ha, join_singleton]
        exact lineFeed_not_mem_actor (h.names a (by simp [ha]))
      · rw [hab, join_cons_cons, join_singleton]
        simp only [List.mem_append, not_or]
        exact ⟨⟨lineFeed_not_mem_actor (h.names a (by simp [hab])), by decide⟩,
          lineFeed_not_mem_actor (h.names b (by simp [hab]))⟩
    have htext := lineFeed_not_mem_afterKeyword h.text
    simp only [List.mem_cons, List.mem_append, not_or]
    exact ⟨by decide, hposition, by decide, hactors, by decide, htext⟩

theorem isContent_title {t : Text} (hl : IsLineText t) (hn : t ≠ []) : SourceLine.IsContent ("title" ++ ' ' :: t) :=
  SourceLine.IsContent.keyword (w := "title ") (by decide) (by decide) (endsWith_append _ (hl.endsWith hn)) hl.lineFeed

/-- **a plain line is what its margin leaves of it** -/
theorem isContent_toText {line : Line} (h : line.IsPlain) : SourceLine.IsContent line.toText := by
  cases line with
  | actor a => exact isContent_actor h
  | accessibility l =>
    cases l <;>
      exact SourceLine.IsContent.keyword (by decide) (by decide) (endsWith_append _ (h.1.endsWith h.2)) h.1.lineFeed
  | title t => exact isContent_title h.1 h.2.1
  | openBox label color => exact h.elim
  | note n => exact isContent_note h.isLegible
  | openBlock opening label =>
    have hk : Scan.startsWith isLineStart opening.keyword = true ∧ '\n' ∉ opening.keyword ∧
        endsWith isLineEnd opening.keyword = true ∧ endsWith isMark opening.keyword = true := by
      rcases opening with (_ | _ | _ | _) | (_ | _ | _) <;> decide
    have ht : Line.toText (.openBlock opening label) = opening.keyword ++ afterKeyword label := trimRight_label hk.2.2.2 h
    rw [ht]
    exact SourceLine.IsContent.keyword hk.1 hk.2.1 (endsWith_afterKeyword hk.2.2.1 h) (lineFeed_not_mem_afterKeyword h)
  | divide keyword label =>
    obtain ⟨⟨kind, rfl⟩, h⟩ := h
    have hk : Scan.startsWith isLineStart kind.divider = true ∧ '\n' ∉ kind.divider ∧
        endsWith isLineEnd kind.divider = true ∧ endsWith isMark kind.divider = true := by
      cases kind <;> decide
    have ht : Line.toText (.divide kind.divider label) = kind.divider ++ afterKeyword label := trimRight_label hk.2.2.2 h
    rw [ht]
    exact SourceLine.IsContent.keyword hk.1 hk.2.1 (endsWith_afterKeyword hk.2.2.1 h) (lineFeed_not_mem_afterKeyword h)
  | close => exact .of_ends (by decide) (by decide) (by decide)
  | activation id active =>
    cases active with
    | true =>
      exact SourceLine.IsContent.keyword (w := "activate ") (by decide) (by decide) (endsWith_append _ (endsWith_actor h))
        (lineFeed_not_mem_actor h)
    | false =>
      exact SourceLine.IsContent.keyword (w := "deactivate ") (by decide) (by decide) (endsWith_append _ (endsWith_actor h))
        (lineFeed_not_mem_actor h)
  | autonumberOff => exact .of_ends (by decide) (by decide) (by decide)
  | autonumber start step =>
    have hdigits : ∀ o : Option Text, (∀ t, o = some t → IsDigits t) → '\n' ∉ digitsText o ∧
        ∀ w, endsWith isLineEnd w = true → endsWith isLineEnd (w ++ digitsText o) = true := by
      intro o ho
      cases o with
      | none => exact ⟨by simp [digitsText], fun w hw => by simpa [digitsText] using hw⟩
      | some t =>
        have hlf := lineFeed_not_mem_digits (ho t rfl)
        exact ⟨by simp [digitsText, hlf], fun w _ => endsWith_append w (endsWith_cons ' ' (endsWith_digits (ho t rfl)))⟩
    have h1 := hdigits start h.1
    have h2 := hdigits step fun t ht => (h.2 t ht).1
    have hends := h2.2 _ (h1.2 "autonumber" (by decide))
    change SourceLine.IsContent ("autonumber" ++ digitsText start ++ digitsText step)
    rw [List.append_assoc] at hends ⊢
    exact SourceLine.IsContent.keyword (by decide) (by decide) hends (by simp [h1.1, h2.1])
  | message m => exact isContent_message h.isLegible

end DiagramText.Sequence

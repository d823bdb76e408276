/-
Parts of statements that several dialects share: ids of word characters and hyphens, keywords before them, labels after a
colon, in quotes and in brackets, and definitions of style classes. A keyword is found in a line that starts with an id only
if the id is that keyword; what then follows the id in print decides whether the rule of the keyword claims the line.
-/
import DiagramText.Accessibility
import DiagramText.Proofs.Sequence.Message
import DiagramText.Proofs.Style
import DiagramText.Proofs.Text.LetterCase
import DiagramText.Proofs.Text.Scan

namespace DiagramText.Text

open Sequence (IsLineText)

theorem present_eq_some_iff {o : Option Text} {t : Text} : present o = some t ↔ o = some t ∧ t ≠ [] := by
  rw [present, Option.filter_eq_some_iff]
  simp

theorem present_present (o : Option Text) : present (present o) = present o := by
  rw [present, present, Option.filter_filter]
  simp

/-- a text that is never empty is there whenever it is written -/
theorem present_eq_self {o : Option Text} (h : ∀ t, o = some t → t ≠ []) : present o = o := by
  cases o with
  | none => rfl
  | some t => exact present_eq_some_iff.2 ⟨rfl, h t rfl⟩

/-! ## Ids -/

/-- the id of a state or a class, or the name of a style class -/
structure IsId (t : Text) : Prop where
  ne_nil : t ≠ []
  all : t.all isWordOrHyphen = true

namespace IsId

variable {id : Text} (h : IsId id)
include h

theorem isTight : IsTight id := IsTight.of_all (fun _ => isMark_of_isWordOrHyphen) h.ne_nil h.all

theorem startsWith : Scan.startsWith isWordOrHyphen id = true := startsWith_of_all h.ne_nil h.all

theorem endsWith : endsWith isLineEnd id = true :=
  endsWith_mono (fun _ => isLineEnd_of_isWordOrHyphen) (endsWith_of_all h.ne_nil h.all)

theorem isLineStart : Scan.startsWith isLineStart id = true :=
  startsWith_mono (fun _ => isLineStart_of_isWordOrHyphen) h.startsWith

theorem lineFeed : '\n' ∉ id := lineFeed_not_mem_of_all h.all

theorem all_isMark : id.all isMark = true :=
  List.all_eq_true.2 fun c hc => isMark_of_isWordOrHyphen (List.all_eq_true.1 h.all c hc)

/-- an id is read up to what cannot continue it -/
theorem run?_append {rest : Text} (hr : Scan.startsWith isWordOrHyphen rest = false) :
    Scan.run? isWordOrHyphen (id ++ rest) = some (id, rest) := DiagramText.run?_append h.ne_nil h.all hr

theorem whole? : Scan.whole? isWordOrHyphen id = some id := if_pos ⟨h.ne_nil, h.all⟩

theorem quoted?_append (rest : Text) : Scan.quoted? (id ++ rest) = none := by
  obtain ⟨c, r, rfl, hc⟩ := exists_cons_of_startsWith h.startsWith
  have hne : c ≠ '"' := by
    rintro rfl
    exact absurd hc (by decide)
  unfold Scan.quoted?
  split
  · rename_i e
    exact absurd (List.cons.inj e).1 hne
  · rfl

variable {s : Text} (hs : Scan.startsWith isWordOrHyphen s = false)
include hs

/-- a keyword before an id -/
theorem of_word? {k u : Text} (hk : k.all isWordOrHyphen = true) (hu : Scan.word? k (id ++ s) = some u) :
    id = k ∧ Scan.blanks? s = some u := Scan.word?_name hk h.all_isMark hs hu

theorem of_keyword? {k u : Text} (hk : (k.map foldCase).all isLetter = true) (hu : Scan.keyword? k (id ++ s) = some u) :
    Scan.blanks? s = some u := Scan.keyword?_name hk h.all hs hu

/-- an accessibility text needs its keyword and a colon -/
theorem value?_eq_none {k : Text} (hk : k.all isWordOrHyphen = true)
    (hcolon : id ≠ k ∨ Scan.startsWith (· = ':') (Scan.blanks s) = false) : Accessibility.value? k (id ++ s) = none := by
  rw [Accessibility.value?, Option.bind_eq_none_iff]
  intro r hr
  obtain ⟨n, rfl, rfl⟩ := Scan.dropPrefix?_name hk hs hr
  have hnone : Scan.startsWith (· = ':') (Scan.blanks (n ++ s)) = false := by
    cases n with
    | nil => exact hcolon.resolve_left fun hne => hne (List.append_nil k)
    | cons c n =>
      have hc : isWordOrHyphen c = true := List.all_eq_true.1 h.all c (by simp)
      have hmark : Scan.startsWith isMark (c :: (n ++ s)) = true := isMark_of_isWordOrHyphen hc
      rw [List.cons_append, Scan.blanks_of_startsWith hmark]
      refine decide_eq_false ?_
      rintro rfl
      exact absurd hc (by decide)
  split
  · rename_i e
    rw [e] at hnone
    exact absurd hnone (by simp [Scan.startsWith])
  · rfl

theorem accessibility_eq_none
    (hcolon : (id ≠ "accTitle" ∧ id ≠ "accDescr") ∨ Scan.startsWith (· = ':') (Scan.blanks s) = false) :
    Accessibility.line? (id ++ s) = none := by
  rw [Accessibility.line?, h.value?_eq_none hs (by decide) (hcolon.imp_left And.left),
    h.value?_eq_none hs (by decide) (hcolon.imp_left And.right)]
  rfl

end IsId

/-- what is read as a run of these characters is an id -/
theorem isId_of_run? {t id rest : Text} (h : Scan.run? isWordOrHyphen t = some (id, rest)) : IsId id ∧ rest ⊆ t := by
  obtain ⟨hne, hall, hsub⟩ := Scan.run?_eq_some h
  exact ⟨⟨hne, hall⟩, hsub⟩

theorem isId_of_whole? {t id : Text} (h : Scan.whole? isWordOrHyphen t = some id) : IsId id := by
  rw [Scan.whole?, Option.ite_none_right_eq_some, Option.some.injEq] at h
  obtain ⟨⟨hne, hall⟩, rfl⟩ := h
  exact ⟨hne, hall⟩

/-- a text after a keyword, if there is one -/
def afterKeyword (label : Text) : Text := if label = [] then [] else ' ' :: label

theorem afterKeyword_eq (label : Text) : afterKeyword label = [] ∨ ∃ r, afterKeyword label = ' ' :: r := by
  unfold afterKeyword
  split
  · exact Or.inl rfl
  · exact Or.inr ⟨label, rfl⟩

theorem afterKeyword_nil : afterKeyword [] = [] := rfl

theorem afterKeyword_of_ne_nil {t : Text} (h : t ≠ []) : afterKeyword t = ' ' :: t := if_neg h

theorem dropKeyword?_append (w t : Text) : dropKeyword? w (w ++ t) = some t := dropFolded?_append rfl t

theorem keyword?_append {w u : Text} (h : Scan.startsWith isMark u = true) :
    Scan.keyword? w (w ++ ' ' :: u) = some u := by
  rw [Scan.keyword?, dropKeyword?_append, Option.bind_some, Scan.blanks?_space h]

theorem keywordText?_append {w u : Text} (h : IsTight u) : Scan.keywordText? w (w ++ ' ' :: u) = some u := by
  rw [Scan.keywordText?, keyword?_append h.first, Option.bind_some, trim_of_isTight h, present_eq_some_iff]
  exact ⟨rfl, h.ne_nil⟩

/-- what is read after a keyword is trimmed -/
theorem isTight_of_keywordText? {w t u : Text} (h : Scan.keywordText? w t = some u) : IsTight u := by
  obtain ⟨rest, -, hu⟩ := Option.bind_eq_some_iff.1 h
  obtain ⟨htrim, hne⟩ := present_eq_some_iff.1 hu
  obtain rfl := Option.some.inj htrim
  exact isTight_trim hne

/-- where a keyword is found before the end of a text, it is found whatever follows the text -/
theorem keyword?_eq_none_of_append {w t r : Text} (ht : IsTight t) (h : Scan.keywordText? w (t ++ r) = none) :
    Scan.keyword? w t = none := by
  rw [Option.eq_none_iff_forall_not_mem]
  intro u hu
  obtain ⟨v, hv, hblanks⟩ := Option.bind_eq_some_iff.1 hu
  obtain ⟨pre, rfl, hpre⟩ := dropFolded?_eq_some hv
  have hblank := (Scan.blanks?_eq_some hblanks).1
  have hne : v ≠ [] := by
    rintro rfl
    exact absurd hblank (by decide)
  obtain ⟨c, s, hs, -⟩ := Scan.exists_blanks_append (endsWith_of_endsWith_append ht.last hne) r
  have hmark : Scan.startsWith isMark (Scan.blanks (v ++ r)) = true := (trimLeft_eq_nil_or (v ++ r)).resolve_left (by
    change Scan.blanks (v ++ r) ≠ []
    rw [hs]
    exact List.cons_ne_nil c s)
  have htrim : trim (Scan.blanks (v ++ r)) ≠ [] := by
    rw [trim, trimLeft_of_startsWith hmark]
    exact trimRight_ne_nil hmark
  have hdrop : dropKeyword? w (pre ++ (v ++ r)) = some (v ++ r) := dropFolded?_append hpre _
  rw [List.append_assoc, Scan.keywordText?, Scan.keyword?, hdrop, Option.bind_some,
    Scan.blanks?_of_startsWith (startsWith_append r hblank), Option.bind_some] at h
  exact absurd ((present_eq_some_iff.2 ⟨rfl, htrim⟩).symm.trans h) (by simp)

/-- what stands before a character that no keyword holds decides whether a keyword is found: either it is found there, or all
of it is the keyword and the character is white space -/
theorem keywordText?_eq_none_of_stop {w t : Text} {c : Char} (hw : foldCase c ∉ w.map foldCase) (h : Scan.keyword? w t = none)
    (hc : isBlank c = false ∨ t.map foldCase ≠ w.map foldCase) (r : Text) : Scan.keywordText? w (t ++ c :: r) = none := by
  rw [Scan.keywordText?, Option.bind_eq_none_iff]
  intro u hu
  obtain ⟨v, hv, hblanks⟩ := Option.bind_eq_some_iff.1 hu
  have hblank := (Scan.blanks?_eq_some hblanks).1
  rw [dropKeyword?, dropFolded?_append_of_stop hw] at hv
  obtain ⟨m, hm, rfl⟩ := Option.map_eq_some_iff.1 hv
  cases m with
  | nil =>
    -- the keyword reaches up to the character
    obtain ⟨pre, rfl, hfold⟩ := dropFolded?_eq_some hm
    rw [List.append_nil] at hc
    exact absurd hfold (hc.resolve_left (by simpa using (show isBlank c = true from hblank)))
  | cons d m =>
    rw [Scan.keyword?, dropKeyword?, hm, Option.bind_some, Scan.blanks?_of_startsWith (t := d :: m) hblank] at h
    exact absurd h (by simp)

/-- a keyword is found before a colon only if it is found in what stands there -/
theorem keywordText?_eq_none_of_colon {w t : Text} (hw : ':' ∉ w.map foldCase) (h : Scan.keyword? w t = none) (r : Text) :
    Scan.keywordText? w (t ++ ':' :: r) = none :=
  keywordText?_eq_none_of_stop hw h (Or.inl (by decide)) r

/-- all of what stands before white space is the keyword, if none is found there -/
theorem keywordText?_space_eq_none_iff {w t r : Text} (hw : ' ' ∉ w.map foldCase) (h : Scan.keyword? w t = none)
    (hr : Scan.startsWith isMark r = true) : Scan.keywordText? w (t ++ ' ' :: r) = none ↔ t.map foldCase ≠ w.map foldCase := by
  refine ⟨fun hnone hfold => ?_, fun hne => keywordText?_eq_none_of_stop hw h (Or.inr hne) r⟩
  have hdrop : dropKeyword? w (t ++ ' ' :: r) = some (' ' :: r) := dropFolded?_append hfold _
  have htrim : trim r ≠ [] := by
    rw [trim, trimLeft_of_startsWith hr]
    exact trimRight_ne_nil hr
  rw [Scan.keywordText?, Scan.keyword?, hdrop, Option.bind_some, Scan.blanks?_space hr, Option.bind_some] at hnone
  exact absurd ((present_eq_some_iff.2 ⟨rfl, htrim⟩).symm.trans hnone) (by simp)

theorem startsWith_quote (t rest : Text) : Scan.startsWith isMark (quote t ++ rest) = true := by
  rw [quote_eq]
  rfl

/-! ## Labels -/

/-- the label of a statement as it is written -/
def labelText : Option Text → Text
  | none => []
  | some t => ' ' :: ':' :: ' ' :: t

theorem startsWith_labelText (label : Option Text) : Scan.startsWith isWordOrHyphen (labelText label) = false := by
  cases label <;> rfl

theorem optionalLabel?_colon {t : Text} (h : Scan.startsWith isMark t = true) :
    Scan.optionalLabel? (' ' :: ':' :: ' ' :: t) = some (some t) := by
  have hcolon : Scan.blanks (' ' :: ':' :: ' ' :: t) = ':' :: ' ' :: t := by
    rw [Scan.blanks_space, Scan.blanks_of_startsWith (by rfl)]
  rw [Scan.optionalLabel?, if_neg (by simp), Scan.afterColon?, hcolon]
  change some (some (Scan.blanks (' ' :: t))) = _
  rw [Scan.blanks_space, Scan.blanks_of_startsWith h]

theorem optionalLabel?_labelText {label : Option Text} (h : ∀ t, label = some t → IsTight t) :
    ∃ l, Scan.optionalLabel? (labelText label) = some l ∧ present (l.map trim) = label := by
  cases label with
  | none => exact ⟨none, rfl, rfl⟩
  | some t =>
    have ht := h t rfl
    refine ⟨some t, optionalLabel?_colon ht.first, ?_⟩
    simp [present, trim_of_isTight ht, ht.ne_nil]

theorem endsWith_labelText {t : Text} {label : Option Text} (ht : endsWith isLineEnd t = true)
    (h : ∀ u, label = some u → u ≠ [] ∧ IsLineText u) : endsWith isLineEnd (t ++ labelText label) = true := by
  cases label with
  | none => rwa [labelText, List.append_nil]
  | some u =>
    obtain ⟨hne, hu⟩ := h u rfl
    exact endsWith_append _ (endsWith_cons ' ' (endsWith_cons ':' (endsWith_cons ' ' (hu.endsWith hne))))

theorem lineFeed_not_mem_labelText {label : Option Text} (h : ∀ u, label = some u → '\n' ∉ u) : '\n' ∉ labelText label := by
  cases label with
  | none => simp [labelText]
  | some u => simp [labelText, h u rfl]

/-- a text that can stand in quotes: it does not spell the entity of a quote -/
def IsQuotable (t : Text) : Prop := '\n' ∉ t ∧ ¬ quoteEntity <:+: t

theorem IsQuotable.lineFeed {t : Text} (h : IsQuotable t) : '\n' ∉ quote t := lineFeed_not_mem_quote h.1

theorem isQuotable_of_not_mem {t : Text} (hl : '\n' ∉ t) (hs : ';' ∉ t) : IsQuotable t :=
  ⟨hl, fun hi => hs (hi.subset (by decide))⟩

/-- what a text in quotes is read as can stand in quotes -/
theorem isQuotable_unquote {t token rest : Text} (h : Scan.quoted? t = some (token, rest)) (hl : '\n' ∉ t) :
    IsQuotable (unquote token) :=
  ⟨lineFeed_not_mem_unquote fun hm => hl ((Scan.quoted?_subset h).1 hm), not_infix_unquote (isQuoted_of_quoted? h)⟩

theorem IsId.isQuotable {id : Text} (h : IsId id) : IsQuotable id :=
  isQuotable_of_not_mem h.lineFeed fun hm => absurd (List.all_eq_true.1 h.all _ hm) (by decide)

/-- a label in quotes and brackets, after the id that it belongs to -/
def bracketText : Option Text → Text
  | none => []
  | some t => '[' :: (quote t ++ [']'])

/-- the brace that opens the body of what is declared -/
def braceText (opensBody : Bool) : Text := if opensBody then [' ', '\x7b'] else []

theorem startsWith_declared (label : Option Text) (opensBody : Bool) :
    Scan.startsWith isWordOrHyphen (bracketText label ++ braceText opensBody) = false := by
  cases label <;> cases opensBody <;> rfl

theorem endsWith_declared {t : Text} (ht : endsWith isLineEnd t = true) (label : Option Text) (opensBody : Bool) :
    endsWith isLineEnd (t ++ (bracketText label ++ braceText opensBody)) = true := by
  cases opensBody with
  | true => exact endsWith_append t (endsWith_append _ (by decide))
  | false =>
    change endsWith isLineEnd (t ++ (bracketText label ++ [])) = true
    rw [List.append_nil]
    cases label with
    | some u => exact endsWith_append t (endsWith_cons '[' (endsWith_append _ (by decide)))
    | none => rwa [bracketText, List.append_nil]

theorem lineFeed_not_mem_declared {label : Option Text} (h : ∀ t, label = some t → IsQuotable t) (opensBody : Bool) :
    '\n' ∉ bracketText label ++ braceText opensBody := by
  have hbrace : '\n' ∉ braceText opensBody := by cases opensBody <;> decide
  cases label with
  | none => simpa [bracketText] using hbrace
  | some t => simp [bracketText, (h t rfl).lineFeed, hbrace]

/-! ## Style classes -/

/-- the properties after the name of a style class -/
def propertiesText (style : Style) : Text := if style.toText = [] then [] else ' ' :: style.toText

theorem startsWith_propertiesText (style : Style) : Scan.startsWith isWordOrHyphen (propertiesText style) = false := by
  unfold propertiesText
  split <;> rfl

section

variable {name : Text} {style : Style} (hn : IsId name) (hs : style.IsPlain)
include hs

theorem properties_isTight (h : style.toText ≠ []) : IsTight style.toText :=
  Style.isTight_toText hs fun e => h ((Style.toText_eq_nil_iff hs).2 e)

theorem optionalRest?_propertiesText : (Scan.optionalRest? (propertiesText style)).map Style.ofText = some style := by
  unfold propertiesText
  split
  · rename_i e
    rw [Scan.optionalRest?, if_pos rfl, Option.map_some, ← e, Style.ofText_toText hs]
  · rename_i hne
    rw [Scan.optionalRest?, if_neg (by simp), Scan.blanks?_space (properties_isTight hs hne).first, Option.map_some,
      Style.ofText_toText hs]

include hn

/-- the space before properties that there are none of would be trimmed away -/
theorem trimRight_classDef :
    trimRight ("classDef " ++ name ++ " " ++ style.toText) = "classDef" ++ ' ' :: (name ++ propertiesText style) := by
  have hclass : ("classDef " : Text) = "classDef" ++ [' '] := rfl
  have hspace : (" " : Text) = [' '] := rfl
  rw [hclass, hspace, propertiesText]
  split
  · rename_i e
    have hend : endsWith isMark ("classDef" ++ ' ' :: name) = true := endsWith_append _ (endsWith_cons ' ' hn.isTight.last)
    rw [e, List.append_nil, trimRight_append (by decide)]
    simpa using trimRight_of_endsWith hend
  · rename_i hne
    rw [trimRight_of_endsWith (endsWith_append _ (properties_isTight hs hne).last)]
    simp

theorem isContent_classDef (hsemi : ¬ endsWith (· = ';') style.toText = true) :
    SourceLine.IsContent ("classDef" ++ ' ' :: (name ++ propertiesText style)) := by
  refine .keyword (by decide) (by decide) ?_ ?_
  · unfold propertiesText
    split
    · rw [List.append_nil]
      exact endsWith_append _ (endsWith_cons ' ' hn.endsWith)
    · rename_i hne
      have hlast := endsWith_isLineEnd (properties_isTight hs hne).last hsemi
      exact endsWith_append _ (endsWith_cons ' ' (endsWith_append _ (endsWith_cons ' ' hlast)))
  · have hstyle := Style.not_mem_toText hs
    simp only [List.mem_cons, List.mem_append, not_or]
    refine ⟨by decide, hn.lineFeed, ?_⟩
    unfold propertiesText
    split <;> simp [hstyle]

end

end DiagramText.Text

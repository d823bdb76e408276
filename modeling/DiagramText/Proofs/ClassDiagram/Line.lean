/-
Lines of a class diagram read back. `Line.toText` is a line outside class bodies as the printer writes it, `BodyLine.toText`
one inside. A relationship starts with the id of its source, which may be any keyword but that of style classes: what
follows the id in print, a cardinality or markers, is nothing that a keyword goes on with (`read?_relate`).
-/
import DiagramText.ClassDiagram.Line
import DiagramText.ClassDiagram.Printer
import DiagramText.Proofs.Accessibility
import DiagramText.Proofs.ClassDiagram.Member
import DiagramText.Proofs.ClassDiagram.Relation
import DiagramText.Proofs.Text.Scan

namespace DiagramText.ClassDiagram

open DiagramText.Text
open Sequence (IsLineText)

/-! ## What can be written -/

/-- the generic parameter of a class -/
def genericText : Option Text → Text
  | none => []
  | some g => '~' :: (g ++ ['~'])

/-- a line outside class bodies as the printer writes it; members and stereotypes are written in class bodies -/
def Line.toText : Line → Text
  | .accessibility line => accessibilityText line
  | .direction token => "direction " ++ token
  | .openNamespace name => "namespace " ++ name ++ " \x7b"
  | .closeBrace => "\x7d"
  | .declare id generic label opensBody => "class " ++ id ++ genericText generic ++ bracketText label ++ braceText opensBody
  | .annotate id stereotype => "<<" ++ stereotype ++ ">> " ++ id
  | .note n => n.toText
  | .classDef name style => trimRight ("classDef " ++ name ++ " " ++ style.toText)
  | .cssClass ids name => "cssClass \"" ++ join "," ids ++ "\" " ++ name
  | .relate r => r.toText
  | .member id m => id ++ " : " ++ (m.map Member.toText).getD []

/-- a line in a class body as the printer writes it -/
def BodyLine.toText : BodyLine → Text
  | .close => "\x7d"
  | .stereotype text => "<<" ++ text ++ ">>"
  | .member m => (m.map Member.toText).getD []

/-- the name of a namespace -/
def isNamespaceChar (c : Char) : Bool := isWordOrHyphen c || c = '.'

/-- a class that a quoted list can name -/
structure IsListed (id : Text) : Prop where
  tight : IsTight id
  separators : ',' ∉ id ∧ '"' ∉ id
  lineFeed : '\n' ∉ id

/-- a line outside class bodies that can be written -/
def Line.IsPlain : Line → Prop
  | .accessibility (.title v) | .accessibility (.description v) => v ≠ [] ∧ IsLineText v
  | .direction token => token ≠ [] ∧ token.all isWord = true
  | .openNamespace name => name ≠ [] ∧ name.all isNamespaceChar = true
  | .closeBrace => True
  | .declare id generic label _ =>
    IsId id ∧ (∀ g, generic = some g → g ≠ [] ∧ '~' ∉ g ∧ '\n' ∉ g) ∧ ∀ t, label = some t → IsQuotable t
  | .note n => (∀ id, n.forClass = some id → IsId id) ∧ IsQuotable n.text
  | .classDef name style => IsId name ∧ style.IsPlain ∧ ¬ endsWith (· = ';') style.toText = true
  | .cssClass ids name => (∃ id, ids = [id] ∧ IsListed id) ∧ IsId name
  | .relate r => r.IsPlain ∧ r.source ≠ "classDef"
  | .annotate _ _ | .member _ _ => False

/-- a member that can be written: it is not read as something else, or as a comment -/
structure Member.IsPlain (m : Member) : Prop where
  isRead : m.IsRead
  close : m.toText ≠ "\x7d"
  stereotype : ∀ text, stereotype? m.toText ≠ some (text, [])
  comment : dropPrefix? "%%" m.toText = none

/-- a stereotype that can be written -/
structure IsStereotype (t : Text) : Prop where
  ne_nil : t ≠ []
  trimmed : trim t = t
  bracket : '>' ∉ t
  lineFeed : '\n' ∉ t

/-- a line in a class body that can be written -/
def BodyLine.IsPlain : BodyLine → Prop
  | .close => True
  | .stereotype text => IsStereotype text
  | .member m => ∃ n : Member, m = some n ∧ n.IsPlain

/-! ## Declarations -/

theorem toText_declare (id : Text) (parameter label : Option Text) (opensBody : Bool) :
    (Line.declare id parameter label opensBody).toText
      = "class" ++ ' ' :: (id ++ (genericText parameter ++ (bracketText label ++ braceText opensBody))) := by
  have hclass : ("class " : Text) = "class" ++ [' '] := rfl
  change ("class " : Text) ++ id ++ genericText parameter ++ bracketText label ++ braceText opensBody = _
  rw [hclass]
  simp

theorem startsWith_declared (parameter label : Option Text) (opensBody : Bool) :
    Scan.startsWith isWordOrHyphen (genericText parameter ++ (bracketText label ++ braceText opensBody)) = false := by
  cases parameter <;> cases label <;> cases opensBody <;> rfl

theorem generic_genericText {parameter : Option Text} (h : ∀ g, parameter = some g → g ≠ [] ∧ '~' ∉ g) {rest : Text}
    (hrest : Scan.startsWith (· = '~') rest = false) : generic (genericText parameter ++ rest) = (parameter, rest) := by
  cases parameter with
  | none =>
    unfold generic
    split
    · rename_i e
      rw [show rest = _ from e] at hrest
      exact absurd hrest (by simp [Scan.startsWith])
    · rfl
  | some g =>
    obtain ⟨hne, htilde⟩ := h g rfl
    have hspan : Text.span (· ≠ '~') (g ++ '~' :: rest) = (g, '~' :: rest) := span_append_cons htilde
    obtain ⟨c, g, rfl⟩ := List.exists_cons_of_ne_nil hne
    have hshape : genericText (some (c :: g)) ++ rest = '~' :: (c :: g ++ '~' :: rest) := by simp [genericText]
    rw [hshape]
    simp only [generic, hspan]

theorem bracketedLabel_bracketText {label : Option Text} (h : ∀ t, label = some t → IsQuotable t) (opensBody : Bool) :
    bracketedLabel (bracketText label ++ braceText opensBody) = (label, braceText opensBody) := by
  cases label with
  | none => cases opensBody <;> rfl
  | some t =>
    have hshape : bracketText (some t) ++ braceText opensBody = '[' :: (quote t ++ ']' :: braceText opensBody) := by
      simp [bracketText]
    have hblanks : Scan.blanks ('[' :: (quote t ++ ']' :: braceText opensBody)) = '[' :: (quote t ++ ']' :: braceText opensBody) :=
      Scan.blanks_of_startsWith (by decide : isMark '[' = true)
    rw [hshape]
    simp only [bracketedLabel, hblanks, quoted?_quote, unquote_quote_eq_self (h t rfl).2]

theorem declaration?_toText {id : Text} {parameter label : Option Text} {opensBody : Bool}
    (h : (Line.declare id parameter label opensBody).IsPlain) :
    declaration? (Line.declare id parameter label opensBody).toText = some (.declare id parameter label opensBody) := by
  obtain ⟨hid, hg, hl⟩ := h
  have hlabel : Scan.startsWith (· = '~') (bracketText label ++ braceText opensBody) = false := by
    cases label <;> cases opensBody <;> rfl
  have hrun : classId? (id ++ (genericText parameter ++ (bracketText label ++ braceText opensBody)))
      = some (id, genericText parameter ++ (bracketText label ++ braceText opensBody)) :=
    hid.run?_append (startsWith_declared parameter label opensBody)
  rw [toText_declare, declaration?, word?_append (startsWith_append _ hid.isTight.first), Option.bind_some, hrun,
    Option.bind_some]
  dsimp only
  rw [generic_genericText (fun g e => ⟨(hg g e).1, (hg g e).2.1⟩) hlabel]
  dsimp only
  rw [bracketedLabel_bracketText hl]
  cases opensBody <;> rfl

/-! ## Namespaces -/

theorem toText_openNamespace (name : Text) :
    (Line.openNamespace name).toText = "namespace" ++ ' ' :: (name ++ [' ', '\x7b']) := by
  have hnamespace : ("namespace " : Text) = "namespace" ++ [' '] := rfl
  have hbrace : (" \x7b" : Text) = [' ', '\x7b'] := rfl
  change ("namespace " : Text) ++ name ++ " \x7b" = _
  rw [hnamespace, hbrace]
  simp

theorem isMark_of_isNamespaceChar {c : Char} (h : isNamespaceChar c = true) : isMark c = true := by
  rcases Bool.or_eq_true_iff.1 h with h | h
  · exact isMark_of_isWordOrHyphen h
  · rw [of_decide_eq_true h]
    decide

theorem namespace?_toText {name : Text} (h : (Line.openNamespace name).IsPlain) : namespace? (Line.openNamespace name).toText
    = some (.openNamespace name) := by
  have hmark := (IsTight.of_all (fun _ => isMark_of_isNamespaceChar) h.1 h.2).first
  have hrun : Scan.run? (fun c => isWordOrHyphen c || c = '.') (name ++ [' ', '\x7b']) = some (name, [' ', '\x7b']) :=
    run?_append h.1 h.2 rfl
  rw [toText_openNamespace, namespace?, word?_append (startsWith_append _ hmark), Option.bind_some, hrun, Option.bind_some]
  rfl

/-! ## Notes -/

/-- a note without its keyword -/
def noteText (n : Note) : Text :=
  match n.forClass with
  | none => quote n.text
  | some id => "for" ++ ' ' :: (id ++ ' ' :: quote n.text)

theorem toText_note (n : Note) : (Line.note n).toText = "note" ++ ' ' :: noteText n := by
  have hnote : ("note " : Text) = "note" ++ [' '] := rfl
  have hfor : ("note for " : Text) = "note" ++ ' ' :: ("for" ++ [' ']) := rfl
  have hspace : (" " : Text) = [' '] := rfl
  change n.toText = _
  unfold Note.toText noteText
  split <;> simp [*]

theorem soleQuoted?_quote {t : Text} (h : IsQuotable t) : soleQuoted? (quote t) = some t := by
  have hquoted := quoted?_quote t []
  rw [List.append_nil] at hquoted
  rw [soleQuoted?, hquoted, Option.bind_some]
  exact congrArg some (unquote_quote_eq_self h.2)

theorem startsWith_quote_nil (t : Text) : Scan.startsWith isMark (quote t) = true := by
  rw [quote_eq]
  rfl

theorem note?_toText {n : Note} (h : (Line.note n).IsPlain) :
    (noteFor? (Line.note n).toText <|> freeNote? (Line.note n).toText) = some (.note n) := by
  obtain ⟨hid, ht⟩ := h
  obtain ⟨text, forClass⟩ := n
  rw [toText_note]
  cases forClass with
  | none =>
    have hword : Scan.word? "note" ("note" ++ ' ' :: quote text) = some (quote text) := word?_append (startsWith_quote_nil text)
    have hfor : noteFor? ("note" ++ ' ' :: quote text) = none := by
      rw [noteFor?, hword, Option.bind_some, quote_eq]
      rfl
    have hfree : freeNote? ("note" ++ ' ' :: quote text) = some (.note ⟨text, none⟩) := by
      rw [freeNote?, hword, Option.bind_some, soleQuoted?_quote ht]
      rfl
    change (noteFor? ("note" ++ ' ' :: quote text) <|> freeNote? ("note" ++ ' ' :: quote text)) = _
    rw [hfor, hfree]
    rfl
  | some id =>
    have hid := hid id rfl
    have hrun : classId? (id ++ ' ' :: quote text) = some (id, ' ' :: quote text) := hid.run?_append rfl
    have hfor : noteFor? ("note" ++ ' ' :: ("for" ++ ' ' :: (id ++ ' ' :: quote text))) = some (.note ⟨text, some id⟩) := by
      rw [noteFor?, word?_append (by rfl), Option.bind_some, word?_append (startsWith_append _ hid.isTight.first),
        Option.bind_some, hrun, Option.bind_some]
      dsimp only
      rw [Scan.blanks?_space (startsWith_quote_nil text), Option.bind_some, soleQuoted?_quote ht]
      rfl
    exact Scan.orElse_eq_some_iff.2 (Or.inl hfor)

/-! ## Style classes -/

theorem classDef?_toText {name : Text} {style : Style} (h : (Line.classDef name style).IsPlain) :
    classDef? (Line.classDef name style).toText = some (.classDef name style) := by
  obtain ⟨hn, hs, -⟩ := h
  obtain ⟨props, hprops, hstyle⟩ := Option.map_eq_some_iff.1 (optionalRest?_propertiesText hs)
  have htext : (Line.classDef name style).toText = "classDef" ++ ' ' :: (name ++ propertiesText style) := trimRight_classDef hn hs
  have hrun : classId? (name ++ propertiesText style) = some (name, propertiesText style) :=
    hn.run?_append (startsWith_propertiesText style)
  rw [htext, classDef?, word?_append (startsWith_append _ hn.isTight.first), Option.bind_some, hrun, Option.bind_some]
  dsimp only
  rw [hprops, Option.map_some, hstyle]

theorem toText_cssClass (id name : Text) :
    (Line.cssClass [id] name).toText = "cssClass" ++ ' ' :: ('"' :: (id ++ '"' :: ' ' :: name)) := by
  have hopen : ("cssClass \"" : Text) = "cssClass" ++ [' ', '"'] := rfl
  have hclose : ("\" " : Text) = ['"', ' '] := rfl
  change ("cssClass \"" : Text) ++ join "," [id] ++ "\" " ++ name = _
  rw [hopen, hclose, join_singleton]
  simp

theorem cssClass?_toText {id name : Text} (hid : IsListed id) (hn : IsId name) :
    cssClass? (Line.cssClass [id] name).toText = some (.cssClass [id] name) := by
  have hspan : Text.span (· ≠ '"') (id ++ '"' :: ' ' :: name) = (id, '"' :: ' ' :: name) :=
    span_append_cons hid.separators.2
  have hquoted : Scan.quoted? ('"' :: (id ++ '"' :: ' ' :: name)) = some ('"' :: id ++ ['"'], ' ' :: name) := by
    simp only [Scan.quoted?, hspan]
  have hlength : ¬ ('"' :: id ++ ['"']).length ≤ 2 := by
    have hpos := List.length_pos_iff.2 hid.tight.ne_nil
    simp only [List.length_append, List.length_cons, List.length_nil]
    omega
  have hitems : items ',' ('"' :: id ++ ['"']).tail.dropLast = [id] := by
    have htoken : ('"' :: id ++ ['"']).tail.dropLast = id := by simp
    rw [htoken, items, splitOn_of_not_mem hid.separators.1, List.map_singleton, trim_of_isTight hid.tight]
    simp [hid.tight.ne_nil]
  rw [toText_cssClass, cssClass?, word?_append (by rfl), Option.bind_some, hquoted, Option.bind_some]
  dsimp only
  rw [if_neg hlength, Scan.blanks?_space hn.isTight.first, Option.bind_some, hn.whole?, Option.map_some, hitems]

/-! ## Relationships among keywords -/

/-- what follows a run in print does not go on as a class or a namespace does -/
def isNoBrace (c : Char) : Bool := isMark c && c ∉ (['\x7b', '\x7d', '[', '~'] : List Char)

theorem isNoBrace_of_isWordOrHyphen {c : Char} (h : isWordOrHyphen c = true) : isNoBrace c = true := by
  rw [isNoBrace, isMark_of_isWordOrHyphen h, Bool.true_and, decide_eq_true_eq]
  intro hc
  simp only [List.mem_cons, List.not_mem_nil, or_false] at hc
  rcases hc with rfl | rfl | rfl | rfl <;> exact absurd h (by decide)

/-- a run is cut among marks or before the space after them -/
theorem exists_of_run? {p : Char → Bool} (hp : p ' ' = false) {marks v run rest : Text}
    (h : Scan.run? p (marks ++ ' ' :: v) = some (run, rest)) : ∃ n, n ⊆ marks ∧ rest = n ++ ' ' :: v := by
  have hdrop : (' ' :: v : Text).dropWhile p = ' ' :: v := by simp [hp]
  unfold Scan.run? at h
  split at h
  · exact absurd h (by simp)
  · rename_i c r rest' hs
    obtain ⟨-, rfl⟩ := Prod.mk.inj (Option.some.inj h)
    refine ⟨marks.dropWhile p, (List.dropWhile_sublist p).subset, ?_⟩
    rw [← (Prod.mk.inj hs).2, List.dropWhile_append, hdrop]
    split
    · rename_i he
      rw [List.isEmpty_iff.1 he]
      rfl
    · rfl

theorem startsWith_blanks_of_run? {p : Char → Bool} (hp : p ' ' = false) {marks v run rest : Text}
    (hm : marks.all isNoBrace = true) (hv : Scan.startsWith isNoBrace v = true)
    (h : Scan.run? p (marks ++ ' ' :: v) = some (run, rest)) :
    Scan.startsWith isNoBrace (Scan.blanks rest) = true ∧ Scan.startsWith (· = '~') rest = false := by
  have hmark : ∀ {t : Text}, Scan.startsWith isNoBrace t = true → Scan.startsWith isMark t = true := fun ht =>
    startsWith_mono (fun _ hc => (Bool.and_eq_true_iff.1 hc).1) ht
  obtain ⟨n, hn, rfl⟩ := exists_of_run? hp h
  cases n with
  | nil => exact ⟨by rw [List.nil_append, Scan.blanks_space, Scan.blanks_of_startsWith (hmark hv)]; exact hv, rfl⟩
  | cons c n =>
    have hc : isNoBrace c = true := List.all_eq_true.1 hm c (hn (by simp))
    have hstart : Scan.startsWith isNoBrace (c :: n ++ ' ' :: v) = true := hc
    refine ⟨by rw [Scan.blanks_of_startsWith (hmark hstart)]; exact hstart, decide_eq_false ?_⟩
    rintro rfl
    exact absurd hc (by decide)

/-- a relationship after its source -/
def Relationship.tailText (r : Relationship) : Text := cardinalityText r.sourceCardinality ++ r.endsText

/-- the markers of a relationship, and its line between them -/
def Relationship.marks (r : Relationship) : Text := r.sourceEnd.left ++ (strokeText r.isDotted ++ r.targetEnd.right)

/-- a relationship after its markers -/
def Relationship.targetText (r : Relationship) : Text :=
  cardinalityText r.targetCardinality ++ (r.target ++ labelText r.label)

namespace Relationship

variable {r : Relationship}

theorem endsText_eq (r : Relationship) : r.endsText = r.marks ++ ' ' :: r.targetText := by
  simp [endsText, marks, targetText]

theorem all_marks (r : Relationship) : r.marks.all isNoBrace = true := by
  unfold marks
  cases r.sourceEnd <;> cases r.isDotted <;> cases r.targetEnd <;> decide

theorem startsWith_targetText (h : r.IsPlain) : Scan.startsWith isNoBrace r.targetText = true := by
  unfold targetText
  cases r.targetCardinality with
  | none =>
    rw [cardinalityText, List.nil_append]
    exact startsWith_append _ (startsWith_mono (fun _ => isNoBrace_of_isWordOrHyphen) h.target.startsWith)
  | some t =>
    rw [cardinalityText, quote_eq]
    rfl

theorem startsWith_tailText (r : Relationship) : Scan.startsWith isMark r.tailText = true := by
  unfold tailText
  cases r.sourceCardinality with
  | none => exact startsWith_endsText r
  | some t =>
    rw [cardinalityText, List.append_assoc]
    exact startsWith_quote t _

theorem startsWith_blanks_tailText (h : r.IsPlain) {p : Char → Bool} (hp : p ' ' = false) (hq : p '"' = false) {run rest : Text}
    (hrun : Scan.run? p r.tailText = some (run, rest)) :
    Scan.startsWith isNoBrace (Scan.blanks rest) = true ∧ Scan.startsWith (· = '~') rest = false := by
  unfold tailText at hrun
  cases hc : r.sourceCardinality with
  | none =>
    rw [hc, cardinalityText, List.nil_append, endsText_eq] at hrun
    exact startsWith_blanks_of_run? hp (all_marks r) (startsWith_targetText h) hrun
  | some t =>
    rw [hc, cardinalityText, quote_eq, run?_eq_none (by exact hq)] at hrun
    exact absurd hrun (by simp)

/-- what stands in quotes after the source is not the end of the line -/
theorem quoted?_tailText {token rest : Text} (h : Scan.quoted? r.tailText = some (token, rest)) : rest = ' ' :: r.endsText := by
  unfold tailText at h
  cases hc : r.sourceCardinality with
  | none =>
    rw [hc, cardinalityText, List.nil_append, quoted?_endsText] at h
    exact absurd h (by simp)
  | some t =>
    rw [hc, cardinalityText, List.append_assoc, quoted?_quote, Option.some.injEq] at h
    exact (Prod.mk.inj h).2.symm

theorem soleQuoted?_tailText (r : Relationship) : soleQuoted? r.tailText = none := by
  rw [soleQuoted?, Option.bind_eq_none_iff]
  intro x hx
  obtain ⟨token, rest⟩ := x
  have hrest := quoted?_tailText hx
  exact if_neg (by simp [hrest])

theorem mem_tailText_of_mem_endsText {c : Char} (h : c ∈ r.endsText) : c ∈ r.tailText := List.mem_append_right _ h

theorem not_isWord_stroke (r : Relationship) : ∃ c ∈ r.endsText, isWord c = false := by
  cases hd : r.isDotted
  · exact ⟨'-', by simp [endsText, hd, strokeText], by decide⟩
  · exact ⟨'.', by simp [endsText, hd, strokeText], by decide⟩

end Relationship

section

variable {r : Relationship} (h : r.IsPlain)
include h

theorem word?_relate {α : Type} {k : Text} (hk : k.all isWordOrHyphen = true) {f : Text → Option α}
    (hf : f r.tailText = none) : (Scan.word? k (r.source ++ ' ' :: r.tailText)).bind f = none := by
  rw [Option.bind_eq_none_iff]
  intro u hu
  have hblanks := (h.source.of_word? rfl hk hu).2
  rw [Scan.blanks?_space r.startsWith_tailText, Option.some.injEq] at hblanks
  rwa [← hblanks]

theorem accessibility_relate : Accessibility.line? (r.source ++ ' ' :: r.tailText) = none := by
  refine h.source.accessibility_eq_none rfl (Or.inr ?_)
  rw [Scan.blanks_space, Scan.blanks_of_startsWith r.startsWith_tailText]
  unfold Relationship.tailText Relationship.endsText
  cases r.sourceCardinality with
  | none => cases r.sourceEnd <;> cases r.isDotted <;> rfl
  | some t =>
    rw [cardinalityText, quote_eq]
    rfl

theorem direction_relate : Direction.statement? (r.source ++ ' ' :: r.tailText) = none := by
  rw [Direction.statement?]
  split
  · rfl
  · rename_i u hu
    have hblanks := h.source.of_keyword? rfl (by decide) hu
    rw [Scan.blanks?_space r.startsWith_tailText, Option.some.injEq] at hblanks
    obtain ⟨c, hc, hword⟩ := r.not_isWord_stroke
    refine if_neg fun hall => ?_
    rw [List.all_eq_true.1 hall.2 c (hblanks ▸ Relationship.mem_tailText_of_mem_endsText hc)] at hword
    exact absurd hword (by simp)

theorem namespace_relate : namespace? (r.source ++ ' ' :: r.tailText) = none := by
  rw [namespace?, Option.bind_assoc]
  refine word?_relate h (by decide) (Option.bind_eq_none_iff.2 fun x hx => if_neg fun e => ?_)
  obtain ⟨hstart, -⟩ := Relationship.startsWith_blanks_tailText h (by decide) (by decide) hx
  rw [e] at hstart
  exact absurd hstart (by decide)

theorem declaration_relate : declaration? (r.source ++ ' ' :: r.tailText) = none := by
  rw [declaration?, Option.bind_assoc]
  refine word?_relate h (by decide) (Option.bind_eq_none_iff.2 fun x hx => ?_)
  obtain ⟨hstart, htilde⟩ := Relationship.startsWith_blanks_tailText h (by decide) (by decide) hx
  obtain ⟨id, rest⟩ := x
  dsimp only at hstart htilde ⊢
  have hgeneric : generic rest = (none, rest) := @generic_genericText none (by simp) rest htilde
  obtain ⟨c, v, hv, hc⟩ := exists_cons_of_startsWith hstart
  have hbrace : c ≠ '[' ∧ c ≠ '\x7b' ∧ c ≠ '\x7d' := by
    refine ⟨?_, ?_, ?_⟩ <;> rintro rfl <;> exact absurd hc (by decide)
  have hlabel : bracketedLabel rest = (none, rest) := by
    unfold bracketedLabel
    rw [hv]
    split
    · rename_i e
      exact absurd (List.cons.inj e).1 hbrace.1
    · rfl
  have hopens : optionalBrace '\x7b' rest = (false, c :: v) := by
    unfold optionalBrace
    rw [hv]
    exact if_neg hbrace.2.1
  have hcloses : optionalBrace '\x7d' (c :: v) = (false, c :: v) := by
    have hmark : Scan.startsWith isMark (c :: v) = true := (Bool.and_eq_true_iff.1 hc).1
    unfold optionalBrace
    rw [Scan.blanks_of_startsWith hmark]
    exact if_neg hbrace.2.2
  rw [hgeneric]
  dsimp only
  rw [hlabel]
  dsimp only
  rw [hopens]
  dsimp only
  rw [hcloses]
  exact if_neg (by simp)

theorem cssClass_relate : cssClass? (r.source ++ ' ' :: r.tailText) = none := by
  rw [cssClass?, Option.bind_assoc]
  refine word?_relate h (by decide) (Option.bind_eq_none_iff.2 fun x hx => ?_)
  obtain ⟨token, rest⟩ := x
  have hrest := Relationship.quoted?_tailText hx
  have hwhole : Scan.whole? isWordOrHyphen r.endsText = none := by
    refine if_neg fun hall => ?_
    have hspace : ' ' ∈ r.endsText := by simp [r.endsText_eq]
    exact absurd (List.all_eq_true.1 hall.2 ' ' hspace) (by decide)
  dsimp only
  rw [hrest, Scan.blanks?_space (startsWith_endsText r), Option.bind_some, hwhole]
  exact ite_self _

/-- no keyword but that of style classes claims a relationship -/
theorem read?_relate (hne : r.source ≠ "classDef") : Line.read? r.toText = some (.relate r) := by
  have htext : r.toText = r.source ++ ' ' :: r.tailText := Relationship.toText_eq h.isSpelled
  have hread := Relationship.read?_toText h.isSpelled
  have hclose : r.source ++ ' ' :: r.tailText ≠ "\x7d" := by
    obtain ⟨c, s, e, hc⟩ := exists_cons_of_startsWith h.source.startsWith
    rw [e]
    intro e
    rw [(List.cons.inj e).1] at hc
    exact absurd hc (by decide)
  have hstereotype : outerStereotype? (r.source ++ ' ' :: r.tailText) = none := by
    obtain ⟨c, s, e, hc⟩ := exists_cons_of_startsWith h.source.startsWith
    have hdrop : dropPrefix? "<<" (r.source ++ ' ' :: r.tailText) = none := by
      rw [e]
      refine if_neg ?_
      rintro rfl
      exact absurd hc (by decide)
    rw [outerStereotype?, stereotype?, hdrop]
    rfl
  have hnoteFor : noteFor? (r.source ++ ' ' :: r.tailText) = none := by
    have hfor : Scan.word? "for" r.tailText = none := by
      unfold Relationship.tailText Relationship.endsText
      cases r.sourceCardinality with
      | none => cases r.sourceEnd <;> cases r.isDotted <;> rfl
      | some t =>
        rw [cardinalityText, quote_eq]
        rfl
    have hword := word?_relate h (k := "note") (by decide) hfor
    rw [noteFor?, hword]
    rfl
  have hfreeNote : freeNote? (r.source ++ ' ' :: r.tailText) = none := by
    have hword := word?_relate h (k := "note") (by decide) r.soleQuoted?_tailText
    rw [freeNote?, hword]
    rfl
  have hclassDef : classDef? (r.source ++ ' ' :: r.tailText) = none := by
    have hword : Scan.word? "classDef" (r.source ++ ' ' :: r.tailText) = none := by
      rw [Option.eq_none_iff_forall_not_mem]
      exact fun u hu => hne (h.source.of_word? rfl (by decide) hu).1
    rw [classDef?, hword]
    rfl
  rw [htext] at hread ⊢
  rw [Line.read?, accessibility_relate h, direction_relate h, namespace_relate h, if_neg hclose, declaration_relate h,
    hstereotype, hnoteFor, hfreeNote, hclassDef, cssClass_relate h, hread]
  rfl

end

/-! ## Rules in order -/

/-- **lines read back** -/
theorem Line.read?_toText {l : Line} (h : l.IsPlain) : Line.read? l.toText = some l := by
  cases l with
  | accessibility line =>
    have hline : line.IsPlain := by cases line <;> exact AccessibilityLine.isPlain_of_isLineText h.1 h.2
    change Line.read? (accessibilityText line) = _
    rw [Line.read?, line?_accessibilityText hline]
    rfl
  | direction token =>
    have hspace : ("direction " : Text) = "direction" ++ [' '] := rfl
    have hmark := (IsTight.of_all (fun _ => isMark_of_isWord) h.1 h.2).first
    have hkeyword : Scan.keyword? "direction" ("direction" ++ ' ' :: token) = some token := keyword?_append hmark
    have hacc : Accessibility.line? ("direction" ++ ' ' :: token) = none := rfl
    have htext : (Line.direction token).toText = "direction" ++ ' ' :: token := by
      change ("direction " : Text) ++ token = _
      rw [hspace]
      simp
    have hall : token ≠ [] ∧ token.all isWord = true := h
    rw [htext, Line.read?, hacc, Direction.statement?, hkeyword]
    dsimp only
    rw [if_pos hall]
    rfl
  | openNamespace name =>
    have hread := namespace?_toText h
    rw [toText_openNamespace] at hread ⊢
    have hacc : Accessibility.line? ("namespace" ++ ' ' :: (name ++ [' ', '\x7b'])) = none := rfl
    have hdirection : Direction.statement? ("namespace" ++ ' ' :: (name ++ [' ', '\x7b'])) = none := rfl
    rw [Line.read?, hacc, hdirection, hread]
    rfl
  | closeBrace => rfl
  | declare id parameter label opensBody =>
    have hread := declaration?_toText h
    rw [toText_declare] at hread ⊢
    generalize id ++ (genericText parameter ++ (bracketText label ++ braceText opensBody)) = u at hread ⊢
    have hacc : Accessibility.line? ("class" ++ ' ' :: u) = none := rfl
    have hdirection : Direction.statement? ("class" ++ ' ' :: u) = none := rfl
    have hnamespace : namespace? ("class" ++ ' ' :: u) = none := rfl
    have hclose : ("class" : Text) ++ ' ' :: u ≠ "\x7d" := fun e => absurd (List.cons.inj e).1 (by decide)
    rw [Line.read?, hacc, hdirection, hnamespace, if_neg hclose, hread]
    rfl
  | annotate id stereotype => exact h.elim
  | note n =>
    have hread := note?_toText h
    rw [toText_note] at hread ⊢
    generalize noteText n = u at hread ⊢
    have hacc : Accessibility.line? ("note" ++ ' ' :: u) = none := rfl
    have hdirection : Direction.statement? ("note" ++ ' ' :: u) = none := rfl
    have hnamespace : namespace? ("note" ++ ' ' :: u) = none := rfl
    have hclose : ("note" : Text) ++ ' ' :: u ≠ "\x7d" := fun e => absurd (List.cons.inj e).1 (by decide)
    have hdeclaration : declaration? ("note" ++ ' ' :: u) = none := rfl
    have hstereotype : outerStereotype? ("note" ++ ' ' :: u) = none := rfl
    rw [Line.read?, hacc, hdirection, hnamespace, if_neg hclose, hdeclaration, hstereotype]
    rcases Scan.orElse_eq_some_iff.1 hread with hread | ⟨hfor, hread⟩
    · rw [hread]
      rfl
    · rw [hfor, hread]
      rfl
  | classDef name style =>
    have hread := classDef?_toText h
    have htext : (Line.classDef name style).toText = "classDef" ++ ' ' :: (name ++ propertiesText style) :=
      trimRight_classDef h.1 h.2.1
    rw [htext] at hread ⊢
    generalize name ++ propertiesText style = u at hread ⊢
    have hacc : Accessibility.line? ("classDef" ++ ' ' :: u) = none := rfl
    have hdirection : Direction.statement? ("classDef" ++ ' ' :: u) = none := rfl
    have hnamespace : namespace? ("classDef" ++ ' ' :: u) = none := rfl
    have hclose : ("classDef" : Text) ++ ' ' :: u ≠ "\x7d" := fun e => absurd (List.cons.inj e).1 (by decide)
    have hdeclaration : declaration? ("classDef" ++ ' ' :: u) = none := rfl
    have hstereotype : outerStereotype? ("classDef" ++ ' ' :: u) = none := rfl
    have hnoteFor : noteFor? ("classDef" ++ ' ' :: u) = none := rfl
    have hfreeNote : freeNote? ("classDef" ++ ' ' :: u) = none := rfl
    rw [Line.read?, hacc, hdirection, hnamespace, if_neg hclose, hdeclaration, hstereotype, hnoteFor, hfreeNote, hread]
    rfl
  | cssClass ids name =>
    obtain ⟨⟨id, rfl, hid⟩, hn⟩ := h
    have hread := cssClass?_toText hid hn
    rw [toText_cssClass] at hread ⊢
    generalize '"' :: (id ++ '"' :: ' ' :: name) = u at hread ⊢
    have hacc : Accessibility.line? ("cssClass" ++ ' ' :: u) = none := rfl
    have hdirection : Direction.statement? ("cssClass" ++ ' ' :: u) = none := rfl
    have hnamespace : namespace? ("cssClass" ++ ' ' :: u) = none := rfl
    have hclose : ("cssClass" : Text) ++ ' ' :: u ≠ "\x7d" := fun e => absurd (List.cons.inj e).1 (by decide)
    have hdeclaration : declaration? ("cssClass" ++ ' ' :: u) = none := rfl
    have hstereotype : outerStereotype? ("cssClass" ++ ' ' :: u) = none := rfl
    have hnoteFor : noteFor? ("cssClass" ++ ' ' :: u) = none := rfl
    have hfreeNote : freeNote? ("cssClass" ++ ' ' :: u) = none := rfl
    have hclassDef : classDef? ("cssClass" ++ ' ' :: u) = none := rfl
    rw [Line.read?, hacc, hdirection, hnamespace, if_neg hclose, hdeclaration, hstereotype, hnoteFor, hfreeNote, hclassDef,
      hread]
    rfl
  | relate r => exact read?_relate h.1 h.2
  | member id m => exact h.elim

theorem stereotype?_toText {text : Text} (h : IsStereotype text) (rest : Text) :
    stereotype? ("<<" ++ (text ++ '>' :: '>' :: rest)) = some (text, rest) := by
  have hspan : Text.span (· ≠ '>') (text ++ '>' :: '>' :: rest) = (text, '>' :: '>' :: rest) := span_append_cons h.bracket
  have htrim := h.trimmed
  obtain ⟨c, r, rfl⟩ := List.exists_cons_of_ne_nil h.ne_nil
  rw [stereotype?, dropPrefix?_append, Option.bind_some]
  simp only [hspan, htrim]

/-- **lines of class bodies read back** -/
theorem BodyLine.read_toText {l : BodyLine} (h : l.IsPlain) : BodyLine.read l.toText = l := by
  cases l with
  | close => rfl
  | stereotype text =>
    have hclose : (">>" : Text) = ['>', '>'] := rfl
    have htext : (BodyLine.stereotype text).toText = "<<" ++ (text ++ ['>', '>']) := by
      change "<<" ++ text ++ ">>" = _
      rw [hclose]
      simp
    have hne : ("<<" : Text) ++ (text ++ ['>', '>']) ≠ "\x7d" := fun e => absurd (List.cons.inj e).1 (by decide)
    rw [htext, BodyLine.read, if_neg hne, stereotype?_toText h]
  | member m =>
    obtain ⟨m, rfl, hm⟩ := h
    change BodyLine.read m.toText = _
    rw [BodyLine.read, if_neg hm.close]
    split
    · rename_i text e
      exact absurd e (hm.stereotype text)
    · rw [Member.read?_toText hm.isRead]

/-! ## Ends of lines -/

theorem Relationship.lineFeed_not_mem_marks (r : Relationship) : '\n' ∉ r.marks := fun hm =>
  absurd (List.all_eq_true.1 r.all_marks _ hm) (by decide)

theorem isContent_relate {r : Relationship} (h : r.IsPlain) : SourceLine.IsContent r.toText := by
  rw [Relationship.toText_eq h.isSpelled, Relationship.endsText_eq]
  refine .keyword h.source.isLineStart h.source.lineFeed ?_ ?_
  · unfold Relationship.targetText
    exact endsWith_append _ (endsWith_cons ' ' (endsWith_append _ (endsWith_append _ (endsWith_cons ' ' (endsWith_append _
      (endsWith_labelText h.target.endsWith h.label))))))
  · simp only [Relationship.targetText, List.mem_cons, List.mem_append, not_or]
    exact ⟨by decide, lineFeed_not_mem_cardinalityText h.sourceCardinality, r.lineFeed_not_mem_marks, by decide,
      lineFeed_not_mem_cardinalityText h.targetCardinality, h.target.lineFeed, lineFeed_not_mem_labelText fun t e => (h.label t e).2.lineFeed⟩

theorem isContent_declare {id : Text} {parameter label : Option Text} {opensBody : Bool}
    (h : (Line.declare id parameter label opensBody).IsPlain) :
    SourceLine.IsContent (Line.declare id parameter label opensBody).toText := by
  obtain ⟨hid, hg, hl⟩ := h
  rw [toText_declare]
  refine .keyword (by decide) (by decide) (endsWith_append _ (endsWith_cons ' ' ?_)) ?_
  · rw [← List.append_assoc]
    refine endsWith_declared ?_ label opensBody
    cases parameter with
    | none => rw [genericText, List.append_nil]; exact hid.endsWith
    | some g => exact endsWith_append id (endsWith_cons '~' (endsWith_append g (by decide)))
  · have hgeneric : '\n' ∉ genericText parameter := by
      cases parameter with
      | none => simp [genericText]
      | some g => simp [genericText, (hg g rfl).2.2]
    rw [List.mem_cons, List.mem_append, List.mem_append, not_or, not_or, not_or]
    exact ⟨by decide, hid.lineFeed, hgeneric, lineFeed_not_mem_declared hl opensBody⟩

theorem isContent_note {n : Note} (h : (Line.note n).IsPlain) : SourceLine.IsContent (Line.note n).toText := by
  obtain ⟨hid, ht⟩ := h
  obtain ⟨text, forClass⟩ := n
  rw [toText_note]
  cases forClass with
  | none =>
    refine .keyword (by decide) (by decide) (endsWith_append _ (endsWith_cons ' ' (endsWith_quote text))) ?_
    change '\n' ∉ ' ' :: quote text
    simp [ht.lineFeed]
  | some id =>
    refine .keyword (by decide) (by decide) ?_ ?_
    · exact endsWith_append _ (endsWith_cons ' ' (endsWith_append "for" (endsWith_cons ' ' (endsWith_append id
        (endsWith_cons ' ' (endsWith_quote text))))))
    · change '\n' ∉ ' ' :: ("for" ++ ' ' :: (id ++ ' ' :: quote text))
      simp only [List.mem_cons, List.mem_append, not_or]
      exact ⟨by decide, by decide, by decide, (hid id rfl).lineFeed, by decide, ht.lineFeed⟩

/-- what is printed on a line is what the line holds -/
theorem Line.isContent_toText {l : Line} (h : l.IsPlain) : SourceLine.IsContent l.toText := by
  cases l with
  | accessibility line =>
    have hline : line.value ≠ [] ∧ IsLineText line.value := by cases line <;> exact h
    exact isContent_accessibilityText (AccessibilityLine.isPlain_of_isLineText hline.1 hline.2) hline.2.semicolon
  | direction token =>
    have hend : endsWith isLineEnd token = true := endsWith_of_all h.1
      (List.all_eq_true.2 fun c hc => isLineEnd_of_isWordOrHyphen (by simp [isWordOrHyphen, List.all_eq_true.1 h.2 c hc]))
    refine .keyword (by decide) (by decide) (endsWith_append _ hend) fun hm => ?_
    exact absurd (List.all_eq_true.1 h.2 _ hm) (by decide)
  | openNamespace name =>
    have hname : '\n' ∉ name := fun hm => absurd (List.all_eq_true.1 h.2 _ hm) (by decide)
    rw [toText_openNamespace]
    refine .keyword (by decide) (by decide) (endsWith_append _ (endsWith_cons ' ' (endsWith_append _ (by decide)))) ?_
    simp [hname]
  | closeBrace => exact .of_ends (by decide) (by decide) (by decide)
  | declare id parameter label opensBody => exact isContent_declare h
  | annotate id stereotype => exact h.elim
  | note n => exact isContent_note h
  | classDef name style =>
    have htext : (Line.classDef name style).toText = "classDef" ++ ' ' :: (name ++ propertiesText style) :=
      trimRight_classDef h.1 h.2.1
    rw [htext]
    exact isContent_classDef h.1 h.2.1 h.2.2
  | cssClass ids name =>
    obtain ⟨⟨id, rfl, hid⟩, hn⟩ := h
    rw [toText_cssClass]
    refine .keyword (by decide) (by decide) ?_ ?_
    · exact endsWith_append _ (endsWith_cons ' ' (endsWith_cons '"' (endsWith_append _ (endsWith_cons '"' (endsWith_cons ' ' hn.endsWith)))))
    · simp [hid.lineFeed, hn.lineFeed]
  | relate r => exact isContent_relate h.1
  | member id m => exact h.elim

/-- what is printed on a line of a class body is what the line holds -/
theorem BodyLine.isContent_toText {l : BodyLine} (h : l.IsPlain) : SourceLine.IsContent l.toText := by
  cases l with
  | close => exact .of_ends (by decide) (by decide) (by decide)
  | stereotype text =>
    have hlf := h.lineFeed
    refine .of_ends (by rfl) (endsWith_append _ (by decide)) ?_
    change '\n' ∉ "<<" ++ text ++ ">>"
    simp only [List.mem_append, not_or]
    exact ⟨⟨by decide, hlf⟩, by decide⟩
  | member m =>
    obtain ⟨m, rfl, hm⟩ := h
    exact Member.isContent_toText hm.isRead hm.comment

end DiagramText.ClassDiagram

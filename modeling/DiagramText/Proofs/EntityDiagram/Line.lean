/-
Lines of an entity-relationship diagram outside blocks read back: declarations and relationships. The rule for relationships
is tried before the one for entities and may cut a name in several places, so a bare name is a declaration only if it cannot
be cut (`relation?_eq_none_iff`); such a cut finds symbols that no cardinality has (`read_of_relation?`).
-/
import DiagramText.EntityDiagram.Printer
import DiagramText.EntityDiagram.Reader
import DiagramText.Proofs.Accessibility
import DiagramText.Proofs.EntityDiagram.Column
import DiagramText.Proofs.Text.Scan

namespace DiagramText.EntityDiagram

open DiagramText.Text
open Sequence (IsLineText)

/-! ## What can be written -/

/-- a relationship that can be written -/
structure Relationship.IsPlain (r : Relationship) : Prop where
  source : IsId r.source
  target : IsId r.target
  label : IsQuotable r.label

/-- an entity that can be written -/
structure Entity.IsPlain (e : Entity) : Prop where
  id : IsId e.id
  label : IsQuotable e.label
  columns : ∀ c ∈ e.columns, c.IsPlain

/-- a name with the marks of a relationship in it -/
def IsAmbiguous (id : Text) : Prop := ∃ source target, source ≠ [] ∧ target ≠ [] ∧ id = source ++ (("oo--oo" : Text) ++ target)

/-! ## Ids -/

theorem entityId?_append {id rest : Text} (h : IsId id) (hr : Scan.startsWith isWordOrHyphen rest = false) :
    entityId? (id ++ rest) = some (id, rest) := h.run?_append hr

/-- white space after an id is followed by a word in a direction statement -/
theorem statement?_eq_none {id s : Text} (h : IsId id) (hs : Scan.startsWith isWordOrHyphen s = false)
    (hword : Scan.startsWith isWord (Scan.blanks s) = false) : Direction.statement? (id ++ s) = none := by
  unfold Direction.statement?
  cases hk : Scan.keyword? "direction" (id ++ s) with
  | none => rfl
  | some u =>
    obtain ⟨-, rfl⟩ := Scan.blanks?_eq_some (h.of_keyword? hs (by decide) hk)
    refine if_neg ?_
    rintro ⟨hne, hall⟩
    rw [startsWith_of_all hne hall] at hword
    exact absurd hword (by simp)

/-! ## Relationships -/

/-- the label of a relationship as it is written -/
def Relationship.labelText (r : Relationship) : Text := if isBareLabel r.label then r.label else quote r.label

/-- a solid or a dashed line as it is written -/
def lineText (isIdentifying : Bool) : Text := if isIdentifying then "--" else ".."

/-- a relationship after its source -/
def Relationship.tailText (r : Relationship) : Text :=
  r.sourceCardinality.left.1 ++ (lineText r.isIdentifying
    ++ (r.targetCardinality.right.1 ++ ' ' :: (r.target ++ ' ' :: ':' :: ' ' :: r.labelText)))

theorem Relationship.toText_eq (r : Relationship) : r.toText = r.source ++ ' ' :: r.tailText := by
  have hspace : (" " : Text) = [' '] := rfl
  have hcolon : (" : " : Text) = [' ', ':', ' '] := rfl
  unfold Relationship.toText
  dsimp only
  rw [← lineText, ← Relationship.labelText, hspace, hcolon, Relationship.tailText]
  simp only [List.append_assoc, List.cons_append, List.nil_append]

theorem Relationship.blanks_tailText (r : Relationship) : Scan.blanks (' ' :: r.tailText) = r.tailText := by
  rw [Scan.blanks_space, Scan.blanks_of_startsWith]
  unfold Relationship.tailText
  cases r.sourceCardinality <;> rfl

theorem symbol?_left (c : Cardinality) (rest : Text) : symbol? (c.left.1 ++ rest) = some (c.left.1, rest) := by
  cases c <;> rfl

theorem symbol?_right (c : Cardinality) (rest : Text) : symbol? (c.right.1 ++ rest) = some (c.right.1, rest) := by
  cases c <;> rfl

theorem lineStyle?_lineText (isIdentifying : Bool) (rest : Text) :
    lineStyle? (lineText isIdentifying ++ rest) = some (isIdentifying, rest) := by
  cases isIdentifying <;> rfl

theorem cardinality?_left (c : Cardinality) : cardinality? Cardinality.left c.left.1 = some c := by cases c <;> rfl

theorem cardinality?_right (c : Cardinality) : cardinality? Cardinality.right c.right.1 = some c := by cases c <;> rfl

/-- a label that stands without quotes is an id -/
theorem isBareLabel_iff {t : Text} (hl : '\n' ∉ t) : isBareLabel t = true ↔ IsId t := by
  constructor
  · intro h
    unfold isBareLabel at h
    split at h
    · rename_i run rest hrun
      obtain ⟨hne, hall, -⟩ := Scan.run?_eq_some hrun
      obtain rfl := Scan.run?_eq_append hrun
      rw [Scan.atEnd, Bool.or_eq_true, decide_eq_true_eq, decide_eq_true_eq] at h
      rcases h with rfl | rfl
      · rw [List.append_nil]
        exact ⟨hne, hall⟩
      · exact absurd (List.mem_append_right run (List.mem_singleton_self '\n')) hl
    · exact absurd h (by simp)
  · intro h
    have hrun := h.run?_append (rfl : Scan.startsWith isWordOrHyphen [] = false)
    rw [List.append_nil] at hrun
    rw [isBareLabel, hrun]
    rfl

section

variable {r : Relationship} (h : r.IsPlain)
include h

theorem Relationship.IsPlain.startsWith_labelText : Scan.startsWith isMark r.labelText = true := by
  unfold Relationship.labelText
  split
  · rename_i hbare
    exact ((isBareLabel_iff h.label.1).1 hbare).isTight.first
  · rw [quote_eq]
    rfl

theorem Relationship.IsPlain.endsWith_labelText : endsWith isLineEnd r.labelText = true := by
  unfold Relationship.labelText
  split
  · rename_i hbare
    exact ((isBareLabel_iff h.label.1).1 hbare).endsWith
  · exact endsWith_quote r.label

theorem Relationship.IsPlain.lineFeed_not_mem_labelText : '\n' ∉ r.labelText := by
  unfold Relationship.labelText
  split
  · exact h.label.1
  · exact h.label.lineFeed

/-- a label is read back, bare or in quotes -/
theorem Relationship.IsPlain.unquote_labelText : unquote (trim r.labelText) = r.label := by
  have htight : IsTight r.labelText :=
    ⟨h.startsWith_labelText, endsWith_mono (fun c hc => (Bool.and_eq_true_iff.1 hc).1) h.endsWith_labelText⟩
  rw [trim_of_isTight htight]
  unfold Relationship.labelText
  split
  · rename_i hbare
    have hid := (isBareLabel_iff h.label.1).1 hbare
    obtain ⟨c, r, hlabel, hc⟩ := exists_cons_of_startsWith hid.startsWith
    have hquoted : isQuoted (c :: r) = false := by
      unfold isQuoted
      split
      · rename_i e
        obtain rfl := (List.cons.inj e).1
        exact absurd hc (by decide)
      · rfl
    rw [hlabel, unquote, hquoted]
    rfl
  · exact unquote_quote_eq_self h.label.2

theorem relationTail?_tailText : ∃ text, relationTail? r.source (' ' :: r.tailText) = some text ∧ ∀ l, text.read l = .ok r := by
  have htarget : entityId? (Scan.blanks (' ' :: (r.target ++ ' ' :: ':' :: ' ' :: r.labelText)))
      = some (r.target, ' ' :: ':' :: ' ' :: r.labelText) := by
    rw [Scan.blanks_space, Scan.blanks_of_startsWith (startsWith_append _ h.target.isTight.first)]
    exact entityId?_append h.target rfl
  have hsymbol : symbol? r.tailText = some (r.sourceCardinality.left.1, lineText r.isIdentifying
      ++ (r.targetCardinality.right.1 ++ ' ' :: (r.target ++ ' ' :: ':' :: ' ' :: r.labelText))) := symbol?_left _ _
  refine ⟨⟨r.source, r.target, r.sourceCardinality.left.1, r.targetCardinality.right.1, r.tailText,
    r.targetCardinality.right.1 ++ ' ' :: (r.target ++ ' ' :: ':' :: ' ' :: r.labelText), r.label, r.isIdentifying⟩, ?_, fun l => ?_⟩
  · simp only [relationTail?, r.blanks_tailText, hsymbol, lineStyle?_lineText, symbol?_right, htarget, Option.bind_some,
      optionalLabel?_colon h.startsWith_labelText, Option.map_some, Option.getD_some, h.unquote_labelText]
  · rw [RelationText.read, cardinality?_left, cardinality?_right]

/-- **relationships read back** -/
theorem relation?_toText : ∃ text, relation? r.toText = some text ∧ ∀ l, text.read l = .ok r := by
  obtain ⟨text, htail, hread⟩ := relationTail?_tailText h
  refine ⟨text, ?_, hread⟩
  rw [relation?, r.toText_eq]
  refine Scan.longest_append h.source.all rfl ?_
  rw [if_neg h.source.ne_nil, htail]

end

/-! ## Names that relationships claim -/

section

variable {name s rest : Text} (hname : name.all isWordOrHyphen = true) (hs : s = [] ∨ ∃ u, s = '[' :: u)
include hname hs

theorem blanks_name : Scan.blanks (name ++ s) = name ++ s := by
  cases name with
  | nil => rcases hs with rfl | ⟨u, rfl⟩ <;> rfl
  | cons c name =>
    rw [List.all_cons, Bool.and_eq_true] at hname
    exact Scan.blanks_of_startsWith (isMark_of_isWordOrHyphen hname.1)

/-- of the characters of symbols a name holds the letter only -/
theorem symbol?_name {symbol : Text} (h : symbol? (name ++ s) = some (symbol, rest)) :
    symbol = "oo" ∧ ∃ m : Text, name = "oo" ++ m ∧ rest = m ++ s := by
  have hletter : ∀ {c}, isSymbolChar c = true → isWordOrHyphen c = true → c = 'o' := by
    intro c hc hw
    simp only [isSymbolChar, Bool.or_eq_true, decide_eq_true_eq] at hc
    rcases hc with ((rfl | rfl) | rfl) | rfl
    · exact absurd hw (by decide)
    · rfl
    · exact absurd hw (by decide)
    · exact absurd hw (by decide)
  have hstop : ∀ {c r}, s = c :: r → isSymbolChar c = false := by
    rintro c r rfl
    rcases hs with e | ⟨u, e⟩
    · exact absurd e (by simp)
    · rw [(List.cons.inj e).1]
      rfl
  unfold symbol? at h
  split at h
  · rename_i a b t e
    rw [Option.ite_none_right_eq_some, Bool.and_eq_true] at h
    obtain ⟨⟨ha, hb⟩, h⟩ := h
    obtain ⟨rfl, rfl⟩ := Prod.mk.inj (Option.some.inj h)
    rcases name with _ | ⟨c, _ | ⟨c', m⟩⟩
    · rw [hstop e] at ha
      exact absurd ha (by simp)
    · rw [hstop (List.cons.inj e).2] at hb
      exact absurd hb (by simp)
    · rw [List.all_cons, List.all_cons, Bool.and_eq_true, Bool.and_eq_true] at hname
      simp only [List.cons_append, List.cons.injEq] at e
      obtain ⟨hc, hc', hrest⟩ := e
      obtain rfl := hletter ha (hc ▸ hname.1)
      obtain rfl := hletter hb (hc' ▸ hname.2.1)
      exact ⟨rfl, m, by rw [hc, hc']; rfl, hrest.symm⟩
  · exact absurd h (by simp)

theorem lineStyle?_name {isIdentifying : Bool} (h : lineStyle? (name ++ s) = some (isIdentifying, rest)) :
    ∃ m : Text, name = "--" ++ m ∧ rest = m ++ s := by
  have hstop : Scan.startsWith isWordOrHyphen s = false := by
    rcases hs with rfl | ⟨u, rfl⟩ <;> rfl
  rw [lineStyle?, Scan.orElse_eq_some_iff] at h
  rcases h with h | ⟨-, h⟩
  · obtain ⟨r, hr, e⟩ := Option.map_eq_some_iff.1 h
    obtain ⟨-, rfl⟩ := Prod.mk.inj e
    obtain ⟨m, hm, hrest⟩ := Scan.dropPrefix?_name (by decide) hstop hr
    exact ⟨m, hm, hrest⟩
  · obtain ⟨r, hr, -⟩ := Option.map_eq_some_iff.1 h
    have e := dropPrefix?_eq_some_iff.1 hr
    cases name with
    | nil =>
      rcases hs with rfl | ⟨u, rfl⟩
      · exact absurd e (by simp)
      · exact absurd (List.cons.inj e).1 (by decide)
    | cons c name =>
      rw [List.all_cons, (List.cons.inj e).1, Bool.and_eq_true] at hname
      exact absurd hname.1 (by decide)

/-- what the rule for relationships finds in a name -/
theorem relationTail?_name {source : Text} {r : RelationText} (h : relationTail? source (name ++ s) = some r) :
    r.sourceSymbol = "oo" ∧ (Scan.optionalLabel? s).isSome = true ∧ ∃ target : Text, target ≠ [] ∧ name = "oo--oo" ++ target := by
  unfold relationTail? at h
  dsimp only at h
  rw [blanks_name hname hs] at h
  obtain ⟨⟨sourceSymbol, r₁⟩, h₁, h⟩ := Option.bind_eq_some_iff.1 h
  obtain ⟨rfl, m₁, rfl, rfl⟩ := symbol?_name hname hs h₁
  have hm₁ : m₁.all isWordOrHyphen = true := by
    rw [List.all_append, Bool.and_eq_true] at hname
    exact hname.2
  obtain ⟨⟨isIdentifying, r₂⟩, h₂, h⟩ := Option.bind_eq_some_iff.1 h
  obtain ⟨m₂, rfl, rfl⟩ := lineStyle?_name hm₁ hs h₂
  have hm₂ : m₂.all isWordOrHyphen = true := by
    rw [List.all_append, Bool.and_eq_true] at hm₁
    exact hm₁.2
  obtain ⟨⟨targetSymbol, r₃⟩, h₃, h⟩ := Option.bind_eq_some_iff.1 h
  obtain ⟨rfl, m₃, rfl, rfl⟩ := symbol?_name hm₂ hs h₃
  have hm₃ : m₃.all isWordOrHyphen = true := by
    rw [List.all_append, Bool.and_eq_true] at hm₂
    exact hm₂.2
  obtain ⟨⟨target, rest⟩, h₄, h⟩ := Option.bind_eq_some_iff.1 h
  dsimp only at h₄
  rw [blanks_name hm₃ hs] at h₄
  have hstop : Scan.startsWith isWordOrHyphen s = false := by
    rcases hs with rfl | ⟨u, rfl⟩ <;> rfl
  cases m₃ with
  | nil =>
    have hnone : entityId? ([] ++ s) = none := run?_eq_none hstop
    rw [hnone] at h₄
    exact absurd h₄ (by simp)
  | cons c m₃ =>
    have hrun : entityId? (c :: m₃ ++ s) = some (c :: m₃, s) := entityId?_append ⟨by simp, hm₃⟩ hstop
    rw [hrun] at h₄
    obtain ⟨rfl, rfl⟩ := Prod.mk.inj (Option.some.inj h₄)
    obtain ⟨label, hlabel, rfl⟩ := Option.map_eq_some_iff.1 h
    exact ⟨rfl, by rw [hlabel]; rfl, c :: m₃, by simp, rfl⟩

/-- a name that the rule for relationships claims can be cut, and nothing but a label follows it -/
theorem relation?_name {r : RelationText} (h : relation? (name ++ s) = some r) :
    r.sourceSymbol = "oo" ∧ (Scan.optionalLabel? s).isSome = true ∧ IsAmbiguous name := by
  obtain ⟨run, rest, e, hrun, htail⟩ := Scan.exists_of_longest_all h
  rw [Option.ite_none_left_eq_some] at htail
  obtain ⟨hne, htail⟩ := htail
  rcases List.append_eq_append_iff.1 e with ⟨m, hm, hrest⟩ | ⟨m, rfl, rfl⟩
  · -- the name is a part of the source, so nothing of it is left for the marks
    cases m with
    | nil =>
      have hs' : rest = [] ++ s := hrest.symm
      rw [hs'] at htail
      obtain ⟨-, -, target, -, hnil⟩ := relationTail?_name List.all_nil hs htail
      exact absurd hnil (by simp)
    | cons c m =>
      rw [hm, List.all_append, List.all_cons, Bool.and_eq_true, Bool.and_eq_true] at hrun
      rcases hs with rfl | ⟨u, rfl⟩
      · exact absurd hrest (by simp)
      · rw [← (List.cons.inj hrest).1] at hrun
        exact absurd hrun.2.1 (by decide)
  · rw [List.all_append, Bool.and_eq_true] at hname
    obtain ⟨hsymbol, hlabel, target, htarget, rfl⟩ := relationTail?_name hname.2 hs htail
    exact ⟨hsymbol, hlabel, run, target, hne, htarget, rfl⟩

end

variable {id : Text}

theorem relation?_bracket (h : IsId id) (u : Text) : relation? (id ++ '[' :: u) = none := by
  rw [Option.eq_none_iff_forall_ne_some]
  intro r hr
  obtain ⟨-, hlabel, -⟩ := relation?_name h.all (Or.inr ⟨u, rfl⟩) hr
  exact absurd hlabel (by simp [Scan.optionalLabel?, Scan.afterColon?, Scan.blanks, isBlank, inRanges])

/-- **a name stands for itself** where it cannot be cut into a relationship -/
theorem relation?_eq_none_iff (h : IsId id) : relation? id = none ↔ ¬ IsAmbiguous id := by
  constructor
  · rintro hnone ⟨source, target, hsource, htarget, rfl⟩
    have hall := h.all
    rw [List.all_append, List.all_append, Bool.and_eq_true, Bool.and_eq_true] at hall
    have hid : entityId? (target ++ []) = some (target, []) := entityId?_append ⟨htarget, hall.2.2⟩ rfl
    have hblanks : Scan.blanks target = target :=
      Scan.blanks_of_startsWith (IsId.isTight ⟨htarget, hall.2.2⟩).first
    have htail : (relationTail? source (("oo--oo" : Text) ++ target)).isSome = true := by
      rw [List.append_nil] at hid
      change (((entityId? (Scan.blanks target)).bind fun found => (Scan.optionalLabel? found.2).map fun label =>
        RelationText.mk source found.1 "oo" "oo" _ _ (unquote (trim (label.getD []))) true)).isSome = true
      rw [hblanks, hid]
      rfl
    have hsome := Scan.longest_isSome (k := fun source rest => if source = [] then none else relationTail? source rest)
      hall.1 (by rwa [if_neg hsource])
    rw [← relation?, hnone] at hsome
    exact absurd hsome (by simp)
  · intro hcut
    rw [Option.eq_none_iff_forall_ne_some]
    intro r hr
    rw [← List.append_nil id] at hr
    exact hcut (relation?_name h.all (Or.inl rfl) hr).2.2

/-- a relationship that is cut out of a name is refused: no cardinality is written with two letters -/
theorem read_of_relation? (h : IsId id) {r : RelationText} (hr : relation? id = some r) (l : SourceLine) (q : Relationship) :
    r.read l ≠ .ok q := by
  rw [← List.append_nil id] at hr
  have hnone : cardinality? Cardinality.left r.sourceSymbol = none := by
    rw [(relation?_name h.all (Or.inl rfl) hr).1]
    rfl
  rw [RelationText.read, hnone]
  simp

/-! ## Declarations -/

/-- the label of an entity that is not its id -/
def Entity.alias (e : Entity) : Option Text := if e.label = e.id then none else some e.label

theorem Entity.head_eq (e : Entity) : e.head = e.id ++ bracketText e.alias := by
  have hopen : ("[" : Text) = ['['] := rfl
  have hclose : ("]" : Text) = [']'] := rfl
  rw [Entity.head, Entity.alias, hopen, hclose]
  split
  · rw [bracketText, List.append_nil]
  · simp [bracketText]

section

variable {label : Option Text} (h : IsId id) (hlabel : ∀ t, label = some t → IsQuotable t)
include hlabel

theorem bracketedLabel_bracketText (opens : Bool) :
    bracketedLabel (bracketText label ++ braceText opens) = (label, braceText opens) := by
  cases label with
  | none => cases opens <;> rfl
  | some t =>
    have hshape : bracketText (some t) ++ braceText opens = '[' :: (quote t ++ ']' :: braceText opens) := by
      simp [bracketText]
    rw [hshape]
    simp only [bracketedLabel, quoted?_quote, unquote_quote_eq_self (hlabel t rfl).2]

include h

/-- **declarations read back**, a bare name where it cannot be cut into a relationship -/
theorem read?_declare {opens : Bool} (hname : label = none → opens = false → ¬ IsAmbiguous id) :
    Line.read? (id ++ (bracketText label ++ braceText opens)) = some (.declare id label opens) := by
  have hstart := startsWith_declared label opens
  have hcolon : Scan.startsWith (· = ':') (Scan.blanks (bracketText label ++ braceText opens)) = false := by
    cases label <;> cases opens <;> rfl
  have hword : Scan.startsWith isWord (Scan.blanks (bracketText label ++ braceText opens)) = false := by
    cases label <;> cases opens <;> rfl
  have hblock : block? (id ++ (bracketText label ++ braceText opens)) = if opens then some (.declare id label opens) else none := by
    rw [block?, entityId?_append h hstart, Option.bind_some]
    dsimp only
    rw [bracketedLabel_bracketText hlabel]
    cases opens <;> rfl
  rw [Line.read?, h.accessibility_eq_none hstart (Or.inr hcolon), statement?_eq_none h hstart hword, hblock]
  cases opens with
  | true => rfl
  | false =>
    have hrelation : relation? (id ++ (bracketText label ++ braceText false)) = none := by
      cases label with
      | none =>
        change relation? (id ++ []) = none
        rw [List.append_nil]
        exact (relation?_eq_none_iff h).2 (hname rfl rfl)
      | some t => exact relation?_bracket h _
    have hentity : entity? (id ++ (bracketText label ++ braceText false)) = some (.declare id label false) := by
      rw [entity?, entityId?_append h hstart, Option.bind_some]
      dsimp only
      rw [bracketedLabel_bracketText hlabel]
      rfl
    rw [hrelation, hentity]
    rfl

theorem isContent_declare (opens : Bool) : SourceLine.IsContent (id ++ (bracketText label ++ braceText opens)) :=
  .keyword h.isLineStart h.lineFeed (endsWith_declared h.endsWith label opens) (lineFeed_not_mem_declared hlabel opens)

end

/-- a bare name that can be cut is not read as a declaration -/
theorem read?_ambiguous (h : IsId id) (hcut : IsAmbiguous id) : ∃ r, Line.read? id = some (.relate r) ∧ relation? id = some r := by
  obtain ⟨r, hr⟩ := Option.ne_none_iff_exists'.1 fun hnone => (relation?_eq_none_iff h).1 hnone hcut
  have hid : entityId? (id ++ []) = some (id, []) := entityId?_append h rfl
  have haccessibility : Accessibility.line? (id ++ []) = none := h.accessibility_eq_none rfl (Or.inr rfl)
  have hdirection : Direction.statement? (id ++ []) = none := statement?_eq_none h rfl rfl
  rw [List.append_nil] at hid haccessibility hdirection
  have hblock : block? id = none := by
    rw [block?, hid]
    rfl
  exact ⟨r, by rw [Line.read?, haccessibility, hdirection, hblock, hr]; rfl, hr⟩

/-! ## Lines of relationships -/

section

variable {r : Relationship} (h : r.IsPlain)
include h

theorem read?_relate : ∃ text, Line.read? r.toText = some (.relate text) ∧ ∀ l, text.read l = .ok r := by
  obtain ⟨text, hrelation, hread⟩ := relation?_toText h
  have hcolon : Scan.startsWith (· = ':') (Scan.blanks (' ' :: r.tailText)) = false := by
    rw [r.blanks_tailText, Relationship.tailText]
    cases r.sourceCardinality <;> rfl
  have hword : Scan.startsWith isWord (Scan.blanks (' ' :: r.tailText)) = false := by
    rw [r.blanks_tailText, Relationship.tailText]
    cases r.sourceCardinality <;> rfl
  have hblock : block? (r.source ++ ' ' :: r.tailText) = none := by
    have hopens : opensBlock? (' ' :: r.tailText) = none := by
      rw [opensBlock?, r.blanks_tailText, Relationship.tailText]
      cases r.sourceCardinality <;> rfl
    rw [block?, entityId?_append h.source rfl, Option.bind_some]
    change (opensBlock? (' ' :: r.tailText)).map _ = none
    rw [hopens]
    rfl
  refine ⟨text, ?_, hread⟩
  rw [r.toText_eq] at hrelation ⊢
  rw [Line.read?, h.source.accessibility_eq_none rfl (Or.inr hcolon), statement?_eq_none h.source rfl hword, hblock, hrelation]
  rfl

theorem Relationship.IsPlain.isContent : SourceLine.IsContent r.toText := by
  rw [r.toText_eq]
  refine .keyword h.source.isLineStart h.source.lineFeed ?_ ?_
  · unfold Relationship.tailText
    exact endsWith_append _ (endsWith_cons ' ' (endsWith_append _ (endsWith_append _ (endsWith_append _ (endsWith_cons ' '
      (endsWith_append _ (endsWith_cons ' ' (endsWith_cons ':' (endsWith_cons ' ' h.endsWith_labelText)))))))))
  · have hleft : '\n' ∉ r.sourceCardinality.left.1 := by cases r.sourceCardinality <;> decide
    have hright : '\n' ∉ r.targetCardinality.right.1 := by cases r.targetCardinality <;> decide
    have hline : '\n' ∉ lineText r.isIdentifying := by cases r.isIdentifying <;> decide
    simp [Relationship.tailText, hleft, hright, hline, h.target.lineFeed, h.lineFeed_not_mem_labelText]

end

end DiagramText.EntityDiagram

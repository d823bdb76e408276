/-
Relationships read back. Each marker is found where it is written: those that are tried before it fail on its first
characters, at the left end (`findSome?_left`) as at the right one (`findSome?_right`). `read?_toText` holds of every
relationship between two ids whose texts are spelled as a reader leaves them (`IsSpelled`), and a reader leaves nothing else
(`isSpelled_of_read?`).
-/
import DiagramText.ClassDiagram.Relation
import DiagramText.Proofs.Text.Statement

namespace DiagramText.ClassDiagram

open DiagramText.Text
open Sequence (IsLineText)

/-- a relationship between two ids, whose cardinalities can stand in quotes and whose label is trimmed and on one line -/
structure Relationship.IsSpelled (r : Relationship) : Prop where
  source : IsId r.source
  target : IsId r.target
  sourceCardinality : ∀ t, r.sourceCardinality = some t → IsQuotable t
  targetCardinality : ∀ t, r.targetCardinality = some t → IsQuotable t
  label : ∀ t, r.label = some t → t ≠ [] ∧ '\n' ∉ t ∧ trim t = t

/-- a relationship that can be written on a line of its own: its label does not end with what ends a line -/
structure Relationship.IsPlain (r : Relationship) : Prop where
  source : IsId r.source
  target : IsId r.target
  sourceCardinality : ∀ t, r.sourceCardinality = some t → IsQuotable t
  targetCardinality : ∀ t, r.targetCardinality = some t → IsQuotable t
  label : ∀ t, r.label = some t → t ≠ [] ∧ IsLineText t

theorem Relationship.IsPlain.isSpelled {r : Relationship} (h : r.IsPlain) : r.IsSpelled where
  source := h.source
  target := h.target
  sourceCardinality := h.sourceCardinality
  targetCardinality := h.targetCardinality
  label t e := ⟨(h.label t e).1, (h.label t e).2.lineFeed, (h.label t e).2.trimmed⟩

theorem Relationship.IsSpelled.isTight_label {r : Relationship} (h : r.IsSpelled) {t : Text} (e : r.label = some t) : IsTight t :=
  (trim_eq_self_iff.1 (h.label t e).2.2).resolve_left (h.label t e).1

/-- the line of a relationship between its markers -/
def strokeText (isDotted : Bool) : Text := if isDotted then ".." else "--"

/-- a cardinality, before what it counts -/
def cardinalityText : Option Text → Text
  | none => []
  | some t => quote t ++ [' ']

/-- a relationship after its source and its cardinality there -/
def Relationship.endsText (r : Relationship) : Text :=
  r.sourceEnd.left ++ (strokeText r.isDotted
    ++ (r.targetEnd.right ++ ' ' :: (cardinalityText r.targetCardinality ++ (r.target ++ labelText r.label))))

theorem join_parts (source target ends : Text) (sourceCardinality targetCardinality : Option Text) :
    join " " (source :: (sourceCardinality.map quote).toList ++ [ends] ++ (targetCardinality.map quote).toList ++ [target])
      = source ++ ' ' :: (cardinalityText sourceCardinality ++ (ends ++ ' ' :: (cardinalityText targetCardinality ++ target))) := by
  have hspace : (" " : Text) = [' '] := rfl
  cases sourceCardinality <;> cases targetCardinality <;> simp [join_cons_cons, cardinalityText, hspace]

theorem Relationship.toText_eq {r : Relationship} (h : r.IsSpelled) :
    r.toText = r.source ++ ' ' :: (cardinalityText r.sourceCardinality ++ r.endsText) := by
  have hcolon : (" : " : Text) = [' ', ':', ' '] := rfl
  unfold Relationship.toText Relationship.endsText
  dsimp only
  rw [join_parts, ← strokeText]
  cases hl : r.label with
  | none =>
    have hp : present (none : Option Text) = none := rfl
    rw [hp, labelText]
    simp
  | some t =>
    have hp : present (some t) = some t := present_eq_some_iff.2 ⟨rfl, (h.label t hl).1⟩
    rw [hp, labelText, hcolon]
    simp

/-! ## Markers -/

theorem mem_all (e : RelationEnd) : e ∈ RelationEnd.all := by cases e <;> decide

/-- no marker that is tried before the left one is found where it stands -/
theorem earlier_left (e : RelationEnd) (isDotted : Bool) (rest : Text) :
    ∀ left ∈ RelationEnd.all.takeWhile (· ≠ e), (dropPrefix? left.left (e.left ++ (strokeText isDotted ++ rest))).bind lineStyle? = none := by
  intro left hleft
  cases e <;> cases isDotted <;> cases left <;> first | rfl | exact absurd hleft (by decide)

theorem lineStyle?_strokeText (isDotted : Bool) (rest : Text) : lineStyle? (strokeText isDotted ++ rest) = some (isDotted, rest) := by
  cases isDotted <;> rfl

/-- the left marker decides, if the rest can be read after it -/
theorem findSome?_left {α : Type} (e : RelationEnd) (isDotted : Bool) (rest : Text) {k : RelationEnd → Bool × Text → Option α} {x : α}
    (hk : k e (isDotted, rest) = some x) :
    RelationEnd.all.findSome? (fun left => ((dropPrefix? left.left (e.left ++ (strokeText isDotted ++ rest))).bind lineStyle?).bind (k left))
      = some x := by
  refine findSome?_eq_some_of_takeWhile (mem_all e) (fun left hleft => ?_) ?_
  · rw [earlier_left e isDotted rest left hleft]
    rfl
  · rw [dropPrefix?_append, Option.bind_some, lineStyle?_strokeText]
    exact hk

/-- no marker that is tried before the right one is found where it stands -/
theorem earlier_right (e : RelationEnd) (rest : Text) :
    ∀ right ∈ RelationEnd.all.takeWhile (· ≠ e), rightEnd? (e.right ++ ' ' :: rest) right = none := by
  intro right hright
  cases e <;> cases right <;> first | rfl | exact absurd hright (by decide)

/-- the right marker decides, if the rest can be read after it -/
theorem findSome?_right {α β : Type} (e : RelationEnd) (rest : Text) {f : Text → Option α} {x : α} (g : RelationEnd → α → β)
    (hf : f (' ' :: rest) = some x) :
    RelationEnd.all.findSome? (fun right => ((rightEnd? (e.right ++ ' ' :: rest) right).bind f).map (g right)) = some (g e x) := by
  refine findSome?_eq_some_of_takeWhile (mem_all e) (fun right hright => ?_) ?_
  · rw [earlier_right e rest right hright]
    rfl
  · have hend : rightEnd? (e.right ++ ' ' :: rest) e = some (' ' :: rest) := by
      rw [rightEnd?, dropPrefix?_append, Option.bind_some]
      cases e <;> rfl
    rw [hend, Option.bind_some, hf, Option.map_some]

/-! ## Relationships -/

theorem unquote_quotable {t : Option Text} (h : ∀ u, t = some u → IsQuotable u) : (t.map quote).map unquote = t := by
  cases t with
  | none => rfl
  | some u => exact congrArg some (unquote_quote_eq_self (h u rfl).2)

/-- a cardinality before a text that is no cardinality -/
theorem optionalQuoted_cardinalityText (t : Option Text) {rest : Text} (hmark : Scan.startsWith isMark rest = true)
    (hquoted : Scan.quoted? rest = none) :
    Scan.optionalQuoted (Scan.blanks (' ' :: (cardinalityText t ++ rest))) = (t.map quote, rest) := by
  cases t with
  | none =>
    have hblanks : Scan.blanks (' ' :: (cardinalityText none ++ rest)) = rest := by
      rw [Scan.blanks_space]
      exact Scan.blanks_of_startsWith hmark
    rw [hblanks, Scan.optionalQuoted, hquoted]
    rfl
  | some u =>
    have hblanks : Scan.blanks (' ' :: (cardinalityText (some u) ++ rest)) = quote u ++ ' ' :: rest := by
      rw [Scan.blanks_space, cardinalityText, List.append_assoc]
      exact Scan.blanks_of_startsWith (startsWith_quote u _)
    rw [hblanks, Scan.optionalQuoted, quoted?_quote]
    dsimp only
    rw [Scan.blanks_space, Scan.blanks_of_startsWith hmark]
    rfl

theorem relationTarget?_append {r : Relationship} (h : r.IsSpelled) :
    relationTarget? (' ' :: (cardinalityText r.targetCardinality ++ (r.target ++ labelText r.label)))
      = some (r.targetCardinality, r.target, r.label) := by
  obtain ⟨l, hlabel, hpresent⟩ := optionalLabel?_labelText fun t e => h.isTight_label e
  rw [relationTarget?, optionalQuoted_cardinalityText _ (startsWith_append _ h.target.isTight.first) (h.target.quoted?_append _)]
  dsimp only
  rw [h.target.run?_append (startsWith_labelText r.label), Option.bind_some]
  dsimp only
  rw [hlabel, Option.map_some, unquote_quotable h.targetCardinality, hpresent]

theorem startsWith_endsText (r : Relationship) : Scan.startsWith isMark r.endsText = true := by
  unfold Relationship.endsText strokeText
  cases r.sourceEnd <;> cases r.isDotted <;> rfl

theorem quoted?_endsText (r : Relationship) : Scan.quoted? r.endsText = none := by
  unfold Relationship.endsText strokeText
  cases r.sourceEnd <;> cases r.isDotted <;> rfl

theorem Relationship.read?_toText {r : Relationship} (h : r.IsSpelled) : Relationship.read? r.toText = some r := by
  have htail : relationTail? r.source (' ' :: (cardinalityText r.sourceCardinality ++ r.endsText)) = some r := by
    rw [relationTail?, optionalQuoted_cardinalityText _ (startsWith_endsText r) (quoted?_endsText r)]
    dsimp only
    rw [unquote_quotable h.sourceCardinality]
    exact findSome?_left r.sourceEnd r.isDotted _ (findSome?_right r.targetEnd _ _ (relationTarget?_append h))
  rw [Relationship.toText_eq h, Relationship.read?]
  exact Scan.longest_append h.source.all rfl (by rw [if_neg h.source.ne_nil, htail])

theorem lineFeed_not_mem_cardinalityText {t : Option Text} (h : ∀ u, t = some u → IsQuotable u) : '\n' ∉ cardinalityText t := by
  cases t with
  | none => simp [cardinalityText]
  | some u => simp [cardinalityText, (h u rfl).lineFeed]

theorem Relationship.lineFeed_not_mem_toText {r : Relationship} (h : r.IsSpelled) : '\n' ∉ r.toText := by
  have hleft : '\n' ∉ r.sourceEnd.left := by cases r.sourceEnd <;> decide
  have hstroke : '\n' ∉ strokeText r.isDotted := by cases r.isDotted <;> decide
  have hright : '\n' ∉ r.targetEnd.right := by cases r.targetEnd <;> decide
  rw [Relationship.toText_eq h]
  simp only [Relationship.endsText, List.mem_append, List.mem_cons, not_or]
  exact ⟨h.source.lineFeed, by decide, lineFeed_not_mem_cardinalityText h.sourceCardinality, hleft, hstroke, hright, by decide,
    lineFeed_not_mem_cardinalityText h.targetCardinality, h.target.lineFeed,
    lineFeed_not_mem_labelText fun t e => (h.label t e).2.1⟩

/-! ## What relationships are read from -/

section

variable {t rest : Text} {cardinality : Option Text}

/-- what is read in quotes can be written in quotes -/
theorem isQuotable_of_optionalQuoted (hl : '\n' ∉ t) (h : Scan.optionalQuoted t = (cardinality, rest)) :
    (∀ u, cardinality.map unquote = some u → IsQuotable u) ∧ rest ⊆ t := by
  unfold Scan.optionalQuoted at h
  split at h
  · rename_i token r hquoted
    obtain ⟨rfl, rfl⟩ := Prod.mk.inj h
    refine ⟨fun u hu => ?_, List.Subset.trans (Scan.blanks_subset r) (Scan.quoted?_subset hquoted).2⟩
    obtain rfl := Option.some.inj hu
    exact isQuotable_unquote hquoted hl
  · obtain ⟨rfl, rfl⟩ := Prod.mk.inj h
    exact ⟨fun u hu => absurd hu (by simp), List.Subset.refl _⟩

theorem lineStyle?_subset {isDotted : Bool} (h : lineStyle? t = some (isDotted, rest)) : rest ⊆ t := by
  rcases Scan.orElse_eq_some_iff.1 h with h | ⟨-, h⟩
  · obtain ⟨r, hr, e⟩ := Option.map_eq_some_iff.1 h
    exact (Prod.mk.inj e).2 ▸ dropPrefix?_subset hr
  · obtain ⟨r, hr, e⟩ := Option.map_eq_some_iff.1 h
    exact (Prod.mk.inj e).2 ▸ dropPrefix?_subset hr

theorem rightEnd?_subset {e : RelationEnd} (h : rightEnd? t e = some rest) : rest ⊆ t := by
  obtain ⟨r, hr, h⟩ := Option.bind_eq_some_iff.1 h
  split at h
  · exact absurd h (by simp)
  · exact Option.some.inj h ▸ dropPrefix?_subset hr

/-- what is read after the markers is spelled as it has to be -/
theorem isSpelled_of_relationTarget? {target : Text} {label : Option Text} (hl : '\n' ∉ t)
    (h : relationTarget? t = some (cardinality, target, label)) :
    (∀ u, cardinality = some u → IsQuotable u) ∧ IsId target ∧
      ∀ u, label = some u → u ≠ [] ∧ '\n' ∉ u ∧ trim u = u := by
  unfold relationTarget? at h
  generalize hquoted : Scan.optionalQuoted (Scan.blanks t) = quoted at h
  obtain ⟨token, rest⟩ := quoted
  obtain ⟨hcardinality, hrest⟩ := isQuotable_of_optionalQuoted (fun hm => hl (Scan.blanks_subset t hm)) hquoted
  obtain ⟨⟨id, r⟩, hid, h⟩ := Option.bind_eq_some_iff.1 h
  obtain ⟨l, hlabel, h⟩ := Option.map_eq_some_iff.1 h
  simp only [Prod.mk.injEq] at h
  obtain ⟨rfl, rfl, rfl⟩ := h
  obtain ⟨hne, hall, hr⟩ := Scan.run?_eq_some hid
  refine ⟨hcardinality, ⟨hne, hall⟩, fun u hu => ?_⟩
  obtain ⟨hmap, hne⟩ := present_eq_some_iff.1 hu
  obtain ⟨v, hv, rfl⟩ := Option.map_eq_some_iff.1 hmap
  have hsub : v ⊆ t := List.Subset.trans (Scan.optionalLabel?_subset hlabel hv)
    (List.Subset.trans hr (List.Subset.trans hrest (Scan.blanks_subset t)))
  exact ⟨hne, fun hm => hl (hsub (mem_of_mem_trim hm)), trim_trim v⟩

end

/-- **what a line is read as** is spelled as relationships are written -/
theorem Relationship.isSpelled_of_read? {t : Text} {r : Relationship} (hl : '\n' ∉ t) (h : Relationship.read? t = some r) :
    r.IsSpelled := by
  obtain ⟨source, rest, rfl, hall, h⟩ := Scan.exists_of_longest_all h
  rw [List.mem_append, not_or] at hl
  split at h
  · exact absurd h (by simp)
  · rename_i hne
    unfold relationTail? at h
    generalize hquoted : Scan.optionalQuoted (Scan.blanks rest) = quoted at h
    obtain ⟨token, afterSource⟩ := quoted
    obtain ⟨hsource, hrest⟩ := isQuotable_of_optionalQuoted (fun hm => hl.2 (Scan.blanks_subset rest hm)) hquoted
    obtain ⟨left, -, h⟩ := List.exists_of_findSome?_eq_some h
    obtain ⟨⟨isDotted, afterLine⟩, hline, h⟩ := Option.bind_eq_some_iff.1 h
    obtain ⟨afterLeft, hleft, hline⟩ := Option.bind_eq_some_iff.1 hline
    obtain ⟨right, -, h⟩ := List.exists_of_findSome?_eq_some h
    obtain ⟨⟨cardinality, target, label⟩, htarget, rfl⟩ := Option.map_eq_some_iff.1 h
    obtain ⟨afterRight, hright, htarget⟩ := Option.bind_eq_some_iff.1 htarget
    have hsub : afterRight ⊆ rest := List.Subset.trans (rightEnd?_subset hright) (List.Subset.trans (lineStyle?_subset hline)
      (List.Subset.trans (dropPrefix?_subset hleft) (List.Subset.trans hrest (Scan.blanks_subset rest))))
    obtain ⟨hcardinality, hid, hlabel⟩ := isSpelled_of_relationTarget? (fun hm => hl.2 (hsub hm)) htarget
    exact ⟨⟨hne, hall⟩, hid, hsource, hcardinality, hlabel⟩

/-- **relationships read back exactly** where they are spelled as a reader leaves them -/
theorem Relationship.isSpelled_iff (r : Relationship) :
    r.IsSpelled ↔ '\n' ∉ r.toText ∧ Relationship.read? r.toText = some r := by
  constructor
  · intro h
    exact ⟨Relationship.lineFeed_not_mem_toText h, Relationship.read?_toText h⟩
  · rintro ⟨hl, h⟩
    exact Relationship.isSpelled_of_read? hl h

end DiagramText.ClassDiagram

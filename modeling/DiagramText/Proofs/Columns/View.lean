/-
The meaningful lines of a text are a view of it. Each is the piece of its raw line that its column and its length say, between the
white space that is its indentation and what reading drops (`SourceLine.StandsIn`); their numbers increase; and a raw line without
a meaningful line is one of which nothing is left (`IsPassedOver`). `isViewOf_sourceLines` says so of every text, and
`IsViewOf.unique` that no other lines are such a view.
-/
import DiagramText.Proofs.Columns.Lines

namespace DiagramText

open DiagramText.Text

/-- the raw line of a number, counted from one -/
def Text.line? (t : Text) (number : Nat) : Option Text := if 1 ≤ number then (splitOn '\n' t)[number - 1]? else none

/-- a raw line of which nothing is left: white space, perhaps with the one semicolon that is dropped, or a comment behind white
space -/
def IsPassedOver (strip : Bool) (raw : Text) : Prop :=
  IsDropped strip raw ∨ ∃ b r : Text, raw = b ++ ("%%" ++ r) ∧ b.all isBlank = true

/-- the line is a piece of a text, and stands where its number and its column say -/
structure SourceLine.StandsIn (strip : Bool) (t : Text) (l : SourceLine) : Prop where
  /-- it is not empty, and no white space stands at its ends -/
  tight : IsTight l.text
  blank : l.indent.all isBlank = true
  column : l.column = l.indent.length + 1
  /-- before its column stands its indentation, and from there on the line and what is dropped -/
  raw : ∃ raw, t.line? l.number = some raw ∧ raw.take (l.column - 1) = l.indent ∧
    (raw.drop (l.column - 1)).take l.text.length = l.text ∧ Drops strip l.text (raw.drop (l.column - 1 + l.text.length))

/-- lines that are all there is to read in a text -/
structure IsViewOf (strip : Bool) (t : Text) (ls : List SourceLine) : Prop where
  numbers : ls.Pairwise fun l m => l.number < m.number
  stands : ∀ l ∈ ls, l.StandsIn strip t
  complete : ∀ number raw, t.line? number = some raw → ((∀ l ∈ ls, l.number ≠ number) ↔ IsPassedOver strip raw)

variable {strip : Bool} {t raw : Text} {l m : SourceLine} {ls ms : List SourceLine}

/-! ## Lines that are passed over -/

theorem IsDropped.blank_append {b : Text} (hb : b.all isBlank = true) (h : IsDropped strip t) : IsDropped strip (b ++ t) := by
  rcases h with h | ⟨hs, a, c, rfl, ha, hc⟩
  · exact Or.inl (by rw [List.all_append, hb, h]; rfl)
  · exact Or.inr ⟨hs, b ++ a, c, (List.append_assoc b a _).symm, by rw [List.all_append, hb, ha]; rfl, hc⟩

namespace SourceLine

/-- nothing is left of a line but what is dropped -/
theorem unterminated_eq_nil_iff : unterminated strip (trim raw) = [] ↔ IsDropped strip raw := by
  constructor
  · intro hnil
    obtain ⟨a, b, hraw, ha, hb⟩ := exists_trim_append raw
    obtain ⟨d, hd, hdrops⟩ := exists_unterminated_append strip (trim raw)
    rw [hnil, List.nil_append] at hd
    rw [hraw, ← hd]
    exact (hdrops.dropped.append hb).blank_append ha
  · rintro (hblank | ⟨rfl, a, b, rfl, ha, hb⟩)
    · rw [show trim raw = [] from trim_append_blank hblank []]
      cases strip <;> rfl
    · rw [trim_blank_append ha, show trim (';' :: b) = [';'] from trim_append_blank hb [';']]
      rfl

/-- a comment is told from what is left after trimming -/
theorem comment_trim_iff :
    (dropPrefix? "%%" (trim raw)).isSome ↔ ∃ b r : Text, raw = b ++ ("%%" ++ r) ∧ b.all isBlank = true := by
  constructor
  · intro h
    obtain ⟨r, hr⟩ := Option.isSome_iff_exists.1 h
    obtain ⟨a, b, hraw, ha, -⟩ := exists_trim_append raw
    refine ⟨a, r ++ b, ?_, ha⟩
    rw [hraw, dropPrefix?_eq_some_iff.1 hr, List.append_assoc]
  · rintro ⟨b, r, rfl, hb⟩
    obtain ⟨c, hr, hc⟩ := exists_trimRight_append r
    -- the percent signs are kept, whatever is trimmed behind them
    have htight : IsTight ("%%" ++ trimRight r) := by
      rcases dropRightWhile_eq_nil_or isBlank r with hnil | hend
      · rw [trimRight, hnil]
        decide
      · exact .append (by decide) hend
    rw [trim_blank_append hb, ← hr, ← List.append_assoc, trim_append_blank hc, trim_of_isTight htight]
    rfl

theorem content?_eq_none_iff : content? strip raw = none ↔ IsPassedOver strip raw := by
  rw [content?, IsPassedOver, ← unterminated_eq_nil_iff, ← comment_trim_iff]
  split
  · rename_i h
    exact iff_of_true rfl (Or.symm h)
  · rename_i h
    exact iff_of_false (Option.some_ne_none _) (h ∘ Or.symm)

theorem ofRaw?_eq_none_iff {n : Nat} : ofRaw? strip n raw = none ↔ IsPassedOver strip raw := by
  rw [← content?_eq_none_iff, ← map_text_ofRaw? strip n raw, Option.map_eq_none_iff]

/-! ## Lines that are kept -/

theorem mem_sourceLines_iff :
    l ∈ sourceLines strip t ↔ ∃ raw, t.line? l.number = some raw ∧ ofRaw? strip l.number raw = some l := by
  rw [sourceLines, mem_ofRaws_iff]
  constructor
  · rintro ⟨k, raw, hk, hraw⟩
    obtain ⟨-, -, -, -, hnumber, -⟩ := exists_raw_of_ofRaw? hraw
    refine ⟨raw, ?_, hnumber ▸ hraw⟩
    rw [line?, if_pos (by omega), hnumber, Nat.add_sub_cancel_left, hk]
  · rintro ⟨raw, hline, hraw⟩
    rw [line?, Option.ite_none_right_eq_some] at hline
    exact ⟨l.number - 1, raw, hline.2, by rwa [Nat.add_sub_cancel' hline.1]⟩

theorem standsIn_of_mem (h : l ∈ sourceLines strip t) : l.StandsIn strip t := by
  obtain ⟨raw, hline, hraw⟩ := mem_sourceLines_iff.1 h
  obtain ⟨d, rfl, hdrops, hblank, -, hcolumn⟩ := exists_raw_of_ofRaw? hraw
  refine ⟨(isTight_of_mem_sourceLines h).1, hblank, hcolumn, _, hline, ?_⟩
  rw [hcolumn, Nat.add_sub_cancel, List.take_left, List.drop_left, List.take_left, ← List.append_assoc, ← List.length_append,
    List.drop_left]
  exact ⟨rfl, rfl, hdrops⟩

theorem pairwise_number_ofRaws (n : Nat) (raws : List Text) : (ofRaws strip n raws).Pairwise fun l m => l.number < m.number := by
  induction raws generalizing n with
  | nil => exact .nil
  | cons raw raws ih =>
    rw [ofRaws]
    split
    · exact ih (n + 1)
    · rename_i l hl
      refine .cons (fun m hm => ?_) (ih (n + 1))
      obtain ⟨k, raw', -, hm⟩ := mem_ofRaws_iff.1 hm
      obtain ⟨-, -, -, -, hnumber, -⟩ := exists_raw_of_ofRaw? hl
      obtain ⟨-, -, -, -, hnumber', -⟩ := exists_raw_of_ofRaw? hm
      omega

end SourceLine

/-- **the meaningful lines of a text are a view of it** -/
theorem isViewOf_sourceLines (strip : Bool) (t : Text) : IsViewOf strip t (sourceLines strip t) where
  numbers := SourceLine.pairwise_number_ofRaws 1 _
  stands _ := SourceLine.standsIn_of_mem
  complete number raw hline := by
    rw [← SourceLine.ofRaw?_eq_none_iff (n := number), Option.eq_none_iff_forall_ne_some]
    constructor
    · intro h l hl
      obtain ⟨-, -, -, -, hnumber, -⟩ := SourceLine.exists_raw_of_ofRaw? hl
      exact h l (SourceLine.mem_sourceLines_iff.2 ⟨raw, hnumber ▸ hline, hnumber ▸ hl⟩) hnumber
    · rintro h l hl rfl
      obtain ⟨raw', hline', hraw⟩ := SourceLine.mem_sourceLines_iff.1 hl
      obtain rfl := Option.some.inj (hline.symm.trans hline')
      exact h l hraw

/-- white space before and behind lines, semicolons behind them and on a line of their own, a comment and an empty line -/
example : sourceLines true "\t a  b ;\r\n ; \n %% c;\n\nd;;" = [⟨1, 3, "a  b", "\t "⟩, ⟨5, 1, "d;", []⟩] := by decide

/-! ## There is no other view -/

/-- where a line ends is told from what may be dropped behind it -/
theorem Drops.eq_nil {text e d : Text} (h : Drops strip text (e ++ d)) (h' : Drops strip (text ++ e) d)
    (hend : endsWith isMark (text ++ e) = true) : e = [] := by
  by_contra hne
  obtain ⟨r, c, rfl, hc⟩ := exists_concat_of_endsWith (endsWith_of_endsWith_append hend hne)
  have hmark {b : Text} (hb : b.all isBlank = true) : c ∉ b := fun hm => by
    have := List.all_eq_true.1 hb c hm
    simp [isMark, this] at hc
  rcases h.dropped with hblank | ⟨hs, a, b, he, ha, hb⟩
  · exact hmark hblank (by simp)
  · -- the last character of the longer line is the semicolon that is dropped, so another one has to follow it
    have hsemicolon : c = ';' := by
      have hmem : c ∈ a ++ ';' :: b := he ▸ by simp
      simpa [hmark ha, hmark hb] using hmem
    subst hsemicolon
    have hnext : ';' ∈ d := h'.semicolon hs (by rw [← List.append_assoc, endsWith_concat]; rfl)
    have hcount : (a ++ ';' :: b).count ';' = 1 := by
      rw [List.count_append, List.count_cons_self, List.count_eq_zero_of_not_mem (hmark ha), List.count_eq_zero_of_not_mem (hmark hb)]
    have hpos := List.count_pos_iff.2 hnext
    rw [← he, List.count_append, List.count_append, List.count_singleton_self] at hcount
    omega

theorem Drops.unique {text text' d d' : Text} (h : Drops strip text d) (h' : Drops strip text' d') (hend : endsWith isMark text = true)
    (hend' : endsWith isMark text' = true) (heq : text ++ d = text' ++ d') : text = text' := by
  rcases List.append_eq_append_iff.1 heq with ⟨e, rfl, rfl⟩ | ⟨e, rfl, rfl⟩
  · rw [h.eq_nil h' hend', List.append_nil]
  · rw [h'.eq_nil h hend, List.append_nil]

/-- one line at most stands at a number -/
theorem SourceLine.StandsIn.unique (h : l.StandsIn strip t) (h' : m.StandsIn strip t) (hnumber : l.number = m.number) : l = m := by
  have hraw {l : SourceLine} (h : l.StandsIn strip t) {raw : Text} (hline : t.line? l.number = some raw) :
      l.indent = raw.takeWhile isBlank ∧ ∃ d, raw = l.indent ++ (l.text ++ d) ∧ Drops strip l.text d := by
    obtain ⟨raw', hline', hindent, htext, hdrops⟩ := h.raw
    obtain rfl := Option.some.inj (hline.symm.trans hline')
    have hsplit : raw = l.indent ++ (l.text ++ raw.drop (l.column - 1 + l.text.length)) := by
      conv_lhs => rw [← List.take_append_drop (l.column - 1) raw, hindent, ← List.take_append_drop l.text.length (raw.drop _), htext,
        List.drop_drop]
    refine ⟨?_, _, hsplit, hdrops⟩
    obtain ⟨c, r, hfirst, hc⟩ := exists_cons_of_startsWith h.tight.first
    have hc : ¬ isBlank c = true := by simpa [isMark] using hc
    rw [hsplit, List.takeWhile_append_of_pos (List.all_eq_true.1 h.blank), hfirst, List.cons_append, List.takeWhile_cons_of_neg hc,
      List.append_nil]
  obtain ⟨raw, hline, -⟩ := h.raw
  obtain ⟨hindent, d, hd, hdrops⟩ := hraw h hline
  obtain ⟨hindent', d', hd', hdrops'⟩ := hraw h' (hnumber ▸ hline)
  have hsame : l.indent = m.indent := hindent.trans hindent'.symm
  have htext : l.text = m.text := by
    have htail : l.indent ++ (l.text ++ d) = l.indent ++ (m.text ++ d') := by rw [← hd, hsame, ← hd']
    exact hdrops.unique hdrops' h.tight.last h'.tight.last (List.append_cancel_left htail)
  have hcolumn : l.column = m.column := by rw [h.column, h'.column, hsame]
  calc l = ⟨l.number, l.column, l.text, l.indent⟩ := rfl
    _ = ⟨m.number, m.column, m.text, m.indent⟩ := by rw [hnumber, hcolumn, htext, hsame]
    _ = m := rfl

/-- **a text has one view** -/
theorem IsViewOf.unique (h : IsViewOf strip t ls) (h' : IsViewOf strip t ms) : ls = ms := by
  have hsubset {ls ms : List SourceLine} (h : IsViewOf strip t ls) (h' : IsViewOf strip t ms) : ls ⊆ ms := by
    intro l hl
    obtain ⟨raw, hline, -⟩ := (h.stands l hl).raw
    have hkept : ¬ IsPassedOver strip raw := fun hover => (h.complete _ raw hline).2 hover l hl rfl
    rw [← h'.complete _ raw hline, not_forall₂] at hkept
    obtain ⟨m, hm, hnumber⟩ := hkept
    have hnumber : m.number = l.number := not_not.1 hnumber
    rwa [(h.stands l hl).unique (h'.stands m hm) hnumber.symm]
  have hnodup {ls : List SourceLine} (h : IsViewOf strip t ls) : ls.Nodup :=
    h.numbers.imp fun hlt => by rintro rfl; exact Nat.lt_irrefl _ hlt
  have hperm : ls.Perm ms := (List.perm_ext_iff_of_nodup (hnodup h) (hnodup h')).2 fun l => ⟨fun hl => hsubset h h' hl, fun hl => hsubset h' h hl⟩
  exact hperm.eq_of_pairwise (fun l m _ _ hlt hgt => absurd hgt (Nat.lt_asymm hlt)) h.numbers h'.numbers

end DiagramText

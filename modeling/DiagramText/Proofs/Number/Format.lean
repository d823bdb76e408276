/-
Written numbers read back. What is written of a number is a `Spelling`: whole digits, a fraction and an exponent, of
which the last two may be missing. A spelling is read as it stands (`Spelling.ofText?_toText`), and the one that is
written stands for the digits that were found (`exists_zeros_spell`). So every finite number is read back from its text
(`exists_ofText?_format`); only minus zero loses its sign.
-/
import DiagramText.Number.Format
import DiagramText.Proofs.Number.Decimal

namespace DiagramText

/-- a text with a minus sign or without -/
def signed (negative : Bool) (t : Text) : Text := if negative then '-' :: t else t

/-! ## Spellings -/

/-- the parts of a numeral: digits before the point, digits after it, and an exponent -/
structure Spelling where
  whole : Text
  fraction : Text
  exponent : Option Int

namespace Spelling

/-- a numeral of these parts -/
def toText (l : NumberLayout) (s : Spelling) : Text :=
  Decimal.significandText s.whole s.fraction ++ (s.exponent.map l.exponentText).getD []

/-- digits where digits are expected, and one at least before the point -/
structure WellFormed (s : Spelling) : Prop where
  whole_ne_nil : s.whole ≠ []
  whole : s.whole.all Char.isDigit = true
  fraction : s.fraction.all Char.isDigit = true

/-- what a spelling says -/
def toDecimal (negative : Bool) (s : Spelling) : Decimal :=
  ⟨negative, Decimal.digitValues (s.whole ++ s.fraction), s.exponent.getD 0 - s.fraction.length⟩

end Spelling

namespace NumberLayout

theorem exponentText_eq (l : NumberLayout) (e : Int) :
    l.exponentText e = ['e', if decide (e < 0) then '-' else '+']
      ++ (List.replicate (l.exponentDigits - (Text.ofNat e.natAbs).length) '0' ++ Text.ofNat e.natAbs) := by
  simp [exponentText]

theorem exponentPart_exponentText (l : NumberLayout) (e : Int) : Decimal.exponentPart (l.exponentText e) = (e, []) := by
  have hdigits : ∀ n, (List.replicate n '0' ++ Text.ofNat e.natAbs).all Char.isDigit = true := fun n => by
    rw [List.all_append, Decimal.all_isDigit_zeros, Decimal.all_isDigit_ofNat]
    rfl
  rw [exponentText_eq, Decimal.exponentPart_append (by simp [Text.ofNat_ne_nil]) (hdigits _), Decimal.ofDigits_zeros_append,
    Decimal.ofDigits_ofNat]
  by_cases he : e < 0
  · simp only [he, decide_true, if_true, Prod.mk.injEq, and_true]
    omega
  · simp only [he, decide_false, Bool.false_eq_true, if_false, Prod.mk.injEq, and_true]
    omega

end NumberLayout

namespace Spelling

theorem WellFormed.toText_eq_cons {s : Spelling} (h : s.WellFormed) (l : NumberLayout) :
    ∃ c r, c.isDigit = true ∧ s.toText l = c :: r := by
  obtain ⟨c, r, hw⟩ := List.exists_cons_of_ne_nil h.whole_ne_nil
  exact ⟨c, _, List.all_eq_true.1 h.whole c (hw ▸ List.mem_cons_self), by rw [toText, Decimal.significandText, hw]; rfl⟩

/-- **a spelling is read as it stands** -/
theorem ofText?_toText {s : Spelling} (h : s.WellFormed) (l : NumberLayout) (negative : Bool) :
    Decimal.ofText? (signed negative (s.toText l)) = some (s.toDecimal negative) := by
  have hsign : Decimal.sign (signed negative (s.toText l)) = (negative, s.toText l) := by
    obtain ⟨c, r, hc, hcons⟩ := h.toText_eq_cons l
    rw [hcons]
    cases negative
    · exact Decimal.sign_cons r hc
    · rfl
  have hrest : Scan.startsWith (fun c => isDigit c || c = '.') ((s.exponent.map l.exponentText).getD []) = false := by
    cases s.exponent <;> rfl
  have hexponent : Decimal.exponentPart ((s.exponent.map l.exponentText).getD []) = (s.exponent.getD 0, []) := by
    cases s.exponent with
    | none => rfl
    | some e => exact l.exponentPart_exponentText e
  rw [Decimal.ofText?, Decimal.read?, hsign]
  simp only [toText, Decimal.significand?_append h.whole_ne_nil h.whole h.fraction hrest, Option.map_some, hexponent]
  rfl

end Spelling

/-! ## The spelling of a number -/

namespace NumberLayout

/-- the parts of what is written of significant digits -/
def spell (l : NumberLayout) (s : Significant) : Spelling :=
  let digits := Text.ofNat s.coefficient
  if l.lowestPositional ≤ s.exponent ∧ s.exponent < l.lowestExponential then
    if s.exponent < 0 then ⟨['0'], List.replicate ((-s.exponent).toNat - 1) '0' ++ digits, none⟩
    else
      let whole := s.exponent.toNat + 1
      let fraction := digits.drop whole
      ⟨digits.take whole ++ List.replicate (whole - digits.length) '0', if fraction = [] then ['0'] else fraction, none⟩
  else ⟨digits.take 1, digits.drop 1, some s.exponent⟩

theorem write_eq (l : NumberLayout) (s : Significant) : l.write s = (l.spell s).toText l := by
  have hne := Text.ofNat_ne_nil s.coefficient
  rw [write, spell]
  generalize Text.ofNat s.coefficient = digits at *
  by_cases hpositional : l.lowestPositional ≤ s.exponent ∧ s.exponent < l.lowestExponential
  · by_cases hneg : s.exponent < 0
    · simp [hpositional, hneg, positional, Spelling.toText, Decimal.significandText, hne]
    · by_cases hfraction : digits.drop (s.exponent.toNat + 1) = []
      · simp [hpositional, hneg, positional, Spelling.toText, Decimal.significandText, hfraction]
      · simp [hpositional, hneg, positional, Spelling.toText, Decimal.significandText, hfraction]
  · simp only [if_neg hpositional, Spelling.toText, Decimal.significandText]
    obtain ⟨d, ds, rfl⟩ := List.exists_cons_of_ne_nil hne
    cases ds <;> simp [pointed]

theorem wellFormed_spell (l : NumberLayout) (s : Significant) : (l.spell s).WellFormed := by
  have hne := Text.ofNat_ne_nil s.coefficient
  have hdigits := Decimal.all_isDigit_ofNat s.coefficient
  rw [spell]
  generalize Text.ofNat s.coefficient = digits at *
  have htake : ∀ n, (digits.take n).all Char.isDigit = true := fun n =>
    List.all_eq_true.2 fun c hc => List.all_eq_true.1 hdigits c (List.mem_of_mem_take hc)
  have hdrop : ∀ n, (digits.drop n).all Char.isDigit = true := fun n =>
    List.all_eq_true.2 fun c hc => List.all_eq_true.1 hdigits c (List.mem_of_mem_drop hc)
  have hzeros := Decimal.all_isDigit_zeros
  dsimp only
  split
  · split
    · exact ⟨by simp, rfl, by rw [List.all_append, hzeros, hdigits]; rfl⟩
    · refine ⟨?_, by rw [List.all_append, htake, hzeros]; rfl, ?_⟩
      · simp [hne]
      · split
        · rfl
        · exact hdrop _
  · exact ⟨by simp [hne], htake 1, hdrop 1⟩

/-- the spelling of digits stands for them, with zeros after the last one perhaps -/
theorem exists_zeros_spell (l : NumberLayout) {s : Significant} (hcount : (Text.ofNat s.coefficient).length = s.count)
    (negative : Bool) :
    ∃ zeros : Nat, Decimal.ofDigits ((l.spell s).toDecimal negative).digits = s.coefficient * 10 ^ zeros ∧
      ((l.spell s).toDecimal negative).exponent = s.exponent - s.count + 1 - zeros := by
  have hvalue := Decimal.ofDigits_ofNat s.coefficient
  have hpos := List.length_pos_iff.2 (Text.ofNat_ne_nil s.coefficient)
  rw [spell]
  generalize Text.ofNat s.coefficient = digits at *
  dsimp only
  split
  · split
    · rename_i hneg
      refine ⟨0, ?_, ?_⟩
      · have hzeros := Decimal.ofDigits_zeros_append ((-s.exponent).toNat - 1 + 1) digits
        rw [List.replicate_succ] at hzeros
        rw [pow_zero, Nat.mul_one, ← hvalue, ← hzeros]
        rfl
      · simp only [Spelling.toDecimal, Option.getD_none, List.length_append, List.length_replicate, hcount]
        omega
    · by_cases hshort : digits.length ≤ s.exponent.toNat + 1
      · refine ⟨s.exponent.toNat + 1 - digits.length + 1, ?_, ?_⟩
        · have hzeros := Decimal.ofDigits_append_zeros digits (s.exponent.toNat + 1 - digits.length + 1)
          rw [hvalue, List.replicate_succ', ← List.append_assoc] at hzeros
          rw [← hzeros, List.take_of_length_le hshort, List.drop_of_length_le hshort]
          rfl
        · rw [List.drop_of_length_le hshort]
          simp only [Spelling.toDecimal, Option.getD_none, if_true, List.length_singleton, ← hcount]
          omega
      · have hdrop : digits.drop (s.exponent.toNat + 1) ≠ [] := fun h => hshort (List.drop_eq_nil_iff.1 h)
        refine ⟨0, ?_, ?_⟩
        · rw [pow_zero, Nat.mul_one, if_neg hdrop, Nat.sub_eq_zero_of_le (by omega)]
          simp [Spelling.toDecimal, hvalue]
        · rw [if_neg hdrop]
          simp only [Spelling.toDecimal, Option.getD_none, List.length_drop, ← hcount]
          omega
  · refine ⟨0, ?_, ?_⟩
    · simp only [Spelling.toDecimal, List.take_append_drop, hvalue, pow_zero, Nat.mul_one]
    · simp only [Spelling.toDecimal, Option.getD_some, List.length_drop, hcount]
      omega

end NumberLayout

/-! ## Numbers -/

theorem Text.length_ofNat {n k : Nat} (hk : 0 < k) (hle : 10 ^ (k - 1) ≤ n) (hlt : n < 10 ^ k) : (ofNat n).length = k := by
  have h1 := (Text.length_ofNat_le_iff hk).2 hlt
  by_contra hne
  have hpos := List.length_pos_iff.2 (Text.ofNat_ne_nil n)
  have h2 := (Text.length_ofNat_le_iff (n := n) (k := k - 1) (by omega)).1 (by omega)
  omega

namespace Binary64

/-- the number with minus zero taken as zero -/
def withoutMinusZero (x : Binary64) : Binary64 := if x.rank = 0 then zero else x

/-- the numeral of the shortest digits has the rank that they are the digits of -/
theorem rank_spell {rank : Nat} (hpos : rank ≠ 0) (hrank : rank < infinityRank) (l : NumberLayout) (negative : Bool) :
    ((l.spell (Shortest.digits rank)).toDecimal negative).rank = rank := by
  obtain ⟨hcount, hle17, hle, hlt, hback⟩ := Shortest.readsBack_digits hpos hrank
  obtain ⟨hlow, hhigh⟩ := Shortest.exponent_digits hpos hrank
  obtain ⟨zeros, hvalue, hexponent⟩ := l.exists_zeros_spell (Text.length_ofNat hcount hle hlt) negative
  generalize Shortest.digits rank = s at *
  have hdigits : ∀ d ∈ ((l.spell s).toDecimal negative).digits, d < 10 := fun _ => Decimal.lt_of_mem_digitValues
  rw [Decimal.rank_eq hdigits hvalue hexponent hcount hle hlt (by omega) (by omega), hback]

/-- the numeral of a whole number has its rank -/
theorem rank_ofNat {rank n : Nat} (hrank : rank < infinityRank) (hn : unitsOfRank rank = n * unitsInOne) (negative : Bool) :
    (Decimal.mk negative (Decimal.digitValues (Text.ofNat n)) 0).rank = rank := by
  have hdigits : ∀ d ∈ Decimal.digitValues (Text.ofNat n), d < 10 := fun _ =>
    Decimal.lt_of_mem_digitValues
  have hvalue : Decimal.ofDigits (Decimal.digitValues (Text.ofNat n)) = n * 10 ^ 0 := by
    rw [Decimal.ofDigits_ofNat, pow_zero, Nat.mul_one]
  by_cases hzero : n = 0
  · subst hzero
    have : rank = 0 := by
      by_contra hpos
      have := unitsOfRank_pos hpos
      omega
    subst this
    rfl
  · have hle := Shortest.pow_digitCount_le (Nat.pos_of_ne_zero hzero)
    have hlt := Shortest.lt_pow_digitCount n
    have hcount : Shortest.digitCount n ≤ 309 := by
      have hunits := Shortest.unitsOfRank_lt hrank
      rw [hn, Nat.mul_comm] at hunits
      exact (Text.length_ofNat_le_iff (by omega)).2 (Nat.lt_of_mul_lt_mul_left hunits)
    have hexponent : (0 : Int) = 0 - ((0 : Nat) : Int) := rfl
    rw [Decimal.rank_eq hdigits hvalue hexponent (Shortest.digitCount_pos n) hle hlt (by omega) (by omega)]
    refine nearestRank_of_exact hrank (by decide) ?_
    simp [hn]

/-- a finite number is written as a spelling of its magnitude, with a minus sign unless it is zero -/
theorem exists_spelling_format {x : Binary64} (h : x.isFinite = true) :
    ∃ s : Spelling, s.WellFormed ∧ x.format = signed (x.negative && x.rank ≠ 0) (s.toText numberLayout) ∧
      ∀ negative, (s.toDecimal negative).rank = x.rank := by
  have hrank : x.rank < infinityRank := of_decide_eq_true h
  have hnan : x.isNaN = false := decide_eq_false (by omega)
  by_cases hwhole : x.isWhole = true
  · have hmod : x.units % unitsInOne = 0 := by simpa [isWhole, h] using hwhole
    refine ⟨⟨Text.ofNat (x.units / unitsInOne), [], none⟩, ⟨Text.ofNat_ne_nil _, Decimal.all_isDigit_ofNat _, rfl⟩, ?_, fun negative => ?_⟩
    · rw [format, if_pos hwhole]
      simp [signed, Spelling.toText, Decimal.significandText]
    · have hunits : unitsOfRank x.rank = x.units / unitsInOne * unitsInOne := (Nat.div_mul_cancel (Nat.dvd_of_mod_eq_zero hmod)).symm
      simpa [Spelling.toDecimal] using rank_ofNat hrank hunits negative
  · have hpos : x.rank ≠ 0 := fun hzero => hwhole (by simp [isWhole, h, units, hzero, unitsOfRank, octave_pos])
    refine ⟨numberLayout.spell (Shortest.digits x.rank), numberLayout.wellFormed_spell _, ?_, rank_spell hpos hrank numberLayout⟩
    rw [format, if_neg hwhole, toText, hnan, h, ← NumberLayout.write_eq]
    simp [signed, hpos]

/-- **every finite number is read back from its text**; only minus zero loses its sign -/
theorem exists_ofText?_format {x : Binary64} (h : x.isFinite = true) :
    ∃ d, Decimal.ofText? x.format = some d ∧ d.value = x.withoutMinusZero := by
  obtain ⟨s, hs, hformat, hrank⟩ := exists_spelling_format h
  refine ⟨_, hformat ▸ Spelling.ofText?_toText hs numberLayout _, ?_⟩
  rw [Decimal.value, hrank, withoutMinusZero]
  split
  · rename_i hzero
    simp [Spelling.toDecimal, hzero, zero]
  · rename_i hpos
    simp [Spelling.toDecimal, hpos]

end Binary64

/-! ## The characters of a number -/

/-- a character that a written number can hold -/
def isNumeralChar (c : Char) : Bool := c.isDigit || c = '.' || c = '-' || c = '+' || c = 'e'

theorem isNumeralChar_of_isDigit {c : Char} (h : c.isDigit = true) : isNumeralChar c = true := by
  simp [isNumeralChar, h]

theorem all_isNumeralChar {t : Text} (h : t.all Char.isDigit = true) : t.all isNumeralChar = true :=
  List.all_eq_true.2 fun c hc => isNumeralChar_of_isDigit (List.all_eq_true.1 h c hc)

theorem NumberLayout.all_exponentText (l : NumberLayout) (e : Int) : (l.exponentText e).all isNumeralChar = true := by
  rw [exponentText_eq, List.all_append, List.all_append, all_isNumeralChar (Decimal.all_isDigit_zeros _),
    all_isNumeralChar (Decimal.all_isDigit_ofNat _)]
  by_cases he : e < 0 <;> simp [he, isNumeralChar]

namespace Spelling

theorem WellFormed.all_toText {s : Spelling} (h : s.WellFormed) (l : NumberLayout) : (s.toText l).all isNumeralChar = true := by
  have hfraction : (if s.fraction = [] then [] else '.' :: s.fraction).all isNumeralChar = true := by
    split
    · rfl
    · rw [List.all_cons, all_isNumeralChar h.fraction]
      rfl
  have hexponent : ((s.exponent.map l.exponentText).getD []).all isNumeralChar = true := by
    cases s.exponent with
    | none => rfl
    | some e => exact l.all_exponentText e
  rw [toText, Decimal.significandText, List.all_append, List.all_append, all_isNumeralChar h.whole, hfraction, hexponent]
  rfl

theorem WellFormed.endsWith_toText {s : Spelling} (h : s.WellFormed) (l : NumberLayout) :
    Text.endsWith Char.isDigit (s.toText l) = true := by
  rw [toText]
  cases s.exponent with
  | none =>
    rw [Option.map_none, Option.getD_none, List.append_nil, Decimal.significandText]
    split
    · rw [List.append_nil]
      exact Text.endsWith_of_all h.whole_ne_nil h.whole
    · rename_i hne
      exact Text.endsWith_append _ (Text.endsWith_cons _ (Text.endsWith_of_all hne h.fraction))
  | some e =>
    refine Text.endsWith_append _ ?_
    rw [Option.map_some, Option.getD_some, NumberLayout.exponentText_eq]
    exact Text.endsWith_append _ (Text.endsWith_append _ (Text.endsWith_of_all (Text.ofNat_ne_nil _) (Decimal.all_isDigit_ofNat _)))

end Spelling

theorem Binary64.all_format {x : Binary64} (h : x.isFinite = true) : x.format.all isNumeralChar = true := by
  obtain ⟨s, hs, hformat, -⟩ := exists_spelling_format h
  have hall := hs.all_toText numberLayout
  rw [hformat, signed]
  split
  · rw [List.all_cons, hall]
    rfl
  · exact hall

theorem Binary64.endsWith_format {x : Binary64} (h : x.isFinite = true) : Text.endsWith Char.isDigit x.format = true := by
  obtain ⟨s, hs, hformat, -⟩ := exists_spelling_format h
  have hend := hs.endsWith_toText numberLayout
  rw [hformat, signed]
  split
  · exact Text.endsWith_cons _ hend
  · exact hend

theorem isMark_of_isNumeralChar {c : Char} (h : isNumeralChar c = true) : Text.isMark c = true := by
  simp only [isNumeralChar, Bool.or_eq_true, decide_eq_true_eq] at h
  rcases h with (((h | rfl) | rfl) | rfl) | rfl
  · exact isMark_of_isDigit (Decimal.isDigit_of_ascii h)
  · decide
  · decide
  · decide
  · decide

/-- the sign of minus zero is not written -/
theorem Binary64.format_withoutMinusZero (x : Binary64) : x.withoutMinusZero.format = x.format := by
  rw [withoutMinusZero]
  obtain ⟨negative, rank⟩ := x
  split
  · rename_i hrank
    obtain rfl : rank = 0 := hrank
    cases negative <;> rfl
  · rfl

theorem Binary64.not_mem_format {x : Binary64} (h : x.isFinite = true) {c : Char} (hc : isNumeralChar c = false) : c ∉ x.format :=
  fun hm => absurd (List.all_eq_true.1 (all_format h) c hm) (by rw [hc]; decide)

theorem Binary64.isTight_format {x : Binary64} (h : x.isFinite = true) : Text.IsTight x.format := by
  obtain ⟨t, c, hc, -⟩ := Text.exists_concat_of_endsWith (endsWith_format h)
  exact .of_all (fun _ => isMark_of_isNumeralChar) (by simp [hc]) (all_format h)

theorem Binary64.endsWith_isLineEnd_format {x : Binary64} (h : x.isFinite = true) :
    Text.endsWith Text.isLineEnd x.format = true :=
  Text.endsWith_mono (fun _ hc => isLineEnd_of_isDigit (Decimal.isDigit_of_ascii hc)) (endsWith_format h)

/-- a number is read back in a line, after white space too -/
theorem SourceLine.number?_format (l : SourceLine) (offset : Int) {x : Binary64} (h : x.isFinite = true) {b : Text}
    (hb : b.all isBlank = true) : l.number? offset (b ++ x.format) = .ok x.withoutMinusZero := by
  obtain ⟨d, hd, hvalue⟩ := Binary64.exists_ofText?_format h
  rw [number?, Text.trim_margin hb (Binary64.isTight_format h)]
  simp only [hd, hvalue]

end DiagramText

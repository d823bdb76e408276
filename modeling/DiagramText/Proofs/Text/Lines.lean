/-
Trimmed texts and lines. A text that starts and ends with a character other than white space (`IsTight`) is what
trimming leaves; `trim_margin` says that white space before it is all that trimming takes away. `splitOn_ofLines` takes
joined lines apart again, and `map_text_sourceLines` says which texts the meaningful lines of a text have: reading depends
on them alone, wherever they stand.
-/
import DiagramText.Source.Line
import Mathlib.Tactic

namespace DiagramText

namespace Text

/-! ## Ends of a text -/

/-- ends with a character of the class -/
def endsWith (p : Char → Bool) (t : Text) : Bool := t.getLast?.any p

/-- a character that is no white space -/
def isMark (c : Char) : Bool := !isBlank c

/-- not empty, with no white space at either end -/
structure IsTight (t : Text) : Prop where
  first : Scan.startsWith isMark t = true
  last : endsWith isMark t = true

instance (t : Text) : Decidable (IsTight t) :=
  decidable_of_iff (Scan.startsWith isMark t = true ∧ endsWith isMark t = true) ⟨fun h => ⟨h.1, h.2⟩, fun h => ⟨h.1, h.2⟩⟩

theorem startsWith_append {p : Char → Bool} {s : Text} (t : Text) (h : Scan.startsWith p s = true) :
    Scan.startsWith p (s ++ t) = true := by
  cases s with
  | nil => simp [Scan.startsWith] at h
  | cons c r => exact h

theorem endsWith_append {p : Char → Bool} (s : Text) {t : Text} (h : endsWith p t = true) :
    endsWith p (s ++ t) = true := by
  unfold endsWith at h ⊢
  cases ht : t.getLast? with
  | none => simp [ht] at h
  | some c => simpa [List.getLast?_append, ht] using h

theorem startsWith_reverse (p : Char → Bool) (t : Text) : Scan.startsWith p t.reverse = endsWith p t := by
  unfold endsWith
  rw [List.getLast?_eq_head?_reverse]
  cases t.reverse <;> simp [Scan.startsWith]

theorem startsWith_mono {p q : Char → Bool} {t : Text} (h : ∀ c, p c = true → q c = true)
    (ht : Scan.startsWith p t = true) : Scan.startsWith q t = true := by
  cases t with
  | nil => simp [Scan.startsWith] at ht
  | cons c r => exact h c ht

theorem endsWith_mono {p q : Char → Bool} {t : Text} (h : ∀ c, p c = true → q c = true)
    (ht : endsWith p t = true) : endsWith q t = true := by
  rw [← startsWith_reverse] at ht ⊢
  exact startsWith_mono h ht

theorem startsWith_of_all {p : Char → Bool} {t : Text} (hn : t ≠ []) (h : t.all p = true) :
    Scan.startsWith p t = true := by
  cases t with
  | nil => exact absurd rfl hn
  | cons c r => simp_all [Scan.startsWith]

theorem endsWith_of_all {p : Char → Bool} {t : Text} (hn : t ≠ []) (h : t.all p = true) : endsWith p t = true := by
  rw [← startsWith_reverse]
  exact startsWith_of_all (by simpa using hn) (by simpa using h)

theorem exists_cons_of_startsWith {p : Char → Bool} {t : Text} (h : Scan.startsWith p t = true) :
    ∃ c r, t = c :: r ∧ p c = true := by
  cases t with
  | nil => simp [Scan.startsWith] at h
  | cons c r => exact ⟨c, r, rfl, h⟩

theorem exists_concat_of_endsWith {p : Char → Bool} {t : Text} (h : endsWith p t = true) :
    ∃ r c, t = r ++ [c] ∧ p c = true := by
  rw [← startsWith_reverse] at h
  obtain ⟨c, r, e, hc⟩ := exists_cons_of_startsWith h
  exact ⟨r.reverse, c, by rw [← List.reverse_reverse t, e]; simp, hc⟩

@[simp] theorem endsWith_concat (p : Char → Bool) (t : Text) (c : Char) : endsWith p (t ++ [c]) = p c := by
  simp [endsWith]

/-- the end of a text is the end of any part that is not empty and stands there -/
theorem endsWith_of_endsWith_append {p : Char → Bool} {s t : Text} (h : endsWith p (s ++ t) = true) (ht : t ≠ []) :
    endsWith p t = true := by
  obtain ⟨t, c, rfl⟩ := (List.eq_nil_or_concat t).resolve_left ht
  rw [List.concat_eq_append] at h ⊢
  rwa [← List.append_assoc, endsWith_concat, ← endsWith_concat p t] at h

theorem endsWith_cons {p : Char → Bool} (c : Char) {t : Text} (h : endsWith p t = true) : endsWith p (c :: t) = true :=
  endsWith_append [c] h

/-- a character that may end a line: white space and a semicolon would be taken away -/
def isLineEnd (c : Char) : Bool := isMark c && c ≠ ';'

/-- what a line starts with: no white space, and no comment sign -/
def isLineStart (c : Char) : Bool := isMark c && c ≠ '%'

theorem endsWith_isLineEnd {t : Text} (h : endsWith isMark t = true) (hs : ¬ endsWith (· = ';') t = true) :
    endsWith isLineEnd t = true := by
  obtain ⟨r, c, rfl, hc⟩ := exists_concat_of_endsWith h
  rw [endsWith_concat, decide_eq_true_eq] at hs
  rw [endsWith_concat, isLineEnd, hc, Bool.true_and, decide_eq_true hs]

/-- a text without a character does not end with it -/
theorem not_endsWith_of_not_mem {t : Text} {c : Char} (h : c ∉ t) : ¬ endsWith (· = c) t = true := by
  intro hend
  obtain ⟨r, d, rfl, hd⟩ := exists_concat_of_endsWith hend
  exact h (by simp [of_decide_eq_true hd])

namespace IsTight

theorem ne_nil {t : Text} (h : IsTight t) : t ≠ [] := by
  rintro rfl
  exact absurd h.first (by simp [Scan.startsWith])

/-- tight ends are enough -/
theorem append {s t : Text} (hs : Scan.startsWith isMark s = true) (ht : endsWith isMark t = true) :
    IsTight (s ++ t) := ⟨startsWith_append t hs, endsWith_append s ht⟩

/-- whatever stands between two tight texts -/
theorem between {s t : Text} (hs : IsTight s) (m : Text) (ht : IsTight t) : IsTight (s ++ (m ++ t)) :=
  append hs.first (endsWith_append m ht.last)

theorem of_all {p : Char → Bool} {t : Text} (hp : ∀ c, p c = true → isMark c = true) (hn : t ≠ [])
    (h : t.all p = true) : IsTight t :=
  ⟨startsWith_mono hp (startsWith_of_all hn h), endsWith_mono hp (endsWith_of_all hn h)⟩

end IsTight

/-! ## Trimming -/

theorem dropRightWhile_concat (p : Char → Bool) (t : Text) (c : Char) :
    dropRightWhile p (t ++ [c]) = if p c then dropRightWhile p t else t ++ [c] := by
  induction t with
  | nil => simp [dropRightWhile]
  | cons d r ih =>
    rw [List.cons_append, dropRightWhile, ih]
    by_cases hc : p c = true
    · simp [hc, dropRightWhile]
    · simp only [hc, Bool.false_eq_true, if_false]
      cases r <;> rfl

theorem dropRightWhile_append {p : Char → Bool} {t b : Text} (h : b.all p = true) :
    dropRightWhile p (t ++ b) = dropRightWhile p t := by
  induction b using List.reverseRecOn with
  | nil => simp
  | append_singleton b c ih =>
    simp only [List.all_append, List.all_cons, List.all_nil, Bool.and_true, Bool.and_eq_true] at h
    rw [← List.append_assoc, dropRightWhile_concat, if_pos h.2, ih h.1]

theorem dropRightWhile_of_endsWith {p : Char → Bool} {t : Text} (h : endsWith (!p ·) t = true) :
    dropRightWhile p t = t := by
  obtain ⟨r, c, rfl, hc⟩ := exists_concat_of_endsWith h
  rw [dropRightWhile_concat, if_neg (by simpa using hc)]

/-- what is dropped is of the class -/
theorem exists_dropRightWhile_append (p : Char → Bool) (t : Text) : ∃ b, dropRightWhile p t ++ b = t ∧ b.all p = true := by
  induction t using List.reverseRecOn with
  | nil => exact ⟨[], rfl, rfl⟩
  | append_singleton t c ih =>
    rw [dropRightWhile_concat]
    split
    · rename_i hc
      obtain ⟨b, hb, hall⟩ := ih
      refine ⟨b ++ [c], ?_, by simp [hall, hc]⟩
      rw [← List.append_assoc, hb]
    · exact ⟨[], List.append_nil _, rfl⟩

theorem dropRightWhile_isPrefix (p : Char → Bool) (t : Text) : dropRightWhile p t <+: t := by
  obtain ⟨b, hb, -⟩ := exists_dropRightWhile_append p t
  exact ⟨b, hb⟩

theorem dropRightWhile_eq_nil_or (p : Char → Bool) (t : Text) :
    dropRightWhile p t = [] ∨ endsWith (!p ·) (dropRightWhile p t) = true := by
  induction t using List.reverseRecOn with
  | nil => exact Or.inl rfl
  | append_singleton r c ih =>
    rw [dropRightWhile_concat]
    split
    · exact ih
    · rename_i hc
      exact Or.inr (by simpa using hc)

theorem trimLeft_of_startsWith {t : Text} (h : Scan.startsWith isMark t = true) : trimLeft t = t := by
  obtain ⟨c, r, rfl, hc⟩ := exists_cons_of_startsWith h
  simp only [isMark, Bool.not_eq_true'] at hc
  simp [trimLeft, hc]

theorem trimLeft_append {b t : Text} (h : b.all isBlank = true) : trimLeft (b ++ t) = trimLeft t := by
  induction b with
  | nil => rfl
  | cons c r ih =>
    simp only [List.all_cons, Bool.and_eq_true] at h
    rw [← ih h.2]
    simp [trimLeft, h.1]

theorem trimLeft_eq_nil_or (t : Text) : trimLeft t = [] ∨ Scan.startsWith isMark (trimLeft t) = true := by
  induction t with
  | nil => exact Or.inl rfl
  | cons c r ih =>
    by_cases hc : isBlank c = true
    · simpa [trimLeft, hc] using ih
    · right
      simp [trimLeft, hc, Scan.startsWith, isMark]

/-- what is trimmed off the end is white space -/
theorem exists_trimRight_append (t : Text) : ∃ b, trimRight t ++ b = t ∧ b.all isBlank = true :=
  exists_dropRightWhile_append isBlank t

theorem trimRight_append {t b : Text} (h : b.all isBlank = true) : trimRight (t ++ b) = trimRight t :=
  dropRightWhile_append h

theorem trimRight_of_endsWith {t : Text} (h : endsWith isMark t = true) : trimRight t = t :=
  dropRightWhile_of_endsWith h

theorem trimRight_append_of_ne_nil (m : Text) {t : Text} (h : trimRight t ≠ []) : trimRight (m ++ t) = m ++ trimRight t := by
  induction m with
  | nil => rfl
  | cons c r ih =>
    change dropRightWhile isBlank (c :: (r ++ t)) = c :: (r ++ trimRight t)
    change dropRightWhile isBlank (r ++ t) = r ++ trimRight t at ih
    rw [dropRightWhile, ih]
    cases hr : r ++ trimRight t with
    | nil => exact absurd (List.append_eq_nil_iff.1 hr).2 h
    | cons d s => rfl

theorem trimRight_ne_nil {t : Text} (h : Scan.startsWith isMark t = true) : trimRight t ≠ [] := by
  obtain ⟨c, r, rfl, hc⟩ := exists_cons_of_startsWith h
  have hc : isBlank c = false := by simpa [isMark] using hc
  rw [trimRight, dropRightWhile]
  split <;> simp [hc]

/-- white space at the end of a line is trimmed in its margin as it is without it -/
theorem trimRight_margin (margin : Text) {t : Text} (h : Scan.startsWith isMark t = true) :
    trimRight (margin ++ t) = margin ++ trimRight t := trimRight_append_of_ne_nil margin (trimRight_ne_nil h)

theorem trim_of_isTight {t : Text} (h : IsTight t) : trim t = t := by
  rw [trim, trimLeft_of_startsWith h.first, trimRight_of_endsWith h.last]

theorem trim_blank_append {b t : Text} (h : b.all isBlank = true) : trim (b ++ t) = trim t := by
  rw [trim, trim, trimLeft_append h]

theorem trim_append_blank {b : Text} (hb : b.all isBlank = true) (t : Text) : trim (t ++ b) = trim t := by
  have hleft : trimLeft b = [] := by
    rw [← List.append_nil b, trimLeft_append hb]
    rfl
  rw [trim, trim, trimLeft, List.dropWhile_append]
  split
  · rename_i hempty
    have hempty : trimLeft t = [] := List.isEmpty_iff.1 hempty
    rw [hempty]
    exact congrArg trimRight hleft
  · exact trimRight_append hb

/-- what trimming takes away is white space -/
theorem exists_trim_append (t : Text) :
    ∃ a b : Text, t = a ++ (trim t ++ b) ∧ a.all isBlank = true ∧ b.all isBlank = true := by
  obtain ⟨b, hb, hblank⟩ := exists_trimRight_append (trimLeft t)
  refine ⟨t.takeWhile isBlank, b, ?_, List.all_takeWhile, hblank⟩
  rw [trim, hb]
  exact List.takeWhile_append_dropWhile.symm

/-- white space before a tight text is all that trimming takes away -/
theorem trim_margin {b t : Text} (hb : b.all isBlank = true) (ht : IsTight t) : trim (b ++ t) = t := by
  rw [trim_blank_append hb, trim_of_isTight ht]

theorem trim_space {t : Text} (ht : IsTight t) : trim (' ' :: t) = t := trim_margin (b := [' ']) (by decide) ht

/-- what trimming leaves is empty or tight -/
theorem trim_eq_nil_or (t : Text) : trim t = [] ∨ IsTight (trim t) := by
  unfold trim
  rcases dropRightWhile_eq_nil_or isBlank (trimLeft t) with h | h
  · exact Or.inl h
  · rcases trimLeft_eq_nil_or t with h' | h'
    · rw [h'] at h
      simp [dropRightWhile, endsWith] at h
    · refine Or.inr ⟨?_, h⟩
      obtain ⟨r, e⟩ := dropRightWhile_isPrefix isBlank (trimLeft t)
      change Scan.startsWith isMark (dropRightWhile isBlank (trimLeft t)) = true
      cases hd : dropRightWhile isBlank (trimLeft t) with
      | nil => rw [hd] at h; simp [endsWith] at h
      | cons c s =>
        rw [hd] at e
        rw [← e] at h'
        exact h'

theorem isTight_trim {t : Text} (h : trim t ≠ []) : IsTight (trim t) := (trim_eq_nil_or t).resolve_left h

theorem trim_eq_self_iff {t : Text} : trim t = t ↔ t = [] ∨ IsTight t := by
  constructor
  · intro h
    have := trim_eq_nil_or t
    rwa [h] at this
  · rintro (rfl | h)
    · rfl
    · exact trim_of_isTight h

@[simp] theorem trim_trim (t : Text) : trim (trim t) = trim t := trim_eq_self_iff.2 (trim_eq_nil_or t)

theorem trim_sublist (t : Text) : (trim t).Sublist t :=
  (dropRightWhile_isPrefix isBlank (trimLeft t)).sublist.trans (List.dropWhile_sublist isBlank)

theorem trim_isInfix (t : Text) : trim t <:+: t :=
  (dropRightWhile_isPrefix isBlank (trimLeft t)).isInfix.trans (List.dropWhile_suffix isBlank).isInfix

theorem mem_of_mem_trim {c : Char} {t : Text} (h : c ∈ trim t) : c ∈ t := (trim_sublist t).subset h

/-- a text without white space at its end has none at the end of a rest of it -/
theorem trimRight_of_suffix {s t : Text} (ht : trimRight t = t) (h : s <:+ t) : trimRight s = s := by
  obtain ⟨m, rfl⟩ := h
  obtain ⟨b, hs, hb⟩ := exists_trimRight_append s
  have hle : (trimRight (m ++ s)).length ≤ (m ++ trimRight s).length :=
    calc (trimRight (m ++ s)).length = (trimRight (m ++ trimRight s)).length := by
          conv_lhs => rw [← hs, ← List.append_assoc, trimRight_append hb]
      _ ≤ (m ++ trimRight s).length := length_dropRightWhile_le isBlank _
  have hnil : b = [] := by
    have hlength := congrArg List.length hs
    rw [ht] at hle
    simp only [List.length_append] at hle hlength
    exact List.eq_nil_of_length_eq_zero (by omega)
  rwa [hnil, List.append_nil] at hs

/-- so trimming leaves a rest of a rest -/
theorem trim_suffix_of_suffix {s t : Text} (ht : trimRight t = t) (h : s <:+ t) : trim s <:+ t := by
  have hleft : trimLeft s <:+ t := (List.dropWhile_suffix isBlank).trans h
  rwa [trim, trimRight_of_suffix ht hleft]

/-! ## Joined lines -/

theorem splitOn_ne_nil (sep : Char) (t : Text) : splitOn sep t ≠ [] := by
  cases t with
  | nil => simp [splitOn]
  | cons c r =>
    rw [splitOn]
    split
    · simp
    · split <;> simp

theorem splitOn_append_cons {sep : Char} {l : Text} (h : sep ∉ l) (t : Text) :
    splitOn sep (l ++ sep :: t) = l :: splitOn sep t := by
  induction l with
  | nil => simp [splitOn]
  | cons c r ih =>
    simp only [List.mem_cons, not_or] at h
    rw [List.cons_append, splitOn, if_neg (Ne.symm h.1), ih h.2]

theorem splitOn_of_not_mem {sep : Char} {l : Text} (h : sep ∉ l) : splitOn sep l = [l] := by
  induction l with
  | nil => rfl
  | cons c r ih =>
    simp only [List.mem_cons, not_or] at h
    rw [splitOn, if_neg (Ne.symm h.1), ih h.2]

theorem join_cons_cons (sep : Text) (l m : Text) (ls : List Text) :
    join sep (l :: m :: ls) = l ++ sep ++ join sep (m :: ls) := by
  simp [join, List.intercalate]

@[simp] theorem join_singleton (sep l : Text) : join sep [l] = l := by simp [join, List.intercalate]

theorem mem_of_mem_join {sep : Text} {pieces : List Text} {c : Char} (h : c ∈ join sep pieces) :
    c ∈ sep ∨ ∃ piece ∈ pieces, c ∈ piece := by
  induction pieces with
  | nil => exact absurd h (by simp [join])
  | cons l ls ih =>
    cases ls with
    | nil => exact Or.inr ⟨l, by simp, join_singleton sep l ▸ h⟩
    | cons m ls =>
      rw [join_cons_cons, List.append_assoc, List.mem_append, List.mem_append] at h
      rcases h with h | h | h
      · exact Or.inr ⟨l, by simp, h⟩
      · exact Or.inl h
      · exact (ih h).imp_right fun ⟨piece, hp, hc⟩ => ⟨piece, List.mem_cons_of_mem l hp, hc⟩

/-- pieces without the separator are what their joined text is split into -/
theorem splitOn_join {sep : Char} {pieces : List Text} (hn : pieces ≠ []) (h : ∀ l ∈ pieces, sep ∉ l) :
    splitOn sep (join [sep] pieces) = pieces := by
  induction pieces with
  | nil => exact absurd rfl hn
  | cons l ls ih =>
    cases ls with
    | nil => rw [join_singleton, splitOn_of_not_mem (h l (by simp))]
    | cons m ls =>
      rw [join_cons_cons, List.append_assoc, List.singleton_append, splitOn_append_cons (h l (by simp)),
        ih (by simp) fun x hx => h x (by simp [hx])]

/-- what follows the separator belongs as well to the piece after it -/
theorem join_cons_sep (sep : Char) (margin piece : Text) (pieces : List Text) :
    join (sep :: margin) (piece :: pieces) = join [sep] (piece :: pieces.map (margin ++ ·)) := by
  have hhead : ∀ (p : Text) (ps : List Text), join [sep] ((margin ++ p) :: ps) = margin ++ join [sep] (p :: ps) := by
    intro p ps
    cases ps with
    | nil => simp [join_singleton]
    | cons q qs => simp [join_cons_cons]
  induction pieces generalizing piece with
  | nil => rw [List.map_nil, join_singleton, join_singleton]
  | cons p ps ih => rw [List.map_cons, join_cons_cons, join_cons_cons, hhead, ih p, List.append_assoc, List.append_assoc]; rfl

/-- pieces that are joined with white space after the separator are split with it before them -/
theorem splitOn_join_margin {sep : Char} {margin piece : Text} {pieces : List Text} (hm : sep ∉ margin) (hp : sep ∉ piece)
    (h : ∀ p ∈ pieces, sep ∉ p) :
    splitOn sep (join (sep :: margin) (piece :: pieces)) = piece :: pieces.map (margin ++ ·) := by
  rw [join_cons_sep, splitOn_join (List.cons_ne_nil _ _)]
  intro l hl
  rcases List.mem_cons.1 hl with rfl | hl
  · exact hp
  · obtain ⟨p, hmem, rfl⟩ := List.mem_map.1 hl
    exact fun hs => (List.mem_append.1 hs).elim hm (h p hmem)

/-- lines without line feeds are what their joined text is split into -/
theorem splitOn_ofLines {lines : List Text} (hn : lines ≠ []) (h : ∀ l ∈ lines, '\n' ∉ l) :
    splitOn '\n' (ofLines lines) = lines := splitOn_join hn h

theorem length_join (c : Char) (pieces : List Text) :
    (join [c] pieces).length = (pieces.map fun t => t.length + 1).sum - 1 := by
  induction pieces with
  | nil => rfl
  | cons l ls ih =>
    cases ls with
    | nil => simp
    | cons m ls =>
      rw [join_cons_cons, List.length_append, List.length_append, ih]
      simp only [List.map_cons, List.sum_cons, List.length_singleton]
      omega

theorem sum_splitOn (sep : Char) (t : Text) : ((splitOn sep t).map fun t => t.length + 1).sum = t.length + 1 := by
  induction t with
  | nil => rfl
  | cons c r ih =>
    rw [splitOn]
    split
    · rw [List.map_cons, List.sum_cons, ih, List.length_nil, List.length_cons]
      omega
    · split
      · rename_i hs
        exact absurd hs (splitOn_ne_nil sep r)
      · rename_i first others hs
        rw [hs] at ih
        simp only [List.map_cons, List.sum_cons, List.length_cons] at ih ⊢
        omega

theorem not_mem_of_mem_splitOn {sep : Char} {t piece : Text} (h : piece ∈ splitOn sep t) : sep ∉ piece := by
  induction t generalizing piece with
  | nil => simp_all [splitOn]
  | cons c r ih =>
    rw [splitOn] at h
    split at h
    · rcases List.mem_cons.1 h with rfl | h
      · simp
      · exact ih h
    · rename_i hc
      split at h
      · simp only [List.mem_singleton] at h
        subst h
        simpa using Ne.symm hc
      · rename_i first others hs
        rcases List.mem_cons.1 h with rfl | h
        · simpa [Ne.symm hc] using ih (by rw [hs]; simp : first ∈ splitOn sep r)
        · exact ih (by rw [hs]; simp [h])

/-- the pieces with the separator between them are the text -/
theorem join_splitOn (sep : Char) (t : Text) : join [sep] (splitOn sep t) = t := by
  induction t with
  | nil => exact join_singleton _ _
  | cons c r ih =>
    rw [splitOn]
    obtain ⟨first, others, hs⟩ := List.exists_cons_of_ne_nil (splitOn_ne_nil sep r)
    rw [hs] at ih ⊢
    split
    · rename_i hc
      rw [join_cons_cons, ih, hc]
      rfl
    · cases others with
      | nil =>
        rw [join_singleton] at ih ⊢
        rw [ih]
      | cons other others =>
        rw [join_cons_cons, List.append_assoc] at ih ⊢
        rw [List.cons_append, ih]

theorem isInfix_join {sep piece : Text} {pieces : List Text} (h : piece ∈ pieces) : piece <:+: join sep pieces := by
  induction pieces with
  | nil => exact absurd h List.not_mem_nil
  | cons l ls ih =>
    cases ls with
    | nil =>
      rw [List.mem_singleton.1 h, join_singleton]
    | cons m ls =>
      rw [join_cons_cons]
      rcases List.mem_cons.1 h with rfl | h
      · exact ⟨[], sep ++ join sep (m :: ls), by simp⟩
      · exact (ih h).trans (List.suffix_append _ _).isInfix

theorem isInfix_of_mem_splitOn {sep : Char} {t piece : Text} (h : piece ∈ splitOn sep t) : piece <:+: t := by
  have hjoin : piece <:+: join [sep] (splitOn sep t) := isInfix_join h
  rwa [join_splitOn] at hjoin

theorem mem_of_mem_splitOn {sep c : Char} {t piece : Text} (h : piece ∈ splitOn sep t) (hc : c ∈ piece) : c ∈ t :=
  (isInfix_of_mem_splitOn h).subset hc

/-! ## Items -/

/-- an item of a list: trimmed, not empty, and without the separator -/
structure IsItem (sep : Char) (t : Text) : Prop where
  tight : IsTight t
  separator : sep ∉ t

/-- items are parts of their text -/
theorem isItem_of_mem_items {sep : Char} {t item : Text} (h : item ∈ items sep t) : IsItem sep item ∧ item ⊆ t := by
  obtain ⟨hitem, hne⟩ := List.mem_filter.1 h
  obtain ⟨piece, hpiece, rfl⟩ := List.mem_map.1 hitem
  refine ⟨⟨isTight_trim (of_decide_eq_true hne), fun hm => ?_⟩, fun c hc => mem_of_mem_splitOn hpiece (mem_of_mem_trim hc)⟩
  exact not_mem_of_mem_splitOn hpiece (mem_of_mem_trim hm)

/-- white space before items is no part of them -/
theorem items_blank_append {sep : Char} {b : Text} (hb : b.all isBlank = true) (hsep : sep ∉ b) (t : Text) :
    items sep (b ++ t) = items sep t := by
  obtain ⟨first, others, hfirst⟩ := List.exists_cons_of_ne_nil (splitOn_ne_nil sep t)
  have hsplit : splitOn sep (b ++ t) = (b ++ first) :: others := by
    clear hb
    induction b with
    | nil => exact hfirst
    | cons c b ih =>
      simp only [List.mem_cons, not_or] at hsep
      rw [List.cons_append, splitOn, if_neg (Ne.symm hsep.1), ih hsep.2]
      rfl
  rw [items, items, hsplit, hfirst, List.map_cons, List.map_cons, trim_blank_append hb]

/-- the items of a text are those before a separator and those behind it -/
theorem items_append_cons {sep : Char} {l : Text} (hl : sep ∉ l) (t : Text) :
    items sep (l ++ sep :: t) = items sep l ++ items sep t := by
  rw [items, items, items, splitOn_append_cons hl, splitOn_of_not_mem hl, List.map_cons, List.map_singleton,
    ← List.singleton_append, List.filter_append]

/-- white space behind an item is no part of it -/
theorem items_append_blank {sep : Char} {t b : Text} (ht : IsItem sep t) (hb : b.all isBlank = true) (hsep : sep ∉ b) :
    items sep (t ++ b) = [t] := by
  have hmem : sep ∉ t ++ b := by simp [ht.separator, hsep]
  have htrim : trim (t ++ b) = t := by rw [trim_append_blank hb, trim_of_isTight ht.tight]
  rw [items, splitOn_of_not_mem hmem, List.map_singleton, htrim, List.filter_singleton, decide_eq_true ht.tight.ne_nil]
  rfl

/-- items that are joined are read back, whatever white space surrounds the separator -/
theorem items_join {sep : Char} {b m : Text} (hb : b.all isBlank = true) (hbs : sep ∉ b)
    (hm : m.all isBlank = true) (hsep : sep ∉ m) {pieces : List Text} (h : ∀ t ∈ pieces, IsItem sep t) :
    items sep (join (b ++ sep :: m) pieces) = pieces := by
  induction pieces with
  | nil => rfl
  | cons t ts ih =>
    have ht := h t List.mem_cons_self
    have ih := ih fun u hu => h u (List.mem_cons_of_mem t hu)
    cases ts with
    | nil =>
      have hone := items_append_blank ht (List.all_nil : List.all [] isBlank = true) List.not_mem_nil
      rw [List.append_nil] at hone
      rw [join_singleton, hone]
    | cons u us =>
      have hmem : sep ∉ t ++ b := by simp [ht.separator, hbs]
      rw [join_cons_cons, ← List.append_assoc, List.append_assoc, List.cons_append, items_append_cons hmem,
        items_append_blank ht hb hbs, items_blank_append hm hsep, ih]
      rfl

end Text

/-! ## Meaningful lines -/

namespace SourceLine

/-- a trimmed line without the semicolon at its end, where one may stand there -/
def unterminated (stripSemicolon : Bool) (t : Text) : Text :=
  if stripSemicolon && t.getLast? == some ';' then Text.trimRight t.dropLast else t

/-- what a raw line says, wherever it stands -/
def content? (stripSemicolon : Bool) (raw : Text) : Option Text :=
  if (Text.dropPrefix? "%%" (Text.trim raw)).isSome ∨ unterminated stripSemicolon (Text.trim raw) = [] then none
  else some (unterminated stripSemicolon (Text.trim raw))

/-! ### Comments -/

/-- a line that starts with anything but a percent sign is no comment -/
theorem comment_of_startsWith {t : Text} (h : Scan.startsWith Text.isLineStart t = true) : Text.dropPrefix? "%%" t = none := by
  obtain ⟨c, r, rfl, hc⟩ := Text.exists_cons_of_startsWith h
  refine if_neg ?_
  rintro rfl
  exact absurd hc (by decide)

/-- a beginning of what is no comment -/
theorem comment_of_isPrefix {s t : Text} (hs : s <+: t) (h : Text.dropPrefix? "%%" t = none) : Text.dropPrefix? "%%" s = none := by
  obtain ⟨u, rfl⟩ := hs
  rw [Option.eq_none_iff_forall_not_mem]
  intro r hr
  have hcomment : Text.dropPrefix? "%%" (s ++ u) = some (r ++ u) := by
    rw [Text.dropPrefix?_eq_some_iff, Text.dropPrefix?_eq_some_iff.1 hr, List.append_assoc]
  exact absurd (h.symm.trans hcomment) (by simp)

/-- no comment is made of a text by what follows it -/
theorem comment_append {t : Text} (hne : t ≠ []) (h : Text.dropPrefix? "%%" t = none) {c : Char} (hc : c ≠ '%') (r : Text) :
    Text.dropPrefix? "%%" (t ++ c :: r) = none := by
  match t with
  | [d] => by_cases hd : d = '%' <;> simp [Text.dropPrefix?, hd, hc.symm, eq_comm]
  | d :: e :: s => simpa [Text.dropPrefix?] using h

/-! ### Lines that hold a text as it is -/

/-- a text that a line can hold as it is, where a line may end with a semicolon -/
structure IsLine (t : Text) : Prop where
  tight : Text.IsTight t
  lineFeed : '\n' ∉ t
  comment : Text.dropPrefix? "%%" t = none

theorem IsLine.keyword {w t : Text} (hw : Scan.startsWith Text.isLineStart w = true) (hl : '\n' ∉ w) (ht : Text.IsTight t)
    (hlt : '\n' ∉ t) : IsLine (w ++ t) where
  tight := .append (Text.startsWith_mono (fun _ hc => (Bool.and_eq_true_iff.1 hc).1) hw) ht.last
  lineFeed := by simp [hl, hlt]
  comment := comment_of_startsWith (Text.startsWith_append t hw)

/-- a name at the beginning of a line ends before the white space behind it -/
theorem IsLine.isTight_trim {name rest : Text} (h : IsLine (name ++ rest)) (hne : name ≠ []) :
    Text.IsTight (Text.trim name) ∧ ∃ b : Text, b.all isBlank = true ∧ Text.trim name ++ b = name := by
  have hfirst : Scan.startsWith Text.isMark name = true := by
    obtain ⟨c, u, rfl⟩ := List.exists_cons_of_ne_nil hne
    exact h.tight.first
  have hkept : Text.trim name = Text.trimRight name := by rw [Text.trim, Text.trimLeft_of_startsWith hfirst]
  obtain ⟨b, hb, hblank⟩ := Text.exists_trimRight_append name
  exact ⟨Text.isTight_trim (hkept ▸ Text.trimRight_ne_nil hfirst), b, hblank, hkept ▸ hb⟩

/-- a text that a line can hold as it is: a margin, the line's end and a semicolon take nothing away from it -/
structure IsContent (t : Text) : Prop where
  tight : Text.IsTight t
  lineFeed : '\n' ∉ t
  semicolon : Text.endsWith (· ≠ ';') t = true
  comment : Text.dropPrefix? "%%" t = none

theorem IsContent.of_ends {t : Text} (first : Scan.startsWith (fun c => Text.isMark c && c ≠ '%') t = true)
    (last : Text.endsWith Text.isLineEnd t = true) (lineFeed : '\n' ∉ t) : IsContent t where
  tight := ⟨Text.startsWith_mono (fun _ hc => (Bool.and_eq_true_iff.1 hc).1) first,
    Text.endsWith_mono (fun _ hc => (Bool.and_eq_true_iff.1 hc).1) last⟩
  lineFeed := lineFeed
  semicolon := Text.endsWith_mono (fun _ hc => (Bool.and_eq_true_iff.1 hc).2) last
  comment := comment_of_startsWith first

theorem IsContent.keyword {w t : Text} (hw : Scan.startsWith Text.isLineStart w = true) (hl : '\n' ∉ w)
    (ht : Text.endsWith Text.isLineEnd (w ++ t) = true) (hlt : '\n' ∉ t) : IsContent (w ++ t) :=
  .of_ends (Text.startsWith_append t hw) ht (by simp [hl, hlt])

/-- the carriage returns at the end of a raw line are white space like any other -/
theorem trim_dropCarriageReturns (raw : Text) :
    Text.trim (Text.dropRightWhile (· = '\r') raw) = Text.trim raw := by
  obtain ⟨b, hb, hreturns⟩ := Text.exists_dropRightWhile_append (· = '\r') raw
  have hblank : b.all isBlank = true := List.all_eq_true.2 fun c hc => by
    rw [of_decide_eq_true (List.all_eq_true.1 hreturns c hc)]
    decide
  conv_rhs => rw [← hb, Text.trim_append_blank hblank]

theorem map_text_ofRaw? (strip : Bool) (number : Nat) (raw : Text) :
    (ofRaw? strip number raw).map SourceLine.text = content? strip raw := by
  simp only [content?, unterminated, ofRaw?, trim_dropCarriageReturns]
  rw [apply_ite (Option.map SourceLine.text)]
  rfl

theorem map_text_ofRaws (strip : Bool) (number : Nat) (raws : List Text) :
    (ofRaws strip number raws).map SourceLine.text = raws.filterMap (content? strip) := by
  induction raws generalizing number with
  | nil => rfl
  | cons raw raws ih =>
    rw [ofRaws, List.filterMap_cons, ← map_text_ofRaw? strip number raw]
    cases ofRaw? strip number raw with
    | none => exact ih (number + 1)
    | some l => simpa using ih (number + 1)

theorem ofRaws_append (strip : Bool) (n : Nat) (raws raws' : List Text) :
    ofRaws strip n (raws ++ raws') = ofRaws strip n raws ++ ofRaws strip (n + raws.length) raws' := by
  induction raws generalizing n with
  | nil => rfl
  | cons raw raws ih =>
    have hnext : n + (raw :: raws).length = n + 1 + raws.length := by rw [List.length_cons]; omega
    rw [List.cons_append, ofRaws, ofRaws, ih, hnext]
    cases ofRaw? strip n raw <;> rfl

theorem unterminated_of_endsWith (strip : Bool) {t : Text} (h : Text.endsWith (· ≠ ';') t = true) :
    unterminated strip t = t := by
  obtain ⟨r, c, rfl, hc⟩ := Text.exists_concat_of_endsWith h
  simp only [decide_eq_true_eq] at hc
  simp [unterminated, hc]

theorem unterminated_isPrefix (strip : Bool) (t : Text) : unterminated strip t <+: t := by
  unfold unterminated
  split
  · exact (Text.dropRightWhile_isPrefix isBlank t.dropLast).trans (List.dropLast_prefix t)
  · exact List.prefix_rfl

theorem isTight_unterminated {strip : Bool} {t : Text} (ht : Text.IsTight t) (h : unterminated strip t ≠ []) :
    Text.IsTight (unterminated strip t) := by
  refine ⟨?_, ?_⟩
  · obtain ⟨c, r, rfl, hc⟩ := Text.exists_cons_of_startsWith ht.first
    obtain ⟨s, hs⟩ := unterminated_isPrefix strip (c :: r)
    cases hu : unterminated strip (c :: r) with
    | nil => exact absurd hu h
    | cons d v =>
      rw [hu, List.cons_append, List.cons.injEq] at hs
      rw [hs.1]
      exact hc
  · unfold unterminated at h ⊢
    split at h
    · rename_i hc
      rw [if_pos hc]
      exact (Text.dropRightWhile_eq_nil_or isBlank t.dropLast).resolve_left h
    · rename_i hc
      rw [if_neg hc]
      exact ht.last

theorem content?_of_isTight (strip : Bool) {margin t : Text} (hm : margin.all isBlank = true) (ht : Text.IsTight t)
    (hc : Text.dropPrefix? "%%" t = none) (hn : unterminated strip t ≠ []) :
    content? strip (margin ++ t) = some (unterminated strip t) := by
  rw [content?, Text.trim_margin hm ht, if_neg (by rw [hc]; simpa using hn)]

theorem IsContent.isLine {t : Text} (h : IsContent t) : IsLine t := ⟨h.tight, h.lineFeed, h.comment⟩

theorem content?_of_isLine {strip : Bool} {margin t : Text} (hm : margin.all isBlank = true) (ht : IsLine t)
    (hs : strip = true → Text.endsWith (· ≠ ';') t = true) : content? strip (margin ++ t) = some t := by
  have hu : unterminated strip t = t := by
    cases strip with
    | false => rfl
    | true => exact unterminated_of_endsWith true (hs rfl)
  rw [content?_of_isTight strip hm ht.tight ht.comment (by rw [hu]; exact ht.tight.ne_nil), hu]

theorem content?_margin (strip : Bool) {margin t : Text} (hm : margin.all isBlank = true) (ht : IsContent t) :
    content? strip (margin ++ t) = some t :=
  content?_of_isLine hm ht.isLine fun _ => ht.semicolon

theorem exists_of_content? {strip : Bool} {raw t : Text} (h : content? strip raw = some t) :
    unterminated strip (Text.trim raw) = t ∧ t ≠ [] := by
  rw [content?, Option.ite_none_left_eq_some, Option.some.injEq, not_or] at h
  exact ⟨h.2, h.2 ▸ h.1.2⟩

theorem isTight_of_content? {strip : Bool} {raw t : Text} (h : content? strip raw = some t) : Text.IsTight t := by
  obtain ⟨rfl, hn⟩ := exists_of_content? h
  refine isTight_unterminated (Text.isTight_trim fun e => hn ?_) hn
  simpa [e] using unterminated_isPrefix strip (Text.trim raw)

theorem mem_of_mem_content? {strip : Bool} {raw t : Text} (h : content? strip raw = some t) {c : Char} (hc : c ∈ t) :
    c ∈ raw := by
  obtain ⟨rfl, -⟩ := exists_of_content? h
  exact Text.mem_of_mem_trim ((unterminated_isPrefix strip _).subset hc)

/-- no comment is left -/
theorem comment_of_content? {strip : Bool} {raw t : Text} (h : content? strip raw = some t) :
    Text.dropPrefix? "%%" t = none := by
  obtain ⟨rfl, -⟩ := exists_of_content? h
  rw [content?, Option.ite_none_left_eq_some, not_or, Option.not_isSome_iff_eq_none] at h
  exact comment_of_isPrefix (unterminated_isPrefix strip (Text.trim raw)) h.1.1

end SourceLine

/-- reading sees a text as the contents of its lines -/
theorem map_text_sourceLines (strip : Bool) (t : Text) :
    (sourceLines strip t).map SourceLine.text = (Text.splitOn '\n' t).filterMap (SourceLine.content? strip) :=
  SourceLine.map_text_ofRaws strip 1 _

/-- a meaningful line is what one of the lines says -/
theorem exists_content?_of_mem_sourceLines {strip : Bool} {t : Text} {l : SourceLine} (h : l ∈ sourceLines strip t) :
    ∃ raw ∈ Text.splitOn '\n' t, SourceLine.content? strip raw = some l.text := by
  have : l.text ∈ (sourceLines strip t).map SourceLine.text := List.mem_map_of_mem h
  rw [map_text_sourceLines] at this
  exact List.mem_filterMap.1 this

theorem isTight_of_mem_sourceLines {strip : Bool} {t : Text} {l : SourceLine} (h : l ∈ sourceLines strip t) :
    Text.IsTight l.text ∧ '\n' ∉ l.text := by
  obtain ⟨raw, hr, hc⟩ := exists_content?_of_mem_sourceLines h
  exact ⟨SourceLine.isTight_of_content? hc,
    fun hm => Text.not_mem_of_mem_splitOn hr (SourceLine.mem_of_mem_content? hc hm)⟩

theorem isLine_of_mem_sourceLines {strip : Bool} {t : Text} {l : SourceLine} (h : l ∈ sourceLines strip t) :
    SourceLine.IsLine l.text := by
  obtain ⟨raw, -, hcontent⟩ := exists_content?_of_mem_sourceLines h
  obtain ⟨htight, hlineFeed⟩ := isTight_of_mem_sourceLines h
  exact ⟨htight, hlineFeed, SourceLine.comment_of_content? hcontent⟩

/-- a meaningful line is a piece of the text -/
theorem isInfix_of_mem_sourceLines {strip : Bool} {t : Text} {l : SourceLine} (h : l ∈ sourceLines strip t) : l.text <:+: t := by
  obtain ⟨raw, hr, hc⟩ := exists_content?_of_mem_sourceLines h
  obtain ⟨hcontent, -⟩ := SourceLine.exists_of_content? hc
  rw [← hcontent]
  exact (SourceLine.unterminated_isPrefix strip _).isInfix.trans ((Text.trim_isInfix raw).trans (Text.isInfix_of_mem_splitOn hr))

/-- the lines of a text without semicolons hold what they say as it is -/
theorem isContent_of_mem_sourceLines {strip : Bool} {t : Text} (ht : ';' ∉ t) {l : SourceLine} (h : l ∈ sourceLines strip t) :
    SourceLine.IsContent l.text ∧ l.text ⊆ t := by
  obtain ⟨raw, hr, hc⟩ := exists_content?_of_mem_sourceLines h
  have hsub : l.text ⊆ t := fun c hm => Text.mem_of_mem_splitOn hr (SourceLine.mem_of_mem_content? hc hm)
  obtain ⟨htight, hline⟩ := isTight_of_mem_sourceLines h
  obtain ⟨r, c, e, -⟩ := Text.exists_concat_of_endsWith htight.last
  refine ⟨⟨htight, hline, ?_, SourceLine.comment_of_content? hc⟩, hsub⟩
  rw [e, Text.endsWith_concat, decide_eq_true_eq]
  rintro rfl
  exact ht (hsub (e ▸ by simp))

end DiagramText

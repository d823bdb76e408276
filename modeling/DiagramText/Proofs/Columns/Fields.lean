/-
Where records are refused. A quote closes a field, so a character between it and the next delimiter is refused, wherever in a
record it stands (`Record.exists_of_split_afterQuoted`). A Sankey diagram tells the column of that character
(`SankeyDiagram.at?_of_afterQuotedField`). A chart with axes counts it from the bracket that opens the categories and tells it as
if the line began there: the character stands further right, by the keyword, white space and the bracket at least
(`XYChart.at?_of_afterQuotedField`).
-/
import DiagramText.Proofs.Columns.Lines
import DiagramText.Proofs.SankeyDiagram
import DiagramText.Proofs.Text.Names
import DiagramText.Proofs.XYChart

namespace DiagramText

open DiagramText.Text

variable {l : SourceLine} {t text : Text} {e : ParseError} {c : Char}

theorem SourceLine.cause_of_number? {offset : Int} {token : Text} (h : l.number? offset token = .error e) :
    e.cause = .expectedNumber (trim token) := by
  rw [number?] at h
  split at h
  · exact absurd h (by simp)
  · exact Except.error.inj h ▸ rfl

/-! ## Flows -/

namespace SankeyDiagram

/-- fields that were taken apart are refused for what they say -/
theorem cause_of_linkOf {fields : List Text} (h : linkOf l fields = .error e) : e.cause ≠ .afterQuotedField c := by
  rw [linkOf.eq_def] at h
  split at h
  · split at h
    · obtain rfl := Except.error.inj h
      simp
    · rw [SourceLine.cause_of_number? (exceptMap_eq_error_iff.1 h)]
      simp
  · obtain rfl := Except.error.inj h
    simp

/-- **the character behind a quoted field stands at the column of the error** -/
theorem at?_of_afterQuotedField (h : read text = .error e) (hc : e.cause = .afterQuotedField c) :
    text.at? e.line e.column = some c := by
  have hbody := body_subset .sankey (sourceLines true text)
  unfold read at h
  generalize splitHeader .sankey (sourceLines true text) = split at h hbody
  obtain ⟨header, body⟩ := split
  rcases exceptBind_eq_error_iff.1 h with h | ⟨_, -, h⟩
  · rw [cause_of_checkHeader h] at hc
    exact absurd hc (by simp)
  rcases exceptBind_eq_error_iff.1 h with h | ⟨links, -, h⟩
  · obtain ⟨l, hl, h⟩ := exists_error_of_mapM h
    rcases exceptBind_eq_error_iff.1 h with h | ⟨fields, -, h⟩
    · obtain ⟨before, next, htext, rfl⟩ := Record.exists_of_split_afterQuoted h hc
      rw [Int.zero_add]
      exact at?_of_mem_sourceLines (hbody hl) htext
    · exact absurd hc (cause_of_linkOf h)
  · exact absurd h (by simp)

end SankeyDiagram

/-! ## Categories -/

/-- a text stands in another one, behind so many characters of it or more -/
def StandsBehind (n : Nat) (piece t : Text) : Prop := ∃ before after : Text, t = before ++ (piece ++ after) ∧ n ≤ before.length

namespace StandsBehind

variable {m n : Nat} {piece : Text}

theorem of_isSuffix {k : Nat} {rest : Text} (h : rest <:+ t) (hk : rest.length + k ≤ t.length) : StandsBehind k rest t := by
  obtain ⟨before, rfl⟩ := h
  refine ⟨before, [], by rw [List.append_nil], ?_⟩
  rw [List.length_append] at hk
  omega

theorem trans {s : Text} (hs : StandsBehind m s t) (h : StandsBehind n piece s) : StandsBehind (m + n) piece t := by
  obtain ⟨a, b, rfl, ha⟩ := hs
  obtain ⟨a', b', rfl, ha'⟩ := h
  refine ⟨a ++ a', b' ++ b, by simp only [List.append_assoc], ?_⟩
  rw [List.length_append]
  omega

theorem of_isInfix {s : Text} (hs : StandsBehind n s t) (h : piece <:+: s) : StandsBehind n piece t := by
  obtain ⟨a, b, hab⟩ := h
  exact hs.trans (n := 0) ⟨a, b, by rw [← hab, List.append_assoc], Nat.zero_le _⟩

end StandsBehind

namespace XYChart

/-- what an axis says stands behind its keyword and white space -/
theorem standsBehind_of_axis? {keyword v : Text} (h : axis? keyword t = some v) : v = [] ∨ StandsBehind (keyword.length + 1) v t := by
  obtain ⟨rest, hrest, rfl⟩ := Option.map_eq_some_iff.1 h
  obtain ⟨r, hr, hv⟩ := Option.bind_eq_some_iff.1 hrest
  obtain ⟨pre, rfl, hpre⟩ := dropFolded?_eq_some hr
  have hlength : pre.length = keyword.length := by simpa using congrArg List.length hpre
  cases r with
  | nil =>
    exact Or.inl (Option.some.inj hv ▸ rfl)
  | cons b r =>
    change Scan.blanks? (b :: r) = some rest at hv
    rw [Scan.blanks?, Option.ite_none_right_eq_some, Option.some.injEq] at hv
    obtain ⟨-, rfl⟩ := hv
    have hr : StandsBehind (keyword.length + 1) r (pre ++ b :: r) :=
      .of_isSuffix ⟨pre ++ [b], by rw [List.append_assoc]; rfl⟩ (by simp only [List.length_append, List.length_cons]; omega)
    exact Or.inr (hr.of_isInfix ((trim_isInfix _).trans (List.dropWhile_suffix isBlank).isInfix))

theorem isInfix_of_axisTitle {title : Option Text} {body : Text} (h : axisTitle l t = .ok (title, body)) : body <:+: t := by
  have hspan (p : Char → Bool) : (span p t).2 <:+ t := List.dropWhile_suffix p
  rw [axisTitle.eq_def] at h
  split at h
  · obtain ⟨-, rfl⟩ := Prod.mk.inj (Except.ok.inj h)
    exact List.infix_rfl
  · obtain ⟨-, rfl⟩ := Prod.mk.inj (Except.ok.inj h)
    exact List.infix_rfl
  · split at h
    · rename_i token rest hq
      obtain ⟨-, rfl⟩ := Prod.mk.inj (Except.ok.inj h)
      exact (trim_isInfix rest).trans ⟨token, [], by rw [List.append_nil, ← Scan.quoted?_append hq]⟩
    · exact absurd h (by simp)
  · dsimp only at h
    split at h
    · obtain ⟨-, rfl⟩ := Prod.mk.inj (Except.ok.inj h)
      exact List.infix_rfl
    · obtain ⟨-, rfl⟩ := Prod.mk.inj (Except.ok.inj h)
      exact (trim_isInfix _).trans (hspan _).isInfix

theorem cause_of_axisTitle (h : axisTitle l t = .error e) : e.cause = .unterminatedAxisTitle := by
  rw [axisTitle.eq_def] at h
  split at h
  · exact absurd h (by simp)
  · exact absurd h (by simp)
  · split at h
    · exact absurd h (by simp)
    · exact Except.error.inj h ▸ rfl
  · dsimp only at h
    split at h
    · exact absurd h (by simp)
    · exact absurd h (by simp)

theorem cause_of_range {title : Option Text} (h : range l title t = .error e) : e.cause = .invalidRange t := by
  rw [range] at h
  split at h
  · exact absurd h (by simp)
  · dsimp only at h
    split at h
    · exact absurd h (by simp)
    · exact Except.error.inj h ▸ rfl

/-- only an axis with categories is refused for a character behind a quoted field, and the column counts from the bracket -/
theorem exists_of_readXAxis (h : readXAxis l t = .error e) (hc : e.cause = .afterQuotedField c) :
    ∃ before next : Text, '[' :: (before ++ c :: next) <:+: t ∧ e = l.errorAt before.length (.afterQuotedField c) := by
  rcases exceptBind_eq_error_iff.1 h with h | ⟨⟨title, body⟩, htitle, h⟩
  · rw [cause_of_axisTitle h] at hc
    exact absurd hc (by simp)
  dsimp only at h
  split at h
  · rename_i r
    rw [exceptMap_eq_error_iff, categories] at h
    split at h
    · split at h
      · exact absurd h (by simp)
      · obtain ⟨before, next, hr, rfl⟩ := Record.exists_of_split_afterQuoted h hc
        have hprefix : '[' :: (before ++ c :: next) <+: '[' :: r := List.prefix_cons_iff.2 (Or.inr ⟨_, rfl, hr ▸ List.dropLast_prefix r⟩)
        exact ⟨before, next, hprefix.isInfix.trans (isInfix_of_axisTitle htitle), by rw [Int.zero_add]⟩
    · obtain rfl := Except.error.inj h
      exact absurd hc (by simp)
  · rw [exceptMap_eq_error_iff] at h
    rw [cause_of_range h] at hc
    exact absurd hc (by simp)

theorem cause_of_readYAxis (h : readYAxis l t = .error e) : e.cause ≠ .afterQuotedField c := by
  rcases exceptBind_eq_error_iff.1 h with h | ⟨⟨title, body⟩, -, h⟩
  · rw [cause_of_axisTitle h]
    simp
  dsimp only at h
  split at h
  · obtain rfl := Except.error.inj h
    simp
  · rw [cause_of_range h]
    simp

theorem cause_of_readSeries {s : SeriesText} (h : s.read l = .error e) : e.cause ≠ .afterQuotedField c := by
  rw [SeriesText.read, exceptMap_eq_error_iff] at h
  split at h
  · exact absurd h (by simp)
  · obtain ⟨token, -, htoken⟩ := exists_error_of_mapM h
    rw [SourceLine.cause_of_number? htoken]
    simp

theorem axis?_of_read? {v : Text} (h : Line.read? t = some (.xAxis v)) : axis? "x-axis" t = some v := by
  simp only [Line.read?, Scan.orElse_eq_some_iff, Option.map_eq_some_iff, reduceCtorEq, and_false, exists_false, false_or, or_false,
    Line.xAxis.injEq, exists_eq_right] at h
  exact h.2.2

/-- a line is refused for a character behind a quoted field of its categories, which follow the keyword of the x-axis, white
space and a bracket -/
theorem exists_of_readLine {d : XYChart} (h : readLine d l = .error e) (hc : e.cause = .afterQuotedField c) :
    ∃ before next : Text, StandsBehind 8 (before ++ c :: next) l.text ∧ e = l.errorAt before.length (.afterQuotedField c) := by
  rw [readLine] at h
  split at h
  · exact absurd h (by simp)
  · exact absurd h (by simp)
  · rename_i v hread
    obtain ⟨before, next, hv, rfl⟩ := exists_of_readXAxis (exceptMap_eq_error_iff.1 h) hc
    refine ⟨before, next, ?_, rfl⟩
    rcases standsBehind_of_axis? (axis?_of_read? hread) with rfl | haxis
    · exact absurd (List.infix_nil.1 hv) (List.cons_ne_nil _ _)
    · exact (haxis.of_isInfix hv).trans (n := 1) (.of_isSuffix (List.suffix_cons _ _) (Nat.le_refl _))
  · exact absurd hc (cause_of_readYAxis (exceptMap_eq_error_iff.1 h))
  · exact absurd hc (cause_of_readSeries (exceptMap_eq_error_iff.1 h))
  · obtain rfl := Except.error.inj h
    exact absurd hc (by simp)

/-- **the character behind a quoted field stands eight columns or more to the right of the column of the error** -/
theorem at?_of_afterQuotedField (h : read text = .error e) (hc : e.cause = .afterQuotedField c) :
    ∃ k : Nat, 8 ≤ k ∧ text.at? e.line (e.column + k) = some c := by
  have hbody := body_subset .xychart (sourceLines true text)
  unfold read at h
  generalize splitHeader .xychart (sourceLines true text) = split at h hbody
  obtain ⟨header, body⟩ := split
  rcases exceptBind_eq_error_iff.1 h with h | ⟨isHorizontal, -, h⟩
  · rw [headerIsHorizontal.eq_def] at h
    split at h
    · exact absurd h (by simp)
    · dsimp only at h
      split at h
      · exact absurd h (by simp)
      · split at h
        · exact absurd h (by simp)
        · obtain rfl := Except.error.inj h
          exact absurd hc (by simp)
  · obtain ⟨l, hl, d, h⟩ := exists_error_of_foldlM h
    obtain ⟨before, next, ⟨front, back, htext, hfront⟩, rfl⟩ := exists_of_readLine h hc
    have hline : l.text = (front ++ before) ++ c :: (next ++ back) := by simp only [htext, List.append_assoc, List.cons_append]
    refine ⟨front.length, hfront, ?_⟩
    have hat := at?_of_mem_sourceLines (hbody hl) hline
    rwa [List.length_append, Nat.cast_add, Int.add_comm (front.length : Int), ← Int.add_assoc] at hat

/-- a category with a character behind its closing quote -/
def overfull : Text := "xychart-beta\nx-axis [\"a\"b]"

/-- the column that is told stands in the keyword -/
theorem read_overfull : read overfull = .error ⟨2, 4, .afterQuotedField 'b'⟩ ∧ overfull.at? 2 4 = some 'x' ∧
    overfull.at? 2 12 = some 'b' := by decide +kernel

end XYChart

end DiagramText

/-
Which texts are pie charts. A text is read exactly when every line of it fits where it stands, and otherwise the error is at
the beginning of the first line that does not (`read_ok_iff_allFit_and_error_iff`). No rule stops within a line (`TakesLines`), so the
repetitions of a document stop between lines, and a line that one of them has taken would be taken by no later rule
for the better.
-/
import DiagramText.Proofs.PieChart.Line
import DiagramText.Proofs.Text.Names

namespace DiagramText.PieChart

open DiagramText.Text

variable {t : Text} {ls good bad before after : List Text} {l : Text}

/-! ## Lines with their ends -/

/-- the lines of a text, whatever ends them -/
def linesOf (text : Text) : List Text := splitOn '\n' (unifyLineEnds text)

/-- lines, each with a line feed behind it -/
def unlines (ls : List Text) : Text := (ls.map (· ++ ['\n'])).flatten

@[simp] theorem unlines_nil : unlines [] = [] := rfl

@[simp] theorem unlines_cons (l : Text) (ls : List Text) : unlines (l :: ls) = l ++ '\n' :: unlines ls := by simp [unlines]

theorem unlines_append (ls ls' : List Text) : unlines (ls ++ ls') = unlines ls ++ unlines ls' := by simp [unlines]

theorem unlines_splitOn (t : Text) : unlines (splitOn '\n' t) = t ++ ['\n'] := by
  induction t with
  | nil => rfl
  | cons c t ih =>
    rw [splitOn]
    split
    · rename_i hc
      rw [unlines_cons, ih, hc]
      rfl
    · split
      · rename_i hnil
        exact absurd hnil (splitOn_ne_nil _ _)
      · rename_i hcons
        rw [hcons, unlines_cons] at ih
        rw [unlines_cons, List.cons_append, ih]
        rfl

theorem splitOn_concat (sep : Char) (t : Text) : splitOn sep (t ++ [sep]) = splitOn sep t ++ [[]] := by
  induction t with
  | nil => simp [splitOn]
  | cons c t ih =>
    rw [List.cons_append, splitOn, splitOn, ih]
    split
    · rfl
    · cases h : splitOn sep t with
      | nil => exact absurd h (splitOn_ne_nil _ _)
      | cons l ls => rfl

/-- a text is read line by line; an empty line after the last line feed is left out -/
theorem exists_unlines (text : Text) :
    ∃ ls last, terminated (unifyLineEnds text) = unlines ls ∧ linesOf text = ls ++ last ∧ ∀ l ∈ last, l = [] := by
  rw [linesOf, terminated]
  generalize unifyLineEnds text = t
  split
  · rename_i hlast
    obtain ⟨s, rfl⟩ := List.getLast?_eq_some_iff.1 hlast
    exact ⟨splitOn '\n' s, [[]], (unlines_splitOn s).symm, splitOn_concat '\n' s, by simp⟩
  · exact ⟨splitOn '\n' t, [], (unlines_splitOn t).symm, (List.append_nil _).symm, by simp⟩

/-- a repetition takes the lines of its kind, and stops before the first other line -/
theorem TakesLines.many {α : Type} {rule : Text → Option (α × Text)} {kind : Text → Prop} (h : TakesLines rule kind)
    (hls : ∀ l ∈ ls, kind l ∧ '\n' ∉ l) {rest : Text} (hrest : rule rest = none) :
    ∃ xs, Scan.many rule (unlines ls ++ rest) = (xs, rest) := by
  induction ls with
  | nil => exact ⟨[], Scan.many_of_none hrest⟩
  | cons l ls ih =>
    obtain ⟨hl, hlf⟩ := hls l List.mem_cons_self
    obtain ⟨xs, hxs⟩ := ih fun m hm => hls m (List.mem_cons_of_mem l hm)
    rw [unlines_cons, List.append_assoc, List.cons_append]
    obtain ⟨x, hx⟩ := h.complete hl hlf (unlines ls ++ rest)
    exact ⟨x :: xs, Scan.many_cons hx (by simp; omega) hxs⟩

/-- a rule stops before lines the first of which is not of its kind -/
theorem TakesLines.unlines_eq_none {α : Type} {rule : Text → Option (α × Text)} {kind : Text → Prop} (h : TakesLines rule kind)
    (hlf : ∀ l ∈ ls, '\n' ∉ l) (hls : ∀ l ∈ ls.head?, ¬ kind l) : rule (unlines ls) = none := by
  cases ls with
  | nil => exact h.eq_none_nil
  | cons l ls =>
    rw [unlines_cons]
    exact h.eq_none (hlf l List.mem_cons_self) (hls l rfl) _

/-! ## Where a line fits -/

/-- a line that may stand after other lines; a header begins the chart -/
def Fits (before : List Text) (l : Text) : Prop :=
  IsBlankLine l ∨ IsStatementLine l ∨ (IsHeaderLine l ∧ ∀ b ∈ before, IsBlankLine b)

/-- every line fits after the lines before it -/
def AllFit (ls : List Text) : Prop := ∀ before l after, ls = before ++ l :: after → Fits before l

theorem fits_nil (before : List Text) : Fits before [] := Or.inl (.ending (.padding rfl))

theorem AllFit.of_append (h : AllFit (ls ++ after)) : AllFit ls := fun before l rest hls =>
  h before l (rest ++ after) (by rw [hls, List.append_assoc, List.cons_append])

/-- either all lines fit, or there is a first that does not -/
theorem allFit_or (ls : List Text) :
    AllFit ls ∨ ∃ before l after, ls = before ++ l :: after ∧ AllFit before ∧ ¬ Fits before l := by
  induction ls using List.reverseRecOn with
  | nil => exact Or.inl fun before l after h => absurd h (by simp)
  | append_singleton ls l ih =>
    rcases ih with hfit | ⟨before, m, after, rfl, hfit, hm⟩
    · by_cases hl : Fits ls l
      · refine Or.inl fun before m after h => ?_
        rcases List.eq_nil_or_concat' after with rfl | ⟨after, n, rfl⟩
        · obtain ⟨rfl, hm⟩ := List.append_inj' h rfl
          rwa [← (List.cons.inj hm).1]
        · rw [← List.cons_append, ← List.append_assoc] at h
          exact hfit before m after (List.append_inj' h rfl).1
      · exact Or.inr ⟨ls, l, [], rfl, hfit, hl⟩
    · exact Or.inr ⟨before, m, after ++ [l], by simp, hfit, hm⟩

theorem exists_blanks (ls : List Text) :
    ∃ blanks rest, ls = blanks ++ rest ∧ (∀ b ∈ blanks, IsBlankLine b) ∧ ∀ l ∈ rest.head?, ¬ IsBlankLine l := by
  induction ls with
  | nil => exact ⟨[], [], rfl, by simp, by simp⟩
  | cons l ls ih =>
    by_cases hl : IsBlankLine l
    · obtain ⟨blanks, rest, rfl, hblanks, hrest⟩ := ih
      refine ⟨l :: blanks, rest, rfl, fun b hb => ?_, hrest⟩
      rcases List.mem_cons.1 hb with rfl | hb
      · exact hl
      · exact hblanks b hb
    · exact ⟨[], l :: ls, rfl, by simp, by simpa using hl⟩

/-- below a line that says something there is no header -/
theorem AllFit.below {rest : List Text} (h : AllFit (before ++ l :: rest)) (hl : ¬ IsBlankLine l) :
    ∀ m ∈ rest, IsBlankLine m ∨ IsStatementLine m := by
  intro m hm
  obtain ⟨s, s', rfl⟩ := List.append_of_mem hm
  rcases h (before ++ l :: s) m s' (by simp) with hm | hm | ⟨-, hblank⟩
  · exact Or.inl hm
  · exact Or.inr hm
  · exact absurd (hblank l (by simp)) hl

/-! ## Where a document stops -/

/-- **a document stops before the first line that does not fit** -/
theorem document_unlines (hlf : ∀ l ∈ good ++ bad, '\n' ∉ l) (hgood : AllFit good) (hbad : ∀ l ∈ bad.head?, ¬ Fits good l) :
    (document (unlines (good ++ bad))).2 = unlines bad := by
  have hlfbad : ∀ l ∈ bad, '\n' ∉ l := fun l hl => hlf l (List.mem_append_right good hl)
  have hline : line? (unlines bad) = none :=
    takesLines_line?.unlines_eq_none hlfbad fun l hl h => hbad l hl (h.imp_right Or.inl)
  obtain ⟨blanks, rest, rfl, hblanks, hrest⟩ := exists_blanks good
  -- the first line that is not blank is the header, or there is none
  suffices hsuffices : ∃ head tail, rest ++ bad = head ++ (tail ++ bad) ∧ (∀ m ∈ tail, IsBlankLine m ∨ IsStatementLine m) ∧
      ∃ c, (header? (unlines (rest ++ bad))).getD ({}, unlines (rest ++ bad)) = (c, unlines (tail ++ bad)) ∧
        blank? (unlines (rest ++ bad)) = none by
    obtain ⟨head, tail, hsplit, htail, c, hheader, hblank⟩ := hsuffices
    have hlftail : ∀ m ∈ tail, '\n' ∉ m := fun m hm => hlf m (by
      rw [List.append_assoc, hsplit]
      simp [hm])
    obtain ⟨xs, hxs⟩ := takesLines_blank?.many (fun b hb => ⟨hblanks b hb, hlf b (by simp [hb])⟩) hblank
    obtain ⟨ys, hys⟩ := takesLines_line?.many (fun m hm => ⟨htail m hm, hlftail m hm⟩) hline
    rw [List.append_assoc, unlines_append, document, hxs]
    simp only [hheader]
    rw [unlines_append, hys]
  cases rest with
  | nil =>
    have hblank : blank? (unlines bad) = none :=
      takesLines_blank?.unlines_eq_none hlfbad fun l hl h => hbad l hl (Or.inl h)
    have hheader : header? (unlines bad) = none :=
      takesLines_header?.unlines_eq_none hlfbad fun l hl h => hbad l hl (Or.inr (Or.inr ⟨h, by simpa using hblanks⟩))
    exact ⟨[], [], rfl, by simp, {}, by rw [List.nil_append, hheader]; rfl, hblank⟩
  | cons l rest =>
    have hl : ¬ IsBlankLine l := hrest l rfl
    have hlfl : '\n' ∉ l := hlf l (by simp)
    have hbelow := hgood.below hl
    have hblank : blank? (unlines (l :: rest ++ bad)) = none := by
      rw [List.cons_append, unlines_cons]
      exact takesLines_blank?.eq_none hlfl hl _
    by_cases hh : IsHeaderLine l
    · obtain ⟨c, hc⟩ := takesLines_header?.complete hh hlfl (unlines (rest ++ bad))
      exact ⟨[l], rest, rfl, hbelow, c, by rw [List.cons_append, unlines_cons, hc]; rfl, hblank⟩
    · have hnone : header? (unlines (l :: rest ++ bad)) = none := by
        rw [List.cons_append, unlines_cons]
        exact takesLines_header?.eq_none hlfl hh _
      have hfirst : IsBlankLine l ∨ IsStatementLine l :=
        (hgood blanks l rest rfl).imp_right fun h => h.resolve_right fun h => hh h.1
      refine ⟨[], l :: rest, rfl, fun m hm => ?_, {}, by rw [hnone]; rfl, hblank⟩
      rcases List.mem_cons.1 hm with rfl | hm
      · exact hfirst
      · exact hbelow m hm

/-- the error at the beginning of a line shows that line -/
theorem unexpected_unlines (hlf : ∀ m ∈ before ++ l :: after, '\n' ∉ m) :
    unexpected (unlines (before ++ l :: after)) (unlines (l :: after))
      = ⟨before.length + 1, 1, .unexpectedText (l.take 40)⟩ := by
  have hbefore : (unlines (before ++ l :: after)).take ((unlines (before ++ l :: after)).length - (unlines (l :: after)).length)
      = unlines before := by
    rw [unlines_append, List.length_append, Nat.add_sub_cancel]
    exact List.take_left
  have hline : (unlines (l :: after)).takeWhile (· ≠ '\n') = l := by
    rw [unlines_cons]
    exact congrArg Prod.fst (span_append_cons (hlf l (by simp)))
  have hcount : (unlines before).count '\n' = before.length := by
    have hlfbefore : ∀ b ∈ before, '\n' ∉ b := fun b hb => hlf b (by simp [hb])
    clear hbefore hline hlf
    induction before with
    | nil => rfl
    | cons b before ih =>
      rw [unlines_cons, List.count_append, List.count_cons_self, List.count_eq_zero.2 (hlfbefore b List.mem_cons_self),
        ih fun c hc => hlfbefore c (List.mem_cons_of_mem b hc), List.length_cons, Nat.zero_add]
  have hcolumn : (unlines before).reverse.takeWhile (· ≠ '\n') = [] := by
    rcases List.eq_nil_or_concat' before with rfl | ⟨before, b, rfl⟩
    · rfl
    · rw [unlines_append, List.reverse_append]
      simp
  rw [unexpected, hbefore, hline, hcount, hcolumn]
  rfl

/-! ## Which texts are read -/

theorem lineFeed_not_mem_of_mem_linesOf {text : Text} (hl : l ∈ linesOf text) : '\n' ∉ l := not_mem_of_mem_splitOn hl

theorem exists_read_of_allFit {text : Text} (h : AllFit (linesOf text)) : ∃ c, read text = .ok c := by
  obtain ⟨ls, last, hunlines, hlines, -⟩ := exists_unlines text
  have hlf : ∀ l ∈ ls ++ [], '\n' ∉ l := fun l hl =>
    lineFeed_not_mem_of_mem_linesOf (hlines ▸ List.mem_append_left last (List.append_nil ls ▸ hl))
  have hrest := document_unlines hlf (AllFit.of_append (hlines ▸ h)) (by simp)
  rw [List.append_nil, unlines_nil] at hrest
  rw [read, hunlines]
  generalize document (unlines ls) = d at hrest
  obtain ⟨c, rest⟩ := d
  obtain rfl : rest = [] := hrest
  exact ⟨c, rfl⟩

theorem read_of_not_fits {text : Text} (h : linesOf text = before ++ l :: after) (hfit : AllFit before) (hl : ¬ Fits before l) :
    read text = .error ⟨before.length + 1, 1, .unexpectedText (l.take 40)⟩ := by
  obtain ⟨ls, last, hunlines, hlines, hlast⟩ := exists_unlines text
  -- the line left out is empty, and an empty line fits
  obtain ⟨below, rfl⟩ : ∃ below, ls = before ++ l :: below := by
    have hne : l ∉ last := fun hm => hl (hlast l hm ▸ fits_nil before)
    rcases List.append_eq_append_iff.1 (hlines.symm.trans h) with ⟨m, -, hm⟩ | ⟨m, hls, hm⟩
    · exact absurd (hm ▸ by simp) hne
    · cases m with
      | nil =>
        obtain rfl : l :: after = last := hm
        exact absurd List.mem_cons_self hne
      | cons x m =>
        obtain ⟨rfl, -⟩ := List.cons.inj hm
        exact ⟨m, hls⟩
  have hlf : ∀ m ∈ before ++ l :: below, '\n' ∉ m := fun m hm =>
    lineFeed_not_mem_of_mem_linesOf (hlines ▸ List.mem_append_left last hm)
  have hrest := document_unlines hlf hfit (by simpa using hl)
  rw [read, hunlines, ← unexpected_unlines hlf]
  generalize document (unlines (before ++ l :: below)) = d at hrest
  obtain ⟨c, rest⟩ := d
  obtain rfl : rest = unlines (l :: below) := hrest
  cases hnil : unlines (l :: below) with
  | nil => exact absurd hnil (by simp)
  | cons x rest => rfl

/-- **a text is read exactly when every line fits where it stands; otherwise the error is at the beginning of the first line
that does not fit, and shows the beginning of that line** -/
theorem read_ok_iff_allFit_and_error_iff (text : Text) :
    ((∃ c, read text = .ok c) ↔ AllFit (linesOf text)) ∧
      ∀ e, read text = .error e ↔
        ∃ before l after, linesOf text = before ++ l :: after ∧ AllFit before ∧ ¬ Fits before l ∧
          e = ⟨before.length + 1, 1, .unexpectedText (l.take 40)⟩ := by
  refine ⟨⟨fun ⟨c, hc⟩ => ?_, exists_read_of_allFit⟩, fun e => ⟨fun he => ?_, ?_⟩⟩
  · rcases allFit_or (linesOf text) with hfit | ⟨before, l, after, hlines, hfit, hl⟩
    · exact hfit
    · exact absurd ((read_of_not_fits hlines hfit hl).symm.trans hc) (by simp)
  · rcases allFit_or (linesOf text) with hfit | ⟨before, l, after, hlines, hfit, hl⟩
    · obtain ⟨c, hc⟩ := exists_read_of_allFit hfit
      exact absurd (he.symm.trans hc) (by simp)
    · exact ⟨before, l, after, hlines, hfit, hl, Except.error.inj (he.symm.trans (read_of_not_fits hlines hfit hl))⟩
  · rintro ⟨before, l, after, hlines, hfit, hl, rfl⟩
    exact read_of_not_fits hlines hfit hl

end DiagramText.PieChart

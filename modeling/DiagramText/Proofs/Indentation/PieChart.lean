/-
The margins of a pie chart. The rules do not look at the spaces and tabs before a line, so texts whose lines are the same but
for such margins are read as the same chart, or neither is read (`toOption_read_congr`), and so are the texts that are printed of
a chart (`toOption_read_render_congr`).
-/
import DiagramText.Proofs.Indentation.Reading
import DiagramText.Proofs.PieChart.LineRules
import DiagramText.Proofs.PieChart.RoundTrip

namespace DiagramText.PieChart

open DiagramText.Text

variable {α : Type} {m m' t l l' : Text} {ls ls' : List Text}

/-! ## Documents -/

/-- lines that are the same but for the spaces and tabs before them -/
def IsMovedLine (l l' : Text) : Prop := '\n' ∉ l ∧ unpad l = unpad l'

theorem IsMovedLine.symm (h : IsMovedLine l l') : IsMovedLine l' l := by
  obtain ⟨a, ha, hl', -⟩ := exists_unpad l'
  refine ⟨fun hm => ?_, h.2.symm⟩
  rw [hl', ← h.2] at hm
  exact (List.mem_append.1 hm).elim (lineFeed_not_mem_padding ha) (lineFeed_not_mem_unpad h.1)

theorem lineFeed_not_mem_of_moved (hls : List.Forall₂ IsMovedLine ls ls') : ∀ l ∈ ls, '\n' ∉ l := by
  induction hls with
  | nil => exact fun l hl => absurd hl List.not_mem_nil
  | cons hl _ ih => exact List.forall_mem_cons.2 ⟨hl.1, ih⟩

namespace IsLineRule

variable {rule : Text → Option (α × Text)}

theorem onLine_congr (h : IsLineRule rule) (hl : IsMovedLine l l') : onLine rule l = onLine rule l' := by
  rw [onLine, onLine, ← h.unpad (l ++ ['\n']), ← h.unpad (l' ++ ['\n']), unpad_append_lineFeed, unpad_append_lineFeed, hl.2]

/-- **a repetition stops before the same line** -/
theorem dropWhile_congr (h : IsLineRule rule) (hls : List.Forall₂ IsMovedLine ls ls') :
    List.Forall₂ IsMovedLine (ls.dropWhile (takesLine rule)) (ls'.dropWhile (takesLine rule)) := by
  induction hls with
  | nil => exact .nil
  | cons hl hls ih =>
    rw [List.dropWhile_cons, List.dropWhile_cons, takesLine, takesLine, h.onLine_congr hl]
    split
    · exact ih
    · exact .cons hl hls

/-- and makes the same of the lines above it -/
theorem filterMap_congr (h : IsLineRule rule) (hls : List.Forall₂ IsMovedLine ls ls') :
    (ls.takeWhile (takesLine rule)).filterMap (onLine rule) = (ls'.takeWhile (takesLine rule)).filterMap (onLine rule) := by
  induction hls with
  | nil => rfl
  | cons hl _ ih =>
    rw [List.takeWhile_cons, List.takeWhile_cons, takesLine, takesLine, h.onLine_congr hl]
    split
    · rw [List.filterMap_cons, List.filterMap_cons, h.onLine_congr hl, ih]
    · rfl

end IsLineRule

theorem headed_congr (hls : List.Forall₂ IsMovedLine ls ls') :
    (headed ls).1 = (headed ls').1 ∧ List.Forall₂ IsMovedLine (headed ls).2 (headed ls').2 := by
  cases hls with
  | nil => exact ⟨rfl, .nil⟩
  | @cons l l' ls ls' hl hls =>
    rw [headed, headed, isLineRule_header?.onLine_congr hl]
    cases onLine header? l' with
    | none => exact ⟨rfl, .cons hl hls⟩
    | some c => exact ⟨rfl, hls⟩

theorem documentOfLines_congr (hls : List.Forall₂ IsMovedLine ls ls') :
    (documentOfLines ls).1 = (documentOfLines ls').1 ∧ List.Forall₂ IsMovedLine (documentOfLines ls).2 (documentOfLines ls').2 := by
  obtain ⟨hchart, hbelow⟩ := headed_congr (isLineRule_blank?.dropWhile_congr hls)
  constructor
  · unfold documentOfLines continued
    dsimp only
    rw [hchart, isLineRule_line?.filterMap_congr hbelow]
  · exact isLineRule_line?.dropWhile_congr hbelow

/-- **texts whose lines differ only in their margins are read alike** -/
theorem toOption_read_congr {text text' : Text} (h : terminated (unifyLineEnds text) = unlines ls)
    (h' : terminated (unifyLineEnds text') = unlines ls') (hls : List.Forall₂ IsMovedLine ls ls') :
    (read text).toOption = (read text').toOption := by
  have hmoved : List.Forall₂ IsMovedLine ls' ls := hls.flip.imp fun _ _ hl => IsMovedLine.symm hl
  obtain ⟨hchart, hrest⟩ := documentOfLines_congr hls
  rw [read_eq_of_unlines h (lineFeed_not_mem_of_moved hls), read_eq_of_unlines h' (lineFeed_not_mem_of_moved hmoved), readLines,
    readLines, conclude, conclude, hchart]
  revert hrest
  generalize (documentOfLines ls).2 = rest
  generalize (documentOfLines ls').2 = rest'
  intro hrest
  cases hrest <;> rfl

/-! ## Printed charts -/

/-- what is before a line feed is read on its own -/
theorem exists_unifyLineEnds (t : Text) : ∃ u, ∀ r, unifyLineEnds (t ++ '\n' :: r) = u ++ '\n' :: unifyLineEnds r := by
  have hreplace : ∀ t : Text,
      (∃ u : Text, ∀ r, replaceFrom "\r\n" "\n" 0 (t ++ '\n' :: r) = u ++ '\n' :: replaceFrom "\r\n" "\n" 0 r) ∧
        (t ≠ [] → ∃ u : Text, ∀ r, replaceFrom "\r\n" "\n" 1 (t ++ '\n' :: r) = u ++ '\n' :: replaceFrom "\r\n" "\n" 0 r) := by
    intro t
    induction t with
    | nil => exact ⟨⟨[], fun r => rfl⟩, fun h => absurd rfl h⟩
    | cons c t ih =>
      refine ⟨?_, fun _ => ih.1⟩
      by_cases hpair : c = '\r' ∧ (t ++ ['\n']).head? = some '\n'
      · obtain ⟨rfl, hfirst⟩ := hpair
        cases t with
        | nil => exact ⟨[], fun r => rfl⟩
        | cons d t =>
          obtain rfl := Option.some.inj hfirst
          obtain ⟨u, hu⟩ := ih.2 (by simp)
          exact ⟨'\n' :: u, fun r => congrArg ('\n' :: ·) (hu r)⟩
      · obtain ⟨u, hu⟩ := ih.1
        refine ⟨c :: u, fun r => ?_⟩
        rw [List.cons_append, replaceFrom, if_neg, hu]
        · rfl
        · intro hsome
          refine hpair ?_
          by_cases hc : '\r' = c
          · cases t with
            | nil => exact ⟨hc.symm, rfl⟩
            | cons d t =>
              by_cases hd : '\n' = d
              · exact ⟨hc.symm, congrArg some hd.symm⟩
              · simp [dropPrefix?, hd] at hsome
          · simp [dropPrefix?, hc] at hsome
  obtain ⟨u, hu⟩ := (hreplace t).1
  refine ⟨u.map fun c => if c = '\r' then '\n' else c, fun r => ?_⟩
  rw [unifyLineEnds, unifyLineEnds, replace, replace, hu, List.map_append]
  rfl

theorem unifyLineEnds_margin (hm : m.all isPadding = true) (t : Text) : unifyLineEnds (m ++ t) = m ++ unifyLineEnds t := by
  induction m with
  | nil => rfl
  | cons c m ih =>
    rw [List.all_cons, Bool.and_eq_true] at hm
    have hc : c ≠ '\r' := by
      rintro rfl
      exact absurd hm.1 (by decide)
    have hreplace : replace "\r\n" "\n" (c :: (m ++ t)) = c :: replace "\r\n" "\n" (m ++ t) := by
      rw [replace, replace, replaceFrom, if_neg]
      simp [dropPrefix?, Ne.symm hc]
    rw [List.cons_append, List.cons_append, ← ih hm.2, unifyLineEnds, hreplace, List.map_cons, if_neg hc]
    rfl

theorem unifyLineEnds_ne_nil (h : t ≠ []) : unifyLineEnds t ≠ [] := by
  obtain ⟨c, t, rfl⟩ := List.exists_cons_of_ne_nil h
  rw [unifyLineEnds, replace, replaceFrom]
  split <;> simp

theorem terminated_append {u : Text} (h : u ≠ []) (t : Text) : terminated (t ++ u) = t ++ terminated u := by
  rw [terminated, terminated, List.getLast?_append_of_ne_nil t h]
  split
  · rfl
  · exact List.append_assoc t u _

theorem terminated_ne_nil (t : Text) : terminated t ≠ [] := by
  rw [terminated]
  split
  · rename_i hlast
    rintro rfl
    exact absurd hlast (by simp)
  · simp

theorem unpad_margin (hm : m.all isPadding = true) (t : Text) : unpad (m ++ t) = unpad t :=
  List.dropWhile_append_of_pos (List.all_eq_true.1 hm)

theorem ofLines_margin (m b : Text) (texts : List Text) : ofLines ((m ++ b) :: texts) = m ++ ofLines (b :: texts) := by
  cases texts with
  | nil => rw [ofLines, join_singleton, ofLines, join_singleton]
  | cons t texts => rw [ofLines, join_cons_cons, ofLines, join_cons_cons, List.append_assoc, List.append_assoc, List.append_assoc]

theorem forall₂_isMovedLine_self (h : ∀ l ∈ ls, '\n' ∉ l) : List.Forall₂ IsMovedLine ls ls :=
  List.forall₂_same.2 fun l hl => ⟨h l hl, rfl⟩

/-- lines that are printed in two margins are the same but for these -/
theorem exists_unlines_margin (hm : m.all isPadding = true) (hm' : m'.all isPadding = true) (first : Text) {texts : List Text}
    (h : ∀ t ∈ texts, t ≠ []) :
    ∃ ls ls', terminated (unifyLineEnds (ofLines (first :: texts.map (m ++ ·)))) = unlines ls ∧
      terminated (unifyLineEnds (ofLines (first :: texts.map (m' ++ ·)))) = unlines ls' ∧ List.Forall₂ IsMovedLine ls ls' := by
  induction texts generalizing first with
  | nil =>
    obtain ⟨ls, last, hunlines, hsplit, -⟩ := exists_unlines (ofLines [first])
    exact ⟨ls, ls, hunlines, hunlines, forall₂_isMovedLine_self fun l hl =>
      lineFeed_not_mem_of_mem_linesOf (hsplit ▸ List.mem_append_left last hl)⟩
  | cons b texts ih =>
    obtain ⟨u, hu⟩ := exists_unifyLineEnds first
    have hb : b ≠ [] := h b List.mem_cons_self
    -- the lines before the first margin, the margin, and what is printed behind it
    have hprinted : ∀ m : Text, m.all isPadding = true →
        terminated (unifyLineEnds (ofLines (first :: (b :: texts).map (m ++ ·))))
          = unlines (splitOn '\n' u) ++ (m ++ terminated (unifyLineEnds (ofLines (b :: texts.map (m ++ ·))))) := by
      intro m hm
      have hne : ofLines (b :: texts.map (m ++ ·)) ≠ [] := by
        cases htexts : texts.map (m ++ ·) with
        | nil => rwa [ofLines, join_singleton]
        | cons t texts => simp [ofLines, join_cons_cons, hb]
      have hjoin : ofLines (first :: (b :: texts).map (m ++ ·)) = first ++ '\n' :: (m ++ ofLines (b :: texts.map (m ++ ·))) := by
        rw [List.map_cons, ofLines, join_cons_cons, ← ofLines, ofLines_margin, List.append_assoc]
        rfl
      have hends := terminated_append (unifyLineEnds_ne_nil hne) (u ++ ['\n'] ++ m)
      rw [hjoin, hu, unifyLineEnds_margin hm, unlines_splitOn]
      simpa using hends
    obtain ⟨ls, ls', hls, hls', hmoved⟩ := ih b fun t ht => h t (List.mem_cons_of_mem b ht)
    rw [hprinted m hm, hprinted m' hm', hls, hls']
    cases hmoved with
    | nil => exact absurd hls (terminated_ne_nil _)
    | @cons l l' ls ls' hl hrest =>
      refine ⟨splitOn '\n' u ++ (m ++ l) :: ls, splitOn '\n' u ++ (m' ++ l') :: ls', ?_, ?_, ?_⟩
      · simp [unlines_append]
      · simp [unlines_append]
      · refine List.rel_append (forall₂_isMovedLine_self fun l hl => not_mem_of_mem_splitOn hl) (.cons ⟨?_, ?_⟩ hrest)
        · exact fun hmem => (List.mem_append.1 hmem).elim (lineFeed_not_mem_padding hm) hl.1
        · rw [unpad_margin hm, unpad_margin hm', hl.2]

/-- **the spaces and tabs before the lines of a pie chart do not change what is read** -/
theorem toOption_read_render_congr (c : PieChart) {o o' : RenderOptions} (ho : o.unit.all isPadding = true)
    (ho' : o'.unit.all isPadding = true) : (read (render c o)).toOption = (read (render c o')).toOption := by
  have hne : ∀ t ∈ c.lines.map Line.toText, t ≠ [] := by
    intro t ht
    obtain ⟨line, hline, rfl⟩ := List.mem_map.1 ht
    cases line with
    | blank => simp [lines] at hline
    | accessibility line => cases line <;> exact List.cons_ne_nil _ _
    | title t => exact List.cons_ne_nil _ _
    | slice s =>
      change s.toText ≠ []
      simp [Slice.toText]
  obtain ⟨ls, ls', h, h', hls⟩ := exists_unlines_margin ho ho' (headerText c) hne
  rw [List.map_map] at h h'
  rw [render_eq, render_eq]
  exact toOption_read_congr h h' hls

end DiagramText.PieChart

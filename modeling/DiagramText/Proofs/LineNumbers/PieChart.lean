/-
The numbers of the lines of a pie chart. A further line without meaning leaves the chart as it is, and moves what is left when it
stands above it (`documentOfLines_insert`). So errors are at the lines they were at, whatever their numbers (`read_insert`).
-/
import DiagramText.Proofs.LineNumbers.Lines
import DiagramText.Proofs.PieChart.LineRules
import DiagramText.Proofs.PieChart.RoundTrip

namespace DiagramText.PieChart

open DiagramText.Text

variable {t l : Text} {before after : List Text}

/-! ## One more line -/

theorem onLine_blank? (h : IsBlankLine l) (hlf : '\n' ∉ l) : onLine blank? l = some .blank := by
  obtain ⟨x, hx⟩ := takesLines_blank?.complete h hlf []
  obtain ⟨r, -, hr⟩ := Option.map_eq_some_iff.1 hx
  rw [onLine, hx, ← hr]
  rfl

theorem onLine_line? (h : IsBlankLine l) (hlf : '\n' ∉ l) : onLine line? l = some .blank := by
  obtain ⟨x, hx⟩ := takesLines_blank?.complete h hlf []
  obtain ⟨r, -, hr⟩ := Option.map_eq_some_iff.1 hx
  rw [onLine, line?, hx, ← hr]
  rfl

/-- what is left of lines, and of the same lines with one more among them: the same when it is passed, and otherwise a line
above it and all that follows -/
inductive Leaves (l : Text) (before after : List Text) : List Text → List Text → Prop where
  | above {passed below : List Text} {m : Text} (h : before = passed ++ m :: below) :
    Leaves l before after (m :: (below ++ after)) (m :: (below ++ l :: after))
  | below {passed rest : List Text} (h : after = passed ++ rest) : Leaves l before after rest rest

theorem dropWhile_append_of_nil {p : Text → Bool} (h : before.dropWhile p = []) (ls : List Text) :
    (before ++ ls).dropWhile p = ls.dropWhile p := by
  rw [List.dropWhile_append, h]
  rfl

theorem dropWhile_append_of_cons {p : Text → Bool} {m : Text} {below : List Text} (h : before.dropWhile p = m :: below) (ls : List Text) :
    (before ++ ls).dropWhile p = m :: (below ++ ls) := by
  rw [List.dropWhile_append, h]
  rfl

/-- below the header, a line without meaning changes nothing -/
theorem continued_insert (h : IsBlankLine l) (hlf : '\n' ∉ l) (c : PieChart) (before after : List Text) :
    (continued c (before ++ l :: after)).1 = (continued c (before ++ after)).1 ∧
      Leaves l before after (continued c (before ++ after)).2 (continued c (before ++ l :: after)).2 := by
  have hline := onLine_line? h hlf
  have htakes : takesLine line? l = true := by rw [takesLine, hline]; rfl
  unfold continued
  cases hstop : before.dropWhile (takesLine line?) with
  | nil =>
    have hall : ∀ m ∈ before, takesLine line? m = true := List.dropWhile_eq_nil_iff.1 hstop
    constructor
    · dsimp only
      rw [List.takeWhile_append_of_pos hall, List.takeWhile_append_of_pos hall, List.takeWhile_cons_of_pos htakes,
        List.filterMap_append, List.filterMap_append, List.filterMap_cons_some hline, List.foldl_append, List.foldl_append,
        List.foldl_cons]
      rfl
    · dsimp only
      rw [dropWhile_append_of_nil hstop, dropWhile_append_of_nil hstop, List.dropWhile_cons_of_pos htakes]
      exact .below (List.takeWhile_append_dropWhile).symm
  | cons m below =>
    have hsplit : before.takeWhile (takesLine line?) ++ m :: below = before := hstop ▸ List.takeWhile_append_dropWhile
    have htaken : ∀ ls, (before ++ ls).takeWhile (takesLine line?) = before.takeWhile (takesLine line?) := by
      intro ls
      rw [List.takeWhile_append, if_neg]
      intro hlength
      have hlengths := congrArg List.length hsplit
      rw [List.length_append, List.length_cons, hlength] at hlengths
      omega
    constructor
    · dsimp only
      rw [htaken, htaken]
    · dsimp only
      rw [dropWhile_append_of_cons hstop, dropWhile_append_of_cons hstop]
      exact .above hsplit.symm

/-- **a line without meaning leaves the chart as it is** -/
theorem documentOfLines_insert (h : IsBlankLine l) (hlf : '\n' ∉ l) (before after : List Text) :
    (documentOfLines (before ++ l :: after)).1 = (documentOfLines (before ++ after)).1 ∧
      Leaves l before after (documentOfLines (before ++ after)).2 (documentOfLines (before ++ l :: after)).2 := by
  cases hstop : before.dropWhile (takesLine blank?) with
  | nil =>
    have htakes : takesLine blank? l = true := by rw [takesLine, onLine_blank? h hlf]; rfl
    have hsame : documentOfLines (before ++ l :: after) = documentOfLines (before ++ after) := by
      rw [documentOfLines, documentOfLines, dropWhile_append_of_nil hstop, dropWhile_append_of_nil hstop,
        List.dropWhile_cons_of_pos htakes]
    have hafter : documentOfLines (before ++ after) = documentOfLines after := by
      rw [documentOfLines, documentOfLines, dropWhile_append_of_nil hstop]
    obtain ⟨passed, hpassed⟩ := documentOfLines_suffix after
    rw [hsame, hafter]
    exact ⟨rfl, .below hpassed.symm⟩
  | cons m below =>
    have hsplit : before.takeWhile (takesLine blank?) ++ m :: below = before := hstop ▸ List.takeWhile_append_dropWhile
    -- the header, if there is one, is above the further line
    obtain ⟨c, passed, tail, hbefore, hheaded⟩ : ∃ c passed tail, before = passed ++ tail ∧
        ∀ ls, documentOfLines (before ++ ls) = continued c (tail ++ ls) := by
      cases hheader : onLine header? m with
      | none =>
        refine ⟨{}, _, m :: below, hsplit.symm, fun ls => ?_⟩
        rw [documentOfLines, dropWhile_append_of_cons hstop, headed, hheader]
        rfl
      | some c =>
        refine ⟨c, before.takeWhile (takesLine blank?) ++ [m], below, by rw [List.append_assoc]; exact hsplit.symm, fun ls => ?_⟩
        rw [documentOfLines, dropWhile_append_of_cons hstop, headed, hheader]
    obtain ⟨hchart, hleaves⟩ := continued_insert h hlf c tail after
    rw [hheaded, hheaded]
    refine ⟨hchart, ?_⟩
    revert hleaves
    generalize (continued c (tail ++ after)).2 = rest
    generalize (continued c (tail ++ l :: after)).2 = rest'
    intro hleaves
    cases hleaves with
    | above htail => exact .above (by rw [hbefore, htail, List.append_assoc])
    | below hafter => exact .below hafter

/-! ## Reading lines -/

/-- **a line without meaning only moves those below it** -/
theorem readLines_insert (h : IsBlankLine l) (hlf : '\n' ∉ l) (before after : List Text) :
    readLines (before ++ l :: after)
      = (readLines (before ++ after)).mapError (ParseError.renumber fun n => if before.length < n then n + 1 else n) := by
  obtain ⟨hchart, hleaves⟩ := documentOfLines_insert h hlf before after
  rw [readLines, readLines, conclude, conclude, hchart]
  revert hleaves
  generalize (documentOfLines (before ++ after)).2 = rest
  generalize (documentOfLines (before ++ l :: after)).2 = rest'
  intro hleaves
  cases hleaves with
  | @above passed below m hbefore =>
    have hnumber : (before ++ after).length - (below ++ after).length = passed.length + 1 := by
      rw [hbefore]
      simp
      omega
    have hnumber' : (before ++ l :: after).length - (below ++ l :: after).length = passed.length + 1 := by
      rw [hbefore]
      simp
      omega
    have habove : ¬ before.length < passed.length + 1 := by
      rw [hbefore]
      simp
    dsimp only
    rw [hnumber, hnumber']
    simp only [Except.mapError, ParseError.renumber, if_neg habove]
  | @below passed _ hafter =>
    cases rest with
    | nil => rfl
    | cons m below =>
      have hnumber : (before ++ after).length - below.length = before.length + passed.length + 1 := by
        rw [hafter]
        simp
        omega
      have hnumber' : (before ++ l :: after).length - below.length = before.length + passed.length + 1 + 1 := by
        rw [hafter]
        simp
        omega
      have hbelow : before.length < before.length + passed.length + 1 := by omega
      dsimp only
      rw [hnumber, hnumber']
      simp only [Except.mapError, ParseError.renumber, if_pos hbelow]

/-- an empty line at the end does not count -/
theorem readLines_concat_nil (ls : List Text) : readLines (ls ++ [[]]) = readLines ls := by
  have hinsert := readLines_insert (.ending (.padding rfl)) List.not_mem_nil ls []
  rw [List.append_nil] at hinsert
  rw [hinsert, readLines, conclude]
  cases (documentOfLines ls).2 with
  | nil => rfl
  | cons l below =>
    -- the error is not below the last line
    have hnumber : ¬ ls.length < ls.length - below.length := by omega
    simp only [Except.mapError, ParseError.renumber, if_neg hnumber]

/-- **a pie chart is read line by line** -/
theorem read_eq_readLines (text : Text) : read text = readLines (linesOf text) := by
  obtain ⟨ls, last, hunlines, hlines, hlast⟩ := exists_unlines text
  have hlf : ∀ l ∈ ls, '\n' ∉ l := fun l hl => lineFeed_not_mem_of_mem_linesOf (hlines ▸ List.mem_append_left last hl)
  have hends : ∀ last : List Text, (∀ l ∈ last, l = []) → readLines (ls ++ last) = readLines ls := by
    intro last
    induction last using List.reverseRecOn with
    | nil =>
      intro _
      rw [List.append_nil]
    | append_singleton last l ih =>
      intro h
      rw [h l (by simp), ← List.append_assoc, readLines_concat_nil]
      exact ih fun m hm => h m (List.mem_append_left [l] hm)
  rw [read_eq_of_unlines hunlines hlf, hlines, hends last hlast]

/-! ## Texts -/

theorem linesOf_eq (ht : '\r' ∉ t) : linesOf t = splitOn '\n' t := by rw [linesOf, unifyLineEnds_eq_self ht]

/-- **one more line without meaning** only moves those below it -/
theorem read_insert (ht : '\r' ∉ t) {line : Text} (hline : IsBlankLine line) (hlf : '\n' ∉ line) (hcr : '\r' ∉ line)
    (h : splitOn '\n' t = before ++ after) : read (ofLines (before ++ line :: after))
      = (read t).mapError (ParseError.renumber fun n => if before.length < n then n + 1 else n) := by
  have hpiece : ∀ l ∈ before ++ after, '\r' ∉ l := fun l hl hmem => ht (mem_of_mem_splitOn (h ▸ hl) hmem)
  have hreturn : '\r' ∉ ofLines (before ++ line :: after) := by
    intro hmem
    rcases mem_of_mem_join hmem with hc | ⟨l, hl, hc⟩
    · exact absurd hc (by decide)
    · rcases List.mem_append.1 hl with hl | hl
      · exact hpiece l (List.mem_append_left after hl) hc
      · rcases List.mem_cons.1 hl with rfl | hl
        · exact hcr hc
        · exact hpiece l (List.mem_append_right before hl) hc
  rw [read_eq_readLines, read_eq_readLines, linesOf_eq hreturn, linesOf_eq ht, splitOn_insert hlf h, h]
  exact readLines_insert hline hlf before after

/-- a carriage return before every line feed is taken away -/
theorem unifyLineEnds_crlf (ht : '\r' ∉ t) : unifyLineEnds (replace "\n" "\r\n" t) = t := by
  have hreplace : replace "\n" "\r\n" t = t.flatMap fun c => if c = '\n' then ['\r', '\n'] else [c] := replace_char '\n' _ t
  have hback : replaceFrom "\r\n" "\n" 0 (t.flatMap fun c => if c = '\n' then ['\r', '\n'] else [c]) = t := by
    clear hreplace
    induction t with
    | nil => rfl
    | cons c t ih =>
      obtain ⟨hc, ht⟩ := not_or.1 (mt List.mem_cons.2 ht)
      rw [List.flatMap_cons]
      by_cases hlf : c = '\n'
      · rw [if_pos hlf, hlf]
        exact congrArg ('\n' :: ·) (ih ht)
      · have hstop : ¬ (dropPrefix? "\r\n" (c :: t.flatMap fun c => if c = '\n' then ['\r', '\n'] else [c])).isSome = true := by
          simp [dropPrefix?, hc]
        rw [if_neg hlf, List.singleton_append, replaceFrom, if_neg hstop, ih ht]
  have hself := unifyLineEnds_eq_self ht
  have hpair : ¬ ("\r\n" : Text) <:+: t := fun hi => ht (hi.subset (by decide))
  rw [unifyLineEnds, replace_eq_self hpair] at hself
  rw [unifyLineEnds, hreplace, replace, hback, hself]

/-- **lines that end with a carriage return and a line feed** are read alike -/
theorem read_crlf (ht : '\r' ∉ t) : read (replace "\n" "\r\n" t) = read t := by
  rw [read, read, unifyLineEnds_crlf ht, unifyLineEnds_eq_self ht]

end DiagramText.PieChart

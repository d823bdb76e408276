/-
What the lines of a text say, one after the other. The contents of joined texts are the contents of each
(`contents_ofLines`), and white space before a text adds none, line feeds included (`contents_blank_append`): how far a line is
indented is no part of them.
-/
import DiagramText.Proofs.Text.Lines
import DiagramText.Source.Header

namespace DiagramText

open DiagramText.Text

/-! ## The lines of joined texts -/

theorem splitOn_append_sep (sep : Char) (t u : Text) : splitOn sep (t ++ sep :: u) = splitOn sep t ++ splitOn sep u := by
  induction t with
  | nil => simp [splitOn]
  | cons c t ih =>
    obtain ⟨first, others, hfirst⟩ := List.exists_cons_of_ne_nil (splitOn_ne_nil sep t)
    rw [List.cons_append, splitOn, splitOn, ih, hfirst]
    split <;> rfl

theorem ofLines_cons_cons (t u : Text) (lines : List Text) : ofLines (t :: u :: lines) = t ++ '\n' :: ofLines (u :: lines) := by
  rw [ofLines, join_cons_cons, List.append_assoc]
  rfl

/-- the lines of joined texts are those of each of them -/
theorem splitOn_ofLines_eq_flatMap {lines : List Text} (h : lines ≠ []) :
    splitOn '\n' (ofLines lines) = lines.flatMap (splitOn '\n') := by
  induction lines with
  | nil => exact absurd rfl h
  | cons t lines ih =>
    cases lines with
    | nil => rw [ofLines, join_singleton, List.flatMap_singleton]
    | cons u lines =>
      rw [ofLines_cons_cons, splitOn_append_sep, ih (by simp)]
      rfl

/-! ## What lines say -/

/-- what the meaningful lines of a text say -/
def contents (strip : Bool) (t : Text) : List Text := (splitOn '\n' t).filterMap (SourceLine.content? strip)

variable {strip : Bool} {b t : Text}

@[simp] theorem contents_nil (strip : Bool) : contents strip [] = [] := by cases strip <;> rfl

theorem contents_append (strip : Bool) (t u : Text) :
    contents strip (t ++ '\n' :: u) = contents strip t ++ contents strip u := by
  rw [contents, splitOn_append_sep, List.filterMap_append, contents, contents]

/-- **joined lines say what each of them says** -/
theorem contents_ofLines (strip : Bool) (lines : List Text) : contents strip (ofLines lines) = lines.flatMap (contents strip) := by
  cases lines with
  | nil => exact contents_nil strip
  | cons t lines => rw [contents, splitOn_ofLines_eq_flatMap (by simp), List.filterMap_flatMap]; rfl

/-- **white space before a text says nothing**, on lines of its own or before the first one -/
theorem contents_blank_append (hb : b.all isBlank = true) (t : Text) : contents strip (b ++ t) = contents strip t := by
  induction b with
  | nil => rfl
  | cons c b ih =>
    rw [List.all_cons, Bool.and_eq_true] at hb
    rw [← ih hb.2, List.cons_append]
    by_cases hc : c = '\n'
    · have hline : contents strip ([] ++ '\n' :: (b ++ t)) = [] ++ contents strip (b ++ t) := by
        rw [contents_append, contents_nil]
      rw [hc]
      exact hline
    · obtain ⟨first, others, hfirst⟩ := List.exists_cons_of_ne_nil (splitOn_ne_nil '\n' (b ++ t))
      have htrim : trim (c :: first) = trim first := trim_blank_append (b := [c]) (by simpa using hb.1)
      have hsplit : splitOn '\n' (c :: (b ++ t)) = (c :: first) :: others := by
        rw [splitOn, if_neg hc, hfirst]
      have hcontent : SourceLine.content? strip (c :: first) = SourceLine.content? strip first := by
        rw [SourceLine.content?, SourceLine.content?, htrim]
      rw [contents, contents, hsplit, hfirst, List.filterMap_cons, List.filterMap_cons, hcontent]

/-- a text that a line can hold as it is says itself -/
theorem contents_of_isLine (ht : SourceLine.IsLine t) (hs : strip = true → endsWith (· ≠ ';') t = true) :
    contents strip t = [t] := by
  have hcontent : SourceLine.content? strip ([] ++ t) = some t := SourceLine.content?_of_isLine rfl ht hs
  rw [List.nil_append] at hcontent
  rw [contents, splitOn_of_not_mem ht.lineFeed, List.filterMap_cons, hcontent]
  rfl

/-- lines in their margins say what they say without them -/
theorem flatMap_contents_margin {α : Type} (hb : b.all isBlank = true) (text : α → Text) (xs : List α) :
    (xs.map (b ++ text ·)).flatMap (contents strip) = (xs.map text).flatMap (contents strip) := by
  simp only [List.flatMap_map, contents_blank_append hb]

theorem flatMap_contents_of_isLine {ts : List Text} (h : ∀ t ∈ ts, SourceLine.IsLine t) :
    ts.flatMap (contents false) = ts := by
  induction ts with
  | nil => rfl
  | cons t ts ih =>
    rw [List.flatMap_cons, contents_of_isLine (h t List.mem_cons_self) (by simp), ih fun u hu => h u (List.mem_cons_of_mem t hu)]
    rfl

/-- what the lines below the header say -/
def belowHeader (dialect : Dialect) : List Text → List Text
  | [] => []
  | t :: ts => if (dialect.header? t).isSome then ts else t :: ts

theorem map_text_splitHeader (dialect : Dialect) (ls : List SourceLine) :
    (splitHeader dialect ls).2.map SourceLine.text = belowHeader dialect (ls.map SourceLine.text) := by
  cases ls with
  | nil => rfl
  | cons l ls =>
    rw [splitHeader, List.map_cons, belowHeader]
    cases dialect.header? l.text <;> rfl

end DiagramText

/-
Pie charts read back. A chart is printed as its header and its lines (`lines`); what each line says is taken from it whole
(`line?_toText`), and taken together they make the chart again (`foldl_apply_lines`). `read_render_of_isPlain` puts them
together.
-/
import DiagramText.Proofs.Accessibility
import DiagramText.Proofs.Number.Format
import DiagramText.Proofs.Options
import DiagramText.Proofs.PieChart.Document

namespace DiagramText.PieChart

open DiagramText.Text
open Sequence (IsLineText)

variable {t r : Text} {line : Line} {c : PieChart}

/-! ## Charts that can be written -/

/-- a text that can stand at the end of a line of a pie chart -/
structure IsRemark (t : Text) : Prop where
  ne_nil : t ≠ []
  line : IsLineText t
  carriageReturn : '\r' ∉ t

/-- a slice that can be written -/
structure Slice.IsPlain (s : Slice) : Prop where
  lineFeed : '\n' ∉ s.label
  carriageReturn : '\r' ∉ s.label
  entity : ¬ quoteEntity <:+: s.label
  finite : s.value.isFinite = true

/-- a line that can be written -/
def Line.IsPlain : Line → Prop
  | .blank => False
  | .accessibility line => IsRemark line.value
  | .title t => IsRemark t
  | .slice s => s.IsPlain

/-- a chart that can be written -/
structure IsPlain (c : PieChart) : Prop where
  title : ∀ t, c.title = some t → IsRemark t
  accessibilityTitle : ∀ t, c.accessibility.title = some t → IsRemark t
  accessibilityDescription : ∀ t, c.accessibility.description = some t → IsRemark t
  slices : ∀ s ∈ c.slices, s.IsPlain

/-- a slice with plus zero for minus zero -/
def Slice.withoutMinusZero (s : Slice) : Slice := { s with value := s.value.withoutMinusZero }

/-- a chart with plus zero for minus zero -/
def withoutMinusZero (c : PieChart) : PieChart := { c with slices := c.slices.map Slice.withoutMinusZero }

/-! ## Lines -/

/-- a line as it is written -/
def Line.toText : Line → Text
  | .blank => []
  | .accessibility line => accessibilityText line
  | .title t => "title " ++ t
  | .slice s => s.toText

/-- a line as it is read -/
def Line.withoutMinusZero : Line → Line
  | .slice s => .slice s.withoutMinusZero
  | line => line

/-- the lines of a chart below its header -/
def lines (c : PieChart) : List Line :=
  ((present c.title).map .title).toList ++ c.accessibility.written.map .accessibility ++ c.slices.map .slice

/-- the header of a chart -/
def headerText (c : PieChart) : Text := if c.showData then "pie showData" else "pie"

theorem render_eq (c : PieChart) (o : RenderOptions) : render c o = ofLines (headerText c :: c.lines.map (o.unit ++ ·.toText)) := by
  have htitle : ((present c.title).map (o.unit ++ "title " ++ ·)).toList
      = ((present c.title).map Line.title).toList.map (o.unit ++ ·.toText) := by
    cases present c.title with
    | none => rfl
    | some v =>
      rw [Option.map_some, Option.map_some, Option.toList_some, Option.toList_some, List.map_singleton, List.append_assoc]
      rfl
  rw [render, lines, List.map_append, List.map_append, List.map_map, List.map_map, htitle, Accessibility.lines_eq]
  rfl

theorem isPlain_of_mem_lines (h : c.IsPlain) (hl : line ∈ c.lines) : line.IsPlain := by
  simp only [lines, Accessibility.written, List.mem_append, List.mem_map, Option.mem_toList, Option.map_eq_some_iff] at hl
  rcases hl with (⟨t, ht, rfl⟩ | ⟨_, ⟨t, ht, rfl⟩ | ⟨t, ht, rfl⟩, rfl⟩) | ⟨s, hs, rfl⟩
  · exact h.title t (present_eq_some_iff.1 ht).1
  · exact h.accessibilityTitle t (present_eq_some_iff.1 ht).1
  · exact h.accessibilityDescription t (present_eq_some_iff.1 ht).1
  · exact h.slices s hs

/-- slices are added one after the other -/
theorem foldl_apply_slices (ss : List Slice) (d : PieChart) :
    ((ss.map Line.slice).map Line.withoutMinusZero).foldl apply d
      = { d with slices := d.slices ++ ss.map Slice.withoutMinusZero } := by
  induction ss generalizing d with
  | nil => simp
  | cons s ss ih =>
    rw [List.map_cons, List.map_cons, List.foldl_cons, ih]
    simp [apply, Line.withoutMinusZero]

/-- the lines make the chart again -/
theorem foldl_apply_lines (h : c.IsPlain) :
    (c.lines.map Line.withoutMinusZero).foldl apply { showData := c.showData } = c.withoutMinusZero := by
  have htitle : (((present c.title).map Line.title).toList.map Line.withoutMinusZero).foldl apply { showData := c.showData }
      = { title := c.title, showData := c.showData } := by
    rw [present_eq_self fun t ht => (h.title t ht).ne_nil]
    cases c.title <;> rfl
  have hsettled : c.accessibility.settled = c.accessibility :=
    Accessibility.settled_eq_self (fun t ht => (h.accessibilityTitle t ht).ne_nil)
      fun t ht => (h.accessibilityDescription t ht).ne_nil
  have haccessibility : ((c.accessibility.written.map Line.accessibility).map Line.withoutMinusZero).foldl apply
      { title := c.title, showData := c.showData }
        = { title := c.title, showData := c.showData, accessibility := c.accessibility } := by
    rw [List.map_map, List.foldl_map]
    conv_rhs => rw [← hsettled]
    refine Accessibility.foldl_written
      (fun a => ({ title := c.title, showData := c.showData, accessibility := a } : PieChart)) ?_ _
    exact fun _ _ => rfl
  rw [lines, List.map_append, List.map_append, List.foldl_append, List.foldl_append, htitle, haccessibility, foldl_apply_slices]
  rfl

/-! ## Reading lines -/

/-- a remark is not ended before the line is -/
theorem remark?_append (h : IsRemark t) (r : Text) : remark? (t ++ '\n' :: r) = some (t, '\n' :: r) := by
  refine Scan.shortest_append _ (notLineFeed_of_not_mem h.line.lineFeed) (fun a c b ht => if_neg fun hsome => ?_) ?_
  · obtain ⟨s, hs⟩ := Option.isSome_iff_exists.1 hsome
    obtain ⟨e, he, hlf, hsplit⟩ := exists_of_lineEnd? hs
    have hlfb : '\n' ∉ c :: b := fun hm => h.line.lineFeed (ht ▸ List.mem_append_right a hm)
    obtain ⟨rfl, -⟩ := line_unique hlfb hlf hsplit
    exact absurd (he.eq_nil (ht ▸ h.line.endsWith h.ne_nil)) (List.cons_ne_nil c b)
  · rw [lineEnd?_lineFeed, h.line.trimmed]
    rfl

theorem IsRemark.isUnpadded (h : IsRemark t) (r : Text) : IsUnpadded (t ++ r) :=
  isUnpadded_of_startsWith (startsWith_append r (h.line.isTight h.ne_nil).first)

theorem accessible?_append (keyword : Text) (h : IsRemark t) (r : Text) :
    accessible? keyword (keyword ++ ':' :: ' ' :: (t ++ '\n' :: r)) = some (t, '\n' :: r) := by
  have hcolon : ∀ u : Text, dropPrefix? ":" (unpad (':' :: u)) = some u := fun u => rfl
  have hspace : unpad (' ' :: (t ++ '\n' :: r)) = t ++ '\n' :: r := unpad_append (a := [' ']) rfl (h.isUnpadded _)
  rw [accessible?, dropPrefix?_append, Option.bind_some, hcolon, Option.bind_some, hspace, remark?_append h r]

theorem title?_append (h : IsRemark t) (r : Text) : title? ("title " ++ (t ++ '\n' :: r)) = some (t, '\n' :: r) := by
  have hword : dropWord? "title" ("title " ++ (t ++ '\n' :: r)) = some (' ' :: (t ++ '\n' :: r)) := rfl
  have hspace : unpad? (' ' :: (t ++ '\n' :: r)) = some (t ++ '\n' :: r) :=
    unpad?_append (a := [' ']) rfl (by simp) (h.isUnpadded _)
  rw [title?, hword, Option.bind_some, hspace, Option.bind_some, remark?_append h r]

theorem slice?_append {s : Slice} (h : s.IsPlain) (r : Text) :
    slice? (s.toText ++ '\n' :: r) = some (s.withoutMinusZero, '\n' :: r) := by
  obtain ⟨d, hd, hvalue⟩ := Binary64.exists_ofText?_format h.finite
  have hlabel : label? (quote s.label ++ ' ' :: ':' :: ' ' :: (s.value.format ++ '\n' :: r))
      = some (quote s.label, ' ' :: ':' :: ' ' :: (s.value.format ++ '\n' :: r)) := by
    have hlf : '\n' ∉ s.label.flatMap escapeQuote := fun hm =>
      (mem_of_mem_escape hm).elim h.lineFeed (by decide)
    have hread := label?_append (quote_not_mem_escape s.label) hlf (' ' :: ':' :: ' ' :: (s.value.format ++ '\n' :: r))
    rw [quote_eq]
    simpa using hread
  have hcolon : ∀ u : Text, dropPrefix? ":" (unpad (' ' :: ':' :: u)) = some u := fun u => rfl
  have hspace : unpad (' ' :: (s.value.format ++ '\n' :: r)) = s.value.format ++ '\n' :: r :=
    unpad_append (a := [' ']) rfl
      (isUnpadded_of_startsWith (startsWith_append _ (Binary64.isTight_format h.finite).first))
  have hnumber := Decimal.read?_append hd (by rfl : Scan.startsWith Decimal.continuesNumeral ('\n' :: r) = false)
  have htext : s.toText ++ '\n' :: r = quote s.label ++ ' ' :: ':' :: ' ' :: (s.value.format ++ '\n' :: r) := by
    rw [Slice.toText, List.append_assoc, List.append_assoc]
    rfl
  rw [htext, slice?, hlabel, Option.bind_some]
  dsimp only
  rw [hcolon, Option.bind_some, hspace, hnumber, Option.map_some]
  dsimp only
  rw [unquote_quote_eq_self h.entity, hvalue, Slice.withoutMinusZero]

/-- **what a line says is taken from it whole** -/
theorem said?_toText (h : line.IsPlain) (r : Text) : said? (line.toText ++ '\n' :: r) = some (line.withoutMinusZero, '\n' :: r) := by
  cases line with
  | blank => exact h.elim
  | accessibility l =>
    have hread := accessible?_append l.keyword h r
    change said? (accessibilityText l ++ '\n' :: r) = _
    rw [accessibilityText_append]
    cases l with
    | title v =>
      change accessible? "accTitle" _ = _ at hread
      rw [said?, hread]
      rfl
    | description v =>
      have hnone : ∀ u, accessible? "accTitle" ((AccessibilityLine.description v).keyword ++ u) = none := fun u => rfl
      change accessible? "accDescr" _ = _ at hread
      rw [said?, hnone, hread]
      rfl
  | title t =>
    have hnone : ∀ {keyword : Text}, keyword = "accTitle" ∨ keyword = "accDescr" →
        accessible? keyword ("title " ++ (t ++ '\n' :: r)) = none := fun hk => accessible?_eq_none hk rfl
    change said? ("title " ++ t ++ '\n' :: r) = _
    rw [List.append_assoc, said?, hnone (Or.inl rfl), hnone (Or.inr rfl), title?_append h r]
    rfl
  | slice s =>
    have hnone : ∀ {keyword : Text}, keyword = "accTitle" ∨ keyword = "accDescr" →
        accessible? keyword (s.toText ++ '\n' :: r) = none := fun hk => accessible?_eq_none hk rfl
    have htitle : title? (s.toText ++ '\n' :: r) = none := rfl
    change said? (s.toText ++ '\n' :: r) = _
    rw [said?, hnone (Or.inl rfl), hnone (Or.inr rfl), htitle, slice?_append h r]
    rfl

/-- a line is read as what it says, in any margin -/
theorem line?_toText {margin : Text} (hm : margin.all isPadding = true) (h : line.IsPlain) (r : Text) :
    line? (margin ++ (line.toText ++ '\n' :: r)) = some (line.withoutMinusZero, r) := by
  have hunpad : unpad (margin ++ (line.toText ++ '\n' :: r)) = line.toText ++ '\n' :: r := by
    refine unpad_append hm ?_
    cases line with
    | blank => exact h.elim
    | accessibility l => cases l <;> rfl
    | title t => rfl
    | slice s => rfl
  have hblank : blank? (margin ++ (line.toText ++ '\n' :: r)) = none := by
    rw [blank?, hunpad]
    cases line with
    | blank => exact h.elim
    | accessibility l => cases l <;> rfl
    | title t => rfl
    | slice s => rfl
  rw [line?, hblank, statement?, hunpad, said?_toText h r]
  rfl

/-! ## Reading a chart -/

/-- the header says whether the data is shown -/
theorem header?_headerText (c : PieChart) (r : Text) :
    blank? (headerText c ++ '\n' :: r) = none ∧ header? (headerText c ++ '\n' :: r) = some ({ showData := c.showData }, r) := by
  rw [headerText]
  cases c.showData with
  | false => exact ⟨rfl, rfl⟩
  | true => exact ⟨rfl, rfl⟩

/-- the lines of a chart are read as the chart, to the last one -/
theorem document_lines {margin : Text} (hm : margin.all isPadding = true) (h : c.IsPlain) :
    document (unlines (headerText c :: c.lines.map (margin ++ ·.toText))) = (c.withoutMinusZero, []) := by
  let items := c.lines.map fun line => (margin ++ (line.toText ++ ['\n']), line.withoutMinusZero)
  have hitems : unlines (c.lines.map (margin ++ ·.toText)) = (items.map Prod.fst).flatten ++ [] := by
    simp [items, unlines, Function.comp_def]
  have hread : ∀ i ∈ items, i.1 ≠ [] ∧ ∀ r, line? (i.1 ++ r) = some (i.2, r) := by
    intro i hi
    obtain ⟨line, hline, rfl⟩ := List.mem_map.1 hi
    refine ⟨by simp, fun r => ?_⟩
    have hread := line?_toText hm (isPlain_of_mem_lines h hline) r
    simpa using hread
  have hmany := Scan.many_append hread takesLines_line?.eq_none_nil
  have hvalues : items.map Prod.snd = c.lines.map Line.withoutMinusZero := by simp [items, Function.comp_def]
  obtain ⟨hblank, hheader⟩ := header?_headerText c (unlines (c.lines.map (margin ++ ·.toText)))
  rw [unlines_cons, document, Scan.many_of_none hblank]
  simp only [hheader, Option.getD_some]
  rw [hitems, hmany, hvalues]
  simp only [foldl_apply_lines h]

theorem not_mem_toText {d : Char} (hd : d = '\n' ∨ d = '\r') (h : line.IsPlain) : d ∉ line.toText := by
  have hremark : ∀ {t : Text}, IsRemark t → d ∉ t := by
    intro t ht
    rcases hd with rfl | rfl
    · exact ht.line.lineFeed
    · exact ht.carriageReturn
  have hword : ∀ {w : Text}, w.all (fun c => c ≠ '\n' && c ≠ '\r') = true → d ∉ w := by
    intro w hw hm
    have hdw := List.all_eq_true.1 hw d hm
    rcases hd with rfl | rfl <;> exact absurd hdw (by decide)
  cases line with
  | blank => exact h.elim
  | accessibility l =>
    have hkeyword : d ∉ l.keyword := by
      cases l with
      | title v => exact hword (w := "accTitle") (by decide)
      | description v => exact hword (w := "accDescr") (by decide)
    change d ∉ accessibilityText l
    rw [accessibilityText_eq, List.mem_append]
    refine not_or.2 ⟨hkeyword, fun hm => ?_⟩
    exact (List.mem_append (s := [':', ' ']).1 hm).elim (hword (by decide)) (hremark h)
  | title t => exact fun hm => (List.mem_append.1 hm).elim (hword (by decide)) (hremark h)
  | slice s =>
    have hlabel : d ∉ s.label := by
      rcases hd with rfl | rfl
      · exact h.lineFeed
      · exact h.carriageReturn
    have hquote : d ∉ quote s.label := fun hm =>
      (mem_of_mem_quote hm).elim hlabel fun hm => hm.elim (hword (by decide)) (by rcases hd with rfl | rfl <;> decide)
    have hformat : d ∉ s.value.format := Binary64.not_mem_format h.finite (by rcases hd with rfl | rfl <;> decide)
    change d ∉ s.toText
    rw [Slice.toText, List.mem_append, List.mem_append]
    exact not_or.2 ⟨not_or.2 ⟨hquote, hword (by decide)⟩, hformat⟩

theorem unifyLineEnds_eq_self (h : '\r' ∉ t) : unifyLineEnds t = t := by
  have hpair : ¬ ("\r\n" : Text) <:+: t := fun hi => h (hi.subset (by decide))
  rw [unifyLineEnds, replace_eq_self hpair]
  conv_rhs => rw [← List.map_id t]
  refine List.map_congr_left fun c hc => if_neg ?_
  rintro rfl
  exact h hc

/-- a printed chart has no line ends but line feeds, and every line of it is ended -/
theorem terminated_render {o : RenderOptions} (ho : o.unit.all isPadding = true) (h : c.IsPlain) :
    terminated (unifyLineEnds (render c o)) = unlines (headerText c :: c.lines.map (o.unit ++ ·.toText)) := by
  have hlines : ∀ l ∈ headerText c :: c.lines.map (o.unit ++ ·.toText), l ≠ [] ∧ '\n' ∉ l ∧ '\r' ∉ l := by
    intro l hl
    rcases List.mem_cons.1 hl with rfl | hl
    · rw [headerText]
      cases c.showData <;> decide
    · obtain ⟨line, hline, rfl⟩ := List.mem_map.1 hl
      have hplain := isPlain_of_mem_lines h hline
      have hmargin : ∀ d, isPadding d = false → d ∉ o.unit := by
        intro d hd hm
        rw [List.all_eq_true.1 ho d hm] at hd
        exact absurd hd (by decide)
      refine ⟨List.append_ne_nil_of_left_ne_nil o.unit_ne_nil _, ?_, ?_⟩
      · exact fun hm => (List.mem_append.1 hm).elim (hmargin '\n' rfl) (not_mem_toText (Or.inl rfl) hplain)
      · exact fun hm => (List.mem_append.1 hm).elim (hmargin '\r' rfl) (not_mem_toText (Or.inr rfl) hplain)
  have hreturn : '\r' ∉ render c o := by
    intro hm
    rw [render_eq] at hm
    rcases mem_of_mem_join hm with hm | ⟨l, hl, hm⟩
    · exact absurd hm (by decide)
    · exact (hlines l hl).2.2 hm
  obtain ⟨ls, last, hunlines, hsplit, hlast⟩ := exists_unlines (render c o)
  rw [linesOf, unifyLineEnds_eq_self hreturn, render_eq, splitOn_ofLines (by simp) fun l hl => (hlines l hl).2.1] at hsplit
  have hnil : last = [] := List.eq_nil_iff_forall_not_mem.2 fun l hl =>
    (hlines l (hsplit ▸ List.mem_append_right ls hl)).1 (hlast l hl)
  rw [hunlines, hsplit, hnil, List.append_nil]

/-- **a pie chart is read back from its text**; only minus zero loses its sign -/
theorem read_render_of_isPlain {o : RenderOptions} (ho : o.unit.all isPadding = true) (h : c.IsPlain) :
    read (render c o) = .ok c.withoutMinusZero := by
  rw [read, terminated_render ho h, document_lines ho h]

/-- a title and texts that look like other lines, labels with quotes and semicolons, minus zero, and a small number -/
def harvest : PieChart where
  title := some "title %% : \"1\""
  showData := true
  slices := [⟨"say \"cheese\"; #quot", ⟨true, 0⟩⟩, ⟨"", ⟨false, 4503818394225995149⟩⟩]
  accessibility := ⟨some "accDescr: pie", some ";\u00a0x"⟩

theorem read_render_of_isPlain_harvest : RenderOptions.default.unit.all isPadding = true ∧ harvest.IsPlain ∧
    read (render harvest .default) = .ok harvest.withoutMinusZero := by
  have hunit : RenderOptions.default.unit.all isPadding = true := by decide
  have hremark : ∀ t ∈ (["title %% : \"1\"", "accDescr: pie", ";\u00a0x"] : List Text), IsRemark t := by
    intro t ht
    simp only [List.mem_cons, List.not_mem_nil, or_false] at ht
    rcases ht with rfl | rfl | rfl <;> exact ⟨by decide, ⟨by decide, by decide, by decide⟩, by decide⟩
  have hslices : ∀ s ∈ harvest.slices, s.IsPlain := by
    intro s hs
    simp only [harvest, List.mem_cons, List.not_mem_nil, or_false] at hs
    rcases hs with rfl | rfl <;> exact ⟨by decide, by decide, by decide, by decide⟩
  have hplain : harvest.IsPlain :=
    ⟨fun t ht => hremark t (by simp_all [harvest]), fun t ht => hremark t (by simp_all [harvest]),
      fun t ht => hremark t (by simp_all [harvest]), hslices⟩
  exact ⟨hunit, hplain, read_render_of_isPlain hunit hplain⟩

end DiagramText.PieChart

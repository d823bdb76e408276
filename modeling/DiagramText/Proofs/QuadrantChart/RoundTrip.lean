/-
Quadrant charts read back. A chart is printed as its header and its lines (`lines`); each is read as what it says
(`read?_lineText`), and taken together they make the chart again (`foldl_lines`). What is read in a text without semicolons can
be written (`isPlain_of_read`). What is written need not be read as it was: names are printed without quotes, and labels always
are, so that another rule may claim them. `IsLegible` says that none does, and then one round settles the chart
(`render_settled_of_isLegible`).
-/
import DiagramText.Proofs.Entries
import DiagramText.Proofs.QuadrantChart.Line
import DiagramText.Proofs.Reading

namespace DiagramText.QuadrantChart

open DiagramText.Text

variable {t u : Text} {line : Line} {p : Point} {c : QuadrantChart} {o : RenderOptions}

/-! ## Charts that can be written -/

/-- an axis that has a label -/
def Axis.written (a : Axis) : Option Axis := if a = {} then none else some a

/-- the labels with their quarters -/
def Quarters.labels (q : Quarters) : List (Quarter × Option Text) :=
  [(.first, q.first), (.second, q.second), (.third, q.third), (.fourth, q.fourth)]

/-- the labels that are not empty, with their quarters -/
def Quarters.written (q : Quarters) : List (Quarter × Text) := q.labels.filterMap fun x => (present x.2).map (x.1, ·)

/-- the labels that are not empty -/
def Quarters.settled (q : Quarters) : Quarters := ⟨present q.first, present q.second, present q.third, present q.fourth⟩

/-- a chart that can be written -/
structure IsPlain (c : QuadrantChart) : Prop where
  title : ∀ t, c.title = some t → IsTight t ∧ '\n' ∉ t ∧ ';' ∉ t
  accessibility : ∀ line ∈ c.accessibility.written, line.IsPlain ∧ ';' ∉ line.value
  xAxis : c.xAxis.IsPlain
  yAxis : c.yAxis.IsPlain
  quarters : ∀ x ∈ c.quarters.written, '\n' ∉ x.2 ∧ ';' ∉ x.2
  points : ∀ p ∈ c.points, p.IsPlain
  classDefs : ∀ x ∈ c.classDefs.toList, IsId x.1 ∧ ∀ s ∈ x.2, IsItem ',' s ∧ '\n' ∉ s ∧ ';' ∉ s

/-- a chart that is read as it is written: coordinates are finite, the names of points are told from all else, and the labels of
quarters neither stand in quotes nor between white space -/
structure IsLegible (c : QuadrantChart) : Prop where
  points : ∀ p ∈ c.points, p.IsFinite ∧ IsUnmistakable p.name
  labels : ∀ x ∈ c.quarters.written, trim x.2 = x.2 ∧ isQuoted x.2 = false

/-- a chart as it is read: empty texts are left out, and minus zero has no sign -/
def settled (c : QuadrantChart) (o : RenderOptions) : QuadrantChart :=
  { c with
    title := present c.title
    quarters := c.quarters.settled
    points := (orderedPoints c o).map Point.withoutMinusZero
    accessibility := c.accessibility.settled }

theorem mem_orderedPoints : p ∈ orderedPoints c o ↔ p ∈ c.points := by
  rw [orderedPoints]
  split
  · exact List.mem_mergeSort
  · exact Iff.rfl

theorem Quarters.mem_written {q : Quarters} {x : Quarter × Text} (h : x ∈ q.written) : x.2 ≠ [] := by
  obtain ⟨_, -, hx⟩ := List.mem_filterMap.1 h
  obtain ⟨t, ht, rfl⟩ := Option.map_eq_some_iff.1 hx
  exact (present_eq_some_iff.1 ht).2

/-! ## Lines -/

/-- a line as it is written -/
def Line.toText : Line → Text
  | .accessibility line => accessibilityText line
  | .title t => "title " ++ t
  | .xAxis a => "x-axis" ++ ' ' :: a.labelsText?.getD []
  | .yAxis a => "y-axis" ++ ' ' :: a.labelsText?.getD []
  | .quarter q label => q.toText label
  | .classDef name styles => classDefText name styles
  | .point p => p.toText

/-- a line that can be written; there may be nothing to write -/
def Line.IsPlain : Line → Prop
  | .accessibility line => line.value ≠ [] → line.IsPlain ∧ ';' ∉ line.value
  | .title t => IsTight t ∧ '\n' ∉ t ∧ ';' ∉ t
  | .xAxis a | .yAxis a => a.IsPlain
  | .quarter _ label => '\n' ∉ label ∧ ';' ∉ label
  | .classDef name styles => IsId name ∧ ∀ s ∈ styles, IsItem ',' s ∧ '\n' ∉ s ∧ ';' ∉ s
  | .point p => p.IsPlain

/-- a line that has something to say, and is read as it is written -/
def Line.IsLegible : Line → Prop
  | .accessibility line => line.value ≠ []
  | .title _ | .classDef _ _ => True
  | .xAxis a | .yAxis a => a ≠ {}
  | .quarter _ label => IsTight label ∧ isQuoted label = false
  | .point p => p.IsFinite ∧ IsUnmistakable p.name

/-- a line as it is read -/
def Line.withoutMinusZero : Line → Line
  | .point p => .point p.withoutMinusZero
  | line => line

theorem Axis.exists_labelsText {a : Axis} (h : a ≠ {}) : ∃ labels, a.labelsText? = some labels := by
  obtain ⟨low, high⟩ := a
  cases low <;> cases high <;> simp_all [Axis.labelsText?]

theorem Line.toText_axis {a : Axis} {labels : Text} (h : a.labelsText? = some labels) :
    (Line.xAxis a).toText = "x-axis" ++ ' ' :: labels ∧ (Line.yAxis a).toText = "y-axis" ++ ' ' :: labels :=
  ⟨congrArg (fun t : Option Text => "x-axis" ++ ' ' :: t.getD []) h, congrArg (fun t : Option Text => "y-axis" ++ ' ' :: t.getD []) h⟩

/-- **a printed line is read as what it says** -/
theorem read?_lineText (h : line.IsPlain) (hl : line.IsLegible) : Line.read? line.toText = some line.withoutMinusZero := by
  cases line with
  | accessibility line => exact read?_accessibilityText (h hl).1
  | title t => exact read?_title h.1
  | xAxis a =>
    obtain ⟨labels, hlabels⟩ := Axis.exists_labelsText hl
    exact (Line.toText_axis hlabels).1 ▸ (read?_axis h hlabels).1
  | yAxis a =>
    obtain ⟨labels, hlabels⟩ := Axis.exists_labelsText hl
    exact (Line.toText_axis hlabels).2 ▸ (read?_axis h hlabels).2
  | quarter q label => exact read?_quarter q hl.1 hl.2
  | classDef name styles => exact read?_classDef h.1 fun s hs => (h.2 s hs).1
  | point p => exact read?_toText h hl.1 hl.2

/-- **a printed line is a line of its own** -/
theorem isContent_lineText (h : line.IsPlain) (hl : line.IsLegible) : SourceLine.IsContent line.toText := by
  have hlast : ∀ {t : Text}, IsTight t → ';' ∉ t → endsWith isLineEnd t = true := fun ht hs =>
    endsWith_isLineEnd ht.last (not_endsWith_of_not_mem hs)
  cases line with
  | accessibility line => exact isContent_accessibilityText (h hl).1 (not_endsWith_of_not_mem (h hl).2)
  | title t =>
    obtain ⟨htight, hlf, hs⟩ := h
    exact .keyword (by decide) (by decide) (endsWith_append _ (hlast htight hs)) hlf
  | xAxis a =>
    obtain ⟨labels, hlabels⟩ := Axis.exists_labelsText hl
    rw [(Line.toText_axis hlabels).1]
    exact isContent_axis (by decide) (by decide) h hlabels
  | yAxis a =>
    obtain ⟨labels, hlabels⟩ := Axis.exists_labelsText hl
    rw [(Line.toText_axis hlabels).2]
    exact isContent_axis (by decide) (by decide) h hlabels
  | quarter q label => exact isContent_quarter q (hlast hl.1 h.2) h.1
  | classDef name styles => exact isContent_classDef h.1 h.2
  | point p => exact isContent_toText h hl.1 hl.2

/-! ## Charts -/

/-- the lines of a chart below its header -/
def lines (c : QuadrantChart) (o : RenderOptions) : List Line :=
  (present c.title).toList.map .title ++ c.accessibility.written.map .accessibility ++ c.xAxis.written.toList.map .xAxis
    ++ c.yAxis.written.toList.map .yAxis ++ c.quarters.written.map (fun x => .quarter x.1 x.2)
    ++ (orderedPoints c o).map .point ++ c.classDefs.toList.map fun x => .classDef x.1 x.2

theorem Axis.toText?_eq_written (margin name : Text) (a : Axis) : (a.toText? name).toList.map (margin ++ ·)
    = a.written.toList.map fun a => margin ++ (name ++ ' ' :: a.labelsText?.getD []) := by
  rw [Axis.toText?_eq, Axis.written]
  obtain ⟨low, high⟩ := a
  cases low <;> cases high <;> simp [Axis.labelsText?]

theorem Quarters.toList_eq_written (margin : Text) (q : Quarters) :
    (q.toList.filterMap fun (number, label) => (present label).map fun (label : Text) => margin ++ "quadrant-" ++ number ++ " " ++ label)
      = q.written.map fun x => margin ++ x.1.toText x.2 := by
  have hlist : q.toList = q.labels.map fun x => (x.1.number, x.2) := rfl
  have htext : ∀ (q : Quarter) (label : Text), margin ++ "quadrant-" ++ q.number ++ " " ++ label = margin ++ q.toText label := by
    intro q label
    change _ = margin ++ ("quadrant-" ++ (q.number ++ ' ' :: label))
    simp
  rw [hlist, Quarters.written, List.filterMap_map, List.map_filterMap]
  refine List.filterMap_congr fun x _ => ?_
  rw [Function.comp_apply, Option.map_map]
  exact Option.map_congr fun label _ => htext x.1 label

theorem map_classDefText (h : c.IsPlain) (margin : Text) :
    c.classDefs.toList.map (fun (name, styles) => trimRight (margin ++ "classDef " ++ name ++ " " ++ join ", " styles))
      = c.classDefs.toList.map fun x => margin ++ (Line.classDef x.1 x.2).toText := by
  refine List.map_congr_left fun x hx => ?_
  obtain ⟨hname, hstyles⟩ := h.classDefs x hx
  exact trimRight_classDef hname fun s hs => (hstyles s hs).1

theorem render_eq (h : c.IsPlain) (o : RenderOptions) :
    render c o = ofLines (("quadrantChart" : Text) :: (c.lines o).map (o.unit ++ ·.toText)) := by
  have htitle : ((present c.title).map (o.unit ++ "title " ++ ·)).toList
      = (present c.title).toList.map fun t => o.unit ++ (Line.title t).toText := by
    cases present c.title with
    | none => rfl
    | some t =>
      rw [Option.map_some, Option.toList_some, Option.toList_some, List.map_singleton, List.append_assoc]
      rfl
  rw [render, htitle, Accessibility.lines_eq, Axis.toText?_eq_written, Axis.toText?_eq_written, Quarters.toList_eq_written,
    map_classDefText h, lines]
  simp only [List.map_append, List.map_map]
  rfl

theorem isPlain_of_mem_lines (h : c.IsPlain) (hl : line ∈ c.lines o) : line.IsPlain := by
  have haxis : ∀ {a a' : Axis}, a.written = some a' → a = a' := fun ha => Option.some.inj (Option.ite_none_left_eq_some.1 ha).2
  simp only [lines, List.mem_append, List.mem_map, Option.mem_toList] at hl
  rcases hl with (((((⟨t, ht, rfl⟩ | ⟨a, ha, rfl⟩) | ⟨a, ha, rfl⟩) | ⟨a, ha, rfl⟩) | ⟨x, hx, rfl⟩) | ⟨p, hp, rfl⟩) | ⟨x, hx, rfl⟩
  · exact h.title t (present_eq_some_iff.1 ht).1
  · exact fun _ => h.accessibility a ha
  · exact haxis ha ▸ h.xAxis
  · exact haxis ha ▸ h.yAxis
  · exact h.quarters x hx
  · exact h.points p (mem_orderedPoints.1 hp)
  · exact h.classDefs x hx

theorem isLegible_of_mem_lines (h : c.IsLegible) (hl : line ∈ c.lines o) : line.IsLegible := by
  have haxis : ∀ {a a' : Axis}, a.written = some a' → a' ≠ {} := by
    intro a a' ha
    obtain ⟨hne, he⟩ := Option.ite_none_left_eq_some.1 ha
    exact Option.some.inj he ▸ hne
  simp only [lines, List.mem_append, List.mem_map, Option.mem_toList] at hl
  rcases hl with (((((⟨t, ht, rfl⟩ | ⟨a, ha, rfl⟩) | ⟨a, ha, rfl⟩) | ⟨a, ha, rfl⟩) | ⟨x, hx, rfl⟩) | ⟨p, hp, rfl⟩) | ⟨x, hx, rfl⟩
  · trivial
  · exact Accessibility.value_ne_nil_of_mem_written ha
  · exact haxis ha
  · exact haxis ha
  · obtain ⟨htrim, hquoted⟩ := h.labels x hx
    exact ⟨(trim_eq_self_iff.1 htrim).resolve_left (Quarters.mem_written hx), hquoted⟩
  · exact h.points p (mem_orderedPoints.1 hp)
  · trivial

/-- what a printed line does to a chart when it is read -/
def reapply (c : QuadrantChart) (line : Line) : QuadrantChart := c.apply line.withoutMinusZero

/-- points are added one after the other -/
theorem foldl_points (ps : List Point) (d : QuadrantChart) :
    (ps.map Line.point).foldl reapply d
      = { d with points := d.points ++ ps.map Point.withoutMinusZero } := by
  induction ps generalizing d with
  | nil => simp
  | cons p ps ih =>
    rw [List.map_cons, List.foldl_cons, ih]
    simp [reapply, apply, Line.withoutMinusZero]

/-- style classes are defined one after the other -/
theorem foldl_classDefs (pairs : List (Text × List Text)) (d : QuadrantChart) :
    (pairs.map fun x => Line.classDef x.1 x.2).foldl reapply d
      = { d with classDefs := d.classDefs.update pairs } := by
  induction pairs generalizing d with
  | nil => rfl
  | cons x pairs ih =>
    rw [List.map_cons, List.foldl_cons, ih]
    rfl

/-- the lines make the chart again -/
theorem foldl_lines (c : QuadrantChart) (o : RenderOptions) :
    (c.lines o).foldl reapply {} = c.settled o := by
  have htitle : ((present c.title).toList.map Line.title).foldl reapply {}
      = ({ title := present c.title } : QuadrantChart) := by
    cases present c.title <;> rfl
  have haccessibility : (c.accessibility.written.map Line.accessibility).foldl reapply
      { title := present c.title } = { title := present c.title, accessibility := c.accessibility.settled } := by
    rw [List.foldl_map]
    refine Accessibility.foldl_written
      (fun a => ({ title := present c.title, accessibility := a } : QuadrantChart)) ?_ _
    exact fun _ _ => rfl
  have hxAxis : ∀ d : QuadrantChart, d.xAxis = {} → (c.xAxis.written.toList.map Line.xAxis).foldl
      reapply d = { d with xAxis := c.xAxis } := by
    rintro d hd
    rw [Axis.written]
    split
    · rename_i hnone
      rw [hnone, ← hd]
      rfl
    · rfl
  have hyAxis : ∀ d : QuadrantChart, d.yAxis = {} → (c.yAxis.written.toList.map Line.yAxis).foldl
      reapply d = { d with yAxis := c.yAxis } := by
    rintro d hd
    rw [Axis.written]
    split
    · rename_i hnone
      rw [hnone, ← hd]
      rfl
    · rfl
  have hquarters : ∀ d : QuadrantChart, d.quarters = {} → (c.quarters.written.map fun x => Line.quarter x.1 x.2).foldl
      reapply d = { d with quarters := c.quarters.settled } := by
    rintro ⟨_, _, _, _, _, _, _⟩ rfl
    simp only [Quarters.settled, Quarters.written, Quarters.labels, List.filterMap_cons, List.filterMap_nil]
    cases present c.quarters.first <;> cases present c.quarters.second <;> cases present c.quarters.third <;>
      cases present c.quarters.fourth <;> rfl
  rw [lines, List.foldl_append, List.foldl_append, List.foldl_append, List.foldl_append, List.foldl_append, List.foldl_append,
    htitle, haccessibility, hxAxis _ rfl, hyAxis _ rfl, hquarters _ rfl, foldl_points, foldl_classDefs, settled]
  simp only [List.nil_append]
  congr 1
  exact Entries.update_toList c.classDefs

/-- **a legible chart is read back** from its text -/
theorem read_render_of_isLegible (ho : '\n' ∉ o.unit) (h : c.IsPlain) (hc : c.IsLegible) :
    read (render c o) = .ok (c.settled o) := by
  have hmargin : IsMargin o.unit := o.levels_one ▸ isMargin_levels ho 1
  have hline : ∀ line ∈ c.lines o, SourceLine.IsLine line.toText ∧ (true = true → endsWith (· ≠ ';') line.toText = true) ∧
      ∀ (d : QuadrantChart) (l : SourceLine), l.text = line.toText → readLine d l = .ok (d.reapply line) := by
    intro line hline
    have hplain := isPlain_of_mem_lines h hline
    have hlegible := isLegible_of_mem_lines hc hline
    have hcontent := isContent_lineText hplain hlegible
    refine ⟨hcontent.isLine, fun _ => hcontent.semicolon, fun d l hl => ?_⟩
    rw [readLine, hl, read?_lineText hplain hlegible]
    rfl
  have hreads := Reads.foldl hmargin hline {}
  rw [foldl_lines] at hreads
  have hcontent : SourceLine.content? true "quadrantChart" = some ("quadrantChart" : Text) := by decide
  have hheader : Dialect.quadrant.header? "quadrantChart" = some [] := by decide +kernel
  obtain ⟨head, body, hsplit, hbody⟩ := hreads.run_ofLines (by decide) hcontent hheader
  rw [read, render_eq h, hsplit]
  exact hbody

/-! ## What is settled is written the same -/

theorem Point.toText_withoutMinusZero (p : Point) : p.withoutMinusZero.toText = p.toText := by
  rw [Point.toText, Point.toText, Point.withoutMinusZero]
  simp only [Binary64.format_withoutMinusZero]

/-- points in their order are in their order -/
theorem map_toText_orderedPoints_settled (c : QuadrantChart) (o : RenderOptions) :
    (orderedPoints (c.settled o) o).map Point.toText = (orderedPoints c o).map Point.toText := by
  have hpoints : (c.settled o).points.map Point.toText = (orderedPoints c o).map Point.toText := by
    rw [settled, List.map_map]
    exact List.map_congr_left fun p _ => p.toText_withoutMinusZero
  rw [← hpoints, orderedPoints]
  split
  · rename_i hsort
    rw [List.mergeSort_of_pairwise]
    rw [settled, orderedPoints, if_pos hsort, List.pairwise_map]
    exact pairwise_mergeSort Point.name c.points
  · rfl

theorem Quarters.written_settled (q : Quarters) : q.settled.written = q.written := by
  have hlabels : q.settled.labels = q.labels.map fun x => (x.1, present x.2) := rfl
  rw [Quarters.written, Quarters.written, hlabels, List.filterMap_map]
  exact List.filterMap_congr fun x _ => by rw [Function.comp_apply, present_present]

/-- **the chart that is read is written as the one it was read from** -/
theorem render_settled (c : QuadrantChart) (o : RenderOptions) : render (c.settled o) o = render c o := by
  have hpoints : (orderedPoints (c.settled o) o).map (o.unit ++ ·.toText) = (orderedPoints c o).map (o.unit ++ ·.toText) := by
    have htexts := congrArg (List.map (o.unit ++ ·)) (map_toText_orderedPoints_settled c o)
    rwa [List.map_map, List.map_map] at htexts
  have hquarters := c.quarters.written_settled
  rw [render, render, hpoints, Quarters.toList_eq_written, Quarters.toList_eq_written, settled]
  simp only [hquarters, present_present, Accessibility.lines_settled]

/-! ## What was read -/

/-- a label that was read is a part of what stands there -/
theorem isInfix_of_label? (hs : ';' ∉ t) (h : label? t = some u) : u ≠ [] ∧ u <:+: t := by
  obtain ⟨hu, hne⟩ := present_eq_some_iff.1 h
  obtain rfl := Option.some.inj hu
  have hentity : ¬ quoteEntity <:+: trim t := fun hi => hs ((hi.trans (trim_isInfix t)).subset (by decide))
  exact ⟨hne, (unquote_isInfix hentity).trans (trim_isInfix t)⟩

theorem isPlain_ofText (hlf : '\n' ∉ t) (hs : ';' ∉ t) : (Axis.ofText t).IsPlain := by
  rw [Axis.ofText]
  cases hcut : cut? "-->" t with
  | none =>
    have harrow := cut?_eq_none_iff_not_infix.1 hcut
    refine ⟨fun u hu => ?_, by simp⟩
    obtain ⟨hne, hwithin⟩ := isInfix_of_label? hs hu
    exact ⟨hne, fun hm => hlf (hwithin.subset hm), fun hm => hs (hwithin.subset hm), fun hi => harrow (hi.trans hwithin)⟩
  | some ends =>
    obtain ⟨low, high⟩ := ends
    obtain ⟨rfl, harrow⟩ := exists_of_cut? (by decide) hcut
    simp only [List.mem_append, not_or] at hlf hs
    refine ⟨fun u hu => ?_, fun u hu => ?_⟩
    · obtain ⟨hne, hwithin⟩ := isInfix_of_label? hs.1 hu
      exact ⟨hne, fun hm => hlf.1 (hwithin.subset hm), fun hm => hs.1 (hwithin.subset hm), fun hi => harrow (hi.trans hwithin)⟩
    · obtain ⟨hne, hwithin⟩ := isInfix_of_label? hs.2.2 hu
      exact ⟨hne, fun hm => hlf.2.2 (hwithin.subset hm), fun hm => hs.2.2 (hwithin.subset hm)⟩

/-- styles that were read can be written -/
theorem isStyle_of_mem_items (hlf : '\n' ∉ t) (hs : ';' ∉ t) : ∀ s ∈ items ',' t, IsItem ',' s ∧ '\n' ∉ s ∧ ';' ∉ s := by
  intro s hmem
  obtain ⟨hitem, hsub⟩ := isItem_of_mem_items hmem
  exact ⟨hitem, fun hm => hlf (hsub hm), fun hm => hs (hsub hm)⟩

theorem isPlain_of_quarter? (hlf : '\n' ∉ t) (hs : ';' ∉ t) (h : quarter? t = some line) : line.IsPlain := by
  obtain ⟨⟨digit, q⟩, -, hline⟩ := List.exists_of_findSome?_eq_some h
  obtain ⟨rest, hrest, hline⟩ := Option.bind_eq_some_iff.1 hline
  obtain ⟨u, hu, rfl⟩ := Option.map_eq_some_iff.1 hline
  have hsub : u ⊆ t := fun c hc => Scan.dropKeyword?_subset hrest (Scan.keywordText?_subset hu hc)
  have hlabel : unquote u <:+: u := unquote_isInfix fun hi => hs (hsub (hi.subset (by decide)))
  exact ⟨fun hm => hlf (hsub (hlabel.subset hm)), fun hm => hs (hsub (hlabel.subset hm))⟩

theorem isPlain_of_classDef? (hlf : '\n' ∉ t) (hs : ';' ∉ t) (h : classDef? t = some line) : line.IsPlain := by
  obtain ⟨⟨name, rest⟩, hname, hline⟩ := Option.bind_eq_some_iff.1 h
  obtain ⟨styles, hstyles, rfl⟩ := Option.map_eq_some_iff.1 hline
  obtain ⟨u, hu, hrun⟩ := Option.bind_eq_some_iff.1 hname
  obtain ⟨hne, hall, hrest⟩ := Scan.run?_eq_some hrun
  have hsub : styles ⊆ t := fun c hc => Scan.word?_subset hu (hrest (Scan.optionalRest?_subset hstyles hc))
  exact ⟨⟨hne, hall⟩, isStyle_of_mem_items (fun hm => hlf (hsub hm)) fun hm => hs (hsub hm)⟩

/-- **a point that was read can be written**: no place stands in its name, or the name would have ended there -/
theorem isPlain_of_point? (hlf : '\n' ∉ t) (hs : ';' ∉ t) (h : point? t = some p) : p.IsPlain := by
  obtain ⟨run, rest, rfl, hrun, hfirst⟩ := Scan.exists_of_shortest_first h
  obtain ⟨-, htail⟩ := Option.ite_none_left_eq_some.1 hrun
  obtain ⟨b, m, n, v, hclass, -, -, -, rfl, hname, hstyles⟩ := exists_of_pointTail? htail
  simp only [List.mem_append, not_or] at hlf hs
  have hwithin : p.name <:+: run := by
    have hentity : ¬ quoteEntity <:+: trim run := fun hi => hs.1 ((hi.trans (trim_isInfix run)).subset (by decide))
    exact hname ▸ (unquote_isInfix hentity).trans (trim_isInfix run)
  have hplace : ∀ a d, p.name = a ++ d → a ≠ [] → opensPlace d = false := by
    intro a d hsplit ha
    by_cases hd : d = []
    · rw [hd]
      decide
    · obtain ⟨before, after, hwhole⟩ := hwithin
      have hnone := hfirst (before ++ a) (d ++ after) (by rw [← hwhole, hsplit]; simp) (by simp [hd])
      rw [if_neg (by simp [ha]), pointTail?_eq_none_iff, List.append_assoc] at hnone
      rw [← Bool.not_eq_true]
      exact fun hopens => Bool.false_ne_true (hnone.symm.trans (opensPlace_append hopens _))
  have hv : v ⊆ tailText p.className (placeText b m n v) := by
    rw [tailText_eq_append]
    exact List.subset_append_right _ v
  refine ⟨⟨fun hm => hlf.1 (hwithin.subset hm), fun hm => hs.1 (hwithin.subset hm), hplace⟩, hclass, ?_⟩
  exact hstyles ▸ isStyle_of_mem_items (fun hm => hlf.2 (hv hm)) fun hm => hs.2 (hv hm)

/-- **what is read can be written** -/
theorem isPlain_of_read? (hlf : '\n' ∉ t) (hs : ';' ∉ t) (h : Line.read? t = some line) : line.IsPlain := by
  have htext : ∀ {w u : Text}, Scan.keywordText? w t = some u → '\n' ∉ u ∧ ';' ∉ u := fun hu =>
    ⟨fun hm => hlf (Scan.keywordText?_subset hu hm), fun hm => hs (Scan.keywordText?_subset hu hm)⟩
  simp only [Line.read?, Scan.orElse_eq_some_iff, Option.map_eq_some_iff] at h
  rcases h with ⟨a, ha, rfl⟩ | ⟨-, ⟨u, hu, rfl⟩ | ⟨-, ⟨u, hu, rfl⟩ | ⟨-, ⟨u, hu, rfl⟩ | ⟨-, h | ⟨-, h | ⟨-, p, hp, rfl⟩⟩⟩⟩⟩⟩
  · exact fun hne => ⟨Accessibility.isPlain_of_line? hlf ha hne, fun hm => hs ((Accessibility.value_of_line? ha).2 hm)⟩
  · exact ⟨isTight_of_keywordText? hu, htext hu⟩
  · exact isPlain_ofText (htext hu).1 (htext hu).2
  · exact isPlain_ofText (htext hu).1 (htext hu).2
  · exact isPlain_of_quarter? hlf hs h
  · exact isPlain_of_classDef? hlf hs h
  · exact isPlain_of_point? hlf hs hp

/-- a label is put in its place -/
theorem Quarters.mem_written_put {q : Quarters} {x : Quarter × Text} {label : Text} {q' : Quarter}
    (h : x ∈ (q.put label q').written) : x = (q', label) ∨ x ∈ q.written := by
  have hpresent : ∀ {t u : Text}, present (some t) = some u → u = t := fun hu => (Option.some.inj (present_eq_some_iff.1 hu).1).symm
  simp only [Quarters.written, Quarters.labels, List.mem_filterMap, List.mem_cons, List.not_mem_nil, or_false,
    exists_eq_or_imp, exists_eq_left, Option.map_eq_some_iff] at h ⊢
  cases q' <;> simp only [Quarters.put] at h
  all_goals
    rcases h with ⟨t, ht, rfl⟩ | ⟨t, ht, rfl⟩ | ⟨t, ht, rfl⟩ | ⟨t, ht, rfl⟩
    all_goals first
      | exact Or.inl (by rw [hpresent ht])
      | exact Or.inr (by simp [ht])

/-- **a line that can be written leaves a chart that can be** -/
theorem isPlain_apply (h : c.IsPlain) (hl : line.IsPlain) : (c.apply line).IsPlain := by
  cases line with
  | accessibility a =>
    refine { h with accessibility := fun line hline => ?_ }
    rcases Accessibility.mem_written_put hline with ⟨rfl, hne⟩ | hline
    · exact hl hne
    · exact h.accessibility line hline
  | title t => exact { h with title := fun u hu => Option.some.inj hu ▸ hl }
  | xAxis a => exact { h with xAxis := hl }
  | yAxis a => exact { h with yAxis := hl }
  | quarter q label =>
    refine { h with quarters := fun x hx => ?_ }
    rcases Quarters.mem_written_put hx with rfl | hx
    · exact hl
    · exact h.quarters x hx
  | classDef name styles =>
    refine { h with classDefs := fun x hx => ?_ }
    rcases Entries.mem_put hx with rfl | hx
    · exact hl
    · exact h.classDefs x hx
  | point p =>
    refine { h with points := fun p' hp' => ?_ }
    rcases List.mem_append.1 hp' with hp' | hp'
    · exact h.points p' hp'
    · exact List.mem_singleton.1 hp' ▸ hl

theorem isPlain_empty : IsPlain {} where
  title := by simp
  accessibility := by simp [Accessibility.written, present]
  xAxis := ⟨by simp, by simp⟩
  yAxis := ⟨by simp, by simp⟩
  quarters := by simp [Quarters.written, Quarters.labels, present]
  points := by simp
  classDefs := by simp [Entries.empty]

/-- a chart that is read in a text without semicolons can be written -/
theorem isPlain_of_read {text : Text} (hs : ';' ∉ text) (h : read text = .ok c) : c.IsPlain := by
  refine invariant_of_foldlM (P := IsPlain) ?_ isPlain_empty h
  intro l hl d d' hd hread
  have hmem := body_subset .quadrant _ hl
  have hsub := (isContent_of_mem_sourceLines hs hmem).2
  rw [readLine] at hread
  cases hline : Line.read? l.text with
  | none =>
    rw [hline] at hread
    exact absurd hread (by simp)
  | some line =>
    rw [hline] at hread
    obtain rfl := Except.ok.inj hread
    exact isPlain_apply hd (isPlain_of_read? (isLine_of_mem_sourceLines hmem).lineFeed (fun hm => hs (hsub hm)) hline)

/-- **one round settles a legible chart**: the text of a chart that was read in a text without semicolons is read as the same
chart, empty texts left out and minus zero without its sign, and is the text of what is then read -/
theorem render_settled_of_isLegible {text : Text} (hs : ';' ∉ text) (h : read text = .ok c) (hc : c.IsLegible)
    (ho : '\n' ∉ o.unit) : read (render c o) = .ok (c.settled o) ∧ render (c.settled o) o = render c o :=
  ⟨read_render_of_isLegible ho (isPlain_of_read hs h) hc, render_settled c o⟩

/-- a point whose quoted name is a comment without its quotes -/
def remarked : Text := "quadrantChart\n\"%%x\": [0.5, 0.5]"

/-- the condition is needed: the name is printed without quotes, and is lost when that is read -/
theorem render_read_remarked : (read remarked).map (render · .default) = .ok "quadrantChart\n    %%x: [0.5, 0.5]" ∧
    read "quadrantChart\n    %%x: [0.5, 0.5]" = .ok {} := by
  refine ⟨?_, ?_⟩ <;> decide +kernel

end DiagramText.QuadrantChart

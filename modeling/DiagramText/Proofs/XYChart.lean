/-
Charts over two axes read back. What follows the name of an axis is a title in quotes and a tail, a list of categories or
bounds (`titled`); without a title the tail is told from one by its first character or its first word (`axisTitle_titled`). Two
ways to write a quote stand on one line: as an entity in titles, doubled in categories. `read_render_of_isPlain_chart` puts the
lines together.
-/
import DiagramText.Proofs.Accessibility
import DiagramText.Proofs.Number.Format
import DiagramText.Proofs.Number.Numeral
import DiagramText.Proofs.Reading
import DiagramText.Proofs.Record
import DiagramText.XYChart

namespace DiagramText.XYChart

open DiagramText.Text
open Sequence (IsLineText)

/-! ## Charts that can be written -/

/-- an axis of numbers that can be written: both bounds are there, or none -/
structure Range.IsPlain (r : Range) : Prop where
  title : ∀ t, r.title = some t → IsQuotable t
  bounds : r.low = none ∧ r.high = none ∨
    ∃ low high, r.low = some low ∧ r.high = some high ∧ low.isFinite = true ∧ high.isFinite = true

/-- an axis that can be written; categories are any texts on one line -/
def Axis.IsPlain : Axis → Prop
  | .band title categories => (∀ t, title = some t → IsQuotable t) ∧ ∀ t ∈ categories, '\n' ∉ t
  | .range r => r.IsPlain

/-- a series that can be written -/
structure Series.IsPlain (s : Series) : Prop where
  kind : s.kind = "line" ∨ s.kind = "bar"
  label : ∀ t, s.label = some t → IsQuotable t
  values : ∀ x ∈ s.values, x.isFinite = true

/-- a chart that can be written -/
structure IsPlain (c : XYChart) : Prop where
  title : ∀ t, c.title = some t → t ≠ [] ∧ IsQuotable t
  accessibilityTitle : ∀ t, c.accessibility.title = some t → t ≠ [] ∧ IsLineText t
  accessibilityDescription : ∀ t, c.accessibility.description = some t → t ≠ [] ∧ IsLineText t
  xAxis : ∀ a, c.xAxis = some a → a.IsPlain
  yAxis : ∀ r, c.yAxis = some r → r.IsPlain
  series : ∀ s ∈ c.series, s.IsPlain

/-- bounds with plus zero for minus zero -/
def Range.withoutMinusZero (r : Range) : Range :=
  { r with low := r.low.map Binary64.withoutMinusZero, high := r.high.map Binary64.withoutMinusZero }

/-- an axis with plus zero for minus zero -/
def Axis.withoutMinusZero : Axis → Axis
  | .band title categories => .band title categories
  | .range r => .range r.withoutMinusZero

/-- a series with plus zero for minus zero -/
def Series.withoutMinusZero (s : Series) : Series := { s with values := s.values.map Binary64.withoutMinusZero }

/-- a chart with plus zero for minus zero -/
def withoutMinusZero (c : XYChart) : XYChart :=
  { c with
    xAxis := c.xAxis.map Axis.withoutMinusZero
    yAxis := c.yAxis.map Range.withoutMinusZero
    series := c.series.map Series.withoutMinusZero }

/-! ## What follows the name of an axis -/

variable {t u : Text} {label : Option Text} {l : SourceLine} {r : Range} {s : Series} {c : XYChart}

/-- a text that stands after a title, or without one -/
structure IsTail (t : Text) : Prop where
  first : t = [] ∨ Scan.startsWith isMark t = true
  last : t = [] ∨ endsWith isLineEnd t = true
  lineFeed : '\n' ∉ t
  untitled : ∀ l, axisTitle l t = .ok (none, t)

/-- a title in quotes, if there is one, and a tail -/
def titled (title : Option Text) (tail : Text) : Text :=
  match title with
  | none => tail
  | some t => quote t ++ afterKeyword tail

theorem IsTail.isTight (h : IsTail t) (hne : t ≠ []) : IsTight t :=
  ⟨h.first.resolve_left hne, endsWith_mono (fun _ hc => (Bool.and_eq_true_iff.1 hc).1) (h.last.resolve_left hne)⟩

theorem trim_afterKeyword (h : IsTail t) : trim (afterKeyword t) = t := by
  unfold afterKeyword
  split
  · rename_i hnil
    rw [hnil]
    rfl
  · rename_i hne
    exact trim_space (h.isTight hne)

/-- **a title is told from the tail** -/
theorem axisTitle_titled (ht : ∀ u, label = some u → IsQuotable u) (h : IsTail t) (l : SourceLine) :
    axisTitle l (titled label t) = .ok (label, t) := by
  cases label with
  | none => exact h.untitled l
  | some u =>
    have hquoted := quoted?_quote u (afterKeyword t)
    rw [titled]
    rw [quote_eq, List.cons_append] at hquoted ⊢
    simp only [axisTitle, hquoted, trim_afterKeyword h]
    rw [← quote_eq, unquote_quote_eq_self (ht u rfl).2]

theorem titleText_append (label : Option Text) (tail : Text) :
    titleText label ++ afterKeyword tail = afterKeyword (titled label tail) := by
  cases label with
  | none => rfl
  | some u =>
    rw [titled, afterKeyword_of_ne_nil (List.append_ne_nil_of_left_ne_nil (isTight_quote u).ne_nil _)]
    rfl

/-- what is left after the name of an axis -/
theorem axis?_append (name : Text) (h : t = [] ∨ IsTight t) : axis? name (name ++ afterKeyword t) = some t := by
  rw [axis?, dropKeyword?_append, Option.bind_some]
  by_cases hne : t = []
  · rw [hne]
    rfl
  · have htight := h.resolve_left hne
    rw [afterKeyword_of_ne_nil hne, Scan.optionalRest?, if_neg (List.cons_ne_nil ' ' t), Scan.blanks?_space htight.first,
      Option.map_some, trim_of_isTight htight]

theorem isTight_titled (h : IsTail t) : titled label t = [] ∨ IsTight (titled label t) := by
  cases label with
  | none =>
    by_cases hne : t = []
    · exact Or.inl hne
    · exact Or.inr (h.isTight hne)
  | some u =>
    refine Or.inr ?_
    by_cases hne : t = []
    · rw [titled, hne, afterKeyword_nil, List.append_nil]
      exact isTight_quote u
    · rw [titled, afterKeyword_of_ne_nil hne]
      exact (isTight_quote u).between [' '] (h.isTight hne)

/-- **an axis is a line of its own** -/
theorem isContent_axis {name : Text} (hname : Scan.startsWith isLineStart name = true) (hend : endsWith isLineEnd name = true)
    (hlf : '\n' ∉ name) (ht : ∀ u, label = some u → IsQuotable u) (h : IsTail t) :
    SourceLine.IsContent (name ++ afterKeyword (titled label t)) := by
  have hlast : ∀ {w u : Text}, endsWith isLineEnd w = true → (u = [] ∨ endsWith isLineEnd u = true) →
      endsWith isLineEnd (w ++ afterKeyword u) = true := by
    intro w u hw hu
    by_cases hne : u = []
    · rwa [hne, afterKeyword_nil, List.append_nil]
    · rw [afterKeyword_of_ne_nil hne]
      exact endsWith_append w (endsWith_cons ' ' (hu.resolve_left hne))
  have hlineFeed : ∀ {u : Text}, '\n' ∉ u → '\n' ∉ afterKeyword u := by
    intro u hu
    unfold afterKeyword
    split
    · exact List.not_mem_nil
    · simpa using hu
  cases label with
  | none => exact .keyword hname hlf (hlast hend h.last) (hlineFeed h.lineFeed)
  | some u =>
    refine .keyword hname hlf (hlast hend (Or.inr (hlast (endsWith_quote u) h.last))) (hlineFeed ?_)
    exact fun hm => (List.mem_append.1 hm).elim (ht u rfl).lineFeed (hlineFeed h.lineFeed)

/-! ## Bounds -/

/-- the bounds of an axis, where both are there -/
def Range.boundsText (r : Range) : Text :=
  match r.low, r.high with
  | some low, some high => low.format ++ " --> " ++ high.format
  | _, _ => []

theorem Range.toText_eq (name : Text) (r : Range) : r.toText name = name ++ afterKeyword (titled r.title r.boundsText) := by
  rw [← titleText_append, Range.toText, List.append_assoc, Range.boundsText]
  cases r.low <;> cases r.high <;> try rfl
  rw [afterKeyword_of_ne_nil (by simp)]
  rfl

/-- bounds start like a number -/
theorem Range.IsPlain.boundsText_ne (h : r.IsPlain) {d : Char} (hd : isNumeralChar d = false) (w : Text) :
    r.boundsText ≠ d :: w := by
  obtain ⟨title, low, high⟩ := r
  rcases h.bounds with ⟨rfl, rfl⟩ | ⟨low, high, rfl, rfl, hlow, -⟩
  · exact fun hw => absurd hw (by simp [Range.boundsText])
  · obtain ⟨e, v, he, -⟩ := exists_cons_of_startsWith (Binary64.isTight_format hlow).first
    change low.format ++ " --> " ++ high.format ≠ d :: w
    rw [he, List.cons_append, List.cons_append]
    exact fun hw => Binary64.not_mem_format hlow hd (he ▸ (List.cons.inj hw).1 ▸ List.mem_cons_self)

theorem Range.IsPlain.isTail (h : r.IsPlain) : IsTail r.boundsText := by
  obtain ⟨title, low, high⟩ := r
  rcases h.bounds with ⟨rfl, rfl⟩ | ⟨low, high, rfl, rfl, hlow, hhigh⟩
  · exact ⟨Or.inl rfl, Or.inl rfl, List.not_mem_nil, fun l => rfl⟩
  · have hfirst := (Binary64.isTight_format hlow).first
    have hword : span (· ≠ ' ') (low.format ++ " --> " ++ high.format) = (low.format, " --> " ++ high.format) := by
      rw [List.append_assoc]
      exact span_append_cons (Binary64.not_mem_format hlow (by decide))
    obtain ⟨d, hd, -⟩ := Binary64.exists_ofText?_format hlow
    refine ⟨Or.inr ?_, Or.inr ?_, ?_, fun l => ?_⟩
    · exact startsWith_append _ (startsWith_append _ hfirst)
    · exact endsWith_append _ (Binary64.endsWith_isLineEnd_format hhigh)
    · exact fun hm => (List.mem_append.1 hm).elim (fun hm => (List.mem_append.1 hm).elim
        (Binary64.not_mem_format hlow (by decide)) (by decide)) (Binary64.not_mem_format hhigh (by decide))
    · change axisTitle l (low.format ++ " --> " ++ high.format) = .ok (none, low.format ++ " --> " ++ high.format)
      rw [axisTitle, hword]
      · simp only [hd, Option.isSome_some, if_true]
      · exact fun hnil => absurd hnil (by simp)
      · exact h.boundsText_ne (by decide)
      · exact h.boundsText_ne (by decide)

/-- bounds are read back -/
theorem range_boundsText (h : r.IsPlain) (l : SourceLine) : range l r.title r.boundsText = .ok r.withoutMinusZero := by
  obtain ⟨title, low, high⟩ := r
  rcases h.bounds with ⟨rfl, rfl⟩ | ⟨low, high, rfl, rfl, hlow, hhigh⟩
  · rfl
  · obtain ⟨d, hd, hdvalue⟩ := Binary64.exists_ofText?_format hlow
    obtain ⟨e, he, hevalue⟩ := Binary64.exists_ofText?_format hhigh
    have hread : Decimal.read? (low.format ++ (" --> " ++ high.format)) = some (d, " --> " ++ high.format) :=
      Decimal.read?_append hd rfl
    have harrow : dropPrefix? "-->" (Scan.blanks (" --> " ++ high.format)) = some (' ' :: high.format) := rfl
    have hhighText : Decimal.ofText? (Scan.blanks (' ' :: high.format)) = some e := by
      rw [Scan.blanks_space, Scan.blanks_of_startsWith (Binary64.isTight_format hhigh).first, he]
    have hbounds : (⟨title, some low, some high⟩ : Range).boundsText = low.format ++ (" --> " ++ high.format) :=
      List.append_assoc _ _ _
    rw [range, hbounds, if_neg (by simp), hread, Option.bind_some]
    simp only [harrow, Option.bind_some, hhighText, Option.map_some, hdvalue, hevalue]
    rfl

/-! ## Categories -/

/-- categories in quotes and brackets -/
def categoriesText (categories : List Text) : Text := '[' :: (join ", " (categories.map Record.inQuotes) ++ [']'])

theorem categoryText_eq (t : Text) : categoryText t = Record.inQuotes t := by
  rw [categoryText, show ("\"" : Text) = ['"'] from rfl, replace_char]
  rfl

theorem isTail_categoriesText {categories : List Text} (h : ∀ t ∈ categories, '\n' ∉ t) :
    IsTail (categoriesText categories) := by
  refine ⟨Or.inr rfl, Or.inr ?_, ?_, fun l => rfl⟩
  · exact endsWith_cons '[' (endsWith_append _ (by decide : endsWith isLineEnd [']'] = true))
  · simp only [categoriesText, List.mem_cons, List.mem_append, List.not_mem_nil, or_false, not_or]
    refine ⟨by decide, fun hm => ?_, by decide⟩
    rcases mem_of_mem_join hm with hm | ⟨p, hp, hm⟩
    · exact absurd hm (by decide)
    · obtain ⟨t, ht, rfl⟩ := List.mem_map.1 hp
      exact (Record.mem_of_mem_inQuotes hm).elim (by decide) (h t ht)

/-- categories are read back, whatever they hold -/
theorem categories_append (categories : List Text) (l : SourceLine) :
    XYChart.categories l (join ", " (categories.map Record.inQuotes) ++ [']']) = .ok categories := by
  rw [XYChart.categories, if_pos (by simp), List.dropLast_concat]
  cases categories with
  | nil => rfl
  | cons t ts =>
    have hne : trim (join ", " ((t :: ts).map Record.inQuotes)) ≠ [] := by
      have hfirst : Scan.startsWith isMark (join ", " ((t :: ts).map Record.inQuotes)) = true := by cases ts <;> rfl
      rw [trim, trimLeft_of_startsWith hfirst]
      exact trimRight_ne_nil hfirst
    have hfields : ∀ size, Record.fields "," size (join ", " ((t :: ts).map Record.inQuotes)) = .ok (t :: ts) :=
      Record.fields_join_inQuotes (c := ',') (a := [' ']) (b := []) ⟨by decide, by decide⟩ rfl rfl (List.cons_ne_nil t ts)
    rw [if_neg hne, Record.split, hfields]

/-! ## Axes -/

/-- the title of an axis -/
def Axis.title : Axis → Option Text
  | .band title _ => title
  | .range r => r.title

/-- what stands after the title of an axis -/
def Axis.tail : Axis → Text
  | .band _ categories => categoriesText categories
  | .range r => r.boundsText

theorem Axis.toText_eq (name : Text) (a : Axis) : a.toText name = name ++ afterKeyword (titled a.title a.tail) := by
  cases a with
  | band title categories =>
    have hcategories : categories.map categoryText = categories.map Record.inQuotes :=
      List.map_congr_left fun t _ => categoryText_eq t
    have hne : categoriesText categories ≠ [] := List.cons_ne_nil '[' _
    rw [Axis.toText, hcategories, ← titleText_append, Axis.title, Axis.tail, afterKeyword_of_ne_nil hne]
    simp only [List.append_assoc]
    rfl
  | range r => exact r.toText_eq name

theorem Axis.IsPlain.isTail {a : Axis} (h : a.IsPlain) : (∀ t, a.title = some t → IsQuotable t) ∧ IsTail a.tail := by
  cases a with
  | band title categories => exact ⟨h.1, isTail_categoriesText h.2⟩
  | range r => exact ⟨Range.IsPlain.title h, Range.IsPlain.isTail h⟩

/-- **an axis that may have categories is read back** -/
theorem readXAxis_titled {a : Axis} (h : a.IsPlain) (l : SourceLine) :
    readXAxis l (titled a.title a.tail) = .ok a.withoutMinusZero := by
  obtain ⟨htitle, htail⟩ := h.isTail
  rw [readXAxis, axisTitle_titled htitle htail, Except.bind]
  cases a with
  | band title categories =>
    simp only [Axis.tail, categoriesText, categories_append]
    rfl
  | range r =>
    have hne : ∀ w, r.boundsText ≠ '[' :: w := Range.IsPlain.boundsText_ne h (by decide)
    have hrange := range_boundsText h l
    simp only [Axis.tail, Axis.title, hrange]
    rfl

/-- **an axis that has none is read back** -/
theorem readYAxis_titled (h : r.IsPlain) (l : SourceLine) : readYAxis l (titled r.title r.boundsText) = .ok r.withoutMinusZero := by
  rw [readYAxis, axisTitle_titled h.title h.isTail, Except.bind]
  simp only
  split
  · rename_i w hw
    exact absurd hw (h.boundsText_ne (by decide) w)
  · exact range_boundsText h l

/-! ## Series -/

/-- the values of a series on a line -/
def Series.valuesText (s : Series) : Text := join ", " (s.values.map Binary64.format)

theorem mapM_number? {xs : List Binary64} (h : ∀ x ∈ xs, x.isFinite = true) (l : SourceLine) (offset : Int) {b : Text}
    (hb : b.all isBlank = true) :
    (xs.map fun x => b ++ x.format).mapM (l.number? offset) = .ok (xs.map Binary64.withoutMinusZero) := by
  induction xs with
  | nil => rfl
  | cons x xs ih =>
    rw [List.map_cons, List.mapM_cons, l.number?_format offset (h x List.mem_cons_self) hb,
      ih fun y hy => h y (List.mem_cons_of_mem x hy)]
    rfl

/-- values are split at their commas -/
theorem splitOn_valuesText (h : s.IsPlain) {x : Binary64} {xs : List Binary64} (hs : s.values = x :: xs) :
    trim s.valuesText ≠ [] ∧ splitOn ',' s.valuesText = x.format :: xs.map fun y => ' ' :: y.format := by
  have hfinite : ∀ y ∈ x :: xs, y.isFinite = true := fun y hy => h.values y (hs ▸ hy)
  have hcomma : ∀ y ∈ x :: xs, ',' ∉ y.format := fun y hy => Binary64.not_mem_format (hfinite y hy) (by decide)
  have hx := (Binary64.isTight_format (hfinite x List.mem_cons_self)).first
  have hsep : (", " : Text) = [',', ' '] := rfl
  rw [Series.valuesText, hs, List.map_cons, hsep]
  constructor
  · have hfirst : Scan.startsWith isMark (join [',', ' '] (x.format :: xs.map Binary64.format)) = true := by
      cases xs with
      | nil => rwa [List.map_nil, join_singleton]
      | cons y ys =>
        rw [List.map_cons, join_cons_cons, List.append_assoc]
        exact startsWith_append _ hx
    rw [trim, trimLeft_of_startsWith hfirst]
    exact trimRight_ne_nil hfirst
  · rw [splitOn_join_margin (by decide) (hcomma x List.mem_cons_self), List.map_map]
    · rfl
    · intro p hp
      obtain ⟨y, hy, rfl⟩ := List.mem_map.1 hp
      exact hcomma y (List.mem_cons_of_mem x hy)

/-- **values are read back** -/
theorem read_valuesText (h : s.IsPlain) (l : SourceLine) (fromValues : Text) :
    SeriesText.read l ⟨s.kind, s.label, s.valuesText, fromValues⟩ = .ok s.withoutMinusZero := by
  rw [SeriesText.read, Series.withoutMinusZero]
  cases hs : s.values with
  | nil =>
    have hnil : s.valuesText = [] := by rw [Series.valuesText, hs]; rfl
    simp only [hnil]
    rfl
  | cons x xs =>
    obtain ⟨hne, hsplit⟩ := splitOn_valuesText h hs
    have hx := h.values x (hs ▸ List.mem_cons_self)
    have hxs : ∀ y ∈ xs, y.isFinite = true := fun y hy => h.values y (hs ▸ List.mem_cons_of_mem x hy)
    have hfirst : ∀ offset, l.number? offset x.format = .ok x.withoutMinusZero := fun offset =>
      l.number?_format offset hx (b := []) rfl
    have hrest : ∀ offset, (xs.map fun y => ' ' :: y.format).mapM (l.number? offset) = .ok (xs.map Binary64.withoutMinusZero) :=
      fun offset => mapM_number? hxs l offset (b := [' ']) (by decide)
    simp only [if_neg hne, hsplit, List.mapM_cons, hfirst, hrest]
    rfl

theorem Series.toText_eq (s : Series) : s.toText = s.kind ++ (titleText s.label ++ (" [" ++ (s.valuesText ++ "]"))) := by
  simp only [Series.toText, Series.valuesText, List.append_assoc]

/-- **a series is read back** -/
theorem series?_toText (h : s.IsPlain) : series? s.toText = some ⟨s.kind, s.label, s.valuesText, s.valuesText ++ [']']⟩ := by
  have htail : ∀ {kind : Text}, kind = "line" ∨ kind = "bar" →
      seriesTail? kind (titleText s.label ++ (" [" ++ (s.valuesText ++ "]")))
        = some ⟨kind, s.label, s.valuesText, s.valuesText ++ [']']⟩ := by
    intro kind hkind
    have hlower : Text.lower kind = kind := by rcases hkind with rfl | rfl <;> decide
    have hbracket : Scan.blanks (" [" ++ (s.valuesText ++ "]")) = '[' :: (s.valuesText ++ [']']) := rfl
    have hquoted : Scan.optionalQuoted (Scan.blanks (titleText s.label ++ (" [" ++ (s.valuesText ++ "]"))))
        = (s.label.map quote, '[' :: (s.valuesText ++ [']'])) := by
      cases s.label with
      | none => rfl
      | some t =>
        change Scan.optionalQuoted (Scan.blanks (' ' :: (quote t ++ (" [" ++ (s.valuesText ++ "]"))))) = _
        rw [Scan.blanks_space, Scan.blanks_of_startsWith (startsWith_quote t _), Scan.optionalQuoted, quoted?_quote]
        rfl
    have hlabel : (s.label.map quote).map unquote = s.label := by
      rw [Option.map_map]
      cases hs : s.label with
      | none => rfl
      | some t => exact congrArg some (unquote_quote_eq_self (h.label t hs).2)
    rw [seriesTail?, hquoted]
    simp only [List.getLast?_concat, if_true, List.dropLast_concat, hlower, hlabel]
  rw [Series.toText_eq, series?]
  rcases h.kind with hk | hk
  · rw [hk, List.findSome?_cons, dropKeyword?_append, Option.bind_some, List.take_left, htail (Or.inl rfl)]
  · have hnone : ∀ u : Text, dropKeyword? "line" ("bar" ++ u) = none := fun u => rfl
    rw [hk, List.findSome?_cons, hnone, Option.bind_none, List.findSome?_cons, dropKeyword?_append, Option.bind_some,
      List.take_left, htail (Or.inr rfl)]

/-- **a series is a line of its own** -/
theorem isContent_series (h : s.IsPlain) : SourceLine.IsContent s.toText := by
  have hvalues : '\n' ∉ s.valuesText := by
    intro hm
    rcases mem_of_mem_join hm with hm | ⟨p, hp, hm⟩
    · exact absurd hm (by decide)
    · obtain ⟨x, hx, rfl⟩ := List.mem_map.1 hp
      exact Binary64.not_mem_format (h.values x hx) (by decide) hm
  have hlabel : '\n' ∉ titleText s.label := by
    cases hs : s.label with
    | none => exact List.not_mem_nil
    | some t => exact fun hm => (List.mem_cons.1 hm).elim (by decide) (h.label t hs).lineFeed
  have hkind : Scan.startsWith isLineStart s.kind = true ∧ '\n' ∉ s.kind := by rcases h.kind with hk | hk <;> rw [hk] <;> decide
  rw [Series.toText_eq]
  refine .keyword hkind.1 hkind.2 ?_ ?_
  · have hbracket : endsWith isLineEnd ("]" : Text) = true := by decide
    exact endsWith_append _ (endsWith_append _ (endsWith_append _ (endsWith_append _ hbracket)))
  · simp only [List.mem_append, not_or]
    exact ⟨hlabel, by decide, hvalues, by decide⟩

/-! ## Lines -/

/-- **every line of a chart is read as what it says** -/
theorem readLine_title (ht : IsQuotable t) (c : XYChart) (hl : l.text = "title " ++ quote t) :
    readLine c l = .ok { c with title := some t } := by
  have hnone : Accessibility.line? ("title " ++ quote t) = none := line?_eq_none rfl
  have htitle : Scan.keywordText? "title" ("title " ++ quote t) = some (quote t) := keywordText?_append (isTight_quote t)
  have hread : Line.read? l.text = some (.title t) := by
    rw [hl, Line.read?, hnone, htitle]
    exact congrArg (fun u => some (Line.title u)) (unquote_quote_eq_self ht.2)
  rw [readLine, hread]

theorem readLine_accessibility {line : AccessibilityLine} (hline : line.IsPlain) (c : XYChart)
    (hl : l.text = accessibilityText line) :
    readLine c l = .ok { c with accessibility := c.accessibility.put line } := by
  rw [readLine, hl, Line.read?, line?_accessibilityText hline]
  rfl

theorem readLine_xAxis {a : Axis} (h : a.IsPlain) (c : XYChart) (hl : l.text = a.toText "x-axis") :
    readLine c l = .ok { c with xAxis := some a.withoutMinusZero } := by
  have htight : titled a.title a.tail = [] ∨ IsTight (titled a.title a.tail) := isTight_titled h.isTail.2
  have haxis := axis?_append "x-axis" htight
  rw [Axis.toText_eq] at hl
  have hread : Line.read? l.text = some (.xAxis (titled a.title a.tail)) := by
    have hnone : ∀ u : Text, Accessibility.line? ("x-axis" ++ u) = none := fun u => line?_eq_none rfl
    have htitle : ∀ u : Text, Scan.keywordText? "title" ("x-axis" ++ u) = none := fun u => rfl
    rw [hl, Line.read?, hnone, htitle, haxis]
    rfl
  rw [readLine, hread]
  simp only [readXAxis_titled h]
  rfl

theorem readLine_yAxis (h : r.IsPlain) (c : XYChart) (hl : l.text = r.toText "y-axis") :
    readLine c l = .ok { c with yAxis := some r.withoutMinusZero } := by
  have htight : titled r.title r.boundsText = [] ∨ IsTight (titled r.title r.boundsText) := isTight_titled h.isTail
  have haxis := axis?_append "y-axis" htight
  rw [Range.toText_eq] at hl
  have hread : Line.read? l.text = some (.yAxis (titled r.title r.boundsText)) := by
    have hnone : ∀ u : Text, Accessibility.line? ("y-axis" ++ u) = none := fun u => line?_eq_none rfl
    have htitle : ∀ u : Text, Scan.keywordText? "title" ("y-axis" ++ u) = none := fun u => rfl
    have hx : ∀ u : Text, axis? "x-axis" ("y-axis" ++ u) = none := fun u => rfl
    rw [hl, Line.read?, hnone, htitle, hx, haxis]
    rfl
  rw [readLine, hread]
  simp only [readYAxis_titled h]
  rfl

theorem readLine_series (h : s.IsPlain) (c : XYChart) (hl : l.text = s.toText) :
    readLine c l = .ok { c with series := c.series ++ [s.withoutMinusZero] } := by
  have hread : Line.read? l.text = some (.series ⟨s.kind, s.label, s.valuesText, s.valuesText ++ [']']⟩) := by
    have hnone : ∀ u, Accessibility.line? (s.kind ++ u) = none ∧ Scan.keywordText? "title" (s.kind ++ u) = none ∧
        axis? "x-axis" (s.kind ++ u) = none ∧ axis? "y-axis" (s.kind ++ u) = none := by
      intro u
      rcases h.kind with hk | hk <;> rw [hk] <;> exact ⟨line?_eq_none rfl, rfl, rfl, rfl⟩
    obtain ⟨haccessibility, htitle, hx, hy⟩ := hnone (titleText s.label ++ (" [" ++ (s.valuesText ++ "]")))
    rw [← Series.toText_eq] at haccessibility htitle hx hy
    rw [hl, Line.read?, haccessibility, htitle, hx, hy, series?_toText h]
    rfl
  rw [readLine, hread]
  simp only [read_valuesText h]
  rfl

/-! ## Charts -/

/-- what a line of a chart says -/
inductive Statement where
  | title (text : Text)
  | accessibility (line : AccessibilityLine)
  | xAxis (a : Axis)
  | yAxis (r : Range)
  | series (s : Series)

namespace Statement

/-- a statement as it is written -/
def toText : Statement → Text
  | title t => "title " ++ quote t
  | accessibility line => accessibilityText line
  | xAxis a => a.toText "x-axis"
  | yAxis r => r.toText "y-axis"
  | series s => s.toText

/-- a statement that can be written -/
def IsPlain : Statement → Prop
  | title t => IsQuotable t
  | accessibility line => line.value ≠ [] ∧ IsLineText line.value
  | xAxis a => a.IsPlain
  | yAxis r => r.IsPlain
  | series s => s.IsPlain

/-- what a statement does to a chart -/
def apply (c : XYChart) : Statement → XYChart
  | title t => { c with title := some t }
  | accessibility line => { c with accessibility := c.accessibility.put line }
  | xAxis a => { c with xAxis := some a.withoutMinusZero }
  | yAxis r => { c with yAxis := some r.withoutMinusZero }
  | series s => { c with series := c.series ++ [s.withoutMinusZero] }

/-- **a line is read as what it says** -/
theorem readLine_toText {st : Statement} (h : st.IsPlain) (c : XYChart) (hl : l.text = st.toText) :
    readLine c l = .ok (apply c st) := by
  cases st with
  | title t => exact readLine_title h c hl
  | accessibility line => exact readLine_accessibility (AccessibilityLine.isPlain_of_isLineText h.1 h.2) c hl
  | xAxis a => exact readLine_xAxis h c hl
  | yAxis r => exact readLine_yAxis h c hl
  | series s => exact readLine_series h c hl

/-- **a line holds what it says as it is** -/
theorem isContent_toText {st : Statement} (h : st.IsPlain) : SourceLine.IsContent st.toText := by
  cases st with
  | title t => exact .keyword (by decide) (by decide) (endsWith_append _ (endsWith_quote t)) h.lineFeed
  | accessibility line => exact isContent_accessibilityText (AccessibilityLine.isPlain_of_isLineText h.1 h.2) h.2.semicolon
  | xAxis a =>
    change SourceLine.IsContent (a.toText "x-axis")
    rw [Axis.toText_eq]
    exact isContent_axis (by decide) (by decide) (by decide) (Axis.IsPlain.isTail h).1 (Axis.IsPlain.isTail h).2
  | yAxis r =>
    change SourceLine.IsContent (r.toText "y-axis")
    rw [Range.toText_eq]
    exact isContent_axis (by decide) (by decide) (by decide) (Range.IsPlain.title h) (Range.IsPlain.isTail h)
  | series s => exact isContent_series h

end Statement

/-- the statements of a chart below its header -/
def statements (c : XYChart) : List Statement :=
  (present c.title).toList.map .title ++ c.accessibility.written.map .accessibility ++ c.xAxis.toList.map .xAxis
    ++ c.yAxis.toList.map .yAxis ++ c.series.map .series

/-- the header of a chart -/
def headerText (c : XYChart) : Text := if c.isHorizontal then "xychart-beta horizontal" else "xychart-beta"

theorem render_eq (c : XYChart) (o : RenderOptions) :
    render c o = ofLines (headerText c :: c.statements.map (o.unit ++ ·.toText)) := by
  have htitle : ((present c.title).map (o.unit ++ "title " ++ quote ·)).toList
      = (present c.title).toList.map fun t => o.unit ++ (Statement.title t).toText := by
    cases present c.title with
    | none => rfl
    | some t =>
      rw [Option.map_some, Option.toList_some, Option.toList_some, List.map_singleton, List.append_assoc]
      rfl
  rw [render, htitle, Accessibility.lines_eq, statements]
  simp only [List.map_append, List.map_map]
  rfl

theorem isPlain_of_mem_statements (h : c.IsPlain) {st : Statement} (hst : st ∈ c.statements) : st.IsPlain := by
  simp only [statements, Accessibility.written, List.mem_append, List.mem_map, Option.mem_toList, Option.map_eq_some_iff] at hst
  rcases hst with (((⟨t, ht, rfl⟩ | ⟨_, ⟨t, ht, rfl⟩ | ⟨t, ht, rfl⟩, rfl⟩) | ⟨a, ha, rfl⟩) | ⟨r, hr, rfl⟩) | ⟨s, hs, rfl⟩
  · exact (h.title t (present_eq_some_iff.1 ht).1).2
  · exact h.accessibilityTitle t (present_eq_some_iff.1 ht).1
  · exact h.accessibilityDescription t (present_eq_some_iff.1 ht).1
  · exact h.xAxis a ha
  · exact h.yAxis r hr
  · exact h.series s hs

/-- series are added one after the other -/
theorem foldl_series (ss : List Series) (d : XYChart) : (ss.map Statement.series).foldl Statement.apply d
    = { d with series := d.series ++ ss.map Series.withoutMinusZero } := by
  induction ss generalizing d with
  | nil => simp
  | cons s ss ih =>
    rw [List.map_cons, List.foldl_cons, ih]
    simp [Statement.apply]

/-- the statements make the chart again -/
theorem foldl_statements (h : c.IsPlain) :
    c.statements.foldl Statement.apply { isHorizontal := c.isHorizontal } = c.withoutMinusZero := by
  have htitle : present c.title = c.title := present_eq_self fun t ht => (h.title t ht).1
  have hsettled : c.accessibility.settled = c.accessibility :=
    Accessibility.settled_eq_self (fun t ht => (h.accessibilityTitle t ht).1) fun t ht => (h.accessibilityDescription t ht).1
  have haccessibility : (c.accessibility.written.map Statement.accessibility).foldl Statement.apply
      { isHorizontal := c.isHorizontal, title := c.title }
        = { isHorizontal := c.isHorizontal, title := c.title, accessibility := c.accessibility } := by
    rw [List.foldl_map]
    conv_rhs => rw [← hsettled]
    refine Accessibility.foldl_written
      (fun a => ({ isHorizontal := c.isHorizontal, title := c.title, accessibility := a } : XYChart)) ?_ _
    exact fun _ _ => rfl
  have hhead : (c.title.toList.map Statement.title).foldl Statement.apply { isHorizontal := c.isHorizontal }
      = { isHorizontal := c.isHorizontal, title := c.title } := by
    cases c.title <;> rfl
  have hxAxis : ∀ d : XYChart, d.xAxis = none → (c.xAxis.toList.map Statement.xAxis).foldl Statement.apply d
      = { d with xAxis := c.xAxis.map Axis.withoutMinusZero } := by
    rintro ⟨_, _, _, _, _, _⟩ rfl
    cases c.xAxis <;> rfl
  have hyAxis : ∀ d : XYChart, d.yAxis = none → (c.yAxis.toList.map Statement.yAxis).foldl Statement.apply d
      = { d with yAxis := c.yAxis.map Range.withoutMinusZero } := by
    rintro ⟨_, _, _, _, _, _⟩ rfl
    cases c.yAxis <;> rfl
  rw [statements, htitle, List.foldl_append, List.foldl_append, List.foldl_append, List.foldl_append, hhead, haccessibility,
    hxAxis _ rfl, hyAxis _ rfl, foldl_series]
  rfl

/-- the header says how the chart lies -/
theorem headerText_isHorizontal (c : XYChart) :
    '\n' ∉ headerText c ∧ SourceLine.content? true (headerText c) = some (headerText c) ∧
      ∃ rest, Dialect.xychart.header? (headerText c) = some rest ∧
        ∀ head, headerIsHorizontal (some (head, rest)) = .ok c.isHorizontal := by
  rw [headerText]
  cases c.isHorizontal with
  | false => exact ⟨by decide, by decide, [], by decide +kernel, fun head => rfl⟩
  | true => exact ⟨by decide, by decide, " horizontal", by decide +kernel, fun head => rfl⟩

/-- a text of plain statements is read as what they say -/
theorem read_render_of_statements {o : RenderOptions} (ho : '\n' ∉ o.unit) (h : ∀ st ∈ c.statements, st.IsPlain) :
    read (render c o) = .ok (c.statements.foldl Statement.apply { isHorizontal := c.isHorizontal }) := by
  have hmargin : IsMargin o.unit := o.levels_one ▸ isMargin_levels ho 1
  have hline : ∀ st ∈ c.statements, SourceLine.IsLine st.toText ∧ (true = true → endsWith (· ≠ ';') st.toText = true) ∧
      ∀ (p : XYChart) (l : SourceLine), l.text = st.toText → readLine p l = .ok (Statement.apply p st) := by
    intro st hst
    have hcontent := Statement.isContent_toText (h st hst)
    exact ⟨hcontent.isLine, fun _ => hcontent.semicolon, fun p l hl => Statement.readLine_toText (h st hst) p hl⟩
  have hreads := Reads.foldl hmargin hline { isHorizontal := c.isHorizontal }
  obtain ⟨hlf, hcontent, rest, hheader, hhorizontal⟩ := headerText_isHorizontal c
  obtain ⟨head, body, hsplit, hbody⟩ := hreads.run_ofLines hlf hcontent hheader
  rw [read, render_eq, hsplit]
  dsimp only
  rw [hhorizontal]
  exact hbody

/-- **a chart is read back from its text**; only minus zero loses its sign -/
theorem read_render_of_isPlain_chart {o : RenderOptions} (ho : '\n' ∉ o.unit) (h : c.IsPlain) :
    read (render c o) = .ok c.withoutMinusZero := by
  rw [read_render_of_statements ho fun _ hst => isPlain_of_mem_statements h hst, foldl_statements h]

/-- titles that look like bounds and lists, categories with all that separates them, minus zero, and a series of nothing -/
def tide : XYChart where
  isHorizontal := true
  title := some " high \"water\"; "
  xAxis := some (.band (some "[0 --> 1]") ["", "\"", "a, b", " ]", "%%"])
  yAxis := some ⟨some "", some ⟨true, 0⟩, some ⟨false, 4503818394225995149⟩⟩
  series := [⟨"line", [⟨true, 0⟩, ⟨false, 4503818394225995149⟩], some "bar [2]"⟩, ⟨"bar", [], none⟩]
  accessibility := ⟨some "accDescr: x", some "y-axis"⟩

theorem read_render_of_isPlain_chart_tide : '\n' ∉ RenderOptions.default.unit ∧ tide.IsPlain ∧
    read (render tide .default) = .ok tide.withoutMinusZero := by
  have hunit : '\n' ∉ RenderOptions.default.unit := by decide
  have hquotable : ∀ t ∈ ([" high \"water\"; ", "[0 --> 1]", "", "bar [2]"] : List Text), IsQuotable t := by
    intro t ht
    simp only [List.mem_cons, List.not_mem_nil, or_false] at ht
    rcases ht with rfl | rfl | rfl | rfl <;> exact ⟨by decide, by decide⟩
  have hline : ∀ t ∈ (["accDescr: x", "y-axis"] : List Text), t ≠ [] ∧ IsLineText t := by
    intro t ht
    simp only [List.mem_cons, List.not_mem_nil, or_false] at ht
    rcases ht with rfl | rfl <;> exact ⟨by decide, by decide, by decide, by decide⟩
  have hyAxis : Range.IsPlain ⟨some "", some ⟨true, 0⟩, some ⟨false, 4503818394225995149⟩⟩ :=
    ⟨fun t ht => hquotable t (Option.some.inj ht ▸ by decide), Or.inr ⟨_, _, rfl, rfl, by decide, by decide⟩⟩
  have hseries : ∀ s ∈ tide.series, s.IsPlain := by
    intro s hs
    simp only [tide, List.mem_cons, List.not_mem_nil, or_false] at hs
    rcases hs with rfl | rfl
    · exact ⟨Or.inl rfl, fun t ht => hquotable t (Option.some.inj ht ▸ by decide), by decide⟩
    · exact ⟨Or.inr rfl, fun t ht => absurd ht (by simp), by decide⟩
  have hplain : tide.IsPlain :=
    ⟨fun t ht => Option.some.inj ht ▸ ⟨by decide, hquotable _ (by decide)⟩,
      fun t ht => hline t (Option.some.inj ht ▸ by decide),
      fun t ht => hline t (Option.some.inj ht ▸ by decide),
      fun a ha => Option.some.inj ha ▸ ⟨fun t ht => hquotable t (Option.some.inj ht ▸ by decide), by decide⟩,
      fun r hr => Option.some.inj hr ▸ hyAxis, hseries⟩
  exact ⟨hunit, hplain, read_render_of_isPlain_chart hunit hplain⟩

end DiagramText.XYChart

/-
Reading a printed page. The header gives its direction back, and the margin of a line says nothing, so `read_ofLines`
reduces reading to what the contents of the lines mean. Where every statement of the script is plain and none misleads,
`read_script` reads exactly the settled statements.
-/
import DiagramText.Proofs.Flowchart.Script
import DiagramText.Proofs.Options

namespace DiagramText

namespace Flowchart

open DiagramText.Text

/-- the header of a printed page -/
def headerText (dir : Direction) : Text := "flowchart " ++ dir.toText

theorem content?_headerText (dir : Direction) : SourceLine.content? true (headerText dir) = some (headerText dir) := by
  cases dir <;> decide +kernel

theorem header?_headerText (dir : Direction) : Dialect.flowchart.header? (headerText dir) = some (' ' :: dir.toText) := by
  cases dir <;> decide +kernel

theorem headerDirection_headerText (dir : Direction) (l : SourceLine) :
    headerDirection (some (l, ' ' :: dir.toText)) = .ok dir := by
  have ht : trim (' ' :: dir.toText) = dir.toText := by cases dir <;> decide +kernel
  have hof : Direction.ofText? dir.toText = some dir := by cases dir <;> decide +kernel
  have hne : dir.toText ≠ [] := by cases dir <;> decide
  simp only [headerDirection, ht, directionAt, hof]
  rw [if_neg hne]

/-- **reading a text with a printed header** -/
theorem read_ofLines {dir : Direction} {lines : List Text} (hl : ∀ l ∈ lines, '\n' ∉ l) {d : Flowchart} :
    read (ofLines (headerText dir :: lines)) = .ok d ↔ ∃ ss o,
      List.Forall₂ Means (lines.filterMap (SourceLine.content? true)) ss ∧
        Outline.run ⟨dir, [], []⟩ ss = some o ∧ o.open_ = [] ∧ d = chartOf o ss := by
  have hhead : '\n' ∉ headerText dir := by cases dir <;> decide
  have hsplit : splitOn '\n' (ofLines (headerText dir :: lines)) = headerText dir :: lines :=
    splitOn_ofLines (by simp) fun l h => (List.mem_cons.1 h).elim (fun e => e ▸ hhead) (hl l)
  have hraw := SourceLine.map_text_ofRaw? true 1 (headerText dir)
  rw [content?_headerText] at hraw
  obtain ⟨l, hofRaw, htext⟩ := Option.map_eq_some_iff.1 hraw
  have hlines : sourceLines true (ofLines (headerText dir :: lines)) = l :: SourceLine.ofRaws true 2 lines := by
    rw [sourceLines, hsplit, SourceLine.ofRaws, hofRaw]
  have hsplitHeader : splitHeader .flowchart (sourceLines true (ofLines (headerText dir :: lines)))
      = (some (l, ' ' :: dir.toText), SourceLine.ofRaws true 2 lines) := by
    rw [hlines, splitHeader, htext, header?_headerText]
  rw [read_eq_ok_iff, hsplitHeader, headerDirection_headerText, SourceLine.map_text_ofRaws]
  constructor
  · rintro ⟨dir', ss, o, hdir, h⟩
    obtain rfl := Except.ok.inj hdir
    exact ⟨ss, o, h⟩
  · rintro ⟨ss, o, h⟩
    exact ⟨dir, ss, o, rfl, h⟩

/-- the text of a page, link styles under the given keys -/
def Page.text (p : Page) (styles : List (Text × Style)) : Text :=
  ofLines (headerText p.chart.direction :: (p.script styles).map p.line)

/-- **the canonical text** is the text of the page, when the keys of link styles can be written -/
theorem render_eq_ok_iff {d : Flowchart} {o : RenderOptions} {t : Text} :
    render d o = .ok t ↔ ∃ styles, Page.printedStyles ⟨d, o⟩ = .ok styles ∧ t = Page.text ⟨d, o⟩ styles := by
  rw [Page.render_eq]
  cases Page.printedStyles ⟨d, o⟩ with
  | error e => simp [Except.map]
  | ok styles =>
    rw [Except.map, Except.ok.injEq]
    constructor
    · rintro rfl
      exact ⟨styles, rfl, rfl⟩
    · rintro ⟨styles', h, rfl⟩
      rw [Except.ok.inj h]
      rfl

/-- plain lines that do not mislead mean their statements as they settle -/
theorem means_toText {s : Statement} (h : s.IsPlain) (hm : ¬ s.Misleads) : Means s.toText s.settled :=
  read_eq_ok_iff_meaning.1 (read_toText (l := ⟨0, 0, s.toText, []⟩) h hm rfl)

namespace Page

variable {p : Page}

theorem lineFeed_not_mem_line (ho : '\n' ∉ p.options.unit) {x : Nat × Statement} (h : x.2.IsPlain) : '\n' ∉ p.line x := by
  rw [line, List.mem_append, not_or]
  exact ⟨RenderOptions.lineFeed_not_mem_levels ho x.1, lineFeed_not_mem_toText h⟩

/-- the content of a line is its statement, without the margin -/
theorem content?_line {x : Nat × Statement} (h : x.2.IsPlain) (hm : ¬ x.2.Misleads) :
    SourceLine.content? true (p.line x) = some x.2.toText :=
  SourceLine.content?_margin true (p.options.all_isBlank_levels x.1) (isContent_toText h hm)

/-- **reading a printed page that misleads nowhere** -/
theorem read_script (ho : '\n' ∉ p.options.unit) {dir : Direction} {xs : List (Nat × Statement)}
    (h : ∀ x ∈ xs, x.2.IsPlain) (hm : ∀ x ∈ xs, ¬ x.2.Misleads) {d : Flowchart} :
    read (ofLines (headerText dir :: xs.map p.line)) = .ok d ↔ ∃ o,
      Outline.run ⟨dir, [], []⟩ (xs.map fun x => x.2.settled) = some o ∧ o.open_ = [] ∧
        d = chartOf o (xs.map fun x => x.2.settled) := by
  have hlf : ∀ l ∈ xs.map p.line, '\n' ∉ l := by
    intro l hl
    obtain ⟨x, hx, rfl⟩ := List.mem_map.1 hl
    exact lineFeed_not_mem_line ho (h x hx)
  have hcontent : (xs.map p.line).filterMap (SourceLine.content? true) = xs.map fun x => x.2.toText := by
    rw [List.filterMap_map, ← List.filterMap_eq_map]
    exact List.filterMap_congr fun x hx => content?_line (h x hx) (hm x hx)
  have hmeans : List.Forall₂ Means (xs.map fun x => x.2.toText) (xs.map fun x => x.2.settled) := by
    rw [List.forall₂_map_left_iff, List.forall₂_map_right_iff, List.forall₂_same]
    exact fun x hx => means_toText (h x hx) (hm x hx)
  have hunique : ∀ {ts : List Text} {ss ss' : List Statement}, List.Forall₂ Means ts ss → List.Forall₂ Means ts ss' →
      ss = ss' := by
    intro ts ss ss' h1 h2
    induction h1 generalizing ss' with
    | nil => exact (List.forall₂_nil_left_iff.1 h2).symm
    | cons ha _ ih =>
      obtain ⟨s, ss'', hs, hss, rfl⟩ := List.forall₂_cons_left_iff.1 h2
      rw [ih hss, Option.some.inj (ha.symm.trans hs)]
  rw [read_ofLines hlf, hcontent]
  constructor
  · rintro ⟨ss, o, hss, hrest⟩
    obtain rfl := hunique hmeans hss
    exact ⟨o, hrest⟩
  · rintro ⟨o, hrest⟩
    exact ⟨_, o, hmeans, hrest⟩

end Page

end Flowchart

end DiagramText

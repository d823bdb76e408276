/-
Captions survive a round trip. Ten dialects take accessibility texts, and six of them a title. Each writes them on lines of
their own, under conditions of its own (`IsLegible`), and reads from those lines what was written, empty texts left out
(`captions_reread`).
-/
import DiagramText.Proofs.ClassDiagram.Settled
import DiagramText.Proofs.EntityDiagram.RoundTrip
import DiagramText.Proofs.Flowchart.Settled
import DiagramText.Proofs.Indentation.Diagram
import DiagramText.Proofs.Journey
import DiagramText.Proofs.PieChart.RoundTrip
import DiagramText.Proofs.QuadrantChart.RoundTrip
import DiagramText.Proofs.Sequence.Legible
import DiagramText.Proofs.StateDiagram.Settled
import DiagramText.Proofs.Timeline
import DiagramText.Proofs.XYChart

namespace DiagramText

open DiagramText.Text

namespace Diagram

/-- the captions of a diagram, in the dialects that have them -/
def captions : Diagram → Option Captions
  | flowchart d => some { accessibility := d.accessibility }
  | sequence d => some ⟨d.title, d.accessibility⟩
  | .classDiagram d => some { accessibility := d.accessibility }
  | state d => some { accessibility := d.accessibility }
  | pie d => some ⟨d.title, d.accessibility⟩
  | er d => some { accessibility := d.accessibility }
  | mindmap _ => none
  | quadrant d => some ⟨d.title, d.accessibility⟩
  | sankey _ => none
  | timeline d => some ⟨d.title, d.accessibility⟩
  | journey d => some ⟨d.title, d.accessibility⟩
  | xychart d => some ⟨d.title, d.accessibility⟩

/-- what can be told apart once it is written, by the measure of each dialect -/
def IsLegible (o : RenderOptions) : Diagram → Prop
  | flowchart d => ∃ styles, Flowchart.Page.printedStyles ⟨d, o⟩ = .ok styles ∧ Flowchart.IsFaithful (Flowchart.Page.script ⟨d, o⟩ styles)
  | sequence d => d.IsLegible ∧ ∀ t, d.title = some t → Scan.startsWith (· = ':') t = false
  | .classDiagram d => d.IsLegible
  | state d => d.IsLegible
  | pie d => d.IsPlain
  | er d => d.IsUnambiguous
  | mindmap _ => True
  | quadrant d => d.IsLegible
  | sankey _ => True
  | timeline d => ∀ p ∈ d.periods, p.IsUnmistakable
  | journey d => ∀ s ∈ d.sections, s.HasFiniteScores
  | xychart d => d.IsPlain

variable {o : RenderOptions}

theorem captions_reread_of_read {d d' : Diagram} {t : Text} (hrender : d.render o = .ok t) (hread : d.dialect.read t = .ok d')
    (hcaptions : d'.captions = d.captions.map Captions.settled) : (d.reread o).bind captions = d.captions.map Captions.settled := by
  rw [reread, hrender]
  change ((d.dialect.read t).toOption).bind captions = _
  rw [hread]
  exact hcaptions

/-- what a dialect reads, it reads behind the reader of all dialects -/
theorem read_eq_ok {ε α : Type} {f : α → Diagram} {g : ε → ReadError} {x : Except ε α} {a : α} (h : x = .ok a) :
    (x.map f).mapError g = .ok (f a) := by
  rw [h]
  rfl

/-- **captions survive a round trip**, in every dialect that has them -/
theorem captions_reread {dialect : Dialect} {text : Text} {d : Diagram} (hs : ';' ∉ text) (hread : dialect.read text = .ok d)
    (hhas : d.captions ≠ none) (hl : d.IsLegible o) (ho : '\n' ∉ o.unit) (hpie : dialect = .pie → o.unit.all isPadding = true) :
    (d.reread o).bind captions = d.captions.map Captions.settled := by
  cases dialect with
  | flowchart =>
    obtain ⟨d, hd, rfl⟩ := exists_of_read hread
    obtain ⟨styles, hstyles, hfaithful⟩ := hl
    have hwell := Flowchart.isWellFormed_of_read hd
    have hpage := Flowchart.Page.read_page (p := ⟨d, o⟩) hwell ho hstyles hfaithful
    refine captions_reread_of_read (Flowchart.render_eq_ok_iff.2 ⟨styles, hstyles, rfl⟩) (read_eq_ok hpage) ?_
    rw [captions, Flowchart.Page.accessibility_reread hwell.toIsClosed]
    rfl
  | sequence =>
    obtain ⟨d, -, rfl⟩ := exceptMap_eq_ok_iff.1 hread
    obtain ⟨hlegible, hcolon⟩ := hl
    obtain ⟨d', hd', hcaptions⟩ := Sequence.exists_read_render_of_isLegible hlegible ho
    have hdispatch : Dialect.sequence.read (Sequence.render d o) = .ok (sequence d') := congrArg (Except.map sequence) hd'
    rw [Sequence.map_shownTitle hcolon] at hcaptions
    exact captions_reread_of_read rfl hdispatch (congrArg some hcaptions)
  | classDiagram =>
    obtain ⟨d, hd, rfl⟩ := exists_of_read hread
    have hwritable := ClassDiagram.isWritable_settled hd hl
    have hpage := ClassDiagram.read_render_of_isWritable hwritable ho
    rw [ClassDiagram.render_settled] at hpage
    exact captions_reread_of_read rfl (read_eq_ok hpage) rfl
  | state =>
    obtain ⟨d, hd, rfl⟩ := exists_of_read hread
    have hn := StateDiagram.isNested_of_read hd
    have hpage := StateDiagram.read_render_eq hn (StateDiagram.isPrintable_of_read hd hl) ho (StateDiagram.nodup_placed_pageDeeds hn)
    refine captions_reread_of_read rfl (read_eq_ok hpage) ?_
    exact congrArg (fun a => some (Captions.mk none a)) StateDiagram.accessibility_reread
  | pie =>
    obtain ⟨d, -, rfl⟩ := exists_of_read hread
    have hpage : PieChart.read (PieChart.render d o) = .ok d.withoutMinusZero := by
      rw [PieChart.read, PieChart.terminated_render (hpie rfl) hl, PieChart.document_lines (hpie rfl) hl]
    refine captions_reread_of_read rfl (read_eq_ok hpage) (congrArg some (Captions.settled_eq_self ?_ ?_ ?_).symm)
    · exact fun t ht => (hl.title t ht).ne_nil
    · exact fun t ht => (hl.accessibilityTitle t ht).ne_nil
    · exact fun t ht => (hl.accessibilityDescription t ht).ne_nil
  | er =>
    obtain ⟨d, hd, rfl⟩ := exists_of_read hread
    obtain ⟨entities, -, hpage, -⟩ := EntityDiagram.read_render_of_isUnambiguous hs hd hl ho
    exact captions_reread_of_read rfl (read_eq_ok hpage) rfl
  | mindmap =>
    obtain ⟨d, -, rfl⟩ := exists_of_read hread
    exact absurd rfl hhas
  | quadrant =>
    obtain ⟨d, hd, rfl⟩ := exists_of_read hread
    have hpage := (QuadrantChart.render_settled_of_isLegible hs hd hl ho).1
    exact captions_reread_of_read rfl (read_eq_ok hpage) rfl
  | sankey =>
    obtain ⟨d, -, rfl⟩ := exists_of_read hread
    exact absurd rfl hhas
  | timeline =>
    obtain ⟨d, hd, rfl⟩ := exists_of_read hread
    have hpage := (Timeline.read_render_iff_isUnmistakable hd ho).2 hl
    exact captions_reread_of_read rfl (read_eq_ok hpage) rfl
  | journey =>
    obtain ⟨d, hd, rfl⟩ := exists_of_read hread
    have hpage := Journey.read_render_of_isPlain_journey ho (Journey.isPlain_of_read hd) hl
    exact captions_reread_of_read rfl (read_eq_ok hpage) rfl
  | xychart =>
    obtain ⟨d, -, rfl⟩ := exists_of_read hread
    have hpage := XYChart.read_render_of_statements ho fun _ hst => XYChart.isPlain_of_mem_statements hl hst
    rw [XYChart.foldl_statements hl] at hpage
    refine captions_reread_of_read rfl (read_eq_ok hpage) (congrArg some (Captions.settled_eq_self ?_ ?_ ?_).symm)
    · exact fun t ht => (hl.title t ht).1
    · exact fun t ht => (hl.accessibilityTitle t ht).1
    · exact fun t ht => (hl.accessibilityDescription t ht).1

/-- a title that begins with a colon, an empty text and one with a colon in it -/
def winter : Text := "timeline\ntitle : frost\naccTitle:\naccDescr: a: b\n2024 : snow"

/-- what the text says -/
def winterTimeline : Timeline where
  title := some ": frost"
  sections := [⟨none, [⟨"2024", ["snow"]⟩]⟩]
  accessibility := ⟨some [], some "a: b"⟩

theorem captions_reread_winter : ((timeline winterTimeline).reread .default).bind captions
    = some ⟨some ": frost", ⟨none, some "a: b"⟩⟩ := by
  have hread : Dialect.timeline.read winter = .ok (timeline winterTimeline) := rfl
  have hl : (timeline winterTimeline).IsLegible .default := by
    change ∀ p ∈ winterTimeline.periods, p.IsUnmistakable
    decide
  exact captions_reread (by decide +kernel) hread nofun hl (by decide) nofun

end Diagram

end DiagramText

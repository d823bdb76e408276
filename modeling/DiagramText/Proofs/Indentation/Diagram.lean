/-
Indentation never changes meaning. Lines say the same in every margin (`Printing`), and readers look at what lines say
(`Reading`), so a diagram printed with two indentations is read as the same diagram, or neither text is read
(`reread_eq_of_read`). Two dialects ask something of the indentation: a mind map is read from its margins, in which a new line
does not count, and the grammar of a pie chart knows no white space but spaces and tabs.
-/
import DiagramText.Proofs.Indentation.MindMap
import DiagramText.Proofs.Indentation.PieChart
import DiagramText.Proofs.Indentation.Printing
import DiagramText.Proofs.Indentation.Reading

namespace DiagramText.Diagram

open DiagramText.Text

variable {o o' : RenderOptions}

/-- what is read of the printed text -/
def reread (o : RenderOptions) (d : Diagram) : Option Diagram :=
  (d.render o).toOption.bind fun t => (d.dialect.read t).toOption

/-- texts that say the same are read as the same diagram -/
theorem reread_eq_of_contents {strip : Bool} {d : Diagram}
    (hrender : (d.render o).map (contents strip) = (d.render o').map (contents strip))
    (hread : ∀ t t', contents strip t = contents strip t' → (d.dialect.read t).toOption = (d.dialect.read t').toOption) :
    d.reread o = d.reread o' := by
  rw [reread, reread]
  cases hr : d.render o with
  | error e =>
    cases hr' : d.render o' with
    | error e' => rfl
    | ok t' => rw [hr, hr'] at hrender; cases hrender
  | ok t =>
    cases hr' : d.render o' with
    | error e' => rw [hr, hr'] at hrender; cases hrender
    | ok t' =>
      rw [hr, hr'] at hrender
      exact hread t t' (Except.ok.inj hrender)

theorem toOption_read {ε α : Type} {f : α → Diagram} {g : ε → ReadError} {x x' : Except ε α} (h : x.toOption = x'.toOption) :
    ((x.map f).mapError g).toOption = ((x'.map f).mapError g).toOption := by
  rw [toOption_mapError, toOption_mapError, toOption_map, toOption_map, h]

theorem exists_of_read {ε α : Type} {f : α → Diagram} {g : ε → ReadError} {x : Except ε α} {d : Diagram}
    (h : (x.map f).mapError g = .ok d) : ∃ a, x = .ok a ∧ f a = d := by
  cases x with
  | error e => cases h
  | ok a => exact ⟨a, rfl, Except.ok.inj h⟩

/-- in most dialects no indentation changes what is read -/
theorem reread_eq_of_isReindented (d : Diagram) (h : o.IsReindented o') (hmindmap : d.dialect ≠ .mindmap) (hpie : d.dialect ≠ .pie) :
    d.reread o = d.reread o' := by
  cases d with
  | flowchart d =>
    exact reread_eq_of_contents (d.contents_render_congr h) fun t t' ht => toOption_read (Flowchart.toOption_read_congr ht)
  | sequence d =>
    have hread : ∀ t t', contents true t = contents true t' →
        ((Sequence.read t).map sequence).toOption = ((Sequence.read t').map sequence).toOption := fun t t' ht => by
      rw [toOption_map, toOption_map, Sequence.toOption_read_congr ht]
    exact reread_eq_of_contents (congrArg Except.ok (d.contents_render_congr h)) hread
  | classDiagram d =>
    exact reread_eq_of_contents (congrArg Except.ok (d.contents_render_congr h)) fun t t' ht =>
      toOption_read (ClassDiagram.toOption_read_congr ht)
  | state d =>
    exact reread_eq_of_contents (congrArg Except.ok (d.contents_render_congr h)) fun t t' ht =>
      toOption_read (StateDiagram.toOption_read_congr ht)
  | pie d => exact absurd rfl hpie
  | er d =>
    exact reread_eq_of_contents (congrArg Except.ok (d.contents_render_congr h)) fun t t' ht =>
      toOption_read (EntityDiagram.toOption_read_congr ht)
  | mindmap d => exact absurd rfl hmindmap
  | quadrant d =>
    exact reread_eq_of_contents (congrArg Except.ok (d.contents_render_congr h)) fun t t' ht =>
      toOption_read (QuadrantChart.toOption_read_congr ht)
  | sankey d => rfl
  | timeline d =>
    exact reread_eq_of_contents (congrArg Except.ok (d.contents_render_congr o o')) fun t t' ht =>
      toOption_read (Timeline.toOption_read_congr ht)
  | journey d =>
    exact reread_eq_of_contents (congrArg Except.ok (d.contents_render_congr o o')) fun t t' ht =>
      toOption_read (Journey.toOption_read_congr ht)
  | xychart d =>
    exact reread_eq_of_contents (congrArg Except.ok (d.contents_render_congr o o')) fun t t' ht =>
      toOption_read (XYChart.toOption_read_congr ht)

/-- **indentation never changes meaning**: whatever the indentation, the text of a diagram that was read is read as the same
diagram, or it is not read; only that of a mind map has to do without new lines, and that of a pie chart with spaces and tabs -/
theorem reread_eq_of_read {dialect : Dialect} {text : Text} {d : Diagram} (hread : dialect.read text = .ok d) (h : o.IsReindented o')
    (hmindmap : dialect = .mindmap → '\n' ∉ o.unit ∧ '\n' ∉ o'.unit)
    (hpie : dialect = .pie → o.unit.all isPadding = true ∧ o'.unit.all isPadding = true) : d.reread o = d.reread o' := by
  cases dialect
  case mindmap =>
    obtain ⟨m, hm, rfl⟩ := exists_of_read hread
    exact toOption_read (MindMap.toOption_read_render_congr hm (hmindmap rfl).1 (hmindmap rfl).2)
  case pie =>
    obtain ⟨c, -, rfl⟩ := exists_of_read hread
    exact toOption_read (c.toOption_read_render_congr (hpie rfl).1 (hpie rfl).2)
  case sequence =>
    obtain ⟨s, -, rfl⟩ := exceptMap_eq_ok_iff.1 hread
    exact reread_eq_of_isReindented (sequence s) h nofun nofun
  all_goals
    obtain ⟨_, -, rfl⟩ := exists_of_read hread
    exact reread_eq_of_isReindented _ h nofun nofun

/-! ## The conditions are needed -/

/-- levels of no-break spaces -/
def noBreakSpaces : RenderOptions := { RenderOptions.default with indent := .text "\u00a0", valid := by decide }

/-- levels of new lines -/
def newLines : RenderOptions := { RenderOptions.default with indent := .text "\n", valid := by decide }

/-- a pie chart with a title is not read behind no-break spaces -/
theorem reread_noBreakSpaces : ((pie { title := some "a" }).reread .default).isSome = true ∧
    ((pie { title := some "a" }).reread noBreakSpaces).isSome = false := by decide +kernel

/-- two nodes -/
def pair : MindMap.Node := .node ⟨"a", "a", .default, none, none⟩ [.node ⟨"b", "b", .default, none, none⟩ []]

/-- a mind map of two nodes is not read behind new lines, where both stand at one depth -/
theorem reread_newLines : ((mindmap ⟨some pair⟩).reread .default).isSome = true ∧
    ((mindmap ⟨some pair⟩).reread newLines).isSome = false := by decide +kernel

end DiagramText.Diagram

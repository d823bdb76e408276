/-
Nodes with a label, whatever follows them. A node in the delimiters of its shape ends at its closing delimiter, unless a style
class is glued to it (`classSuffix?_eq_none_iff`), and meeting it defines that node and changes nothing else of the chart
(`chart_meet_shaped`). With a label that spells no entity it is read back whole (`mention?_text_of_shape`).
-/
import DiagramText.Flowchart.Reader
import DiagramText.Proofs.Flowchart.Builder
import DiagramText.Proofs.Flowchart.Chain

namespace DiagramText.Flowchart

/-- a style class is glued to a node by three colons and a word character -/
theorem classSuffix?_eq_none_iff {rest : Text} :
    classSuffix? rest = none ↔ ∀ c r, rest = (":::" : Text) ++ c :: r → isWord c = false := by
  rw [classSuffix?, Option.bind_eq_none_iff]
  constructor
  · rintro h c r rfl
    have hdrop := h (c :: r) (Text.dropPrefix?_eq_some_iff.2 rfl)
    rw [ite_eq_right_iff] at hdrop
    by_contra hc
    exact absurd (hdrop (by simpa [Scan.startsWith] using hc)) (by simp)
  · intro h t ht
    obtain rfl := Text.dropPrefix?_eq_some_iff.1 ht
    cases t with
    | nil => rfl
    | cons c r =>
      have hc : Scan.startsWith isWord (c :: r) = false := h c r rfl
      rw [hc]
      rfl

/-- every shape with delimiters is read as itself -/
theorem settledShape_of_mem_delimited {shape : NodeShape} (h : shape ∈ NodeShape.delimited) : settledShape shape = shape := by
  cases shape with
  | default => exact absurd h (by decide)
  | _ => rfl

/-- a node with a label is defined with it, in place of an earlier definition, and nothing else is said of the chart -/
theorem Assembly.chart_meet_shaped {ω : Type} (a : Assembly ω) (id label : Text) (shape : NodeShape) :
    (a.meet ⟨id, some (label, shape), none⟩).chart
      = { a.chart with nodes := a.chart.nodes.insert id ⟨id, label, shape⟩ } := by
  change (a.defineNode ⟨id, label, shape⟩).chart = _
  rw [Assembly.defineNode, Assembly.chart_mention]

/-- **nodes with a label are read back whole.** The text of a node, its id, the delimiters of one of the fifteen shapes and
between them its label, with quotes or without them, is read as one node with this id, label and shape, and what follows it
is left as it is, whatever it is, as long as no style class is glued to the node. The node that is read is defined so in
every chart under construction. -/
theorem mention?_text_of_shape {id label rest : Text} {shape : NodeShape} (hid : Scan.isName isWord id = true)
    (hshape : shape ∈ NodeShape.delimited) (hline : '\n' ∉ label) (hentity : ¬ quoteEntity <:+: label)
    (hrest : ∀ c r, rest = (":::" : Text) ++ c :: r → isWord c = false) :
    ∃ m, mention? (id ++ shape.delimiters.1 ++ labelText label ++ shape.delimiters.2 ++ rest) = some (m, rest) ∧
      m = ⟨id, some (label, shape), none⟩ ∧
      ∀ {ω : Type} (a : Assembly ω),
        (a.meet m).chart = { a.chart with nodes := a.chart.nodes.insert id ⟨id, label, shape⟩ } := by
  have hread := mention?_shaped hid hline shape rest
  rw [classSuffix?_eq_none_iff.2 hrest, settledLabel_of_not_infix hline hentity, settledShape_of_mem_delimited hshape,
    Option.map_none, Option.map_none, Option.getD_none] at hread
  refine ⟨⟨id, some (label, shape), none⟩, ?_, rfl, fun a => a.chart_meet_shaped id label shape⟩
  simpa only [shapeText, List.append_assoc] using hread

/-- a slanted node with quotes in its label, and three colons after it that no name follows -/
theorem mention?_text_of_slanted : Scan.isName isWord "a-b" = true ∧ NodeShape.leanRight ∈ NodeShape.delimited ∧
    mention? ("a-b[/\"say #quot;x#quot; [1]\"/]:::-" : Text)
      = some ((⟨"a-b", some ("say \"x\" [1]", .leanRight), none⟩ : Mention), (":::-" : Text)) := by
  have hid : Scan.isName isWord "a-b" = true := by decide
  have hshape : NodeShape.leanRight ∈ NodeShape.delimited := by decide
  have hline : '\n' ∉ ("say \"x\" [1]" : Text) := by decide
  have hrest : ∀ c r, (":::-" : Text) = (":::" : Text) ++ c :: r → isWord c = false := by
    rintro c r h
    obtain ⟨rfl, -⟩ : '-' = c ∧ _ := by simpa using h
    decide
  obtain ⟨m, hm, rfl, -⟩ := mention?_text_of_shape hid hshape hline (by decide) hrest
  exact ⟨hid, hshape, hm⟩

end DiagramText.Flowchart

/-
Sankey diagrams read back. A flow is a line of its own whatever its nodes are called, since a name that the line would
change stands in quotes (`isContent_toText`), and its fields are read as they were written (`link_of_text`). A diagram is
the flows it is made of (`foldl_addLink`), so `read_render_of_read` gives a diagram that was read back from its text.
-/
import DiagramText.Proofs.Number.Format
import DiagramText.Proofs.Reading
import DiagramText.Proofs.Record
import DiagramText.SankeyDiagram

namespace DiagramText.SankeyDiagram

/-! ## Flows -/

/-- a flow with plus zero for minus zero -/
def Link.withoutMinusZero (k : Link) : Link := { k with value := k.value.withoutMinusZero }

/-- a flow that a line can say -/
structure Link.IsPlain (k : Link) : Prop where
  source_ne_nil : k.source ≠ []
  target_ne_nil : k.target ≠ []
  source_lineFeed : '\n' ∉ k.source
  target_lineFeed : '\n' ∉ k.target
  value : k.value.isFinite = true

/-- the nodes that a flow names -/
def namedBy (nodes : Entries Node) (k : Link) : Entries Node :=
  (nodes.insertNew k.source ⟨k.source, k.source⟩).insertNew k.target ⟨k.target, k.target⟩

/-- a diagram of flows: the nodes they name, and the flows -/
theorem foldl_addLink (d : SankeyDiagram) (ks : List Link) : ks.foldl addLink d = ⟨ks.foldl namedBy d.nodes, d.links ++ ks⟩ := by
  induction ks generalizing d with
  | nil => simp
  | cons k ks ih =>
    rw [List.foldl_cons, ih, List.foldl_cons]
    simp [addLink, ensureNode, namedBy]

/-- amounts do not show in the nodes -/
theorem foldl_namedBy_withoutMinusZero (nodes : Entries Node) (ks : List Link) :
    (ks.map Link.withoutMinusZero).foldl namedBy nodes = ks.foldl namedBy nodes := by
  rw [List.foldl_map]
  rfl

/-! ## Lines -/

theorem isDelimiter_comma : Record.IsDelimiter ',' := ⟨by decide, by decide⟩

variable {l : SourceLine} {k : Link}

/-- a number stands in a record as it is -/
theorem isBare_format {x : Binary64} (h : x.isFinite = true) : Record.IsBare ',' x.format := by
  have hnot := fun c => Binary64.not_mem_format (c := c) h
  refine ⟨hnot ',' (by decide), hnot '"' (by decide), hnot '\n' (by decide), Text.trim_of_isTight (Binary64.isTight_format h), ?_⟩
  rw [Option.eq_none_iff_forall_not_mem]
  intro r hr
  exact hnot '%' (by decide) (Text.dropPrefix?_eq_some_iff.1 hr ▸ List.mem_cons_self)

/-- a line holds its three fields -/
theorem split_toText (hk : k.IsPlain) (hl : l.text = k.toText) :
    Record.split "," l 0 l.text = .ok [k.source, k.target, k.value.format] := by
  have hvalue := Record.formatField_of_isBare (isBare_format hk.value)
  have hjoin : l.text = Text.join [','] ([k.source, k.target, k.value.format].map (Record.formatField [','])) := by
    rw [hl, Link.toText, List.map_cons, List.map_cons, List.map_singleton, hvalue]
    rfl
  have hfields := Record.fields_join isDelimiter_comma (List.cons_ne_nil k.source [k.target, k.value.format]) l.text.length
  rw [← hjoin] at hfields
  rw [Record.split]
  exact hfields ▸ rfl

/-- **a flow is read back from its line** -/
theorem link_of_text (hk : k.IsPlain) (hl : l.text = k.toText) : link l = .ok k.withoutMinusZero := by
  have hnumber : l.number? 0 k.value.format = .ok k.value.withoutMinusZero := l.number?_format 0 hk.value (b := []) rfl
  rw [link, split_toText hk hl, Except.bind, linkOf, if_neg (not_or.2 ⟨hk.source_ne_nil, hk.target_ne_nil⟩), hnumber]
  rfl

theorem toText_eq (k : Link) :
    k.toText = Record.formatField "," k.source ++ ',' :: (Record.formatField "," k.target ++ ',' :: k.value.format) := by
  simp [Link.toText, Text.join_cons_cons]

/-- a line takes nothing away from a flow -/
theorem isContent_toText (hk : k.IsPlain) : SourceLine.IsContent k.toText := by
  have hfirst := Record.startsWith_formatField ',' hk.source_ne_nil
  have hlast := Binary64.endsWith_format hk.value
  have hfield : ∀ t : Text, '\n' ∉ t → '\n' ∉ Record.formatField "," t := fun t ht hm =>
    (Record.mem_of_mem_formatField hm).elim (by decide) ht
  have hends : ∀ p, (∀ c, c.isDigit = true → p c = true) → Text.endsWith p k.toText = true := fun p hp => by
    rw [toText_eq]
    exact Text.endsWith_append _ (Text.endsWith_cons _ (Text.endsWith_append _ (Text.endsWith_cons _ (Text.endsWith_mono hp hlast))))
  refine ⟨⟨?_, hends _ fun c hc => isMark_of_isDigit (Decimal.isDigit_of_ascii hc)⟩, ?_, hends _ fun c hc => ?_, ?_⟩
  · rw [toText_eq]
    exact Text.startsWith_append _ hfirst
  · rw [toText_eq]
    simp only [List.mem_append, List.mem_cons, not_or]
    exact ⟨hfield _ hk.source_lineFeed, by decide, hfield _ hk.target_lineFeed, by decide, (isBare_format hk.value).lineFeed⟩
  · rw [decide_eq_true_eq]
    rintro rfl
    exact absurd hc (by decide)
  · rw [toText_eq]
    refine SourceLine.comment_append (fun h => ?_) (Record.comment_formatField ',' _) (by decide) _
    rw [show Record.formatField [','] k.source = [] from h] at hfirst
    exact absurd hfirst (by decide)

/-- what is read of a line is plain when its value is finite -/
theorem isPlain_of_link (hl : '\n' ∉ l.text) (h : link l = .ok k) (hv : k.value.isFinite = true) : k.IsPlain := by
  obtain ⟨vs, hvs, hk⟩ := exceptBind_eq_ok_iff.1 h
  have hsub := Record.subset_of_split hvs
  match vs, hk with
  | [source, target, value], hk =>
    rw [linkOf] at hk
    split at hk
    · exact absurd hk (by simp)
    · rename_i hne
      obtain ⟨x, -, rfl⟩ := exceptMap_eq_ok_iff.1 hk
      exact ⟨fun h => hne (Or.inl h), fun h => hne (Or.inr h), fun hm => hl (hsub source (by simp) hm),
        fun hm => hl (hsub target (by simp) hm), hv⟩

/-! ## Diagrams -/

/-- lines of flows are read as the flows -/
theorem mapM_link {ls : List SourceLine} {ks : List Link} (hks : ∀ k ∈ ks, k.IsPlain)
    (h : ls.map SourceLine.text = ks.map Link.toText) : ls.mapM link = .ok (ks.map Link.withoutMinusZero) := by
  induction ks generalizing ls with
  | nil =>
    rw [List.map_eq_nil_iff.1 h]
    rfl
  | cons k ks ih =>
    cases ls with
    | nil => exact absurd h (by simp)
    | cons l ls =>
      obtain ⟨hl, hls⟩ := List.cons.inj h
      rw [List.mapM_cons, link_of_text (hks k (by simp)) hl, ih (fun k hk => hks k (List.mem_cons_of_mem _ hk)) hls]
      rfl

/-- what is read is made of plain flows, where their values are finite -/
theorem of_read {text : Text} {d : SankeyDiagram} (h : read text = .ok d) (hfinite : ∀ k ∈ d.links, k.value.isFinite = true) :
    (∀ k ∈ d.links, k.IsPlain) ∧ d.nodes = d.links.foldl namedBy .empty := by
  unfold read at h
  obtain ⟨-, -, h⟩ := exceptBind_eq_ok_iff.1 h
  obtain ⟨ks, hks, h⟩ := exceptBind_eq_ok_iff.1 h
  obtain rfl := Except.ok.inj h
  rw [foldl_addLink] at hfinite ⊢
  refine ⟨fun k hk => ?_, rfl⟩
  obtain ⟨l, hl, hlink⟩ := exists_of_forall₂ (forall₂_of_mapM hks) hk
  exact isPlain_of_link (isTight_of_mem_sourceLines (body_subset .sankey _ hl)).2 hlink (hfinite k hk)

/-- **a Sankey diagram that was read is read back from its text**, the same nodes and flows in the same order -/
theorem read_render_of_read {text : Text} {d : SankeyDiagram} (h : read text = .ok d)
    (hfinite : ∀ k ∈ d.links, k.value.isFinite = true) :
    read (render d) = .ok { d with links := d.links.map Link.withoutMinusZero } := by
  obtain ⟨hplain, hnodes⟩ := of_read h hfinite
  have hcontent := fun k hk => isContent_toText (hplain k hk)
  have hlines : ∀ raw ∈ [] :: d.links.map Link.toText, '\n' ∉ raw := fun raw hraw => by
    rcases List.mem_cons.1 hraw with rfl | hraw
    · exact List.not_mem_nil
    · obtain ⟨k, hk, rfl⟩ := List.mem_map.1 hraw
      exact (hcontent k hk).lineFeed
  have hheader : SourceLine.content? true "sankey-beta" = some ("sankey-beta" : Text) := by decide
  have hkeyword : Dialect.sankey.header? "sankey-beta" = some [] := by decide +kernel
  obtain ⟨head, hsplit⟩ := splitHeader_ofLines (by decide) hheader hkeyword hlines
  have hbody : (SourceLine.ofRaws true 2 ([] :: d.links.map Link.toText)).map SourceLine.text = d.links.map Link.toText := by
    rw [SourceLine.map_text_ofRaws, List.filterMap_cons_none (by decide), List.filterMap_map, ← List.filterMap_eq_map]
    have hmargin : List.all ([] : Text) isBlank = true := rfl
    exact List.filterMap_congr fun k hk => SourceLine.content?_margin true hmargin (hcontent k hk)
  unfold read render
  rw [hsplit]
  simp only [checkHeader]
  rw [if_pos (by decide), mapM_link hplain hbody, hnodes]
  change Except.ok _ = _
  rw [foldl_addLink, foldl_namedBy_withoutMinusZero]
  rfl

/-- names with a comment mark, with the delimiter, quotes and a blank, and with semicolons; minus zero, and a small number -/
def murky : Text := "sankey\n\" %% a, \"\"b\"\"\" , c;\u00a0,-0 ;\n%;,\"d\"\t,1.25e-7"

/-- what is read of it -/
def murkyDiagram : SankeyDiagram where
  nodes := ⟨[(" %% a, \"b\"", ⟨" %% a, \"b\"", " %% a, \"b\""⟩), ("c;", ⟨"c;", "c;"⟩), ("%;", ⟨"%;", "%;"⟩), ("d", ⟨"d", "d"⟩)],
    by decide⟩
  links := [⟨" %% a, \"b\"", "c;", ⟨true, 0⟩⟩, ⟨"%;", "d", ⟨false, 4503818394225995149⟩⟩]

theorem read_render_of_read_murky : read murky = .ok murkyDiagram ∧ (∀ k ∈ murkyDiagram.links, k.value.isFinite = true) ∧
    read (render murkyDiagram) = .ok { murkyDiagram with links := murkyDiagram.links.map Link.withoutMinusZero } := by
  have hread : read murky = .ok murkyDiagram := by decide +kernel
  have hfinite : ∀ k ∈ murkyDiagram.links, k.value.isFinite = true := by decide
  exact ⟨hread, hfinite, read_render_of_read hread hfinite⟩

/-- a flow that is taken for infinite -/
def overflowing : SankeyDiagram where
  nodes := ⟨[("A", ⟨"A", "A"⟩), ("B", ⟨"B", "B"⟩)], by decide⟩
  links := [⟨"A", "B", ⟨false, Binary64.infinityRank⟩⟩]

/-- an infinite flow is read, and what it is written as is refused -/
theorem read_render_overflowing : read "sankey-beta\nA,B,1e400" = .ok overflowing ∧
    render overflowing = "sankey-beta\n\nA,B,inf" ∧ read (render overflowing) = .error ⟨3, 1, .expectedNumber "inf"⟩ :=
  ⟨by decide +kernel, by decide, by decide +kernel⟩

end DiagramText.SankeyDiagram

/-
Readers are blind to the numbers of lines. Each part of a reader commutes with `renumber`: a step with a line under another
number leads to the same state, with the lines that it remembers under their other numbers, or complains of the same at the line
under its other number. So every dialect but that of pie charts has a `LineReader` (`lineReader`).
-/
import DiagramText.Proofs.LineNumbers.Lines
import DiagramText.Proofs.Sequence.Numbers

namespace DiagramText

open DiagramText.Text

variable {f : Nat → Nat}

/-! ## Charts, journeys and timelines -/

/-- a reader that remembers no line -/
theorem foldlM_renumber {σ : Type} {step : σ → SourceLine → Except ParseError σ}
    (h : ∀ p l, step p (l.renumber f) = (step p l).mapError (ParseError.renumber f)) (ls : List SourceLine) (p : σ) :
    (ls.map (SourceLine.renumber f)).foldlM step p = (ls.foldlM step p).mapError (ParseError.renumber f) := by
  rw [← transport_id]
  refine foldlM_transport (g := id) (fun p l => ?_) ls p
  rw [transport_id]
  exact h p l

namespace QuadrantChart

theorem readLine_renumber (c : QuadrantChart) (l : SourceLine) :
    readLine c (l.renumber f) = (readLine c l).mapError (ParseError.renumber f) := by
  rw [readLine, readLine, SourceLine.text_renumber]
  cases Line.read? l.text <;> rfl

/-- how a quadrant chart is read -/
def lineReader : LineReader .quadrant :=
  .ofMalformed .quadrant true Diagram.quadrant (fun _ body => body.foldlM readLine {}) (fun _ => rfl)
    (fun _ _ body => foldlM_renumber readLine_renumber body _) fun _ _ => rfl

end QuadrantChart

namespace Timeline

theorem readLine_renumber (d : Timeline) (l : SourceLine) :
    readLine d (l.renumber f) = (readLine d l).mapError (ParseError.renumber f) := by
  rw [readLine, readLine, SourceLine.text_renumber]
  cases Line.read l.text with
  | events es =>
    dsimp only
    cases continue? es d.sections <;> rfl
  | _ => rfl

/-- how a timeline is read -/
def lineReader : LineReader .timeline :=
  .ofMalformed .timeline false Diagram.timeline (fun _ body => body.foldlM readLine {}) (fun _ => rfl)
    (fun _ _ body => foldlM_renumber readLine_renumber body _) fun _ _ => rfl

end Timeline

namespace Journey

theorem task_renumber (t : TaskText) (l : SourceLine) : t.task (l.renumber f) = (t.task l).mapError (ParseError.renumber f) := by
  rw [TaskText.task, TaskText.task, SourceLine.number?_renumber, mapError_map]
  rfl

theorem readLine_renumber (d : Journey) (l : SourceLine) :
    readLine d (l.renumber f) = (readLine d l).mapError (ParseError.renumber f) := by
  rw [readLine, readLine, SourceLine.text_renumber]
  cases Line.read? l.text with
  | none => rfl
  | some line =>
    cases line with
    | task t =>
      dsimp only
      rw [task_renumber, mapError_map]
    | _ => rfl

/-- how a user journey is read -/
def lineReader : LineReader .journey :=
  .ofMalformed .journey false Diagram.journey (fun _ body => body.foldlM readLine {}) (fun _ => rfl)
    (fun _ _ body => foldlM_renumber readLine_renumber body _) fun _ _ => rfl

end Journey

theorem Record.split_renumber (delimiter : Text) (l : SourceLine) (offset : Int) (t : Text) :
    Record.split delimiter (l.renumber f) offset t = (Record.split delimiter l offset t).mapError (ParseError.renumber f) := by
  rw [Record.split, Record.split]
  cases Record.fields delimiter t.length t with
  | ok fields => rfl
  | error fault => cases fault <;> rfl

namespace XYChart

theorem axisTitle_renumber (l : SourceLine) (t : Text) :
    axisTitle (l.renumber f) t = (axisTitle l t).mapError (ParseError.renumber f) := by
  unfold axisTitle
  split <;> try rfl
  · split <;> rfl
  · dsimp only
    split <;> rfl

theorem range_renumber (l : SourceLine) (title : Option Text) (t : Text) :
    range (l.renumber f) title t = (range l title t).mapError (ParseError.renumber f) := by
  unfold range
  split
  · rfl
  · dsimp only
    split <;> rfl

theorem categories_renumber (l : SourceLine) (t : Text) :
    categories (l.renumber f) t = (categories l t).mapError (ParseError.renumber f) := by
  unfold categories
  split
  · split
    · rfl
    · exact Record.split_renumber "," l 0 t.dropLast
  · rfl

theorem readXAxis_renumber (l : SourceLine) (t : Text) :
    readXAxis (l.renumber f) t = (readXAxis l t).mapError (ParseError.renumber f) := by
  rw [readXAxis, readXAxis, axisTitle_renumber]
  refine mapError_bind _ fun x => ?_
  obtain ⟨title, body⟩ := x
  dsimp only
  split
  · rw [categories_renumber, mapError_map]
  · rw [range_renumber, mapError_map]

theorem readYAxis_renumber (l : SourceLine) (t : Text) :
    readYAxis (l.renumber f) t = (readYAxis l t).mapError (ParseError.renumber f) := by
  rw [readYAxis, readYAxis, axisTitle_renumber]
  refine mapError_bind _ fun x => ?_
  obtain ⟨title, body⟩ := x
  dsimp only
  split
  · rfl
  · exact range_renumber l title body

theorem readSeries_renumber (l : SourceLine) (s : SeriesText) :
    s.read (l.renumber f) = (s.read l).mapError (ParseError.renumber f) := by
  rw [SeriesText.read, SeriesText.read, ← mapError_map]
  split
  · rfl
  · rw [mapM_mapError fun token => SourceLine.number?_renumber l _ token]
    rfl

theorem readLine_renumber (c : XYChart) (l : SourceLine) :
    readLine c (l.renumber f) = (readLine c l).mapError (ParseError.renumber f) := by
  rw [readLine, readLine, SourceLine.text_renumber]
  cases Line.read? l.text with
  | none => rfl
  | some line =>
    cases line with
    | xAxis text =>
      dsimp only
      rw [readXAxis_renumber, mapError_map]
    | yAxis text =>
      dsimp only
      rw [readYAxis_renumber, mapError_map]
    | series s =>
      dsimp only
      rw [readSeries_renumber, mapError_map]
    | _ => rfl

theorem headerIsHorizontal_renumber (x : Option (SourceLine × Text)) :
    headerIsHorizontal (x.map (renumberHeader f)) = (headerIsHorizontal x).mapError (ParseError.renumber f) := by
  cases x with
  | none => rfl
  | some x =>
    unfold headerIsHorizontal
    dsimp only [Option.map_some, renumberHeader]
    split_ifs <;> rfl

/-- how a chart over two axes is read -/
def lineReader : LineReader .xychart :=
  .ofMalformed .xychart true Diagram.xychart
    (fun header body => (headerIsHorizontal header).bind fun isHorizontal => body.foldlM readLine { isHorizontal := isHorizontal })
    (fun _ => rfl)
    (fun f header body => by
      rw [headerIsHorizontal_renumber]
      exact mapError_bind _ fun isHorizontal => foldlM_renumber readLine_renumber body _)
    fun _ _ => rfl

end XYChart

/-! ## Diagrams with parts that are opened and closed -/

/-- a reader that remembers lines, of which its result holds none -/
theorem finish_renumber {ε σ α : Type} {step : σ → SourceLine → Except ε σ} {renumber : σ → σ} {e : ε → ε} {finish : σ → Except ε α}
    (h : ∀ p l, step (renumber p) (l.renumber f) = transport renumber e (step p l))
    (hfinish : ∀ p, finish (renumber p) = (finish p).mapError e) (ls : List SourceLine) {p : σ} (hp : renumber p = p) :
    ((ls.map (SourceLine.renumber f)).foldlM step p).bind finish = ((ls.foldlM step p).bind finish).mapError e := by
  have hrun := foldlM_transport h ls p
  rw [hp] at hrun
  rw [hrun]
  exact transport_bind hfinish

namespace EntityDiagram.Progress

/-- remembers the line that opened a block under its other number -/
def renumber (f : Nat → Nat) (p : Progress) : Progress := { p with block := p.block.map fun b => (b.1, b.2.renumber f) }

theorem readLine_renumber (p : Progress) (l : SourceLine) :
    (p.renumber f).readLine (l.renumber f) = transport (renumber f) (ParseError.renumber f) (p.readLine l) := by
  obtain ⟨diagram, block⟩ := p
  cases block with
  | some b =>
    obtain ⟨id, opened⟩ := b
    rw [renumber, Option.map_some, readLine, readLine, SourceLine.text_renumber]
    dsimp only
    by_cases hclose : l.text = "\x7d"
    · rw [if_pos hclose, if_pos hclose]
      rfl
    · rw [if_neg hclose, if_neg hclose, addColumn, addColumn, SourceLine.text_renumber]
      cases Column.read l.text <;> rfl
  | none =>
    rw [renumber, Option.map_none, readLine, readLine, SourceLine.text_renumber]
    dsimp only
    cases Line.read? l.text with
    | none => rfl
    | some line =>
      cases line with
      | accessibility line => rfl
      | direction token =>
        dsimp only [apply]
        cases Direction.ofText? token <;> rfl
      | declare id label opensBlock => cases opensBlock <;> rfl
      | relate text =>
        have hread : text.read (l.renumber f) = (text.read l).mapError (ParseError.renumber f) := by
          rw [RelationText.read, RelationText.read]
          cases cardinality? Cardinality.left text.sourceSymbol with
          | none => rfl
          | some left => cases cardinality? Cardinality.right text.targetSymbol <;> rfl
        dsimp only [apply]
        rw [hread]
        cases text.read l <;> rfl

theorem finish_renumber (p : Progress) : (p.renumber f).finish = p.finish.mapError (ParseError.renumber f) := by
  obtain ⟨diagram, block⟩ := p
  cases block <;> rfl

end EntityDiagram.Progress

/-- how an entity diagram is read -/
def EntityDiagram.lineReader : LineReader .er :=
  .ofMalformed .er true Diagram.er (fun _ body => (body.foldlM Progress.readLine ⟨{}, none⟩).bind Progress.finish) (fun _ => rfl)
    (fun _ _ body => DiagramText.finish_renumber Progress.readLine_renumber Progress.finish_renumber body rfl) fun _ _ => rfl

namespace ClassDiagram.Progress

/-- remembers the lines that opened a namespace and a class body under their other numbers -/
def renumber (f : Nat → Nat) (p : Progress) : Progress :=
  { p with
    openNamespace := p.openNamespace.map fun n => { n with openedAt := n.openedAt.renumber f }
    body := p.body.map fun b => (b.1, b.2.renumber f) }

theorem readLine_renumber (p : Progress) (l : SourceLine) :
    (p.renumber f).readLine (l.renumber f) = transport (renumber f) (ParseError.renumber f) (p.readLine l) := by
  obtain ⟨diagram, openNamespace, body⟩ := p
  cases body with
  | some b =>
    obtain ⟨id, opened⟩ := b
    rw [renumber, Option.map_some, readLine, readLine, SourceLine.text_renumber]
    dsimp only
    cases BodyLine.read l.text <;> cases openNamespace <;> rfl
  | none =>
    rw [renumber, Option.map_none, readLine, readLine, SourceLine.text_renumber]
    dsimp only
    cases Line.read? l.text with
    | none => rfl
    | some line =>
      cases line with
      | direction token =>
        dsimp only [apply]
        cases Direction.ofText? token <;> cases openNamespace <;> rfl
      | declare id generic label opensBody =>
        cases openNamespace with
        | none => cases opensBody <;> rfl
        | some n =>
          dsimp only [apply, Option.map_some, include_]
          by_cases hid : n.classIds.contains id = true
          · rw [if_pos hid, if_pos hid]
            cases opensBody <;> rfl
          · rw [if_neg hid, if_neg hid]
            cases opensBody <;> rfl
      | _ => cases openNamespace <;> rfl

theorem finish_renumber (p : Progress) : (p.renumber f).finish = p.finish.mapError (ParseError.renumber f) := by
  obtain ⟨diagram, openNamespace, body⟩ := p
  cases body <;> cases openNamespace <;> rfl

end ClassDiagram.Progress

/-- how a class diagram is read -/
def ClassDiagram.lineReader : LineReader .classDiagram :=
  .ofMalformed .classDiagram true Diagram.classDiagram
    (fun _ body => (body.foldlM Progress.readLine ⟨{}, none, none⟩).bind Progress.finish) (fun _ => rfl)
    (fun _ _ body => DiagramText.finish_renumber Progress.readLine_renumber Progress.finish_renumber body rfl) fun _ _ => rfl

namespace StateDiagram.Progress

/-- remembers the lines that opened composite states and a note under their other numbers -/
def renumber (f : Nat → Nat) (p : Progress) : Progress :=
  { p with
    composites := p.composites.map fun c => (c.1, c.2.renumber f)
    note := p.note.map fun n => { n with openedAt := n.openedAt.renumber f } }

theorem scope_renumber (p : Progress) : (p.renumber f).scope = p.scope := by
  obtain ⟨assembly, composites, note⟩ := p
  cases composites <;> rfl

theorem apply_renumber (p : Progress) (l : SourceLine) (line : Line) :
    (p.renumber f).apply (l.renumber f) line = transport (renumber f) (ParseError.renumber f) (p.apply l line) := by
  have hscope := p.scope_renumber (f := f)
  cases line with
  | direction d =>
    rw [apply, apply, setDirection, setDirection, hscope]
    cases p.scope <;> rfl
  | openComposite id label =>
    rw [apply, apply, openComposite, openComposite, hscope]
    rfl
  | closeComposite =>
    obtain ⟨assembly, composites, note⟩ := p
    cases composites <;> rfl
  | label id label =>
    rw [apply, apply, hscope]
    rfl
  | pseudo id marker =>
    rw [apply, apply, hscope]
    rfl
  | declare id =>
    rw [apply, apply, hscope]
    rfl
  | transition source target label =>
    rw [apply, apply, addTransition, addTransition, hscope]
    rfl
  | _ => rfl

theorem readLine_renumber (p : Progress) (l : SourceLine) :
    (p.renumber f).readLine (l.renumber f) = transport (renumber f) (ParseError.renumber f) (p.readLine l) := by
  have happly := p.apply_renumber (f := f) l
  obtain ⟨assembly, composites, note⟩ := p
  cases note with
  | some n =>
    rw [renumber, Option.map_some, readLine, readLine, SourceLine.text_renumber]
    dsimp only
    by_cases hend : isEndNote l.text = true
    · rw [if_pos hend, if_pos hend]
      rfl
    · rw [if_neg hend, if_neg hend]
      rfl
  | none =>
    rw [readLine, readLine, SourceLine.text_renumber]
    dsimp only [renumber, Option.map_none] at happly ⊢
    cases Line.read? l.text with
    | none => rfl
    | some line => exact happly line

theorem finish_renumber (p : Progress) : (p.renumber f).finish = p.finish.mapError (ParseError.renumber f) := by
  obtain ⟨assembly, composites, note⟩ := p
  cases note <;> cases composites <;> rfl

end StateDiagram.Progress

/-- how a state diagram is read -/
def StateDiagram.lineReader : LineReader .state :=
  .ofMalformed .state true Diagram.state
    (fun header body => (checkHeader .state header).bind fun _ =>
      (body.foldlM Progress.readLine ⟨⟨{}, []⟩, [], none⟩).bind Progress.finish)
    (fun _ => rfl)
    (fun f header body => by
      rw [checkHeader_renumber]
      exact mapError_bind _ fun _ =>
        DiagramText.finish_renumber Progress.readLine_renumber Progress.finish_renumber body rfl)
    fun _ _ => rfl

namespace Sequence.Progress

/-- remembers the lines that opened blocks and a box under their other numbers -/
def renumber (f : Nat → Nat) (p : Progress) : Progress :=
  { p with
    frames := p.frames.map fun x => { x with openedAt := x.openedAt.renumber f }
    box := p.box.map fun b => { b with openedAt := b.openedAt.renumber f } }

theorem emit_renumber (s : Statement) (p : Progress) : (p.renumber f).emit s = (p.emit s).renumber f := by
  obtain ⟨diagram, frames, box⟩ := p
  cases frames <;> rfl

theorem ensureActor_renumber (id : Text) (p : Progress) : (p.renumber f).ensureActor id = (p.ensureActor id).renumber f := rfl

theorem foldl_ensureActor_renumber (ids : List Text) (p : Progress) :
    ids.foldl (fun p id => p.ensureActor id) (p.renumber f) = (ids.foldl (fun p id => p.ensureActor id) p).renumber f := by
  induction ids generalizing p with
  | nil => rfl
  | cons id ids ih => rw [List.foldl_cons, List.foldl_cons, ensureActor_renumber, ih]

theorem declare_renumber (a : Actor) (p : Progress) : (p.renumber f).declare a = (p.declare a).renumber f := by
  obtain ⟨diagram, frames, box⟩ := p
  cases box with
  | none => rfl
  | some b =>
    simp only [declare, renumber, Option.map_some]
    split <;> rfl

theorem divide_renumber (l : SourceLine) (keyword label : Text) (p : Progress) :
    (p.renumber f).divide (l.renumber f) keyword label = transport (renumber f) (ParseError.renumber f) (p.divide l keyword label) := by
  obtain ⟨diagram, frames, box⟩ := p
  cases frames with
  | nil => rfl
  | cons x xs =>
    have hdivided : Frame.isDividedBy { x with openedAt := x.openedAt.renumber f } keyword = x.isDividedBy keyword := rfl
    rw [divide, divide, renumber, List.map_cons]
    dsimp only
    rw [hdivided]
    cases x.isDividedBy keyword <;> rfl

theorem close_renumber (l : SourceLine) (p : Progress) :
    (p.renumber f).close (l.renumber f) = transport (renumber f) (ParseError.renumber f) (p.close l) := by
  obtain ⟨diagram, frames, box⟩ := p
  cases frames with
  | nil => rfl
  | cons x xs => exact congrArg Except.ok (emit_renumber x.close ⟨diagram, xs, box⟩)

/-- errors at lines, among others -/
theorem transport_malformed {x x' : Except ParseError Progress} (h : x' = transport (renumber f) (ParseError.renumber f) x) :
    x'.mapError .malformed = transport (renumber f) (ReadError.renumber f) (x.mapError .malformed) := by
  rw [h]
  cases x <;> rfl

/-- digits are no numbers of lines -/
theorem mapError_number (t : Option Text) : (t.mapM number).mapError (ReadError.renumber f) = t.mapM number := by
  cases t with
  | none => rfl
  | some t =>
    rw [mapM_number, number]
    cases Integer.read t <;> rfl

theorem apply_renumber (p : Progress) (l : SourceLine) (line : Line) :
    (p.renumber f).apply (l.renumber f) line = transport (renumber f) (ReadError.renumber f) (p.apply l line) := by
  cases line with
  | actor a => exact congrArg Except.ok (declare_renumber a p)
  | openBox label color =>
    obtain ⟨diagram, frames, box⟩ := p
    cases frames <;> rfl
  | note n =>
    refine transport_malformed ?_
    rw [addNote, addNote, foldl_ensureActor_renumber, emit_renumber]
    split <;> rfl
  | divide keyword label => exact transport_malformed (divide_renumber l keyword label p)
  | close => exact transport_malformed (close_renumber l p)
  | activation id active => exact congrArg Except.ok (emit_renumber _ (p.ensureActor id))
  | autonumberOff => exact congrArg Except.ok (emit_renumber _ p)
  | autonumber start step =>
    have hstart := mapError_number (f := f) start
    have hstep := mapError_number (f := f) step
    rw [apply, apply]
    cases hx : start.mapM number with
    | error e =>
      rw [hx] at hstart
      exact congrArg Except.error (Except.error.inj hstart).symm
    | ok start =>
      cases hy : step.mapM number with
      | error e =>
        rw [hy] at hstep
        exact congrArg Except.error (Except.error.inj hstep).symm
      | ok step => exact congrArg Except.ok (emit_renumber _ p)
  | message m => exact congrArg Except.ok (emit_renumber _ ((p.ensureActor m.source).ensureActor m.target))
  | _ => rfl

theorem readLine_renumber (p : Progress) (l : SourceLine) :
    (p.renumber f).readLine (l.renumber f) = transport (renumber f) (ReadError.renumber f) (p.readLine l) := by
  have happly := p.apply_renumber (f := f) l
  rw [readLine, readLine, SourceLine.text_renumber]
  cases actor? l.text with
  | some a => exact happly (.actor a)
  | none =>
    obtain ⟨diagram, frames, box⟩ := p
    cases box with
    | some b =>
      dsimp only [renumber, Option.map_some]
      by_cases hend : l.text = "end"
      · rw [if_pos hend, if_pos hend]
        rfl
      · rw [if_neg hend, if_neg hend]
        rfl
    | none =>
      dsimp only [renumber, Option.map_none] at happly ⊢
      cases Line.read? l.text with
      | none => rfl
      | some line => exact happly line

theorem finish_renumber (p : Progress) :
    (p.renumber f).finish.mapError ReadError.malformed = (p.finish.mapError ReadError.malformed).mapError (ReadError.renumber f) := by
  obtain ⟨diagram, frames, box⟩ := p
  cases box <;> cases frames <;> rfl

end Sequence.Progress

/-- how a sequence diagram is read -/
def Sequence.lineReader : LineReader .sequence where
  strip := true
  run _ body := ((body.foldlM Progress.readLine ⟨{}, [], none⟩).bind fun p => p.finish.mapError .malformed).map Diagram.sequence
  read_eq _ := rfl
  run_renumber f _ body := by
    rw [← mapError_map]
    exact congrArg _ (DiagramText.finish_renumber Progress.readLine_renumber Progress.finish_renumber body rfl)
  run_keyword _ _ := rfl

/-! ## Mind maps and Sankey diagrams -/

namespace MindMap

/-- the item on its line under another number -/
def Item.renumber (f : Nat → Nat) (i : Item) : Item := { i with line := i.line.renumber f }

/-- the tree, its root on its line under another number -/
def Rooted.renumber (f : Nat → Nat) (r : Rooted) : Rooted := { r with item := r.item.renumber f }

theorem readLine_renumber (items : List Item) (l : SourceLine) : readLine (items.map (Item.renumber f)) (l.renumber f)
    = transport (List.map (Item.renumber f)) (ParseError.renumber f) (readLine items l) := by
  rw [readLine, readLine, SourceLine.text_renumber]
  cases Line.read l.text with
  | topic t => rfl
  | _ => cases items <;> rfl

/-- only widths decide what stands below what -/
theorem plant_renumber (i : Item) (rs : List Rooted) :
    plant (i.renumber f) (rs.map (Rooted.renumber f)) = (plant i rs).map (Rooted.renumber f) := by
  rw [plant, plant, List.takeWhile_map, List.dropWhile_map, List.map_map]
  rfl

theorem forest_renumber (items : List Item) : forest (items.map (Item.renumber f)) = (forest items).map (Rooted.renumber f) := by
  induction items with
  | nil => rfl
  | cons i items ih =>
    change plant (i.renumber f) (forest (items.map (Item.renumber f))) = (plant i (forest items)).map (Rooted.renumber f)
    rw [ih, plant_renumber]

theorem ofForest_renumber (rs : List Rooted) : ofForest (rs.map (Rooted.renumber f)) = (ofForest rs).mapError (ParseError.renumber f) := by
  cases rs with
  | nil => rfl
  | cons r rs => cases rs <;> rfl

/-- how a mind map is read -/
def lineReader : LineReader .mindmap :=
  .ofMalformed .mindmap false Diagram.mindmap
    (fun _ body => (body.foldlM readLine []).bind fun items => ofForest (forest items.reverse)) (fun _ => rfl)
    (fun f _ body => finish_renumber (f := f) readLine_renumber
      (fun items => by rw [← List.map_reverse, forest_renumber, ofForest_renumber]) body rfl)
    fun _ _ => rfl

end MindMap

namespace SankeyDiagram

theorem link_renumber (l : SourceLine) : link (l.renumber f) = (link l).mapError (ParseError.renumber f) := by
  rw [link, link, SourceLine.text_renumber, Record.split_renumber]
  refine mapError_bind _ fun fields => ?_
  unfold linkOf
  split
  · split
    · rfl
    · rw [SourceLine.number?_renumber, mapError_map]
  · rfl

/-- how a Sankey diagram is read -/
def lineReader : LineReader .sankey :=
  .ofMalformed .sankey true Diagram.sankey
    (fun header body => (checkHeader .sankey header).bind fun _ => (body.mapM link).bind fun links => .ok (links.foldl addLink {}))
    (fun _ => rfl)
    (fun f header body => by
      have hlinks : (body.map (SourceLine.renumber f)).mapM link = (body.mapM link).mapError (ParseError.renumber f) := by
        rw [List.mapM_map]
        exact mapM_mapError link_renumber body
      rw [checkHeader_renumber]
      refine mapError_bind _ fun _ => ?_
      rw [hlinks]
      exact mapError_bind _ fun links => rfl)
    fun _ _ => rfl

end SankeyDiagram

/-! ## Flowcharts -/

namespace Flowchart

theorem chainTail_renumber (l : SourceLine) (t : Text) :
    chainTail (l.renumber f) t = (chainTail l t).mapError (ParseError.renumber f) := by
  fun_induction chainTail l t with
  | case1 => rw [chainTail, if_pos rfl]; rfl
  | case2 t ht offset hlink =>
    rw [chainTail, if_neg ht]
    split
    · rfl
    · rename_i hsome
      rw [hlink] at hsome
      cases hsome
  | case3 t ht offset form after hlink hgroup =>
    rw [chainTail, if_neg ht]
    split
    · rename_i hnone
      rw [hlink] at hnone
      cases hnone
    · rename_i hsome
      rw [hlink, Option.some.injEq, Prod.mk.injEq] at hsome
      obtain ⟨rfl, rfl⟩ := hsome
      split
      · rfl
      · rename_i hsome
        rw [hgroup] at hsome
        cases hsome
  | case4 t ht form after hlink group rest hgroup ih =>
    rw [chainTail, if_neg ht]
    split
    · rename_i hnone
      rw [hlink] at hnone
      cases hnone
    · rename_i hsome
      rw [hlink, Option.some.injEq, Prod.mk.injEq] at hsome
      obtain ⟨rfl, rfl⟩ := hsome
      split
      · rename_i hnone
        rw [hgroup] at hnone
        cases hnone
      · rename_i hsome
        rw [hgroup, Option.some.injEq, Prod.mk.injEq] at hsome
        obtain ⟨rfl, rfl⟩ := hsome
        rw [ih, mapError_map]

theorem readChain_renumber (l : SourceLine) : readChain (l.renumber f) = (readChain l).mapError (ParseError.renumber f) := by
  rw [readChain, readChain, SourceLine.text_renumber]
  cases group? l.text with
  | none => rfl
  | some x =>
    dsimp only
    rw [chainTail_renumber, mapError_map]

theorem directionAt_renumber (l : SourceLine) (token : Text) (offset : Int) :
    directionAt (l.renumber f) token offset = (directionAt l token offset).mapError (ParseError.renumber f) := by
  rw [directionAt, directionAt]
  cases Direction.ofText? token <;> rfl

theorem subgraphHead_renumber (l : SourceLine) (t : Text) :
    subgraphHead (l.renumber f) t = (subgraphHead l t).mapError (ParseError.renumber f) := by
  rw [subgraphHead, subgraphHead]
  cases bracketed? t with
  | some head => rfl
  | none =>
    dsimp only
    split
    · rfl
    · split <;> rfl

theorem statement_renumber (l : SourceLine) : Statement.read (l.renumber f) = (Statement.read l).mapError (ParseError.renumber f) := by
  rw [Statement.read, Statement.read, SourceLine.text_renumber]
  cases keywordStatement? l.text with
  | some s => rfl
  | none =>
    dsimp only
    cases Direction.statement? l.text with
    | some x =>
      dsimp only
      rw [directionAt_renumber, mapError_map]
    | none =>
      dsimp only
      split
      · rw [subgraphHead_renumber, mapError_map]
      · split
        · rfl
        · rw [readChain_renumber, mapError_map]

/-- remembers the lines that opened subgraphs under their other numbers -/
def Assembly.renumber (f : Nat → Nat) (a : Assembly SourceLine) : Assembly SourceLine :=
  { a with open_ := a.open_.map fun o => { o with opener := o.opener.renumber f } }

namespace Assembly

variable (a : Assembly SourceLine)

theorem inInnermost_renumber (g : Subgraph → Subgraph) : (a.renumber f).inInnermost g = (a.inInnermost g).renumber f := by
  obtain ⟨chart, open_⟩ := a
  cases open_ <;> rfl

theorem meet_renumber (m : Mention) : (a.renumber f).meet m = (a.meet m).renumber f := by
  have hdefine : ∀ n : Node, (a.renumber f).defineNode n = (a.defineNode n).renumber f := fun n => by
    rw [defineNode, defineNode]
    exact inInnermost_renumber { a with chart := _ } _
  have hensure : ∀ id : Text, (a.renumber f).ensureNode id = (a.ensureNode id).renumber f := fun id => by
    rw [ensureNode, ensureNode]
    exact inInnermost_renumber { a with chart := _ } _
  obtain ⟨id, shaped, className⟩ := m
  rw [meet, meet]
  cases shaped <;> cases className <;> simp only [hdefine, hensure] <;> rfl

theorem meetGroup_renumber (g : Group) : (a.renumber f).meetGroup g = (a.meetGroup g).renumber f := by
  induction g generalizing a with
  | nil => rfl
  | cons m g ih =>
    change ((a.renumber f).meet m).meetGroup g = ((a.meet m).meetGroup g).renumber f
    rw [meet_renumber, ih]

/-- changes of the chart alone -/
theorem foldl_renumber {ι : Type} {step : Assembly SourceLine → ι → Assembly SourceLine}
    (h : ∀ a x, step (a.renumber f) x = (step a x).renumber f) (xs : List ι) :
    xs.foldl step (a.renumber f) = (xs.foldl step a).renumber f := by
  induction xs generalizing a with
  | nil => rfl
  | cons x xs ih => rw [List.foldl_cons, List.foldl_cons, h, ih]

theorem follow_renumber (from_ : Group) (links : List (LinkForm × Group)) :
    (a.renumber f).follow from_ links = (a.follow from_ links).renumber f := by
  induction links generalizing a from_ with
  | nil => rfl
  | cons x links ih =>
    obtain ⟨form, group⟩ := x
    rw [follow, follow, meetGroup_renumber, foldl_renumber _ fun a l => rfl, ih]

theorem closeSubgraph?_renumber : (a.renumber f).closeSubgraph? = a.closeSubgraph?.map (renumber f) := by
  obtain ⟨chart, open_⟩ := a
  cases open_ with
  | nil => rfl
  | cons o os => cases os <;> rfl

theorem setDirection_renumber (d : Direction) : (a.renumber f).setDirection d = (a.setDirection d).renumber f := by
  obtain ⟨chart, open_⟩ := a
  cases open_ <;> rfl

theorem apply_renumber (l : SourceLine) (s : Statement) :
    (a.renumber f).apply (l.renumber f) s = transport (renumber f) (ParseError.renumber f) (a.apply l s) := by
  cases s with
  | classDef names style => exact congrArg Except.ok (foldl_renumber a (fun _ _ => rfl) names)
  | assignClass ids name => exact congrArg Except.ok (foldl_renumber a (fun _ _ => rfl) ids)
  | style ids style => exact congrArg Except.ok (foldl_renumber a (fun _ _ => rfl) ids)
  | linkStyle keys style => exact congrArg Except.ok (foldl_renumber a (fun _ _ => rfl) keys)
  | direction d => exact congrArg Except.ok (setDirection_renumber a d)
  | closeSubgraph =>
    rw [apply, apply, closeSubgraph?_renumber]
    cases a.closeSubgraph? <;> rfl
  | chain c =>
    rw [apply, apply, meetGroup_renumber, follow_renumber]
    rfl
  | _ => rfl

theorem readLine_renumber (l : SourceLine) :
    (a.renumber f).readLine (l.renumber f) = transport (renumber f) (ParseError.renumber f) (a.readLine l) := by
  rw [readLine, readLine, statement_renumber]
  cases Statement.read l with
  | error e => rfl
  | ok s => exact apply_renumber a l s

theorem finish_renumber : (a.renumber f).finish = a.finish.mapError (ParseError.renumber f) := by
  obtain ⟨chart, open_⟩ := a
  cases open_ <;> rfl

end Assembly

theorem headerDirection_renumber (x : Option (SourceLine × Text)) :
    headerDirection (x.map (renumberHeader f)) = (headerDirection x).mapError (ParseError.renumber f) := by
  cases x with
  | none => rfl
  | some x =>
    obtain ⟨l, rest⟩ := x
    rw [Option.map_some, renumberHeader, headerDirection, headerDirection]
    dsimp only
    split
    · rfl
    · exact directionAt_renumber l _ _

/-- how a flowchart is read -/
def lineReader : LineReader .flowchart :=
  .ofMalformed .flowchart true Diagram.flowchart
    (fun header body => (headerDirection header).bind fun direction =>
      (body.foldlM Assembly.readLine ⟨{ direction := direction }, []⟩).bind Assembly.finish)
    (fun _ => rfl)
    (fun f header body => by
      rw [headerDirection_renumber]
      exact mapError_bind _ fun direction =>
        finish_renumber Assembly.readLine_renumber Assembly.finish_renumber body rfl)
    fun _ _ => rfl

end Flowchart

/-! ## Any dialect -/

/-- **every dialect but that of pie charts is read line by line** -/
def Dialect.lineReader : (d : Dialect) → d ≠ .pie → LineReader d
  | .flowchart, _ => Flowchart.lineReader
  | .sequence, _ => Sequence.lineReader
  | .classDiagram, _ => ClassDiagram.lineReader
  | .state, _ => StateDiagram.lineReader
  | .pie, h => absurd rfl h
  | .er, _ => EntityDiagram.lineReader
  | .mindmap, _ => MindMap.lineReader
  | .quadrant, _ => QuadrantChart.lineReader
  | .sankey, _ => SankeyDiagram.lineReader
  | .timeline, _ => Timeline.lineReader
  | .journey, _ => Journey.lineReader
  | .xychart, _ => XYChart.lineReader

end DiagramText

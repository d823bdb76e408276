/-
Readers look at the texts of lines. Of anything else that a line holds they only make the place of an error, and those that
remember a line, for the case that what it opens is never closed, are left in the same state but for that line
(`toOption_foldlM_congr`). Two texts whose lines say the same are read as the same diagram, or neither is read.
-/
import DiagramText.Diagram
import DiagramText.Proofs.Flowchart.Reading
import DiagramText.Proofs.Text.Contents

namespace DiagramText

open DiagramText.Text

/-! ## Results without their errors -/

section

variable {ε ε' α β : Type}

theorem toOption_map (f : α → β) (x : Except ε α) : (x.map f).toOption = x.toOption.map f := by cases x <;> rfl

theorem toOption_bind (f : α → Except ε β) (x : Except ε α) : (x.bind f).toOption = x.toOption.bind fun a => (f a).toOption := by
  cases x <;> rfl

theorem toOption_bind_congr {x x' : Except ε α} {f f' : α → Except ε β} (hx : x.toOption = x'.toOption)
    (hf : ∀ a, (f a).toOption = (f' a).toOption) : (x.bind f).toOption = (x'.bind f').toOption := by
  rw [toOption_bind, toOption_bind, hx]
  exact congrArg _ (funext hf)

theorem toOption_mapError (f : ε → ε') (x : Except ε α) : (x.mapError f).toOption = x.toOption := by cases x <;> rfl

theorem toOption_mapM_congr {ι : Type} {f g : ι → Except ε α} (h : ∀ x, (f x).toOption = (g x).toOption) (xs : List ι) :
    (xs.mapM f).toOption = (xs.mapM g).toOption := by
  induction xs with
  | nil => rfl
  | cons x xs ih =>
    have hcons : ∀ k : ι → Except ε α, (List.mapM k (x :: xs)).toOption
        = (k x).toOption.bind fun a => (xs.mapM k).toOption.map (a :: ·) := by
      intro k
      rw [List.mapM_cons]
      cases k x with
      | error e => rfl
      | ok a => cases xs.mapM k <;> rfl
    rw [hcons, hcons, h x, ih]

end

/-! ## Lines and their texts -/

/-- a line of which only the text is known -/
def SourceLine.bare (l : SourceLine) : SourceLine := ⟨0, 0, l.text, []⟩

theorem SourceLine.bare_congr {l l' : SourceLine} (h : l.text = l'.text) : l.bare = l'.bare := by rw [bare, bare, h]

variable {strip : Bool} {t t' : Text} {ls ls' : List SourceLine}

/-- **a reader that looks at the texts of lines**, and remembers other things of them only in what `erase` takes away, is led to
the same state by lines of the same texts -/
theorem toOption_foldlM_congr {ε σ : Type} {step : σ → SourceLine → Except ε σ} {erase : σ → σ}
    (h : ∀ p l, (step p l).toOption.map erase = (step (erase p) l.bare).toOption.map erase)
    (hls : ls.map SourceLine.text = ls'.map SourceLine.text) {p p' : σ} (hp : erase p = erase p') :
    (ls.foldlM step p).toOption.map erase = (ls'.foldlM step p').toOption.map erase := by
  induction ls generalizing ls' p p' with
  | nil =>
    obtain rfl := List.map_eq_nil_iff.1 hls.symm
    exact congrArg some hp
  | cons l ls ih =>
    cases ls' with
    | nil => exact absurd hls (by simp)
    | cons l' ls' =>
      obtain ⟨htext, hrest⟩ := List.cons.inj hls
      have hstep : (step p l).toOption.map erase = (step p' l').toOption.map erase := by
        rw [h p l, h p' l', hp, SourceLine.bare_congr htext]
      rw [List.foldlM_cons, List.foldlM_cons]
      cases hq : step p l with
      | error e =>
        cases hq' : step p' l' with
        | error e' => rfl
        | ok q' =>
          rw [hq, hq'] at hstep
          exact absurd hstep (by simp [Except.toOption])
      | ok q =>
        cases hq' : step p' l' with
        | error e' =>
          rw [hq, hq'] at hstep
          exact absurd hstep (by simp [Except.toOption])
        | ok q' =>
          rw [hq, hq'] at hstep
          exact ih hrest (Option.some.inj hstep)

/-- what a header and the lines below it say -/
theorem splitHeader_congr (dialect : Dialect) (h : ls.map SourceLine.text = ls'.map SourceLine.text) :
    (splitHeader dialect ls).1.map (fun x => (x.1.text, x.2)) = (splitHeader dialect ls').1.map (fun x => (x.1.text, x.2)) ∧
      (splitHeader dialect ls).2.map SourceLine.text = (splitHeader dialect ls').2.map SourceLine.text := by
  cases ls with
  | nil =>
    obtain rfl := List.map_eq_nil_iff.1 h.symm
    exact ⟨rfl, rfl⟩
  | cons l ls =>
    cases ls' with
    | nil => exact absurd h (by simp)
    | cons l' ls' =>
      obtain ⟨htext, hrest⟩ := List.cons.inj h
      rw [splitHeader, splitHeader, htext]
      cases dialect.header? l'.text with
      | none => exact ⟨rfl, h⟩
      | some rest => exact ⟨by rw [Option.map_some, Option.map_some, htext], hrest⟩

/-- headers that say the same are the same but for where they stand -/
theorem header_congr {x x' : Option (SourceLine × Text)} (h : x.map (fun y => (y.1.text, y.2)) = x'.map (fun y => (y.1.text, y.2))) :
    (x = none ∧ x' = none) ∨ ∃ l l' rest, x = some (l, rest) ∧ x' = some (l', rest) ∧ l.text = l'.text := by
  cases x with
  | none => exact Or.inl ⟨rfl, Option.map_eq_none_iff.1 h.symm⟩
  | some y =>
    obtain ⟨⟨l', rest'⟩, rfl, hy⟩ := Option.map_eq_some_iff.1 h.symm
    obtain ⟨l, rest⟩ := y
    obtain ⟨htext, rfl⟩ := Prod.mk.inj hy
    exact Or.inr ⟨l, l', _, rfl, rfl, htext.symm⟩

theorem map_text_congr (h : contents strip t = contents strip t') :
    (sourceLines strip t).map SourceLine.text = (sourceLines strip t').map SourceLine.text :=
  (map_text_sourceLines strip t).trans (h.trans (map_text_sourceLines strip t').symm)

/-- a reader that remembers nothing of lines but their texts -/
theorem toOption_foldlM_body_congr {ε σ : Type} {step : σ → SourceLine → Except ε σ}
    (h : ∀ p l, (step p l).toOption = (step p l.bare).toOption) (dialect : Dialect) (hc : contents strip t = contents strip t')
    (p : σ) :
    ((splitHeader dialect (sourceLines strip t)).2.foldlM step p).toOption
      = ((splitHeader dialect (sourceLines strip t')).2.foldlM step p).toOption := by
  have hstep : ∀ p l, (step p l).toOption.map id = (step (id p) l.bare).toOption.map id := fun p l => by rw [h p l, id_eq]
  have hrun := toOption_foldlM_congr hstep (splitHeader_congr dialect (map_text_congr hc)).2 (rfl : id p = id p)
  rwa [Option.map_id, id_eq, id_eq] at hrun

/-- a reader whose last state says what is read, in what `erase` leaves of it -/
theorem toOption_finish_congr {ε σ α : Type} {step : σ → SourceLine → Except ε σ} {erase : σ → σ} {finish : σ → Except ε α}
    (h : ∀ p l, (step p l).toOption.map erase = (step (erase p) l.bare).toOption.map erase)
    (hfinish : ∀ p, (finish p).toOption = (finish (erase p)).toOption) (dialect : Dialect)
    (hc : contents strip t = contents strip t') (p : σ) :
    (((splitHeader dialect (sourceLines strip t)).2.foldlM step p).bind finish).toOption
      = (((splitHeader dialect (sourceLines strip t')).2.foldlM step p).bind finish).toOption := by
  have hbind : ∀ x : Except ε σ, (x.bind finish).toOption = (x.toOption.map erase).bind fun p => (finish p).toOption := by
    intro x
    rw [toOption_bind, Option.bind_map]
    exact congrArg _ (funext hfinish)
  rw [hbind, hbind, toOption_foldlM_congr h (splitHeader_congr dialect (map_text_congr hc)).2 rfl]

theorem toOption_number? (l : SourceLine) (offset offset' : Int) (token : Text) :
    (l.number? offset token).toOption = (l.bare.number? offset' token).toOption := by
  rw [SourceLine.number?, SourceLine.number?]
  cases Decimal.ofText? (trim token) <;> rfl

/-! ## Charts, journeys and timelines -/

namespace QuadrantChart

theorem toOption_readLine (c : QuadrantChart) (l : SourceLine) : (readLine c l).toOption = (readLine c l.bare).toOption := by
  rw [readLine, readLine, SourceLine.bare]
  dsimp only
  cases Line.read? l.text <;> rfl

theorem toOption_read_congr (h : contents true t = contents true t') : (read t).toOption = (read t').toOption :=
  toOption_foldlM_body_congr toOption_readLine .quadrant h {}

end QuadrantChart

namespace Timeline

theorem toOption_readLine (d : Timeline) (l : SourceLine) : (readLine d l).toOption = (readLine d l.bare).toOption := by
  rw [readLine, readLine, SourceLine.bare]
  dsimp only
  cases Line.read l.text with
  | events es =>
    dsimp only
    cases continue? es d.sections <;> rfl
  | _ => rfl

theorem toOption_read_congr (h : contents false t = contents false t') : (read t).toOption = (read t').toOption :=
  toOption_foldlM_body_congr toOption_readLine .timeline h {}

end Timeline

namespace Journey

theorem toOption_readLine (d : Journey) (l : SourceLine) : (readLine d l).toOption = (readLine d l.bare).toOption := by
  have htext : l.bare.text = l.text := rfl
  rw [readLine, readLine, htext]
  cases Line.read? l.text with
  | none => rfl
  | some line =>
    cases line with
    | task t =>
      dsimp only
      rw [toOption_map, toOption_map, TaskText.task, TaskText.task, toOption_map, toOption_map, toOption_number?]
    | _ => rfl

theorem toOption_read_congr (h : contents false t = contents false t') : (read t).toOption = (read t').toOption :=
  toOption_foldlM_body_congr toOption_readLine .journey h {}

end Journey

namespace XYChart

theorem toOption_axisTitle (l : SourceLine) (t : Text) : (axisTitle l t).toOption = (axisTitle l.bare t).toOption := by
  unfold axisTitle
  split <;> try rfl
  split <;> rfl

theorem toOption_range (l : SourceLine) (title : Option Text) (t : Text) :
    (range l title t).toOption = (range l.bare title t).toOption := by
  unfold range
  split
  · rfl
  · dsimp only
    split <;> rfl

theorem toOption_categories (l : SourceLine) (t : Text) : (categories l t).toOption = (categories l.bare t).toOption := by
  unfold categories
  split
  · split
    · rfl
    · rw [Record.split, Record.split]
      split <;> rfl
  · rfl

theorem toOption_readXAxis (l : SourceLine) (t : Text) : (readXAxis l t).toOption = (readXAxis l.bare t).toOption := by
  refine toOption_bind_congr (toOption_axisTitle l t) fun x => ?_
  obtain ⟨title, body⟩ := x
  dsimp only
  split
  · rw [toOption_map, toOption_map, toOption_categories]
  · rw [toOption_map, toOption_map, toOption_range]

theorem toOption_readYAxis (l : SourceLine) (t : Text) : (readYAxis l t).toOption = (readYAxis l.bare t).toOption := by
  refine toOption_bind_congr (toOption_axisTitle l t) fun x => ?_
  obtain ⟨title, body⟩ := x
  dsimp only
  split
  · rfl
  · exact toOption_range l title body

theorem toOption_readSeries (l : SourceLine) (s : SeriesText) : (s.read l).toOption = (s.read l.bare).toOption := by
  rw [SeriesText.read, SeriesText.read, toOption_map, toOption_map]
  split
  · rfl
  · rw [toOption_mapM_congr fun token => toOption_number? l _ _ token]

theorem toOption_readLine (c : XYChart) (l : SourceLine) : (readLine c l).toOption = (readLine c l.bare).toOption := by
  have hbare : l.bare.text = l.text := rfl
  rw [readLine, readLine, hbare]
  cases Line.read? l.text with
  | none => rfl
  | some line =>
    cases line with
    | xAxis text =>
      dsimp only
      rw [toOption_map, toOption_map, toOption_readXAxis]
    | yAxis text =>
      dsimp only
      rw [toOption_map, toOption_map, toOption_readYAxis]
    | series s =>
      dsimp only
      rw [toOption_map, toOption_map, toOption_readSeries]
    | _ => rfl

theorem toOption_headerIsHorizontal {x x' : Option (SourceLine × Text)}
    (h : x.map (fun y => (y.1.text, y.2)) = x'.map (fun y => (y.1.text, y.2))) :
    (headerIsHorizontal x).toOption = (headerIsHorizontal x').toOption := by
  rcases header_congr h with ⟨rfl, rfl⟩ | ⟨l, l', rest, rfl, rfl, -⟩
  · rfl
  · unfold headerIsHorizontal
    dsimp only
    split
    · rfl
    · split <;> rfl

theorem toOption_read_congr (h : contents true t = contents true t') : (read t).toOption = (read t').toOption := by
  have hread : ∀ t, read t = (headerIsHorizontal (splitHeader .xychart (sourceLines true t)).1).bind fun isHorizontal =>
      (splitHeader .xychart (sourceLines true t)).2.foldlM readLine { isHorizontal := isHorizontal } := fun t => rfl
  rw [hread, hread]
  exact toOption_bind_congr (toOption_headerIsHorizontal (splitHeader_congr .xychart (map_text_congr h)).1) fun isHorizontal =>
    toOption_foldlM_body_congr toOption_readLine .xychart h { isHorizontal := isHorizontal }

end XYChart

/-! ## Diagrams with parts that are opened and closed -/

/-- no line in particular -/
def SourceLine.nowhere : SourceLine := ⟨0, 0, [], []⟩

namespace EntityDiagram.Progress

/-- forgets which line opened a block -/
def erase (p : Progress) : Progress := { p with block := p.block.map fun b => (b.1, .nowhere) }

theorem toOption_readLine (p : Progress) (l : SourceLine) :
    (p.readLine l).toOption.map erase = (p.erase.readLine l.bare).toOption.map erase := by
  have hbare : l.bare.text = l.text := rfl
  obtain ⟨diagram, block⟩ := p
  cases block with
  | some b =>
    obtain ⟨id, opened⟩ := b
    rw [erase, Option.map_some, readLine, readLine, hbare]
    dsimp only
    split
    · rfl
    · rw [addColumn, addColumn, hbare]
      cases Column.read l.text <;> rfl
  | none =>
    rw [erase, Option.map_none, readLine, readLine, hbare]
    dsimp only
    cases Line.read? l.text with
    | none => rfl
    | some line =>
      cases line with
      | accessibility line => rfl
      | direction token =>
        dsimp only [apply]
        cases Direction.ofText? token <;> rfl
      | declare id label opensBlock => cases opensBlock <;> rfl
      | relate text =>
        have hread : (text.read l).toOption = (text.read l.bare).toOption := by
          rw [RelationText.read, RelationText.read]
          cases cardinality? Cardinality.left text.sourceSymbol with
          | none => rfl
          | some left => cases cardinality? Cardinality.right text.targetSymbol <;> rfl
        dsimp only [apply]
        rw [toOption_map, toOption_map, hread]

theorem toOption_finish (p : Progress) : p.finish.toOption = p.erase.finish.toOption := by
  obtain ⟨diagram, block⟩ := p
  cases block <;> rfl

end EntityDiagram.Progress

theorem EntityDiagram.toOption_read_congr (h : contents true t = contents true t') :
    (EntityDiagram.read t).toOption = (EntityDiagram.read t').toOption :=
  toOption_finish_congr Progress.toOption_readLine Progress.toOption_finish .er h ⟨{}, none⟩

namespace ClassDiagram.Progress

/-- forgets which lines opened a namespace and a class body -/
def erase (p : Progress) : Progress :=
  { p with
    openNamespace := p.openNamespace.map fun n => { n with openedAt := .nowhere }
    body := p.body.map fun b => (b.1, .nowhere) }

theorem toOption_readLine (p : Progress) (l : SourceLine) :
    (p.readLine l).toOption.map erase = (p.erase.readLine l.bare).toOption.map erase := by
  have hbare : l.bare.text = l.text := rfl
  obtain ⟨diagram, openNamespace, body⟩ := p
  cases body with
  | some b =>
    obtain ⟨id, opened⟩ := b
    rw [erase, Option.map_some, readLine, readLine, hbare]
    dsimp only
    cases BodyLine.read l.text <;> cases openNamespace <;> rfl
  | none =>
    rw [erase, Option.map_none, readLine, readLine, hbare]
    dsimp only
    cases Line.read? l.text with
    | none => rfl
    | some line =>
      cases line with
      | direction token =>
        dsimp only [apply]
        cases Direction.ofText? token <;> cases openNamespace <;> rfl
      | declare id generic label opensBody =>
        cases openNamespace with
        | none => cases opensBody <;> rfl
        | some n =>
          dsimp only [apply, Option.map_some, include_]
          split <;> cases opensBody <;> rfl
      | _ => cases openNamespace <;> rfl

theorem toOption_finish (p : Progress) : p.finish.toOption = p.erase.finish.toOption := by
  obtain ⟨diagram, openNamespace, body⟩ := p
  cases body <;> cases openNamespace <;> rfl

end ClassDiagram.Progress

theorem ClassDiagram.toOption_read_congr (h : contents true t = contents true t') :
    (ClassDiagram.read t).toOption = (ClassDiagram.read t').toOption :=
  toOption_finish_congr Progress.toOption_readLine Progress.toOption_finish .classDiagram h ⟨{}, none, none⟩

namespace StateDiagram.Progress

/-- forgets which lines opened composite states and a note -/
def erase (p : Progress) : Progress :=
  { p with
    composites := p.composites.map fun c => (c.1, .nowhere)
    note := p.note.map fun n => { n with openedAt := .nowhere } }

theorem toOption_readLine (p : Progress) (l : SourceLine) :
    (p.readLine l).toOption.map erase = (p.erase.readLine l.bare).toOption.map erase := by
  have hbare : l.bare.text = l.text := rfl
  obtain ⟨assembly, composites, note⟩ := p
  cases note with
  | some n =>
    rw [erase, Option.map_some, readLine, readLine, hbare]
    dsimp only
    split <;> simp [erase, update, Except.toOption]
  | none =>
    rw [erase, Option.map_none, readLine, readLine, hbare]
    dsimp only
    cases Line.read? l.text with
    | none => rfl
    | some line =>
      cases line <;> cases composites <;>
        simp [apply, erase, update, Except.toOption, scope, setDirection, openComposite, addTransition, SourceLine.bare]

theorem toOption_finish (p : Progress) : p.finish.toOption = p.erase.finish.toOption := by
  obtain ⟨assembly, composites, note⟩ := p
  cases note <;> cases composites <;> rfl

end StateDiagram.Progress

theorem toOption_checkHeader {dialect : Dialect} {x x' : Option (SourceLine × Text)}
    (h : x.map (fun y => (y.1.text, y.2)) = x'.map (fun y => (y.1.text, y.2))) :
    (checkHeader dialect x).toOption = (checkHeader dialect x').toOption := by
  rcases header_congr h with ⟨rfl, rfl⟩ | ⟨l, l', rest, rfl, rfl, -⟩
  · rfl
  · unfold checkHeader
    dsimp only
    split <;> rfl

theorem StateDiagram.toOption_read_congr (h : contents true t = contents true t') :
    (StateDiagram.read t).toOption = (StateDiagram.read t').toOption := by
  have hread : ∀ t, StateDiagram.read t = (checkHeader .state (splitHeader .state (sourceLines true t)).1).bind fun _ =>
      ((splitHeader .state (sourceLines true t)).2.foldlM Progress.readLine ⟨⟨{}, []⟩, [], none⟩).bind Progress.finish := fun t => rfl
  rw [hread, hread]
  exact toOption_bind_congr (toOption_checkHeader (splitHeader_congr .state (map_text_congr h)).1) fun _ =>
    toOption_finish_congr Progress.toOption_readLine Progress.toOption_finish .state h ⟨⟨{}, []⟩, [], none⟩

namespace Sequence.Progress

/-- forgets which lines opened blocks and a box -/
def erase (p : Progress) : Progress :=
  { p with
    frames := p.frames.map fun f => { f with openedAt := .nowhere }
    box := p.box.map fun b => { b with openedAt := .nowhere } }

theorem erase_emit (s : Statement) (p : Progress) : (p.emit s).erase = p.erase.emit s := by
  obtain ⟨diagram, frames, box⟩ := p
  cases frames <;> rfl

theorem erase_ensureActor (id : Text) (p : Progress) : (p.ensureActor id).erase = p.erase.ensureActor id := rfl

theorem erase_foldl_ensureActor (ids : List Text) (p : Progress) :
    (ids.foldl (fun p id => p.ensureActor id) p).erase = ids.foldl (fun p id => p.ensureActor id) p.erase := by
  induction ids generalizing p with
  | nil => rfl
  | cons id ids ih => rw [List.foldl_cons, List.foldl_cons, ih, erase_ensureActor]

theorem erase_declare (a : Actor) (p : Progress) : (p.declare a).erase = p.erase.declare a := by
  obtain ⟨diagram, frames, box⟩ := p
  cases box with
  | none => rfl
  | some b =>
    simp only [declare, erase, Option.map_some]
    split <;> rfl

@[simp] theorem erase_erase (p : Progress) : p.erase.erase = p.erase := by
  simp [erase, Function.comp_def]

theorem toOption_divide (l : SourceLine) (keyword label : Text) (p : Progress) :
    (p.divide l keyword label).toOption.map erase = (p.erase.divide l.bare keyword label).toOption.map erase := by
  obtain ⟨diagram, frames, box⟩ := p
  cases frames with
  | nil => rfl
  | cons f fs =>
    have hdivided : Frame.isDividedBy { f with openedAt := .nowhere } keyword = f.isDividedBy keyword := rfl
    cases h : f.isDividedBy keyword <;> simp [divide, erase, h, hdivided, Function.comp_def, Except.toOption, Frame.sections]

theorem toOption_close (l : SourceLine) (p : Progress) :
    (p.close l).toOption.map erase = (p.erase.close l.bare).toOption.map erase := by
  obtain ⟨diagram, frames, box⟩ := p
  cases frames with
  | nil => rfl
  | cons f fs =>
    change some (Progress.emit f.close ⟨diagram, fs, box⟩).erase = some ((Progress.erase ⟨diagram, fs, box⟩).emit f.close).erase
    rw [erase_emit, erase_emit, erase_erase]

theorem toOption_apply (p : Progress) (l : SourceLine) (line : Line) :
    (p.apply l line).toOption.map erase = (p.erase.apply l.bare line).toOption.map erase := by
  cases line with
  | actor a => simp [apply, Except.toOption, erase_declare]
  | accessibility line => simp [apply, Except.toOption, erase, Function.comp_def]
  | title t => simp [apply, Except.toOption, erase, Function.comp_def]
  | openBox label color =>
    obtain ⟨diagram, frames, box⟩ := p
    cases frames <;> rfl
  | note n =>
    simp only [apply, toOption_mapError, addNote]
    split
    · rfl
    · simp [Except.toOption, erase_emit, erase_foldl_ensureActor]
  | openBlock o label => simp [apply, Except.toOption, erase, Function.comp_def]
  | divide keyword label =>
    rw [apply, apply, toOption_mapError, toOption_mapError]
    exact toOption_divide l keyword label p
  | close =>
    rw [apply, apply, toOption_mapError, toOption_mapError]
    exact toOption_close l p
  | activation id active => simp [apply, Except.toOption, erase_emit, erase_ensureActor]
  | autonumberOff => simp [apply, Except.toOption, erase_emit]
  | autonumber start step =>
    rw [apply, apply]
    cases start.mapM number with
    | error e => rfl
    | ok start =>
      cases step.mapM number with
      | error e => rfl
      | ok step =>
        change some (p.emit _).erase = some (p.erase.emit _).erase
        rw [erase_emit, erase_emit, erase_erase]
  | message m => simp [apply, Except.toOption, erase_emit, erase_ensureActor]

theorem toOption_readLine (p : Progress) (l : SourceLine) :
    (p.readLine l).toOption.map erase = (p.erase.readLine l.bare).toOption.map erase := by
  have hbare : l.bare.text = l.text := rfl
  rw [readLine, readLine, hbare]
  cases actor? l.text with
  | some a => exact toOption_apply p l (.actor a)
  | none =>
    obtain ⟨diagram, frames, box⟩ := p
    cases box with
    | some b =>
      rw [erase, Option.map_some]
      dsimp only
      split
      · simp [closeBox, erase, Except.toOption, Function.comp_def]
      · rfl
    | none =>
      have happly := toOption_apply ⟨diagram, frames, none⟩ l
      rw [erase, Option.map_none] at happly ⊢
      dsimp only at happly ⊢
      cases Line.read? l.text with
      | none => rfl
      | some line => exact happly line

theorem toOption_finish (p : Progress) : p.finish.toOption = p.erase.finish.toOption := by
  obtain ⟨diagram, frames, box⟩ := p
  cases box <;> cases frames <;> rfl

end Sequence.Progress

theorem Sequence.toOption_read_congr (h : contents true t = contents true t') :
    (Sequence.read t).toOption = (Sequence.read t').toOption :=
  toOption_finish_congr Progress.toOption_readLine
    (fun p => by rw [toOption_mapError, toOption_mapError, Progress.toOption_finish]) .sequence h ⟨{}, [], none⟩

namespace Flowchart

theorem toOption_headerDirection {x x' : Option (SourceLine × Text)}
    (h : x.map (fun y => (y.1.text, y.2)) = x'.map (fun y => (y.1.text, y.2))) :
    (headerDirection x).toOption = (headerDirection x').toOption := by
  rcases header_congr h with ⟨rfl, rfl⟩ | ⟨l, l', rest, rfl, rfl, -⟩
  · rfl
  · unfold headerDirection directionAt
    dsimp only
    split
    · rfl
    · cases Direction.ofText? (trim rest) <;> rfl

theorem toOption_read_congr (h : contents true t = contents true t') : (read t).toOption = (read t').toOption := by
  obtain ⟨hheader, hbody⟩ := splitHeader_congr .flowchart (map_text_congr h)
  have hdirection := toOption_headerDirection hheader
  have hok : ∀ {ε α : Type} {x : Except ε α} {a : α}, x = .ok a ↔ x.toOption = some a := by
    intro ε α x a
    cases x <;> simp [Except.toOption]
  refine Option.ext fun d => ?_
  rw [← hok, ← hok, read_eq_ok_iff, read_eq_ok_iff]
  simp only [hok, hdirection, hbody]

end Flowchart

end DiagramText

/-
Reading a sequence diagram. Open blocks are frames on a stack, the innermost first; a box admits only declarations of
actors until it ends.
-/
import DiagramText.Sequence.Line
import DiagramText.Source.Header

namespace DiagramText.Sequence

/-- a block that is not closed yet: its finished sections, and the section being filled -/
structure Frame where
  opening : Opening
  openedAt : SourceLine
  finished : List (Text × List Statement)
  label : Text
  statements : List Statement

/-- a box that is not closed yet -/
structure OpenBox where
  label : Option Text
  color : Option Text
  openedAt : SourceLine
  actorIds : List Text

/-- a diagram with its open blocks and its open box -/
structure Progress where
  diagram : Sequence
  frames : List Frame
  box : Option OpenBox

/-- the sections of a frame -/
def Frame.sections (f : Frame) : List (Text × List Statement) := f.finished ++ [(f.label, f.statements)]

/-- the statement that a closed frame is -/
def Frame.close (f : Frame) : Statement :=
  match f.opening with
  | .block kind => .block kind f.label f.statements
  | .sectioned kind => .sectioned kind f.sections

/-- the frame is a sectioned block whose further sections open with this keyword -/
def Frame.isDividedBy (f : Frame) (keyword : Text) : Bool :=
  match f.opening with
  | .block _ => false
  | .sectioned kind => kind.divider == keyword

namespace Progress

/-- adds a statement to the innermost open section -/
def emit (s : Statement) (p : Progress) : Progress :=
  match p.frames with
  | [] => { p with diagram := { p.diagram with statements := p.diagram.statements ++ [s] } }
  | f :: fs => { p with frames := { f with statements := f.statements ++ [s] } :: fs }

/-- an actor that is named without being declared is a plain participant -/
def ensureActor (id : Text) (p : Progress) : Progress :=
  { p with diagram := { p.diagram with actors := p.diagram.actors.insertNew id ⟨id, id, .participant⟩ } }

/-- declares an actor, and puts it into the open box -/
def declare (a : Actor) (p : Progress) : Progress :=
  { p with
    diagram := { p.diagram with actors := p.diagram.actors.insert a.id a }
    box := p.box.map fun b => if b.actorIds.contains a.id then b else { b with actorIds := b.actorIds ++ [a.id] } }

/-- closes a box -/
def closeBox (b : OpenBox) (p : Progress) : Progress :=
  { p with diagram := { p.diagram with boxes := p.diagram.boxes ++ [⟨b.label, b.color, b.actorIds⟩] }, box := none }

/-- adds a note, which beside actors has a single one -/
def addNote (l : SourceLine) (n : Note) (p : Progress) : Except ParseError Progress :=
  if 1 < n.actorIds.length ∧ n.position ≠ "over" then .error (l.error (.singleParticipantNote n.position))
  else .ok ((n.actorIds.foldl (fun p id => p.ensureActor id) p).emit (.note n))

/-- opens the next section of the innermost block -/
def divide (l : SourceLine) (keyword label : Text) (p : Progress) : Except ParseError Progress :=
  match p.frames with
  | f :: fs =>
    if f.isDividedBy keyword then
      .ok { p with frames := { f with finished := f.sections, label := label, statements := [] } :: fs }
    else .error (l.error (.dividerOutsideBlock keyword))
  | [] => .error (l.error (.dividerOutsideBlock keyword))

/-- closes the innermost block -/
def close (l : SourceLine) (p : Progress) : Except ParseError Progress :=
  match p.frames with
  | f :: fs => .ok ({ p with frames := fs }.emit f.close)
  | [] => .error (l.error .unexpectedEnd)

/-- the number that a text of digits stands for -/
def number (t : Text) : Except ReadError Int := ((Integer.read t).map Int.ofNat).mapError .integer

/-- what a line does to the diagram -/
def apply (l : SourceLine) (p : Progress) : Line → Except ReadError Progress
  | .actor a => .ok (p.declare a)
  | .accessibility line =>
    .ok { p with diagram := { p.diagram with accessibility := p.diagram.accessibility.put line } }
  | .title t => .ok { p with diagram := { p.diagram with title := some t } }
  | .openBox label color =>
    if p.frames = [] then .ok { p with box := some ⟨label, color, l, []⟩ }
    else .error (.malformed (l.error .boxInsideBlock))
  | .note n => (p.addNote l n).mapError .malformed
  | .openBlock o label => .ok { p with frames := ⟨o, l, [], label, []⟩ :: p.frames }
  | .divide keyword label => (p.divide l keyword label).mapError .malformed
  | .close => (p.close l).mapError .malformed
  | .activation id active => .ok ((p.ensureActor id).emit (.activation id active))
  | .autonumberOff => .ok (p.emit (.autonumber ⟨none, none, false⟩))
  | .autonumber start step => do
    let start ← start.mapM number
    let step ← step.mapM number
    .ok (p.emit (.autonumber ⟨start, step, true⟩))
  | .message m => .ok (((p.ensureActor m.source).ensureActor m.target).emit (.message m))

/-- reads a line: declarations of actors come first, and nothing but them and its end is allowed in a box -/
def readLine (p : Progress) (l : SourceLine) : Except ReadError Progress :=
  match actor? l.text with
  | some a => p.apply l (.actor a)
  | none =>
    match p.box with
    | some b => if l.text = "end" then .ok (p.closeBox b) else .error (.malformed (l.error .notAnActorInBox))
    | none =>
      match Line.read? l.text with
      | some line => p.apply l line
      | none => .error (.malformed (l.error (.invalidStatement .sequence l.text)))

/-- the diagram, unless a box or a block is still open -/
def finish (p : Progress) : Except ParseError Sequence :=
  match p.box, p.frames with
  | some b, _ => .error (b.openedAt.error .unclosedBox)
  | none, f :: _ => .error (f.openedAt.error (.unclosedBlock f.opening.keyword))
  | none, [] => .ok p.diagram

end Progress

/-- reads a sequence diagram -/
def read (text : Text) : Except ReadError Sequence := do
  let (_, body) := splitHeader .sequence (sourceLines true text)
  let p ← body.foldlM Progress.readLine ⟨{}, [], none⟩
  p.finish.mapError .malformed

end DiagramText.Sequence

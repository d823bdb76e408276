/-
Building a sequence diagram call by call. Statements do not create actors; a validated build refuses the first actor that
is never declared. A refused call leaves no statement behind, but the names it has mentioned stay noted.
-/
import DiagramText.Reference
import DiagramText.Sequence.Basic

namespace DiagramText.Sequence

/-- a call is refused when a block that has sections is given none -/
structure CallError where
  kind : SectionedKind
deriving DecidableEq, Repr

/-- the wording of the error -/
def CallError.message (e : CallError) : Text := "'" ++ e.kind.keyword ++ "' needs at least one section"

/-- a call that adds one statement -/
inductive StatementCall where
  | message (m : Message)
  | note (n : Note)
  | activation (actor : Text) (active : Bool)
  | autonumber (a : Autonumber)
  | block (kind : BlockKind) (label : Text) (body : List StatementCall)
  | sectioned (kind : SectionedKind) (sections : List (Text × List StatementCall))

/-- the declaration of an actor, who shows the id unless there is a label -/
structure Declaration where
  kind : ActorKind
  id : Text
  label : Option Text
deriving DecidableEq, Repr

/-- a call on the diagram -/
inductive Call where
  | statement (c : StatementCall)
  | declare (a : Declaration)
  | box (label color : Option Text) (body : List Declaration)
  | title (text : Text)
  | describe (line : AccessibilityLine)

/-- the names that a statement mentions, blocks apart -/
def StatementCall.mentions : StatementCall → List Reference
  | .message m =>
    let construct := "message " ++ m.source ++ m.arrow.toText ++ m.target
    [.entity construct m.source, .entity construct m.target]
  | .note n => n.actorIds.map (.entity ("note " ++ n.position ++ " " ++ Text.join "," n.actorIds))
  | .activation actor active => [.entity ((if active then "activate " else "deactivate ") ++ actor) actor]
  | .autonumber _ | .block _ _ _ | .sectioned _ _ => []

mutual

/-- the statement that a call adds, and the names it mentions, with those mentioned before -/
def StatementCall.run (log : List Reference) : StatementCall → List Reference × Except CallError Statement
  | c@(.message m) => (log ++ c.mentions, .ok (.message m))
  | c@(.note n) => (log ++ c.mentions, .ok (.note n))
  | c@(.activation actor active) => (log ++ c.mentions, .ok (.activation actor active))
  | .autonumber a => (log, .ok (.autonumber a))
  | .block kind label body =>
    let (log, statements) := runAll log body
    (log, statements.map (.block kind label))
  | .sectioned kind sections =>
    if sections.isEmpty then (log, .error ⟨kind⟩)
    else
      let (log, filled) := runSections log sections
      (log, filled.map (.sectioned kind))

/-- the statements of calls one after another, up to the first that is refused -/
def runAll (log : List Reference) : List StatementCall → List Reference × Except CallError (List Statement)
  | [] => (log, .ok [])
  | c :: cs =>
    match c.run log with
    | (log, .error e) => (log, .error e)
    | (log, .ok s) =>
      let (log, rest) := runAll log cs
      (log, rest.map (s :: ·))

/-- the sections of a block one after another, up to the first in which a call is refused -/
def runSections (log : List Reference) :
    List (Text × List StatementCall) → List Reference × Except CallError (List (Text × List Statement))
  | [] => (log, .ok [])
  | (label, body) :: rest =>
    match runAll log body with
    | (log, .error e) => (log, .error e)
    | (log, .ok statements) =>
      let (log, sections) := runSections log rest
      (log, sections.map ((label, statements) :: ·))

end

/-- a diagram under construction, and every name that a call has mentioned -/
structure Builder where
  diagram : Sequence
  log : List Reference

namespace Builder

/-- an empty diagram -/
def start : Builder := ⟨{}, []⟩

/-- changes the diagram -/
def update (f : Sequence → Sequence) (b : Builder) : Builder := { b with diagram := f b.diagram }

/-- declares an actor, in place of an earlier one -/
def declare (b : Builder) (a : Declaration) : Builder :=
  b.update fun d => { d with actors := d.actors.insert a.id ⟨a.id, a.label.getD a.id, a.kind⟩ }

/-- each id once, where it first stands -/
def distinct (ids : List Text) : List Text := ids.foldl (fun kept id => if kept.contains id then kept else kept ++ [id]) []

end Builder

/-- the state after a call, and why the call was refused -/
def Call.run (b : Builder) : Call → Builder × Option CallError
  | .statement c =>
    match c.run b.log with
    | (log, .ok s) => (⟨{ b.diagram with statements := b.diagram.statements ++ [s] }, log⟩, none)
    | (log, .error e) => ({ b with log := log }, some e)
  | .declare a => (b.declare a, none)
  | .box label color body =>
    ((body.foldl Builder.declare b).update fun d =>
      { d with boxes := d.boxes ++ [⟨label, color, Builder.distinct (body.map Declaration.id)⟩] }, none)
  | .title text => (b.update fun d => { d with title := some text }, none)
  | .describe line => (b.update fun d => { d with accessibility := d.accessibility.put line }, none)

namespace Builder

/-- the state after calls, those that are refused included -/
def run (b : Builder) (calls : List Call) : Builder := calls.foldl (fun b c => (c.run b).1) b

/-- the diagram, unless a mentioned actor is not declared -/
def build (b : Builder) : Except Reference Sequence := Reference.check b.diagram.actors.keys [] b.log b.diagram

end Builder

end DiagramText.Sequence

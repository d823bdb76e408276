/-
Sequence diagrams: actors, and a tree of messages, notes and blocks between them.
-/
import DiagramText.Accessibility
import DiagramText.Entries

namespace DiagramText

namespace Sequence

/-- how an actor is drawn -/
inductive ActorKind where
  | participant
  | actor
deriving DecidableEq, Repr

/-- the keyword that declares an actor -/
def ActorKind.keyword : ActorKind → Text
  | participant => "participant"
  | actor => "actor"

/-- someone who sends or receives messages -/
structure Actor where
  id : Text
  label : Text
  kind : ActorKind
deriving DecidableEq, Repr

/-- a coloured background behind some actors -/
structure Box where
  label : Option Text
  color : Option Text
  actorIds : List Text
deriving DecidableEq, Repr

/-- the ten message arrows -/
inductive Arrow where
  | dashedBoth
  | solidBoth
  | dashedFilled
  | solidFilled
  | dashedCross
  | solidCross
  | dashedAsync
  | solidAsync
  | dashedOpen
  | solidOpen
deriving DecidableEq, Repr

namespace Arrow

/-- every arrow, in the order in which a reader tries them: no arrow comes after one that it begins with -/
def all : List Arrow :=
  [dashedBoth, solidBoth, dashedFilled, solidFilled, dashedCross, solidCross, dashedAsync, solidAsync, dashedOpen,
    solidOpen]

/-- the written form -/
def toText : Arrow → Text
  | dashedBoth => "<<-->>"
  | solidBoth => "<<->>"
  | dashedFilled => "-->>"
  | solidFilled => "->>"
  | dashedCross => "--x"
  | solidCross => "-x"
  | dashedAsync => "--)"
  | solidAsync => "-)"
  | dashedOpen => "-->"
  | solidOpen => "->"

/-- the name of the line style -/
def lineStyle : Arrow → Text
  | dashedBoth | dashedFilled | dashedCross | dashedAsync | dashedOpen => "dashed"
  | solidBoth | solidFilled | solidCross | solidAsync | solidOpen => "solid"

/-- the name of the head -/
def head : Arrow → Text
  | dashedBoth | solidBoth => "bidirectional"
  | dashedFilled | solidFilled => "filled"
  | dashedCross | solidCross => "cross"
  | dashedAsync | solidAsync => "async"
  | dashedOpen | solidOpen => "open"

end Arrow

/-- a message; it may activate its target or deactivate its source -/
structure Message where
  source : Text
  target : Text
  text : Text
  arrow : Arrow
  activate : Bool
  deactivate : Bool
deriving DecidableEq, Repr

/-- a note beside or over actors; the position is `left of`, `right of` or `over` in small letters -/
structure Note where
  position : Text
  actorIds : List Text
  text : Text
deriving DecidableEq, Repr

/-- numbering of messages from here on -/
structure Autonumber where
  start : Option Int
  step : Option Int
  enabled : Bool
deriving DecidableEq, Repr

/-- blocks with one body -/
inductive BlockKind where
  | loop
  | opt
  | «break»
  | rect
deriving DecidableEq, Repr

/-- blocks with labelled sections -/
inductive SectionedKind where
  | alt
  | par
  | critical
deriving DecidableEq, Repr

/-- the keyword that opens a block -/
def BlockKind.keyword : BlockKind → Text
  | loop => "loop"
  | opt => "opt"
  | .break => "break"
  | rect => "rect"

/-- the keyword that opens a sectioned block -/
def SectionedKind.keyword : SectionedKind → Text
  | alt => "alt"
  | par => "par"
  | critical => "critical"

/-- the keyword that opens each further section -/
def SectionedKind.divider : SectionedKind → Text
  | alt => "else"
  | par => "and"
  | critical => "option"

/-- what happens, in order -/
inductive Statement where
  | message (m : Message)
  | note (n : Note)
  | activation (actor : Text) (active : Bool)
  | autonumber (a : Autonumber)
  | block (kind : BlockKind) (label : Text) (body : List Statement)
  | sectioned (kind : SectionedKind) (sections : List (Text × List Statement))
deriving Repr

mutual

/-- the number of statements and sections in a statement -/
def Statement.size : Statement → Nat
  | .block _ _ body => sizeOfAll body + 1
  | .sectioned _ sections => sizeOfSections sections + 1
  | _ => 1

/-- the number of statements and sections in statements -/
def sizeOfAll : List Statement → Nat
  | [] => 0
  | s :: rest => s.size + sizeOfAll rest

/-- the number of statements and sections in sections -/
def sizeOfSections : List (Text × List Statement) → Nat
  | [] => 0
  | (_, body) :: rest => sizeOfAll body + sizeOfSections rest + 1

end

theorem sizeOfAll_append (a b : List Statement) : sizeOfAll (a ++ b) = sizeOfAll a + sizeOfAll b := by
  induction a with
  | nil => simp [sizeOfAll]
  | cons s r ih =>
    simp only [List.cons_append, sizeOfAll, ih]
    omega

/-- the statements of all sections, section by section -/
def bodies : List (Text × List Statement) → List Statement
  | [] => []
  | (_, body) :: rest => body ++ bodies rest

theorem sizeOfAll_bodies_le (sections : List (Text × List Statement)) :
    sizeOfAll (bodies sections) ≤ sizeOfSections sections := by
  induction sections with
  | nil => simp [bodies, sizeOfAll]
  | cons s r ih =>
    simp only [bodies, sizeOfAll_append, sizeOfSections]
    omega

/-- the messages of the statements on a stack, the top first: the body of a block takes the place of the block -/
def messagesOf : List Statement → List Message
  | [] => []
  | .message m :: rest => m :: messagesOf rest
  | .block _ _ body :: rest => messagesOf (body ++ rest)
  | .sectioned _ sections :: rest => messagesOf (bodies sections ++ rest)
  | .note _ :: rest | .activation _ _ :: rest | .autonumber _ :: rest => messagesOf rest
termination_by statements => sizeOfAll statements
decreasing_by
  all_goals
    simp only [sizeOfAll, Statement.size, sizeOfAll_append]
    try have := sizeOfAll_bodies_le ‹_›
    omega

end Sequence

/-- a sequence diagram -/
structure Sequence where
  title : Option Text := none
  /-- actors in the order in which they first appear -/
  actors : Entries Sequence.Actor := .empty
  boxes : List Sequence.Box := []
  statements : List Sequence.Statement := []
  accessibility : Accessibility := {}
deriving Repr

/-- all messages in the order of the document, those in blocks included -/
def Sequence.messages (d : Sequence) : List Sequence.Message := Sequence.messagesOf d.statements

end DiagramText

/-
References that building steps make to entities and style classes. They are checked in the order in which they were made,
so the first dangling name is the one reported.
-/
import DiagramText.Text.Basic

namespace DiagramText

/-- what a reference names -/
inductive ReferenceKind where
  | entity
  | classDef
deriving DecidableEq, Repr

/-- a name that a step mentions, and the step in words -/
structure Reference where
  kind : ReferenceKind
  identifier : Text
  construct : Text
deriving DecidableEq, Repr

namespace Reference

/-- a mention of an entity -/
def entity (construct identifier : Text) : Reference := ⟨.entity, identifier, construct⟩

/-- a mention of a style class -/
def classDef (construct identifier : Text) : Reference := ⟨.classDef, identifier, construct⟩

/-- how messages call what is missing -/
def noun : ReferenceKind → Text
  | .entity => "entity"
  | .classDef => "class definition"

/-- the name is among the declared ones of its kind -/
def isDeclared (entities classDefs : List Text) (r : Reference) : Bool :=
  match r.kind with
  | .entity => entities.contains r.identifier
  | .classDef => classDefs.contains r.identifier

/-- the first reference to a name that is not declared -/
def firstDangling? (entities classDefs : List Text) (log : List Reference) : Option Reference :=
  log.find? fun r => !r.isDeclared entities classDefs

/-- a built value stands only when no reference dangles -/
def check {α : Type} (entities classDefs : List Text) (log : List Reference) (built : α) : Except Reference α :=
  match firstDangling? entities classDefs log with
  | some r => .error r
  | none => .ok built

/-- the error that a dangling reference is -/
def message (r : Reference) : Text :=
  r.construct ++ ": undeclared " ++ noun r.kind ++ " '" ++ r.identifier ++ "'"

end Reference

end DiagramText

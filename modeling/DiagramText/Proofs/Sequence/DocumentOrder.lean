/-
Messages in the order of the document. `messagesIn` collects the messages of a tree of statements, part by part. The messages
of a diagram are collected from a stack instead, where the body of a block takes the place of the block; the invariant is that
the messages still to come are those of the statements on the stack (`messagesOf_eq`). The printer walks the tree as well, so
its lines carry the same messages in the same order (`filterMap_scriptAll`).
-/
import DiagramText.Proofs.Sequence.RoundTrip

namespace DiagramText.Sequence

/-! ## Messages of a tree -/

mutual

/-- the messages of a statement and of all that is nested in it -/
def Statement.messages : Statement → List Message
  | .message m => [m]
  | .block _ _ body => messagesIn body
  | .sectioned _ sections => messagesInSections sections
  | .note _ | .activation _ _ | .autonumber _ => []

/-- the messages of statements one after another -/
def messagesIn : List Statement → List Message
  | [] => []
  | s :: rest => s.messages ++ messagesIn rest

/-- the messages of sections one after another -/
def messagesInSections : List (Text × List Statement) → List Message
  | [] => []
  | (_, body) :: rest => messagesIn body ++ messagesInSections rest

end

/-- the message that a line says, if it says one -/
def sent? (x : Nat × Line) : Option Message :=
  match x.2 with
  | .message m => some m
  | _ => none

theorem sent?_autonumber (depth : Nat) (a : Autonumber) : sent? (depth, a.line) = none := by
  unfold Autonumber.line
  split <;> rfl

theorem sent?_sectionLine (depth : Nat) (kind : SectionedKind) (isFirst : Bool) (label : Text) :
    sent? (depth, sectionLine kind isFirst label) = none := by
  cases isFirst <;> rfl

mutual

/-- the lines of a statement say its messages, by induction on the statement -/
theorem filterMap_script (depth : Nat) : (s : Statement) → (script depth s).filterMap sent? = s.messages
  | .message m => by
    rw [script, Statement.messages]
    rfl
  | .note n => by
    rw [script, Statement.messages]
    rfl
  | .activation id active => by
    rw [script, Statement.messages]
    rfl
  | .autonumber a => by
    rw [script, Statement.messages, List.filterMap_cons_none (sent?_autonumber depth a), List.filterMap_nil]
  | .block kind label body => by
    rw [script, Statement.messages, List.filterMap_append, List.filterMap_cons_none rfl, filterMap_scriptAll (depth + 1) body]
    exact List.append_nil _
  | .sectioned kind sections => by
    rw [script, Statement.messages, List.filterMap_append, filterMap_sectionsScript depth kind true sections]
    exact List.append_nil _

/-- the lines of statements say their messages -/
theorem filterMap_scriptAll (depth : Nat) : (ss : List Statement) →
    (scriptAll depth ss).filterMap sent? = messagesIn ss
  | [] => by
    rw [scriptAll, messagesIn]
    rfl
  | s :: rest => by
    rw [scriptAll, messagesIn, List.filterMap_append, filterMap_script depth s, filterMap_scriptAll depth rest]

/-- the lines of sections say their messages, and nothing on the lines between them -/
theorem filterMap_sectionsScript (depth : Nat) (kind : SectionedKind) (isFirst : Bool) :
    (sections : List (Text × List Statement)) →
      (sectionsScript depth kind isFirst sections).filterMap sent? = messagesInSections sections
  | [] => by
    rw [sectionsScript, messagesInSections]
    rfl
  | (label, body) :: rest => by
    rw [sectionsScript, messagesInSections, List.filterMap_append, List.filterMap_cons_none (sent?_sectionLine depth kind isFirst label),
      filterMap_scriptAll (depth + 1) body, filterMap_sectionsScript depth kind false rest]

end

end DiagramText.Sequence

/-
Blocks that are not closed. The subgraphs of a flowchart, the blocks of a sequence diagram and the composite states of a
state diagram nest as brackets do. A text that is read has them balanced (`balanced_of_accepted`), and a text that is refused
for an unclosed one is refused at the last opener that no later closer matches (`isAtLastUnclosed_of_unclosed`), whatever stands in its
boxes and notes.
-/
import DiagramText.Proofs.Nesting.Flowchart
import DiagramText.Proofs.Nesting.Sequence
import DiagramText.Proofs.Nesting.StateDiagram

namespace DiagramText

/-- **unclosed blocks are reported at the innermost opener**: the last one that no later closer matches, by the name of what it
opens -/
theorem isAtLastUnclosed_of_unclosed (text : Text) :
    (∀ e id, Flowchart.read text = .error e → e.cause = .unclosedSubgraph id →
        e.IsAtLastUnclosed (Flowchart.nesting.brackets text) id) ∧
      (∀ e keyword, Sequence.read text = .error (.malformed e) → e.cause = .unclosedBlock keyword →
        e.IsAtLastUnclosed (Sequence.nesting.brackets text) keyword) ∧
      ∀ e id, StateDiagram.read text = .error e → e.cause = .unclosedComposite id →
        e.IsAtLastUnclosed (StateDiagram.nesting.brackets text) id :=
  ⟨fun _ _ => Flowchart.isAtLastUnclosed_of_read, fun _ _ => Sequence.isAtLastUnclosed_of_read,
    fun _ _ => StateDiagram.isAtLastUnclosed_of_read⟩

/-- subgraphs of which two have one id, the inner one unclosed -/
def unclosedSubgraphs : Text :=
  "flowchart LR\nsubgraph a\n subgraph b [\"end\"]\n end;\n\tsubgraph a\n  A --> end_\n  subgraph the end\n  end\n%% end"

/-- the end of a box closes no block, and a message may read like an opener -/
def unclosedBlocks : Text :=
  "box Aqua loop\nparticipant A as end\nend\n loop one\nalt a\nA->>B: loop\nelse end\nopt\nend ;\nend\npar d\nend\nnote over A: alt"

/-- a state in itself, of which the inner one is closed behind a note that holds braces -/
def unclosedStates : Text :=
  "stateDiagram\nstate A \x7b\n state A \x7b\n note left of A\n \x7d\n state B \x7b\n End Note\n \x7d\nstate \"\x7d\" as A \x7b\n\x7d"

theorem isAtLastUnclosed_of_nested :
    (Flowchart.read unclosedSubgraphs = .error ⟨5, 2, .unclosedSubgraph "a"⟩ ∧
        ParseError.IsAtLastUnclosed ⟨5, 2, .unclosedSubgraph "a"⟩ (Flowchart.nesting.brackets unclosedSubgraphs) "a") ∧
      (Sequence.read unclosedBlocks = .error (.malformed ⟨4, 2, .unclosedBlock "loop"⟩) ∧
        ParseError.IsAtLastUnclosed ⟨4, 2, .unclosedBlock "loop"⟩ (Sequence.nesting.brackets unclosedBlocks) "loop") ∧
      StateDiagram.read unclosedStates = .error ⟨2, 1, .unclosedComposite "A"⟩ ∧
        ParseError.IsAtLastUnclosed ⟨2, 1, .unclosedComposite "A"⟩ (StateDiagram.nesting.brackets unclosedStates) "A" := by
  have hsubgraph : Flowchart.read unclosedSubgraphs = .error ⟨5, 2, .unclosedSubgraph "a"⟩ := by decide +kernel
  have hblock : Sequence.read unclosedBlocks = .error (.malformed ⟨4, 2, .unclosedBlock "loop"⟩) := by decide +kernel
  have hstate : StateDiagram.read unclosedStates = .error ⟨2, 1, .unclosedComposite "A"⟩ := by decide +kernel
  exact ⟨⟨hsubgraph, (isAtLastUnclosed_of_unclosed _).1 _ _ hsubgraph rfl⟩,
    ⟨hblock, (isAtLastUnclosed_of_unclosed _).2.1 _ _ hblock rfl⟩, hstate, (isAtLastUnclosed_of_unclosed _).2.2 _ _ hstate rfl⟩

/-- **the blocks of a text that is read are balanced** -/
theorem balanced_of_accepted (text : Text) :
    (∀ d, Flowchart.read text = .ok d → Bracket.Balanced (Flowchart.nesting.brackets text)) ∧
      (∀ d, Sequence.read text = .ok d → Bracket.Balanced (Sequence.nesting.brackets text)) ∧
      ∀ d, StateDiagram.read text = .ok d → Bracket.Balanced (StateDiagram.nesting.brackets text) :=
  ⟨fun _ => Flowchart.balanced_of_read, fun _ => Sequence.balanced_of_read, fun _ => StateDiagram.balanced_of_read⟩

end DiagramText

/-
Validated builds of the dialects whose names are all of one kind: flowcharts, class diagrams and sequence diagrams.
-/
import DiagramText.Proofs.ClassDiagram.Builder
import DiagramText.Proofs.Flowchart.Builder
import DiagramText.Proofs.Sequence.Builder

namespace DiagramText

/-- **validated builds are closed.** Calls, none of which is refused, build a diagram exactly when every name that one of them
refers to is declared by one of them, before or after it; otherwise the build fails at the earliest reference that is not.
What is built refers to nothing but itself. No call on a class diagram is refused. -/
theorem calls_validate_build :
    (∀ (dir : Direction) (calls : List Flowchart.Call),
      Ledger.Accepts Flowchart.Call.run (Flowchart.Builder.start dir) calls →
      (Account.concat (calls.map Flowchart.Call.account)).Validates Flowchart.IsSelfContained
        (((Flowchart.Builder.start dir).run calls).build)) ∧
    (∀ (dir : Direction) (calls : List ClassDiagram.Call),
      (Account.concat (calls.map ClassDiagram.Call.account)).Validates ClassDiagram.IsSelfContained
        (((ClassDiagram.Builder.start dir).run calls).build)) ∧
    (∀ calls : List Sequence.Call,
      Ledger.Accepts Sequence.Call.run Sequence.Builder.start calls →
      (Account.concat (calls.map Sequence.Call.account)).Validates Sequence.IsSelfContained
        ((Sequence.Builder.start.run calls).build)) :=
  ⟨fun dir _ => Flowchart.validates_build dir, ClassDiagram.validates_build, fun _ => Sequence.validates_build⟩

/-- a member of a subgraph that is declared after it, and a message in a loop to an actor that never is -/
theorem calls_validate_build_nested :
    (∃ d, ((Flowchart.Builder.start .tb).run
        [.scope (.subgraph "s" none none [.member "A"]), .scope (.node "A" none none)]).build = .ok d ∧
      Flowchart.IsSelfContained d) ∧
    ∃ r, (Sequence.Builder.start.run
        [.statement (.block .loop "again" [.message ⟨"A", "B", "hi", .solidFilled, false, false⟩]), .declare ⟨.actor, "A", none⟩]).build
          = .error r ∧
      r = .entity "message A->>B" "B" := by
  refine ⟨?_, ?_⟩
  · have h := calls_validate_build.1 .tb [.scope (.subgraph "s" none none [.member "A"]), .scope (.node "A" none none)]
      ⟨rfl, rfl, trivial⟩
    obtain ⟨d, hd⟩ := h.stands.2 (by decide)
    exact ⟨d, hd, h.closed d hd⟩
  · have h := calls_validate_build.2.2
      [.statement (.block .loop "again" [.message ⟨"A", "B", "hi", .solidFilled, false, false⟩]), .declare ⟨.actor, "A", none⟩]
      ⟨rfl, rfl, trivial⟩
    exact ⟨_, (h.fails _).2 ⟨[.entity "message A->>B" "A"], [], rfl, by decide, by decide⟩, rfl⟩

end DiagramText

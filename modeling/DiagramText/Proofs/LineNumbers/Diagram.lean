/-
What does not count in a text. The keyword of a dialect above a text without a header only moves its lines
(`Dialect.read_below_canonicalKeyword`), so that a header is optional wherever errors have a place
(`Dialect.read_with_or_without_header`). A line that is empty or a comment only moves the lines below it, and a carriage return
before every line feed changes nothing (`Dialect.read_with_silent_line`).
-/
import DiagramText.Proofs.Columns.View
import DiagramText.Proofs.LineNumbers.PieChart
import DiagramText.Proofs.LineNumbers.Reading

namespace DiagramText

open DiagramText.Text

variable {d : Dialect} {t line : Text}

/-! ## Headers -/

namespace Dialect

/-- the keyword that begins the canonical text -/
def canonicalKeyword : Dialect → Text
  | flowchart => "flowchart"
  | sequence => "sequenceDiagram"
  | classDiagram => "classDiagram"
  | state => "stateDiagram-v2"
  | pie => "pie"
  | er => "erDiagram"
  | mindmap => "mindmap"
  | quadrant => "quadrantChart"
  | sankey => "sankey-beta"
  | timeline => "timeline"
  | journey => "journey"
  | xychart => "xychart-beta"

/-- a semicolon at the end of a line is no part of it -/
def stripsSemicolon : Dialect → Bool
  | mindmap | timeline | journey => false
  | _ => true

/-- the first line that says something is no header -/
def IsBare (d : Dialect) (t : Text) : Prop := ∀ l ∈ (sourceLines d.stripsSemicolon t).head?, d.header? l.text = none

theorem strip_lineReader (hd : d ≠ .pie) : (d.lineReader hd).strip = d.stripsSemicolon := by
  cases d with
  | pie => exact absurd rfl hd
  | _ => rfl

/-- the keyword is a header of which nothing else is said -/
theorem header?_canonicalKeyword (d : Dialect) : '\n' ∉ d.canonicalKeyword ∧
    SourceLine.ofRaw? d.stripsSemicolon 1 d.canonicalKeyword = some ⟨1, 1, d.canonicalKeyword, []⟩ ∧
      d.header? d.canonicalKeyword = some [] := by
  cases d <;> decide +kernel

/-- **the keyword above a text without a header** only moves its lines -/
theorem read_below_canonicalKeyword (hd : d ≠ .pie) (ht : d.IsBare t) :
    d.read (d.canonicalKeyword ++ '\n' :: t) = (d.read t).mapError (ReadError.renumber (· + 1)) := by
  obtain ⟨hlf, hline, hheader⟩ := header?_canonicalKeyword d
  rw [← strip_lineReader hd] at hline
  rw [IsBare, ← strip_lineReader hd] at ht
  exact (d.lineReader hd).read_below_keyword hlf hline hheader ht

end Dialect

theorem ofLines_isPrefix (l : Text) (ls : List Text) : l <+: ofLines (l :: ls) := by
  cases ls with
  | nil => rw [ofLines, join_singleton]
  | cons m ls =>
    rw [ofLines, join_cons_cons, List.append_assoc]
    exact List.prefix_append l _

/-- the line that opens the canonical text -/
def Diagram.headerLine : Diagram → Text
  | flowchart c => "flowchart " ++ c.direction.toText
  | pie c => if c.showData then "pie showData" else "pie"
  | xychart c => if c.isHorizontal then "xychart-beta horizontal" else "xychart-beta"
  | x => x.dialect.canonicalKeyword

theorem Diagram.canonicalKeyword_isPrefix_headerLine (x : Diagram) : x.dialect.canonicalKeyword <+: x.headerLine := by
  cases x with
  | flowchart c => exact ⟨" " ++ c.direction.toText, rfl⟩
  | pie c =>
    change ("pie" : Text) <+: if c.showData then "pie showData" else "pie"
    cases c.showData <;> decide
  | xychart c =>
    change ("xychart-beta" : Text) <+: if c.isHorizontal then "xychart-beta horizontal" else "xychart-beta"
    cases c.isHorizontal <;> decide
  | _ => exact List.prefix_rfl

theorem Diagram.exists_render_eq {x : Diagram} {o : RenderOptions} (h : x.render o = .ok t) :
    ∃ ls, t = ofLines (x.headerLine :: ls) := by
  cases x with
  | flowchart c =>
    obtain ⟨linkStyles, -, htext⟩ := exceptBind_eq_ok_iff.1 h
    exact ⟨_, (Except.ok.inj htext).symm⟩
  | _ => exact ⟨_, (Except.ok.inj h).symm⟩

/-- canonical texts begin with it -/
theorem Diagram.canonicalKeyword_isPrefix {x : Diagram} {o : RenderOptions} (h : x.render o = .ok t) :
    x.dialect.canonicalKeyword <+: t := by
  obtain ⟨ls, rfl⟩ := exists_render_eq h
  exact (canonicalKeyword_isPrefix_headerLine x).trans (ofLines_isPrefix _ _)

namespace Dialect

variable {e : ReadError}

/-- only the numbers of sequence diagrams fail without a place -/
theorem malformed_of_read (hd : d ≠ .sequence) (h : d.read t = .error e) : ∃ p, e = .malformed p := by
  cases d with
  | sequence => exact absurd rfl hd
  | _ => exact malformed_of_mapError h

theorem malformed_of_read_sequence (ht : ∀ l ∈ sourceLines true t, ∀ n ∈ Sequence.numbersOf l.text, n.length ≤ 4300)
    (h : sequence.read t = .error e) : ∃ p, e = .malformed p := by
  rcases Sequence.malformed_or_long_number (exceptMap_eq_error_iff.1 h) with hplace | ⟨l, hl, n, hn, hlength, -⟩
  · exact hplace
  · exact absurd (ht l hl n hn) (by omega)

/-- **a header is optional**: without it the same is read, or the same is wrong at the same place one line higher -/
theorem read_with_or_without_header (hd : d ≠ .pie) (ht : d.IsBare t)
    (hn : d = .sequence → ∀ l ∈ sourceLines true t, ∀ n ∈ Sequence.numbersOf l.text, n.length ≤ 4300) :
    (∃ x, d.read t = .ok x ∧ d.read (d.canonicalKeyword ++ '\n' :: t) = .ok x) ∨
      ∃ p, d.read t = .error (.malformed p) ∧
        d.read (d.canonicalKeyword ++ '\n' :: t) = .error (.malformed { p with line := p.line + 1 }) := by
  rw [read_below_canonicalKeyword hd ht]
  cases h : d.read t with
  | ok x => exact Or.inl ⟨x, rfl, rfl⟩
  | error e =>
    have hplace : ∃ p, e = .malformed p := by
      by_cases hsequence : d = .sequence
      · subst hsequence
        exact malformed_of_read_sequence (hn rfl) h
      · exact malformed_of_read hsequence h
    obtain ⟨p, rfl⟩ := hplace
    exact Or.inr ⟨p, rfl, rfl⟩

/-- a number with too many digits has no place, with a header or without -/
theorem read_long_number_with_or_without_header {n : Text} (hn : Sequence.IsDigits n) (h : 4300 < n.length) :
    sequence.read ("autonumber " ++ n) = .error (.integer (.tooLong n.length)) ∧
      sequence.read (sequence.canonicalKeyword ++ '\n' :: ("autonumber " ++ n)) = .error (.integer (.tooLong n.length)) := by
  have hread : sequence.read ("autonumber " ++ n) = .error (.integer (.tooLong n.length)) := by
    rw [read, Sequence.read_long_number hn h]
    rfl
  have hbare : sequence.IsBare ("autonumber " ++ n) := by
    obtain ⟨first, hfirst, htext, -⟩ := Sequence.sourceLines_autonumber hn
    have hlines : sourceLines sequence.stripsSemicolon ("autonumber " ++ n) = [first] := hfirst
    rw [IsBare, hlines]
    intro l hl
    rw [← Option.some.inj hl, htext]
    rfl
  refine ⟨hread, ?_⟩
  rw [read_below_canonicalKeyword (by decide) hbare, hread]
  rfl

end Dialect

/-! ## Lines without meaning -/

/-- an empty line, or a comment from the first character on -/
structure IsSilent (line : Text) : Prop where
  silent : line = [] ∨ ("%%" : Text) <+: line
  lineFeed : '\n' ∉ line
  carriageReturn : '\r' ∉ line

theorem IsSilent.content?_eq_none (h : IsSilent line) (strip : Bool) : SourceLine.content? strip line = none := by
  rw [SourceLine.content?_eq_none_iff]
  rcases h.silent with rfl | ⟨v, rfl⟩
  · exact Or.inl (Or.inl rfl)
  · exact Or.inr ⟨[], v, rfl, rfl⟩

theorem IsSilent.isBlankLine (h : IsSilent line) : PieChart.IsBlankLine line := by
  rcases h.silent with rfl | ⟨v, rfl⟩
  · exact .ending (.padding rfl)
  · exact .comment (a := []) rfl v

namespace Dialect

/-- **blank lines, comments and carriage returns do not count**: one more line without meaning only moves those below it, and
lines may end with a carriage return and a line feed -/
theorem read_with_silent_line (d : Dialect) (ht : '\r' ∉ t) :
    (∀ before after line, splitOn '\n' t = before ++ after → IsSilent line → d.read (ofLines (before ++ line :: after))
        = (d.read t).mapError (ReadError.renumber fun n => if before.length < n then n + 1 else n)) ∧
      d.read (replace "\n" "\r\n" t) = d.read t := by
  by_cases hd : d = .pie
  · subst hd
    constructor
    · intro before after line hsplit hline
      have hread := PieChart.read_insert ht hline.isBlankLine hline.lineFeed hline.carriageReturn hsplit
      rw [read, read, hread]
      cases PieChart.read t <;> rfl
    · rw [read, read, PieChart.read_crlf ht]
  · constructor
    · intro before after line hsplit hline
      exact (d.lineReader hd).renumber (sourceLines_insert (hline.content?_eq_none _) hline.lineFeed hsplit)
    · rw [(d.lineReader hd).read_eq, (d.lineReader hd).read_eq, sourceLines_crlf]

/-- a composite state that is closed twice -/
def closedTwice : Text := "stateDiagram-v2\nstate A \x7b\nB --> C\n\x7d\n\x7d"

/-- the error is one line lower with a comment in the composite state, and where it was when the lines end otherwise -/
theorem read_closedTwice_commented : '\r' ∉ closedTwice ∧ IsSilent "%% within" ∧
    state.read closedTwice = .error (.malformed ⟨5, 1, .braceOutsideComposite⟩) ∧
    state.read "stateDiagram-v2\nstate A \x7b\n%% within\nB --> C\n\x7d\n\x7d" = .error (.malformed ⟨6, 1, .braceOutsideComposite⟩) ∧
    state.read (replace "\n" "\r\n" closedTwice) = .error (.malformed ⟨5, 1, .braceOutsideComposite⟩) := by
  have hreturn : '\r' ∉ closedTwice := by decide
  have hcomment : IsSilent "%% within" := ⟨Or.inr ⟨" within", rfl⟩, by decide, by decide⟩
  have hread : state.read closedTwice = .error (.malformed ⟨5, 1, .braceOutsideComposite⟩) := rfl
  obtain ⟨hinsert, hcrlf⟩ := read_with_silent_line state hreturn
  have hsplit : splitOn '\n' closedTwice = (splitOn '\n' closedTwice).take 2 ++ (splitOn '\n' closedTwice).drop 2 :=
    (List.take_append_drop 2 _).symm
  have hcommented := hinsert _ _ _ hsplit hcomment
  rw [hread] at hcommented
  refine ⟨hreturn, hcomment, hread, hcommented, ?_⟩
  rw [hcrlf, hread]

end Dialect

end DiagramText

/-
The numbers of lines. Every line carries its number, and errors take it over; nothing else is made of it. So a text that has the
lines of another one under other numbers (`sourceLines_below`, `sourceLines_insert`, `sourceLines_crlf`) is read alike, but for
the lines of its errors. A `LineReader` is a dialect of which this is known: how a header and the lines below it are read, and
that this commutes with other numbers (`LineReader.renumber`).
-/
import DiagramText.Diagram
import DiagramText.Proofs.Reading
import DiagramText.Proofs.Text.Contents
import DiagramText.Proofs.Text.Quoted

namespace DiagramText

open DiagramText.Text

variable {f : Nat → Nat} {strip : Bool} {t : Text}

/-! ## Other numbers -/

/-- the line under another number -/
def SourceLine.renumber (f : Nat → Nat) (l : SourceLine) : SourceLine := { l with number := f l.number }

/-- the error at the same line under another number -/
def ParseError.renumber (f : Nat → Nat) (e : ParseError) : ParseError := { e with line := f e.line }

/-- the error at the same line under another number, when it is at a line -/
def ReadError.renumber (f : Nat → Nat) : ReadError → ReadError
  | .malformed e => .malformed (e.renumber f)
  | e => e

/-- a result with what it holds and what it complains of changed -/
def transport {ε ε' α β : Type} (g : α → β) (e : ε → ε') (x : Except ε α) : Except ε' β := (x.map g).mapError e

@[simp] theorem SourceLine.text_renumber (l : SourceLine) : (l.renumber f).text = l.text := rfl

section

variable {ε ε' α β ι : Type} {g : α → α} {e : ε → ε}

theorem transport_id (e : ε → ε') (x : Except ε α) : transport id e x = x.mapError e := by cases x <;> rfl

/-- what is made of a result that holds no line -/
theorem mapError_map (x : Except ε α) (h : α → β) : (x.mapError e).map h = (x.map h).mapError e := by cases x <;> rfl

theorem mapError_bind (x : Except ε α) {h h' : α → Except ε β} (hh : ∀ a, h' a = (h a).mapError e) :
    (x.mapError e).bind h' = (x.bind h).mapError e := by
  cases x with
  | error y => rfl
  | ok a => exact hh a

theorem mapM_mapError {step step' : ι → Except ε α} (h : ∀ x, step' x = (step x).mapError e) (xs : List ι) :
    xs.mapM step' = (xs.mapM step).mapError e := by
  induction xs with
  | nil => rfl
  | cons x xs ih =>
    rw [List.mapM_cons, List.mapM_cons, h, ih]
    cases step x with
    | error y => rfl
    | ok a => cases xs.mapM step <;> rfl

/-- **steps that commute with a change of states and lines**: so does a run of them -/
theorem foldlM_transport {step : α → ι → Except ε α} {r : ι → ι} (h : ∀ p l, step (g p) (r l) = transport g e (step p l))
    (ls : List ι) (p : α) : (ls.map r).foldlM step (g p) = transport g e (ls.foldlM step p) := by
  induction ls generalizing p with
  | nil => rfl
  | cons l ls ih =>
    rw [List.map_cons, List.foldlM_cons, List.foldlM_cons, h]
    cases step p l with
    | error y => rfl
    | ok q => exact ih q

/-- what is made of the last state of a run, when it holds no line -/
theorem transport_bind {x : Except ε α} {finish : α → Except ε β} (h : ∀ p, finish (g p) = (finish p).mapError e) :
    (transport g e x).bind finish = (x.bind finish).mapError e := by
  cases x with
  | error y => rfl
  | ok p => exact h p

end

theorem SourceLine.number?_renumber (l : SourceLine) (offset : Int) (token : Text) :
    (l.renumber f).number? offset token = (l.number? offset token).mapError (ParseError.renumber f) := by
  unfold SourceLine.number?
  dsimp only
  split <;> rfl

/-- a header under another number -/
def renumberHeader (f : Nat → Nat) (x : SourceLine × Text) : SourceLine × Text := (x.1.renumber f, x.2)

theorem splitHeader_renumber (dialect : Dialect) (ls : List SourceLine) :
    splitHeader dialect (ls.map (SourceLine.renumber f))
      = ((splitHeader dialect ls).1.map (renumberHeader f), (splitHeader dialect ls).2.map (SourceLine.renumber f)) := by
  cases ls with
  | nil => rfl
  | cons l ls =>
    rw [List.map_cons, splitHeader, splitHeader, SourceLine.text_renumber]
    cases dialect.header? l.text <;> rfl

theorem checkHeader_renumber (dialect : Dialect) (x : Option (SourceLine × Text)) :
    checkHeader dialect (x.map (renumberHeader f)) = (checkHeader dialect x).mapError (ParseError.renumber f) := by
  cases x with
  | none => rfl
  | some x =>
    obtain ⟨l, rest⟩ := x
    rw [Option.map_some, renumberHeader, checkHeader, checkHeader]
    by_cases h : trim rest = []
    · rw [if_pos h, if_pos h]
      rfl
    · rw [if_neg h, if_neg h]
      rfl

/-! ## Texts with the same lines -/

namespace SourceLine

/-- only the number of a line depends on where it stands -/
theorem ofRaw?_renumber (strip : Bool) (n : Nat) (raw : Text) : ofRaw? strip (f n) raw = (ofRaw? strip n raw).map (renumber f) := by
  rw [ofRaw?, ofRaw?, apply_ite (Option.map (renumber f))]
  rfl

theorem number_of_ofRaw? {n : Nat} {raw : Text} {l : SourceLine} (h : ofRaw? strip n raw = some l) : l.number = n := by
  have hconst := ofRaw?_renumber (f := fun _ => n) strip n raw
  rw [h, Option.map_some, Option.some.injEq] at hconst
  exact congrArg number hconst

/-- lines that stand further down -/
theorem ofRaws_add (strip : Bool) (n k : Nat) (raws : List Text) :
    ofRaws strip (n + k) raws = (ofRaws strip n raws).map (renumber (· + k)) := by
  induction raws generalizing n with
  | nil => rfl
  | cons raw raws ih =>
    have hnext : n + k + 1 = n + 1 + k := by omega
    rw [ofRaws, ofRaws, ofRaw?_renumber (f := (· + k)) strip n raw, hnext, ih]
    cases ofRaw? strip n raw <;> rfl

/-- the number of a line is one of those that were given out -/
theorem number_of_mem_ofRaws {strip : Bool} {n : Nat} {raws : List Text} {l : SourceLine} (h : l ∈ ofRaws strip n raws) :
    n ≤ l.number ∧ l.number < n + raws.length := by
  induction raws generalizing n with
  | nil => exact absurd h List.not_mem_nil
  | cons raw raws ih =>
    rw [List.length_cons]
    have hrest : l ∈ ofRaws strip (n + 1) raws → n ≤ l.number ∧ l.number < n + (raws.length + 1) := by
      intro h
      have := ih h
      omega
    rw [ofRaws] at h
    split at h
    · exact hrest h
    · rename_i first hfirst
      rcases List.mem_cons.1 h with rfl | h
      · have hn := number_of_ofRaw? hfirst
        omega
      · exact hrest h

/-- a line that says nothing only moves those below it -/
theorem ofRaws_insert {line : Text} (hline : content? strip line = none) (before after : List Text) :
    ofRaws strip 1 (before ++ line :: after)
      = (ofRaws strip 1 (before ++ after)).map (renumber fun n => if before.length < n then n + 1 else n) := by
  have hnone : ofRaw? strip (1 + before.length) line = none := by
    rw [← Option.map_eq_none_iff (f := SourceLine.text), map_text_ofRaw?, hline]
  have habove : (ofRaws strip 1 before).map (renumber fun n => if before.length < n then n + 1 else n) = ofRaws strip 1 before := by
    refine (List.map_congr_left fun l hl => ?_).trans (List.map_id _)
    have hnumber := number_of_mem_ofRaws hl
    rw [renumber, if_neg (by omega), id_eq]
  have hbelow : ofRaws strip (1 + before.length + 1) after
      = (ofRaws strip (1 + before.length) after).map (renumber fun n => if before.length < n then n + 1 else n) := by
    rw [ofRaws_add]
    refine List.map_congr_left fun l hl => ?_
    have hnumber := number_of_mem_ofRaws hl
    rw [renumber, renumber, if_pos (by omega)]
  rw [ofRaws_append, ofRaws_append, List.map_append, habove, ← hbelow, ofRaws, hnone]

/-- carriage returns at the end of a line are no part of it -/
theorem ofRaw?_concat (strip : Bool) (n : Nat) (raw : Text) : ofRaw? strip n (raw ++ ['\r']) = ofRaw? strip n raw := by
  have hbody : dropRightWhile (· = '\r') (raw ++ ['\r']) = dropRightWhile (· = '\r') raw := by
    rw [dropRightWhile_concat]
    rfl
  rw [ofRaw?, ofRaw?, hbody]

theorem ofRaws_congr {raws raws' : List Text} (h : List.Forall₂ (fun a b => b = a ∨ b = a ++ ['\r']) raws raws') (n : Nat) :
    ofRaws strip n raws' = ofRaws strip n raws := by
  induction h generalizing n with
  | nil => rfl
  | cons hline _ ih =>
    rw [ofRaws, ofRaws, ih]
    rcases hline with rfl | rfl
    · rfl
    · rw [ofRaw?_concat]

end SourceLine

/-- a text below a line that says something -/
theorem sourceLines_below {line : Text} {l : SourceLine} (hline : '\n' ∉ line) (hl : SourceLine.ofRaw? strip 1 line = some l) (t : Text) :
    sourceLines strip (line ++ '\n' :: t) = l :: (sourceLines strip t).map (SourceLine.renumber (· + 1)) := by
  rw [sourceLines, splitOn_append_cons hline, SourceLine.ofRaws, hl, SourceLine.ofRaws_add, sourceLines]

/-- the lines of a text with one more line -/
theorem splitOn_insert {line : Text} (hlf : '\n' ∉ line) {before after : List Text} (ht : splitOn '\n' t = before ++ after) :
    splitOn '\n' (ofLines (before ++ line :: after)) = before ++ line :: after := by
  refine splitOn_ofLines (by simp) fun l hl => ?_
  rcases List.mem_append.1 hl with hl | hl
  · exact not_mem_of_mem_splitOn (ht ▸ List.mem_append_left after hl)
  · rcases List.mem_cons.1 hl with rfl | hl
    · exact hlf
    · exact not_mem_of_mem_splitOn (ht ▸ List.mem_append_right before hl)

/-- a text with one more line that says nothing -/
theorem sourceLines_insert {line : Text} (hline : SourceLine.content? strip line = none) (hlf : '\n' ∉ line) {before after : List Text}
    (ht : splitOn '\n' t = before ++ after) : sourceLines strip (ofLines (before ++ line :: after))
      = (sourceLines strip t).map (SourceLine.renumber fun n => if before.length < n then n + 1 else n) := by
  rw [sourceLines, splitOn_insert hlf ht, SourceLine.ofRaws_insert hline, sourceLines, ht]

/-- lines that end with a carriage return and a line feed -/
theorem splitOn_crlf (t : Text) :
    List.Forall₂ (fun a b => b = a ∨ b = a ++ ['\r']) (splitOn '\n' t) (splitOn '\n' (replace "\n" "\r\n" t)) := by
  have hreplace : ∀ t : Text, replace "\n" "\r\n" t = t.flatMap fun c => if c = '\n' then ['\r', '\n'] else [c] := replace_char '\n' _
  induction t with
  | nil => exact .cons (Or.inl rfl) .nil
  | cons c t ih =>
    rw [hreplace] at ih
    rw [hreplace, List.flatMap_cons]
    by_cases hc : c = '\n'
    · rw [if_pos hc, splitOn, if_pos hc]
      exact .cons (Or.inr rfl) ih
    · rw [if_neg hc, List.singleton_append, splitOn, if_neg hc, splitOn, if_neg hc]
      revert ih
      generalize splitOn '\n' t = raws
      generalize splitOn '\n' (t.flatMap fun c => if c = '\n' then ['\r', '\n'] else [c]) = raws'
      intro ih
      cases ih with
      | nil => exact .cons (Or.inl rfl) .nil
      | cons hline hrest =>
        refine .cons (hline.imp ?_ ?_) hrest
        · exact fun e => e ▸ rfl
        · exact fun e => e ▸ rfl

theorem sourceLines_crlf (strip : Bool) (t : Text) : sourceLines strip (replace "\n" "\r\n" t) = sourceLines strip t :=
  SourceLine.ofRaws_congr (splitOn_crlf t) 1

/-! ## Dialects that are read line by line -/

/-- a dialect that is read line by line: what is made of a header, of which only what follows the keyword counts, and of the
lines below it. Other numbers show in errors alone, and a header that is only the keyword says nothing -/
structure LineReader (dialect : Dialect) where
  strip : Bool
  run : Option (SourceLine × Text) → List SourceLine → Except ReadError Diagram
  read_eq : ∀ t, dialect.read t = run (splitHeader dialect (sourceLines strip t)).1 (splitHeader dialect (sourceLines strip t)).2
  run_renumber : ∀ f header body, run (header.map (renumberHeader f)) (body.map (SourceLine.renumber f))
    = (run header body).mapError (ReadError.renumber f)
  run_keyword : ∀ l body, run (some (l, [])) body = run none body

namespace LineReader

variable {dialect : Dialect}

/-- the reader of a dialect whose errors are all at lines -/
def ofMalformed {α : Type} (dialect : Dialect) (strip : Bool) (diagram : α → Diagram)
    (run : Option (SourceLine × Text) → List SourceLine → Except ParseError α)
    (read_eq : ∀ t, dialect.read t
      = ((run (splitHeader dialect (sourceLines strip t)).1 (splitHeader dialect (sourceLines strip t)).2).map diagram).mapError .malformed)
    (run_renumber : ∀ f header body, run (header.map (renumberHeader f)) (body.map (SourceLine.renumber f))
      = (run header body).mapError (ParseError.renumber f))
    (run_keyword : ∀ l body, run (some (l, [])) body = run none body) : LineReader dialect where
  strip := strip
  run header body := ((run header body).map diagram).mapError .malformed
  read_eq := read_eq
  run_renumber f header body := by
    rw [run_renumber]
    cases run header body <;> rfl
  run_keyword l body := by rw [run_keyword]

/-- **the same lines under other numbers**: what is read is the same, but for the lines of errors -/
theorem renumber (r : LineReader dialect) {t' : Text}
    (h : sourceLines r.strip t' = (sourceLines r.strip t).map (SourceLine.renumber f)) :
    dialect.read t' = (dialect.read t).mapError (ReadError.renumber f) := by
  rw [r.read_eq, r.read_eq, h, splitHeader_renumber, r.run_renumber]

/-- **a keyword above a text without a header** only moves its lines -/
theorem read_below_keyword (r : LineReader dialect) {keyword : Text} {l : SourceLine} (hlf : '\n' ∉ keyword)
    (hl : SourceLine.ofRaw? r.strip 1 keyword = some l) (hkeyword : dialect.header? l.text = some [])
    (ht : ∀ l ∈ (sourceLines r.strip t).head?, dialect.header? l.text = none) :
    dialect.read (keyword ++ '\n' :: t) = (dialect.read t).mapError (ReadError.renumber (· + 1)) := by
  have hbare : splitHeader dialect (sourceLines r.strip t) = (none, sourceLines r.strip t) := by
    cases hlines : sourceLines r.strip t with
    | nil => rfl
    | cons first rest =>
      rw [splitHeader, ht first (by rw [hlines]; rfl)]
  have hheader : splitHeader dialect (l :: (sourceLines r.strip t).map (SourceLine.renumber (· + 1)))
      = (some (l, []), (sourceLines r.strip t).map (SourceLine.renumber (· + 1))) := by
    rw [splitHeader, hkeyword]
  rw [r.read_eq, r.read_eq, sourceLines_below hlf hl, hheader, hbare, r.run_keyword]
  exact r.run_renumber (· + 1) none (sourceLines r.strip t)

end LineReader

end DiagramText

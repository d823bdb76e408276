/-
The columns of errors. A place of a text is a line and a column, both counted from one, and `Text.from?` is what stands on the
line from there on. A meaningful line stands where its number and its column say, and behind it stands only what reading drops
(`exists_raw_of_ofRaw?`); so an error at a character of the line points at that character of the text
(`from?_of_mem_sourceLines`).
-/
import DiagramText.Proofs.Text.Lines

namespace DiagramText

open DiagramText.Text

/-- what stands on a line of a text from a column on, both counted from one -/
def Text.from? (t : Text) (line : Nat) (column : Int) : Option Text :=
  if 1 ≤ line ∧ 1 ≤ column then ((splitOn '\n' t)[line - 1]?).map (List.drop (column - 1).toNat) else none

/-- the character at a place of a text -/
def Text.at? (t : Text) (line : Nat) (column : Int) : Option Char := (t.from? line column).bind List.head?

/-- what reading drops behind a line: white space, and in some dialects one semicolon -/
def IsDropped (strip : Bool) (t : Text) : Prop :=
  t.all isBlank = true ∨ strip = true ∧ ∃ a b : Text, t = a ++ ';' :: b ∧ a.all isBlank = true ∧ b.all isBlank = true

/-- what reading drops behind the text of a line, which ends with a semicolon only when another one is dropped -/
structure Drops (strip : Bool) (text d : Text) : Prop where
  dropped : IsDropped strip d
  semicolon : strip = true → endsWith (· = ';') text = true → ';' ∈ d

variable {strip : Bool} {t : Text} {l : SourceLine}

theorem IsDropped.append {b : Text} (h : IsDropped strip t) (hb : b.all isBlank = true) : IsDropped strip (t ++ b) := by
  rcases h with h | ⟨hs, a, c, rfl, ha, hc⟩
  · exact Or.inl (by rw [List.all_append, h, hb]; rfl)
  · exact Or.inr ⟨hs, a, c ++ b, by rw [List.append_assoc]; rfl, ha, by rw [List.all_append, hc, hb]; rfl⟩

theorem Drops.append {d b : Text} (h : Drops strip t d) (hb : b.all isBlank = true) : Drops strip t (d ++ b) where
  dropped := h.dropped.append hb
  semicolon hs ht := List.mem_append_left b (h.semicolon hs ht)

namespace SourceLine

@[simp] theorem cause_errorAt (l : SourceLine) (offset : Int) (cause : Cause) : (l.errorAt offset cause).cause = cause := rfl

@[simp] theorem cause_error (l : SourceLine) (cause : Cause) : (l.error cause).cause = cause := rfl

/-- a semicolon at the end of a line is dropped with the white space before it -/
theorem exists_unterminated_append (strip : Bool) (t : Text) :
    ∃ d, unterminated strip t ++ d = t ∧ Drops strip (unterminated strip t) d := by
  unfold unterminated
  split
  · rename_i h
    obtain ⟨hs, hlast⟩ : strip = true ∧ t.getLast? = some ';' := by simpa using h
    obtain ⟨b, hb, hblank⟩ := exists_trimRight_append t.dropLast
    refine ⟨b ++ [';'], ?_, Or.inr ⟨hs, b, [], rfl, hblank, rfl⟩, fun _ _ => by simp⟩
    rw [← List.append_assoc, hb]
    exact List.dropLast_append_getLast? ';' hlast
  · rename_i h
    refine ⟨[], List.append_nil t, Or.inl rfl, fun hs hend => absurd ?_ h⟩
    obtain ⟨r, c, rfl, hc⟩ := exists_concat_of_endsWith hend
    simpa [hs] using hc

/-- **a raw line is a meaningful line between its indentation and what is dropped behind it** -/
theorem exists_raw_of_ofRaw? {n : Nat} {raw : Text} (h : ofRaw? strip n raw = some l) :
    ∃ d, raw = l.indent ++ (l.text ++ d) ∧ Drops strip l.text d ∧ l.indent.all isBlank = true ∧ l.number = n ∧
      l.column = l.indent.length + 1 := by
  obtain ⟨returns, hraw, hreturns⟩ := exists_dropRightWhile_append (· = '\r') raw
  have hreturnsBlank : returns.all isBlank = true := List.all_eq_true.2 fun c hc => by
    rw [of_decide_eq_true (List.all_eq_true.1 hreturns c hc)]
    decide
  rw [ofRaw?, Option.ite_none_left_eq_some, Option.some.injEq] at h
  obtain ⟨-, rfl⟩ := h
  generalize dropRightWhile (· = '\r') raw = body at hraw
  obtain ⟨blanks, hbody, hblanks⟩ := exists_trimRight_append (trimLeft body)
  obtain ⟨d, htext, hd⟩ := exists_unterminated_append strip (trim body)
  have hindent : body.takeWhile isBlank ++ trimLeft body = body := List.takeWhile_append_dropWhile
  refine ⟨d ++ blanks ++ returns, ?_, (hd.append hblanks).append hreturnsBlank, List.all_takeWhile, rfl, rfl⟩
  calc raw = body ++ returns := hraw.symm
    _ = body.takeWhile isBlank ++ (trim body ++ blanks) ++ returns := by rw [trim, hbody, hindent]
    _ = body.takeWhile isBlank ++ (unterminated strip (trim body) ++ d ++ blanks) ++ returns := by rw [htext]
    _ = _ := by
      simp only [List.append_assoc]
      rfl

/-- the lines of raw lines are what each of them leaves under its number -/
theorem mem_ofRaws_iff {n : Nat} {raws : List Text} :
    l ∈ ofRaws strip n raws ↔ ∃ k raw, raws[k]? = some raw ∧ ofRaw? strip (n + k) raw = some l := by
  induction raws generalizing n with
  | nil => simp [ofRaws]
  | cons raw raws ih =>
    have hcons : l ∈ ofRaws strip n (raw :: raws) ↔ ofRaw? strip n raw = some l ∨ l ∈ ofRaws strip (n + 1) raws := by
      rw [ofRaws]
      cases ofRaw? strip n raw with
      | none => simp
      | some first => simp [eq_comm]
    rw [hcons, ih]
    constructor
    · rintro (h | ⟨k, raw', hk, h⟩)
      · exact ⟨0, raw, rfl, h⟩
      · exact ⟨k + 1, raw', hk, by rwa [Nat.add_comm k 1, ← Nat.add_assoc]⟩
    · rintro ⟨k, raw', hk, h⟩
      cases k with
      | zero => exact Or.inl (Option.some.inj hk ▸ h)
      | succ k => exact Or.inr ⟨k, raw', hk, by rwa [Nat.add_assoc, Nat.add_comm 1 k]⟩

end SourceLine

/-- **a meaningful line stands at its place**: behind a beginning of it stand the rest of it and what reading drops -/
theorem from?_of_mem_sourceLines (h : l ∈ sourceLines strip t) {before rest : Text} (hl : l.text = before ++ rest) :
    ∃ d, t.from? l.number (l.column + before.length) = some (rest ++ d) ∧ IsDropped strip d := by
  obtain ⟨k, raw, hk, hraw⟩ := SourceLine.mem_ofRaws_iff.1 h
  obtain ⟨d, rfl, hd, -, hnumber, hcolumn⟩ := SourceLine.exists_raw_of_ofRaw? hraw
  have hoffset : (l.column + before.length - 1 : Int).toNat = l.indent.length + before.length := by omega
  refine ⟨d, ?_, hd.dropped⟩
  rw [Text.from?, if_pos ⟨by omega, by omega⟩, hnumber, Nat.add_sub_cancel_left, hk, Option.map_some, hoffset, hl, List.append_assoc,
    ← List.append_assoc, ← List.length_append, List.drop_left]

/-- an error at a character of a meaningful line is at that character of the text -/
theorem at?_of_mem_sourceLines (h : l ∈ sourceLines strip t) {before rest : Text} {c : Char} (hl : l.text = before ++ c :: rest) :
    t.at? l.number (l.column + before.length) = some c := by
  obtain ⟨d, hd, -⟩ := from?_of_mem_sourceLines h hl
  rw [Text.at?, hd]
  rfl

end DiagramText

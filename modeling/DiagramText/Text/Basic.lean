/-
Text as a list of code points, and the cutting and joining operations the readers and printers share: trimming white
space, splitting at a character, removing a known beginning, replacing a phrase.
-/

namespace DiagramText

/-- a text is the list of its code points, so positions, lengths and comparisons all count code points -/
abbrev Text := List Char

/-- a string literal stands for the text it spells -/
instance : Coe String Text := ⟨String.toList⟩

/-- membership of a code point in a list of closed ranges -/
def inRanges (ranges : List (Nat × Nat)) (n : Nat) : Bool :=
  ranges.any fun r => r.1 ≤ n && n ≤ r.2

/-- white space: the Unicode class with the four ASCII separators, and without zero-width characters -/
def isBlank (c : Char) : Bool :=
  inRanges [(0x09, 0x0d), (0x1c, 0x20), (0x85, 0x85), (0xa0, 0xa0), (0x1680, 0x1680), (0x2000, 0x200a),
    (0x2028, 0x2029), (0x202f, 0x202f), (0x205f, 0x205f), (0x3000, 0x3000)] c.toNat

/-- a space or a tab -/
def isPadding (c : Char) : Bool := c = ' ' || c = '\t'

namespace Text

/-! ## Trimming -/

/-- drops the longest tail of characters in the class -/
def dropRightWhile (p : Char → Bool) : Text → Text
  | [] => []
  | c :: r =>
    match dropRightWhile p r with
    | [] => if p c then [] else [c]
    | d :: s => c :: d :: s

/-- without leading white space -/
def trimLeft (t : Text) : Text := t.dropWhile isBlank

/-- without trailing white space -/
def trimRight (t : Text) : Text := dropRightWhile isBlank t

/-- without white space at either end -/
def trim (t : Text) : Text := trimRight (trimLeft t)

theorem length_dropRightWhile_le (p : Char → Bool) (t : Text) : (dropRightWhile p t).length ≤ t.length := by
  induction t with
  | nil => simp [dropRightWhile]
  | cons c r ih =>
    unfold dropRightWhile
    split
    · split <;> simp
    · rename_i h
      rw [h] at ih
      simpa using ih

theorem length_trimLeft_le (t : Text) : (trimLeft t).length ≤ t.length := (List.dropWhile_sublist isBlank).length_le

theorem length_trim_le (t : Text) : (trim t).length ≤ t.length :=
  Nat.le_trans (length_dropRightWhile_le isBlank (trimLeft t)) (length_trimLeft_le t)

/-! ## Cutting -/

/-- the pieces between the separators, at least one -/
def splitOn (sep : Char) : Text → List Text
  | [] => [[]]
  | c :: r =>
    if c = sep then [] :: splitOn sep r
    else
      match splitOn sep r with
      | [] => [[c]]
      | piece :: pieces => (c :: piece) :: pieces

/-- the pieces between the separators, trimmed, the empty ones left out -/
def items (sep : Char) (t : Text) : List Text := ((splitOn sep t).map trim).filter (· ≠ [])

/-- the maximal runs of characters outside the class -/
def words (p : Char → Bool) : Text → List Text
  | [] => []
  | c :: r =>
    if p c then words p r
    else
      match r, words p r with
      | d :: _, w :: ws => if p d then [c] :: w :: ws else (c :: w) :: ws
      | _, ws => [c] :: ws

/-- the longest beginning in a class, and the rest -/
def span (p : Char → Bool) (t : Text) : Text × Text := (t.takeWhile p, t.dropWhile p)

theorem span_append (p : Char → Bool) (t : Text) : (span p t).1 ++ (span p t).2 = t := List.takeWhile_append_dropWhile

theorem eq_append_of_span_eq {p : Char → Bool} {t run rest : Text} (h : span p t = (run, rest)) : t = run ++ rest := by
  rw [← span_append p t, h]

/-- what follows a known beginning -/
def dropPrefix? : Text → Text → Option Text
  | [], t => some t
  | _ :: _, [] => none
  | p :: ps, c :: r => if p = c then dropPrefix? ps r else none

theorem dropPrefix?_eq_some_iff {p t r : Text} : dropPrefix? p t = some r ↔ t = p ++ r := by
  fun_induction dropPrefix? p t with
  | case1 => simp [eq_comm]
  | case2 => simp
  | case3 ps r' p ih => simp [ih]
  | case4 ps p c r' h =>
    constructor
    · simp
    · intro e
      simp only [List.cons_append, List.cons.injEq] at e
      exact absurd e.1.symm h

/-- what stands before the first occurrence of a phrase, and what follows it -/
def cut? (phrase : Text) : Text → Option (Text × Text)
  | [] => if phrase = [] then some ([], []) else none
  | c :: r =>
    match dropPrefix? phrase (c :: r) with
    | some rest => some ([], rest)
    | none => (cut? phrase r).map fun (before, rest) => (c :: before, rest)

/-- writes `new` for every occurrence of `old`, from the left and without overlap; `skip` characters belong to an
occurrence already written -/
def replaceFrom (old new : Text) : Nat → Text → Text
  | _, [] => []
  | skip + 1, _ :: r => replaceFrom old new skip r
  | 0, c :: r =>
    if (dropPrefix? old (c :: r)).isSome then new ++ replaceFrom old new (old.length - 1) r
    else c :: replaceFrom old new 0 r

/-- writes `new` for every occurrence of `old`, from the left and without overlap -/
def replace (old new t : Text) : Text := replaceFrom old new 0 t

/-! ## Joining -/

/-- the pieces with a separator between neighbours -/
def join (sep : Text) (pieces : List Text) : Text := sep.intercalate pieces

/-- lines joined by line feeds, the last one without -/
def ofLines (lines : List Text) : Text := join "\n" lines

/-- the text written `n` times -/
def times (n : Nat) (t : Text) : Text := (List.replicate n t).flatten

/-- a text that is there and is not empty -/
def present (t : Option Text) : Option Text := t.filter (· ≠ [])

/-- the decimal digits of an integer, with a minus sign when it is negative -/
def ofInt (n : Int) : Text := (toString n).toList

/-- the decimal digits of a natural number -/
def ofNat (n : Nat) : Text := Nat.toDigits 10 n

/-- code point order, shorter first on a common beginning -/
def le (s t : Text) : Bool := !decide (t < s)

end Text

end DiagramText

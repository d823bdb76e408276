/-
Records of delimited fields. A field in double quotes may hold the delimiter and, doubled, a quote; other fields are
trimmed. `Record.formatField` quotes exactly the fields that would be read differently without.
-/
import DiagramText.Source.Line

namespace DiagramText.Record

/-- the inside of a quoted field after its opening quote, and what follows the closing one -/
def quotedField? : Text → Option (Text × Text)
  | [] => none
  | '"' :: '"' :: r => (quotedField? r).map fun (field, rest) => ('"' :: field, rest)
  | c :: r => if c = '"' then some ([], r) else (quotedField? r).map fun (field, rest) => (c :: field, rest)

/-- what stands before the next delimiter, and the rest beginning with it -/
def beforeDelimiter (delimiter : Text) : Text → Text × Text
  | [] => ([], [])
  | c :: r =>
    if (Text.dropPrefix? delimiter (c :: r)).isSome then ([], c :: r)
    else
      let (before, rest) := beforeDelimiter delimiter r
      (c :: before, rest)

/-- why a record cannot be split, with the index of the character -/
inductive Fault where
  | unterminated (index : Nat)
  | afterQuoted (c : Char) (index : Nat)
deriving DecidableEq, Repr

theorem quotedField?_length {t field rest : Text} (h : quotedField? t = some (field, rest)) :
    rest.length < t.length := by
  fun_induction quotedField? t generalizing field with
  | case1 => simp at h
  | case2 r ih =>
    obtain ⟨⟨f, s⟩, hf, he⟩ := Option.map_eq_some_iff.1 h
    have := @ih f (by simp_all)
    simp only [List.length_cons]
    omega
  | case3 => simp_all
  | case4 c r _ _ ih =>
    obtain ⟨⟨f, s⟩, hf, he⟩ := Option.map_eq_some_iff.1 h
    have := @ih f (by simp_all)
    simp only [List.length_cons]
    omega

theorem beforeDelimiter_length (delimiter t : Text) : (beforeDelimiter delimiter t).2.length ≤ t.length := by
  fun_induction beforeDelimiter delimiter t <;> simp_all
  omega

/-- the fields of a record of which `t` is what is left of `size` characters -/
def fields (delimiter : Text) (size : Nat) (t : Text) : Except Fault (List Text) :=
  match _hs : t.dropWhile isPadding with
  | '"' :: r =>
    match _hq : quotedField? r with
    | none => .error (.unterminated size)
    | some (field, rest) =>
      match hp : rest.dropWhile isPadding with
      | [] => .ok [field]
      | c :: next =>
        if [c] = delimiter then (fields delimiter size next).map (field :: ·)
        else .error (.afterQuoted c (size - (next.length + 1)))
  | s =>
    match _hb : (beforeDelimiter delimiter s).2 with
    | [] => .ok [Text.trim (beforeDelimiter delimiter s).1]
    | _ :: next => (fields delimiter size next).map (Text.trim (beforeDelimiter delimiter s).1 :: ·)
termination_by t.length
decreasing_by
  · have h1 := (List.dropWhile_sublist (l := t) isPadding).length_le
    have h2 := quotedField?_length _hq
    have h3 := (List.dropWhile_sublist (l := rest) isPadding).length_le
    simp_all
    omega
  · have h1 := (List.dropWhile_sublist (l := t) isPadding).length_le
    have h2 := beforeDelimiter_length delimiter s
    simp_all
    omega

/-- the fields of a record that begins `offset` characters into a line -/
def split (delimiter : Text) (l : SourceLine) (offset : Int) (t : Text) : Except ParseError (List Text) :=
  match fields delimiter t.length t with
  | .ok fs => .ok fs
  | .error (.unterminated i) => .error (l.errorAt (offset + i) .unterminatedField)
  | .error (.afterQuoted c i) => .error (l.errorAt (offset + i) (.afterQuotedField c))

/-- whether a phrase occurs in a text -/
def holds (phrase t : Text) : Bool := (Text.cut? phrase t).isSome

/-- a field as a record holds it, in quotes when it would be read differently without -/
def formatField (delimiter value : Text) : Text :=
  if holds delimiter value || (Text.dropPrefix? "%%" value).isSome || value.contains '"' || value.contains '\n'
      || Text.trim value ≠ value then
    '"' :: Text.replace "\"" "\"\"" value ++ ['"']
  else value

end DiagramText.Record

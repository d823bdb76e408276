/-
Readers of line-shaped statements. Each takes what is left of a line; `longest` and `shortest` choose a run of
characters together with a continuation that decides whether the choice stands, so a rule that could cut its line in
several places takes the first cut, in its own order of preference, under which everything after it fits.
-/
import DiagramText.Text.Classes

namespace DiagramText.Scan

/-! ## What is left -/

/-- a rest of a text from which something was taken -/
structure IsRest (rest t : Text) : Prop where
  suffix : rest <:+ t
  length_lt : rest.length < t.length

namespace IsRest

variable {rest s t : Text}

theorem append {run : Text} (h : run ≠ []) (rest : Text) : IsRest rest (run ++ rest) where
  suffix := List.suffix_append run rest
  length_lt := by
    have := List.length_pos_iff.2 h
    rw [List.length_append]
    omega

/-- of a rest something else may be taken -/
theorem of_suffix (h : IsRest s t) (hrest : rest <:+ s) : IsRest rest t :=
  ⟨hrest.trans h.suffix, Nat.lt_of_le_of_lt hrest.length_le h.length_lt⟩

/-- before it something else may have been taken -/
theorem trans_suffix (h : IsRest rest s) (hs : s <:+ t) : IsRest rest t :=
  ⟨h.suffix.trans hs, Nat.lt_of_lt_of_le h.length_lt hs.length_le⟩

end IsRest

/-! ## Choices -/

/-- the first of two readings that succeeds -/
theorem orElse_eq_some_iff {α : Type} {a b : Option α} {x : α} :
    (a <|> b) = some x ↔ a = some x ∨ (a = none ∧ b = some x) := by
  cases a <;> simp

/-- runs of characters of a class, the longest first: the first run whose continuation succeeds decides -/
def longest {α : Type} (p : Char → Bool) (k : Text → Text → Option α) : Text → Option α
  | [] => k [] []
  | c :: r => (if p c then longest p (fun run rest => k (c :: run) rest) r else none) <|> k [] (c :: r)

/-- runs of characters of a class, the shortest first: the first run whose continuation succeeds decides -/
def shortest {α : Type} (p : Char → Bool) (k : Text → Text → Option α) : Text → Option α
  | [] => k [] []
  | c :: r => k [] (c :: r) <|> (if p c then shortest p (fun run rest => k (c :: run) rest) r else none)

/-- a choice that stands cuts the text in two -/
theorem exists_of_longest {α : Type} {p : Char → Bool} {k : Text → Text → Option α} {t : Text} {a : α}
    (h : longest p k t = some a) : ∃ run rest, t = run ++ rest ∧ k run rest = some a := by
  induction t generalizing k with
  | nil => exact ⟨[], [], rfl, h⟩
  | cons c r ih =>
    rw [longest, orElse_eq_some_iff, Option.ite_none_right_eq_some] at h
    rcases h with ⟨_, h⟩ | ⟨_, h⟩
    · obtain ⟨run, rest, e, hk⟩ := ih h
      exact ⟨c :: run, rest, by rw [e]; rfl, hk⟩
    · exact ⟨[], c :: r, rfl, h⟩

/-- a choice that stands cuts the text in two -/
theorem exists_of_shortest {α : Type} {p : Char → Bool} {k : Text → Text → Option α} {t : Text} {a : α}
    (h : shortest p k t = some a) : ∃ run rest, t = run ++ rest ∧ k run rest = some a := by
  induction t generalizing k with
  | nil => exact ⟨[], [], rfl, h⟩
  | cons c r ih =>
    rw [shortest, orElse_eq_some_iff, Option.ite_none_right_eq_some] at h
    rcases h with h | ⟨_, _, h⟩
    · exact ⟨[], c :: r, rfl, h⟩
    · obtain ⟨run, rest, e, hk⟩ := ih h
      exact ⟨c :: run, rest, by rw [e]; rfl, hk⟩

/-- any character of a line -/
def notLineFeed (c : Char) : Bool := c ≠ '\n'

/-- the whole of what is left, which holds no line feed but perhaps a final one, left out -/
def line? (t : Text) : Option Text :=
  match Text.span notLineFeed t with
  | (run, []) => some run
  | (run, ['\n']) => some run
  | _ => none

/-- nothing is left, or only a final line feed -/
def atEnd (t : Text) : Bool := t = [] || t = ['\n']

/-- drops leading white space -/
def blanks (t : Text) : Text := t.dropWhile isBlank

/-- drops leading white space, of which there has to be some -/
def blanks? : Text → Option Text
  | [] => none
  | c :: r => if isBlank c then some (blanks r) else none

/-- splits off a nonempty longest run of a class -/
def run? (p : Char → Bool) (t : Text) : Option (Text × Text) :=
  match Text.span p t with
  | ([], _) => none
  | (c :: run, rest) => some (c :: run, rest)

/-- splits off a text in double quotes, quotes included -/
def quoted? : Text → Option (Text × Text)
  | '"' :: r =>
    match Text.span (· ≠ '"') r with
    | (inner, '"' :: rest) => some ('"' :: inner ++ ['"'], rest)
    | _ => none
  | _ => none

theorem quoted?_append {t token rest : Text} (h : quoted? t = some (token, rest)) : t = token ++ rest := by
  unfold quoted? at h
  split at h
  · split at h
    · rename_i inner rest' hs
      obtain ⟨rfl, rfl⟩ := Prod.mk.inj (Option.some.inj h)
      simp [Text.eq_append_of_span_eq hs]
    · simp at h
  · simp at h

theorem blanks?_suffix {t rest : Text} (h : blanks? t = some rest) : rest <:+ t := by
  cases t with
  | nil => simp [blanks?] at h
  | cons c r =>
    simp only [blanks?, blanks, Option.ite_none_right_eq_some, Option.some.injEq] at h
    exact h.2 ▸ (List.dropWhile_suffix isBlank).trans (List.suffix_cons c r)

/-- a known word and the white space after it, of which there has to be some -/
def word? (w : Text) (t : Text) : Option Text := (Text.dropPrefix? w t).bind blanks?

/-- a keyword in any letter case and the white space after it, of which there has to be some -/
def keyword? (w : Text) (t : Text) : Option Text := (dropKeyword? w t).bind blanks?

/-- after a keyword: nothing, or white space and the rest of the line -/
def optionalRest? (t : Text) : Option Text := if t = [] then some [] else blanks? t

/-- after a keyword in any letter case: white space and a text, which is trimmed -/
def keywordText? (w : Text) (t : Text) : Option Text :=
  (keyword? w t).bind fun rest => Text.present (some (Text.trim rest))

/-- what follows a colon, which white space may surround -/
def afterColon? (t : Text) : Option Text :=
  match blanks t with
  | ':' :: r => some (blanks r)
  | _ => none

/-- after a statement: nothing, or a colon and a label -/
def optionalLabel? (t : Text) : Option (Option Text) := if t = [] then some none else (afterColon? t).map some

/-- a run of a class and nothing else -/
def whole? (p : Char → Bool) (t : Text) : Option Text := if t ≠ [] ∧ t.all p then some t else none

/-- a text in double quotes, if there is one, and the white space after it -/
def optionalQuoted (t : Text) : Option Text × Text :=
  match quoted? t with
  | some (token, rest) => (some token, blanks rest)
  | none => (none, t)

/-! ## Hyphenated names and lists of them -/

/-- starts with a character of the class -/
def startsWith (p : Char → Bool) : Text → Bool
  | [] => false
  | c :: _ => p c

/-- the longest continuation of a name: characters of the class, and hyphens between two of them -/
def nameTail (p : Char → Bool) : Text → Text × Text
  | [] => ([], [])
  | c :: r =>
    if p c || (c = '-' && startsWith p r) then
      let (name, rest) := nameTail p r
      (c :: name, rest)
    else ([], c :: r)

/-- the longest name at the beginning: runs of the class joined by single hyphens -/
def name? (p : Char → Bool) (t : Text) : Option (Text × Text) :=
  if startsWith p t then some (nameTail p t) else none

/-- names at the beginning, the longest first: the first name whose continuation succeeds decides; `k` is given what
continues the name -/
def longestTail {α : Type} (p : Char → Bool) (k : Text → Text → Option α) : Text → Option α
  | '-' :: c :: r =>
    (if p c then longestTail p (fun name rest => k ('-' :: c :: name) rest) r else none) <|> k [] ('-' :: c :: r)
  | c :: r => (if p c then longestTail p (fun name rest => k (c :: name) rest) r else none) <|> k [] (c :: r)
  | [] => k [] []

/-- names at the beginning, the longest first: the first name whose continuation succeeds decides -/
def longestName {α : Type} (p : Char → Bool) (k : Text → Text → Option α) : Text → Option α
  | [] => none
  | c :: r => if p c then longestTail p (fun name rest => k (c :: name) rest) r else none

theorem nameTail_append (p : Char → Bool) (t : Text) : (nameTail p t).1 ++ (nameTail p t).2 = t := by
  fun_induction nameTail p t <;> simp_all

theorem name?_append {p : Char → Bool} {t name rest : Text} (h : name? p t = some (name, rest)) : t = name ++ rest := by
  simp only [name?, Option.ite_none_right_eq_some, Option.some.injEq] at h
  have := nameTail_append p t
  rw [h.2] at this
  exact this.symm

theorem name?_ne_nil {p : Char → Bool} {t name rest : Text} (h : name? p t = some (name, rest)) : name ≠ [] := by
  rw [name?, Option.ite_none_right_eq_some, Option.some.injEq] at h
  cases t with
  | nil => simp [startsWith] at h
  | cons c r =>
    obtain ⟨hc, h⟩ := h
    have hc : p c = true := hc
    simp only [nameTail, hc, Bool.true_or, if_true, Prod.mk.injEq] at h
    simp [← h.1]

/-- drops a comma and the white space around it -/
def comma? (t : Text) : Option Text :=
  match blanks t with
  | ',' :: r => some (blanks r)
  | _ => none

/-- the ways to read a list of items separated by commas at the beginning of a text, the longest list first -/
def lists (item? : Text → Option (Text × Text)) (t : Text) : List (List Text × Text) :=
  match item? t with
  | none => []
  | some (item, rest) =>
    match comma? rest with
    | none => [([item], rest)]
    | some next =>
      if next.length < t.length then
        (lists item? next).map (fun (items, rest) => (item :: items, rest)) ++ [([item], rest)]
      else [([item], rest)]
termination_by t.length

/-! ## Repetition -/

/-- an item as often as one is found, and the rest; a repetition gives nothing back, whatever follows it, and stops at an
item that takes nothing -/
def many {α : Type} (item? : Text → Option (α × Text)) (t : Text) : List α × Text :=
  match item? t with
  | none => ([], t)
  | some (item, rest) =>
    if rest.length < t.length then
      let (items, rest) := many item? rest
      (item :: items, rest)
    else ([item], rest)
termination_by t.length

end DiagramText.Scan

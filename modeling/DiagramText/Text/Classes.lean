/-
Character classes of the readers (word characters, decimal digits, printable characters) and letter case: keyword
comparison that ignores case, and the small-letter form of a text.
-/
import DiagramText.Text.Basic
import DiagramText.Text.WordTable
import DiagramText.Text.PrintTable
import DiagramText.Text.CaseTable

namespace DiagramText

/-! ## Words and digits -/

/-- an ASCII letter -/
def isLetter (c : Char) : Bool := ('a' ≤ c && c ≤ 'z') || ('A' ≤ c && c ≤ 'Z')

/-- the value of a decimal digit of any script -/
def digitValue? (c : Char) : Option Nat :=
  if '0' ≤ c ∧ c ≤ '9' then some (c.toNat - 0x30)
  else if c.toNat < 0x80 then none
  else (digitZeros.find? fun z => z ≤ c.toNat && c.toNat ≤ z + 9).map fun z => c.toNat - z

/-- a decimal digit of any script -/
def isDigit (c : Char) : Bool := (digitValue? c).isSome

/-- a letter, a decimal digit or another character with a numeric value, or the underscore -/
def isWord (c : Char) : Bool :=
  isLetter c || ('0' ≤ c && c ≤ '9') || c = '_' || (0x80 ≤ c.toNat && inRanges wordRanges c.toNat)

/-- a word character or a hyphen -/
def isWordOrHyphen (c : Char) : Bool := isWord c || c = '-'

/-- a character that messages show as itself -/
def isPrintable (c : Char) : Bool :=
  if c.toNat < 0x80 then 0x20 ≤ c.toNat && c.toNat ≠ 0x7f else !inRanges unprintableRanges c.toNat

/-! ## Letter case -/

/-- the small ASCII letter that a keyword comparison takes the character for: its own small letter, and for the long s,
the Kelvin sign and the dotted or dotless i the letter each is a form of -/
def foldCase (c : Char) : Char :=
  if 'A' ≤ c ∧ c ≤ 'Z' then Char.ofNat (c.toNat + 0x20)
  else if c = 'ſ' then 's'
  else if c.toNat = 0x212a then 'k'
  else if c = 'ı' ∨ c = 'İ' then 'i'
  else c

/-- what follows a word whose characters are compared by their folded forms -/
def dropFolded? (fold : Char → Char) : Text → Text → Option Text
  | [], t => some t
  | _ :: _, [] => none
  | k :: ks, c :: r => if fold k = fold c then dropFolded? fold ks r else none

/-- what follows a keyword written in any letter case -/
def dropKeyword? (keyword t : Text) : Option Text := dropFolded? foldCase keyword t

/-- the small letter of a character that has a single one -/
def lowerChar (c : Char) : Char :=
  if c.toNat < 0x80 then if 'A' ≤ c ∧ c ≤ 'Z' then Char.ofNat (c.toNat + 0x20) else c
  else
    match lowerRuns.find? fun (first, last, step, _) =>
        first ≤ c.toNat && c.toNat ≤ last && (c.toNat - first) % step == 0 with
    | some (first, _, _, target) => Char.ofNat (c.toNat - first + target)
    | none => c

/-- passed over when the neighbours of a capital sigma are looked at -/
def isCaseIgnorable (c : Char) : Bool :=
  if c.toNat < 0x80 then c = '\'' || c = '.' || c = ':' || c = '^' || c.toNat = 0x60
  else inRanges caseIgnorableRanges c.toNat

/-- a letter with a case -/
def isCased (c : Char) : Bool :=
  if c.toNat < 0x80 then isLetter c else inRanges casedRanges c.toNat

/-- the first character that is not case-ignorable is cased -/
def meetsCased (t : Text) : Bool :=
  match t.dropWhile isCaseIgnorable with
  | [] => false
  | c :: _ => isCased c

/-- small letters for a text whose reversed beginning is `before`: a capital sigma at the end of a word takes its final
form, and the dotted capital i keeps its dot as a mark of its own -/
def lowerFrom (before : Text) : Text → Text
  | [] => []
  | c :: r =>
    let small : Text :=
      if c = 'Σ' then if meetsCased before && !meetsCased r then "ς" else "σ"
      else if c = 'İ' then ['i', '\u0307']
      else [lowerChar c]
    small ++ lowerFrom (c :: before) r

/-- the text in small letters -/
def Text.lower (t : Text) : Text := lowerFrom [] t

/-- the text with capital letters for its small ASCII letters -/
def Text.upperAscii (t : Text) : Text :=
  t.map fun c => if 'a' ≤ c ∧ c ≤ 'z' then Char.ofNat (c.toNat - 0x20) else c

end DiagramText

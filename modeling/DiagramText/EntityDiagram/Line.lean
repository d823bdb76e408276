/-
The lines of an entity-relationship diagram: declarations of entities, the columns in the block of one, and relationships.
-/
import DiagramText.EntityDiagram.Basic
import DiagramText.Text.Quoted

namespace DiagramText.EntityDiagram

/-- a relationship as it stands on a line: its cardinalities are symbols, which need not exist, each with what is left
of the line from it on -/
structure RelationText where
  source : Text
  target : Text
  sourceSymbol : Text
  targetSymbol : Text
  fromSourceSymbol : Text
  fromTargetSymbol : Text
  label : Text
  isIdentifying : Bool
deriving DecidableEq, Repr

/-- what a line outside entity blocks says -/
inductive Line where
  | accessibility (line : AccessibilityLine)
  | direction (token : Text)
  | declare (id : Text) (label : Option Text) (opensBlock : Bool)
  | relate (r : RelationText)
deriving DecidableEq, Repr

/-- an id and the rest of a line -/
def entityId? (t : Text) : Option (Text × Text) := Scan.run? isWordOrHyphen t

/-- a quoted label in square brackets, if there is one -/
def bracketedLabel (t : Text) : Option Text × Text :=
  match t with
  | '[' :: r =>
    match Scan.quoted? r with
    | some (token, ']' :: rest) => (some (unquote token), rest)
    | _ => (none, t)
  | _ => (none, t)

/-- the braces of a block: whether they are left open; `none` when other text follows -/
def opensBlock? (t : Text) : Option Bool :=
  match Scan.blanks t with
  | '\x7b' :: r =>
    match Scan.blanks r with
    | [] => some true
    | ['\x7d'] => some false
    | _ => none
  | _ => none

/-- the line that opens the block of an entity, which may be closed at once -/
def block? (t : Text) : Option Line :=
  (entityId? t).bind fun (id, rest) =>
    let (label, rest) := bracketedLabel rest
    (opensBlock? rest).map fun opens => .declare id label opens

/-- an entity without a block -/
def entity? (t : Text) : Option Line :=
  (entityId? t).bind fun (id, rest) =>
    let (label, rest) := bracketedLabel rest
    if rest = [] then some (.declare id label false) else none

/-- a character of a cardinality symbol -/
def isSymbolChar (c : Char) : Bool := c = '|' || c = 'o' || c = '\x7d' || c = '\x7b'

/-- two characters of a cardinality symbol -/
def symbol? (t : Text) : Option (Text × Text) :=
  match t with
  | a :: b :: rest => if isSymbolChar a && isSymbolChar b then some ([a, b], rest) else none
  | _ => none

/-- a solid or a dashed line: whether it is solid, and the rest -/
def lineStyle? (t : Text) : Option (Bool × Text) :=
  (Text.dropPrefix? "--" t).map (true, ·) <|> (Text.dropPrefix? ".." t).map (false, ·)

/-- what follows the source of a relationship -/
def relationTail? (source t : Text) : Option RelationText :=
  let fromSource := Scan.blanks t
  (symbol? fromSource).bind fun (sourceSymbol, rest) =>
    (lineStyle? rest).bind fun (isIdentifying, fromTarget) =>
      (symbol? fromTarget).bind fun (targetSymbol, rest) =>
        (entityId? (Scan.blanks rest)).bind fun (target, rest) =>
          (Scan.optionalLabel? rest).map fun label =>
            ⟨source, target, sourceSymbol, targetSymbol, fromSource, fromTarget,
              unquote (Text.trim (label.getD [])), isIdentifying⟩

/-- a relationship; the id of its source is the longest after which the rest can be read -/
def relation? (t : Text) : Option RelationText :=
  Scan.longest isWordOrHyphen (fun source rest => if source = [] then none else relationTail? source rest) t

/-- what a line outside entity blocks says; `none` when it says nothing -/
def Line.read? (t : Text) : Option Line :=
  (Accessibility.line? t).map .accessibility
    <|> (Direction.statement? t).map (fun (token, _) => .direction token)
    <|> block? t
    <|> (relation? t).map .relate
    <|> entity? t

/-! ## Columns -/

/-- a key in any letter case -/
def Key.ofText? (t : Text) : Option Key := [Key.primary, .foreign, .unique].find? fun k => k.toText = Text.upperAscii t

/-- the keys of a list -/
def keyList (t : Text) : Except Cause (List Key) :=
  (Text.words (fun c => isBlank c || c = ',') t).mapM fun w =>
    match Key.ofText? w with
    | some k => .ok k
    | none => .error (.unknownKey w)

/-- the first text in quotes, and what stands around it -/
def firstQuoted (t : Text) : Option Text × Text :=
  let (before, rest) := Text.span (· ≠ '"') t
  match Scan.quoted? rest with
  | some (token, after) => (some (unquote token), before ++ after)
  | none => (none, t)

/-- a column: a type, a name, keys and a comment -/
def Column.read (t : Text) : Except Cause Column :=
  let isPart (c : Char) : Bool := !isBlank c
  let (type, rest) := Text.span isPart t
  let (name, rest) := Text.span isPart (Scan.blanks rest)
  if type = [] ∨ name = [] then .error (.invalidAttribute t)
  else
    let (note, rest) := firstQuoted (Scan.blanks rest)
    (keyList rest).map fun ks => ⟨type, name, ks, note⟩

end DiagramText.EntityDiagram

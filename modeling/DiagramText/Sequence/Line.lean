/-
The lines of a sequence diagram: what each says, apart from where in a block it stands.
-/
import DiagramText.Sequence.Basic
import DiagramText.Source.Line

namespace DiagramText.Sequence

/-- a block keyword of either kind -/
inductive Opening where
  | block (kind : BlockKind)
  | sectioned (kind : SectionedKind)
deriving DecidableEq, Repr

/-- the keyword of an opening -/
def Opening.keyword : Opening → Text
  | block k => k.keyword
  | sectioned k => k.keyword

/-- the openings in the order in which a reader tries them -/
def Opening.all : List Opening :=
  [.block .loop, .block .opt, .block .break, .block .rect, .sectioned .alt, .sectioned .par, .sectioned .critical]

/-- what a line says -/
inductive Line where
  | actor (a : Actor)
  | accessibility (line : AccessibilityLine)
  | title (text : Text)
  | openBox (label color : Option Text)
  | note (n : Note)
  | openBlock (opening : Opening) (label : Text)
  | divide (keyword label : Text)
  | close
  | activation (actor : Text) (active : Bool)
  | autonumberOff
  | autonumber (start step : Option Text)
  | message (m : Message)

/-! ## Actors and boxes -/

/-- a character of an actor id, hyphens apart -/
def isActorChar (c : Char) : Bool := isWord c || c = '.' || c = '@' || c = '$'

/-- the id of an actor: hyphens stand inside it only, one at a time -/
def actorId? (t : Text) : Option (Text × Text) := Scan.name? isActorChar t

/-- the declaration of an actor of a kind -/
def declaration? (t : Text) (kind : ActorKind) : Option Actor :=
  (Scan.word? kind.keyword t).bind fun r =>
    (actorId? r).bind fun (id, rest) =>
      if rest = [] then some ⟨id, id, kind⟩
      else
        ((Scan.blanks? rest).bind (Scan.word? "as")).bind fun label =>
          if label = [] then none else some ⟨id, Text.trim label, kind⟩

/-- the declaration of an actor -/
def actor? (t : Text) : Option Actor := [ActorKind.participant, .actor].findSome? (declaration? t)

/-- the names of colours -/
def colorNames : List Text :=
  ["transparent", "aqua", "black", "blue", "fuchsia", "gold", "gray", "green", "grey", "lavender", "lightblue",
    "lightgreen", "lightgrey", "lightyellow", "lime", "maroon", "navy", "olive", "orange", "pink", "purple", "red",
    "silver", "teal", "white", "yellow"]

/-- an opening parenthesis, arguments and the closing one, and the rest -/
def parenthesized? (t : Text) : Option Text :=
  match t with
  | '(' :: r =>
    match r.dropWhile (· ≠ ')') with
    | ')' :: rest => some rest
    | _ => none
  | _ => none

/-- a colour function by what reads its name, with an optional `a` for a transparent colour -/
def colorFunction? (drop? : Text → Text → Option Text) (t : Text) (name : Text) : Option Text :=
  (drop? name t).bind fun r => ((drop? "a" r).bind parenthesized?) <|> parenthesized? r

/-- a hexadecimal digit -/
def isHexDigit (c : Char) : Bool := ('0' ≤ c && c ≤ '9') || ('a' ≤ c && c ≤ 'f') || ('A' ≤ c && c ≤ 'F')

/-- a colour by form or by name, in any letter case -/
def isColor (t : Text) : Bool :=
  ["rgb", "hsl"].any (fun name => colorFunction? dropKeyword? t name = some [])
    || (match t with
      | '#' :: digits => digits.all isHexDigit && 3 ≤ digits.length && digits.length ≤ 8
      | _ => false)
    || colorNames.any fun name => dropKeyword? name t = some []

/-- the first word of a box header, which may be a colour function, when white space or nothing follows it -/
def colorWord? (t : Text) : Option (Text × Text) :=
  let function := (["rgb", "hsl"] : List Text).findSome? fun name =>
    (colorFunction? Text.dropPrefix? t name).bind fun rest =>
      (Scan.optionalRest? rest).map fun label => (t.take (t.length - rest.length), label)
  let word := (Scan.run? (fun c => !isBlank c) t).bind fun (w, rest) =>
    (Scan.optionalRest? rest).map fun label => (w, label)
  function <|> word

/-- the label and the colour of a box -/
def boxHeader (t : Text) : Option Text × Option Text :=
  let rest := Text.trim t
  if rest = [] then (none, none)
  else
    match colorWord? rest with
    | some (color, label) => if isColor color then (Text.present (some (Text.trim label)), some color) else (some rest, none)
    | none => (some rest, none)

/-! ## Statements -/

/-- the title, after a colon or white space -/
def title? (t : Text) : Option Text :=
  (Text.dropPrefix? "title" t).bind fun r =>
    match Scan.blanks r with
    | ':' :: text => some (Text.trim text)
    | _ => (Scan.blanks? r).map Text.trim

/-- a place of a note in any letter case: the place in small letters, and the rest -/
def notePlace? (places : List Text) (t : Text) : Option (Text × Text) :=
  places.findSome? fun place => (dropKeyword? place t).map fun rest => (Text.lower (t.take place.length), rest)

/-- the actors of a note, one or two -/
def noteActors? (t : Text) : Option (List Text × Text) :=
  (actorId? t).map fun (first, rest) =>
    match (Scan.comma? rest).bind actorId? with
    | some (second, rest) => ([first, second], rest)
    | none => ([first], rest)

/-- a note -/
def note? (t : Text) : Option Note :=
  (Scan.keyword? "note" t).bind fun r =>
    (notePlace? ["left of", "right of", "over"] r).bind fun (place, rest) =>
      (Scan.blanks? rest).bind fun actors =>
        (noteActors? actors).bind fun (ids, rest) => (Scan.afterColon? rest).map fun text => ⟨place, ids, Text.trim text⟩

/-- a keyword that stands alone or before white space and a label -/
def labelled? (keyword t : Text) : Option Text :=
  ((Text.dropPrefix? keyword t).bind Scan.optionalRest?).map Text.trim

/-- the opening of a block with its label -/
def opening? (t : Text) : Option (Opening × Text) :=
  Opening.all.findSome? fun o => (labelled? o.keyword t).map (o, ·)

/-- the keyword between two sections with the label of the second -/
def divider? (t : Text) : Option (Text × Text) :=
  (["else", "and", "option"] : List Text).findSome? fun keyword => (labelled? keyword t).map (keyword, ·)

/-- one actor and nothing else after a keyword -/
def soleActor? (keyword t : Text) : Option Text :=
  ((Scan.word? keyword t).bind actorId?).bind fun (id, rest) => if rest = [] then some id else none

/-- the beginning or the end of an activation -/
def activation? (t : Text) : Option (Text × Bool) :=
  (soleActor? "activate" t).map (·, true) <|> (soleActor? "deactivate" t).map (·, false)

/-- digits after white space, and the rest -/
def digits? (t : Text) : Option (Text × Text) := (Scan.blanks? t).bind (Scan.run? isDigit)

/-- numbering with an optional start and step -/
def autonumber? (t : Text) : Option (Option Text × Option Text) :=
  (Text.dropPrefix? "autonumber" t).bind fun r =>
    match digits? r with
    | none => if r = [] then some (none, none) else none
    | some (start, rest) =>
      match digits? rest with
      | none => if rest = [] then some (some start, none) else none
      | some (step, rest) => if rest = [] then some (some start, some step) else none

/-- the mark before the target of a message: whether it activates the target, whether it deactivates the source -/
def mark (t : Text) : (Bool × Bool) × Text :=
  match t with
  | '+' :: r => ((true, false), r)
  | '-' :: r => ((false, true), r)
  | _ => ((false, false), t)

/-- what follows the arrow of a message -/
def messageTail? (source : Text) (arrow : Arrow) (t : Text) : Option Message :=
  let ((activate, deactivate), rest) := mark (Scan.blanks t)
  (actorId? (Scan.blanks rest)).bind fun (target, rest) =>
    if rest = [] then some ⟨source, target, [], arrow, activate, deactivate⟩
    else (Scan.afterColon? rest).map fun text => ⟨source, target, Text.trim text, arrow, activate, deactivate⟩

/-- a message. The id of the source is the longest after which an arrow and a target can be read, and the arrow the
first that leaves a target -/
def message? (t : Text) : Option Message :=
  Scan.longestName isActorChar
    (fun source rest =>
      Arrow.all.findSome? fun arrow =>
        (Text.dropPrefix? arrow.toText (Scan.blanks rest)).bind (messageTail? source arrow))
    t

/-- what a line says that does not declare an actor; `none` when it says nothing -/
def Line.read? (t : Text) : Option Line :=
  (Accessibility.line? t).map .accessibility
    <|> (title? t).map .title
    <|> (((Text.dropPrefix? "box" t).bind Scan.optionalRest?).map fun r => .openBox (boxHeader r).1 (boxHeader r).2)
    <|> (note? t).map .note
    <|> (opening? t).map (fun (o, label) => .openBlock o label)
    <|> (divider? t).map (fun (keyword, label) => .divide keyword label)
    <|> (if t = "end" then some .close else none)
    <|> (activation? t).map (fun (id, active) => .activation id active)
    <|> ((Scan.word? "autonumber" t).bind fun r => if r = "off" then some .autonumberOff else none)
    <|> (autonumber? t).map (fun (start, step) => .autonumber start step)
    <|> (message? t).map .message

end DiagramText.Sequence

/-
Relationships as text: two class ids with a line between them, whose ends may carry markers and cardinalities.
-/
import DiagramText.ClassDiagram.Basic
import DiagramText.Text.Quoted

namespace DiagramText.ClassDiagram

/-- a solid or a dotted line: whether it is dotted, and the rest -/
def lineStyle? (t : Text) : Option (Bool × Text) :=
  (Text.dropPrefix? "--" t).map (false, ·) <|> (Text.dropPrefix? ".." t).map (true, ·)

/-- the marker at the right end; an `o` that touches an id belongs to the id -/
def rightEnd? (t : Text) (e : RelationEnd) : Option Text :=
  (Text.dropPrefix? e.right t).bind fun rest =>
    if e = .aggregation ∧ !Scan.startsWith (fun c => isBlank c || c = '"') rest then none else some rest

/-- the target of a relationship with its cardinality and its label -/
def relationTarget? (t : Text) : Option (Option Text × Text × Option Text) :=
  let (cardinality, rest) := Scan.optionalQuoted (Scan.blanks t)
  (Scan.run? isWordOrHyphen rest).bind fun (target, rest) =>
    (Scan.optionalLabel? rest).map fun label =>
      (cardinality.map unquote, target, Text.present (label.map Text.trim))

/-- what follows the source of a relationship: the first pair of markers under which the rest can be read -/
def relationTail? (source t : Text) : Option Relationship :=
  let (cardinality, rest) := Scan.optionalQuoted (Scan.blanks t)
  RelationEnd.all.findSome? fun left =>
    ((Text.dropPrefix? left.left rest).bind lineStyle?).bind fun (isDotted, rest) =>
      RelationEnd.all.findSome? fun right =>
        ((rightEnd? rest right).bind relationTarget?).map fun (targetCardinality, target, label) =>
          ⟨source, target, left, right, isDotted, label, cardinality.map unquote, targetCardinality⟩

/-- a relationship; the id of the source is the longest after which the rest can be read -/
def Relationship.read? (t : Text) : Option Relationship :=
  Scan.longest isWordOrHyphen (fun source rest => if source = [] then none else relationTail? source rest) t

/-- a relationship on a line -/
def Relationship.toText (r : Relationship) : Text :=
  let line : Text := if r.isDotted then ".." else "--"
  let parts := r.source :: (r.sourceCardinality.map quote).toList
    ++ [r.sourceEnd.left ++ line ++ r.targetEnd.right] ++ (r.targetCardinality.map quote).toList ++ [r.target]
  let text := Text.join " " parts
  match Text.present r.label with
  | some label => text ++ " : " ++ label
  | none => text

end DiagramText.ClassDiagram

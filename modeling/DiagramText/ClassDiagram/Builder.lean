/-
Building a class diagram call by call. No call is refused; a validated build refuses the first name that no call declares,
even when a member or an annotation has created its class.
-/
import DiagramText.ClassDiagram.Member
import DiagramText.Reference

namespace DiagramText.ClassDiagram

/-- what the declaration of a class says -/
structure Declaration where
  id : Text
  members : List Text
  label : Option Text
  generic : Option Text
  stereotype : Option Text
deriving DecidableEq, Repr

/-- a call on a namespace -/
inductive NamespaceCall where
  | declare (c : Declaration)
  | member (id text : Text)
deriving DecidableEq, Repr

/-- a call on the diagram -/
inductive Call where
  | declare (c : Declaration)
  | member (id text : Text)
  | annotate (id stereotype : Text)
  | relate (r : Relationship)
  | group (name : Text) (body : List NamespaceCall)
  | note (n : Note)
  | defineClass (name : Text) (style : Style)
  | assignClass (id name : Text)
  | describe (line : AccessibilityLine)

namespace Call

/-- a relationship with one marked end -/
def plain (source target : Text) (sourceEnd targetEnd : RelationEnd) (isDotted : Bool) (label : Option Text) : Call :=
  .relate ⟨source, target, sourceEnd, targetEnd, isDotted, label, none, none⟩

/-- a class extends its parent -/
def extends_ (child parent : Text) (label : Option Text) : Call := plain parent child .extension .none false label

/-- a class realizes an interface -/
def realization (implementer interface : Text) (label : Option Text) : Call :=
  plain interface implementer .extension .none true label

/-- an owner is composed of what it owns -/
def composition (owner owned : Text) (label : Option Text) : Call := plain owner owned .composition .none false label

/-- an owner collects what it owns -/
def aggregation (owner owned : Text) (label : Option Text) : Call := plain owner owned .aggregation .none false label

/-- a class is associated with another -/
def association (source target : Text) (label : Option Text) : Call :=
  plain source target .none .dependency false label

/-- a class depends on another -/
def dependency (dependent target : Text) (label : Option Text) : Call :=
  plain dependent target .none .dependency true label

end Call

/-- a diagram under construction, the ids that have been declared, and every name that a call has mentioned -/
structure Builder where
  diagram : ClassDiagram
  declared : List Text
  log : List Reference

namespace Builder

/-- nothing but a direction -/
def start (d : Direction) : Builder := ⟨{ direction := d }, [], []⟩

/-- changes the diagram -/
def update (f : ClassDiagram → ClassDiagram) (b : Builder) : Builder := { b with diagram := f b.diagram }

/-- notes mentions -/
def mention (refs : List Reference) (b : Builder) : Builder := { b with log := b.log ++ refs }

/-- adds the members that texts describe -/
def addMembers (texts : List Text) (c : Class) : Class := (texts.filterMap Member.read?).foldl Class.addMember c

/-- declares a class, or adds to its declaration -/
def declare (c : Declaration) (b : Builder) : Builder :=
  { b with
    diagram := b.diagram.alterClass c.id fun known =>
      addMembers c.members { known with
        label := c.label.getD known.label
        generic := c.generic <|> known.generic
        stereotype := c.stereotype <|> known.stereotype }
    declared := if b.declared.contains c.id then b.declared else b.declared ++ [c.id] }

/-- adds a member to a class, which it creates; a blank text is no member -/
def member (id text : Text) (b : Builder) : Builder :=
  let noted := b.mention [.entity ("member " ++ id ++ " : " ++ text) id]
  match Member.read? text with
  | some m => noted.update (·.alterClass id fun c => c.addMember m)
  | none => noted

/-- adds a relationship, which creates no class -/
def relate (r : Relationship) (b : Builder) : Builder :=
  let construct := "relation " ++ r.source ++ " -- " ++ r.target
  (b.mention [.entity construct r.source, .entity construct r.target]).update fun d =>
    { d with relationships := d.relationships ++ [r] }

/-- adds a note -/
def note (n : Note) (b : Builder) : Builder :=
  let refs := n.forClass.toList.map fun id => Reference.entity ("note for " ++ id) id
  (b.mention refs).update fun d => { d with notes := d.notes ++ [n] }

/-- gives a style class to a class -/
def assignClass (id name : Text) (b : Builder) : Builder :=
  let construct := "cssClass \"" ++ id ++ "\" " ++ name
  (b.mention [.entity construct id, .classDef construct name]).update fun d =>
    { d with cssClasses := d.cssClasses.assign id name }

end Builder

/-- the state after a call on a namespace -/
def NamespaceCall.run (b : Builder) : NamespaceCall → Builder
  | .declare c => b.declare c
  | .member id text => b.member id text

/-- the ids that calls declare, each once -/
def declaredIds : List NamespaceCall → List Text → List Text
  | [], ids => ids
  | .declare c :: rest, ids => declaredIds rest (if ids.contains c.id then ids else ids ++ [c.id])
  | .member _ _ :: rest, ids => declaredIds rest ids

/-- the state after a call -/
def Call.run (b : Builder) : Call → Builder
  | .declare c => b.declare c
  | .member id text => b.member id text
  | .annotate id text =>
    (b.mention [.entity ("<<" ++ text ++ ">> " ++ id) id]).update
      (·.alterClass id fun c => { c with stereotype := some text })
  | .relate r => b.relate r
  | .group name body =>
    (body.foldl NamespaceCall.run b).update fun d =>
      { d with namespaces := d.namespaces ++ [⟨name, declaredIds body []⟩] }
  | .note n => b.note n
  | .defineClass name style => b.update fun d => { d with classDefs := d.classDefs.insert name style }
  | .assignClass id name => b.assignClass id name
  | .describe line => b.update fun d => { d with accessibility := d.accessibility.put line }

namespace Builder

/-- the state after calls -/
def run (b : Builder) (calls : List Call) : Builder := calls.foldl Call.run b

/-- the diagram, unless a mentioned name is not declared -/
def build (b : Builder) : Except Reference ClassDiagram :=
  Reference.check b.declared b.diagram.classDefs.keys b.log b.diagram

end Builder

end DiagramText.ClassDiagram

/-
Placed diagrams. Each connected component is placed by an engine that layers from top to bottom; it is turned to the
direction of the diagram, and components stand side by side from left to right.
-/
import DiagramText.Layout.Graph

namespace DiagramText.Layout

/-- a place -/
structure Point where
  x : Float
  y : Float
deriving Repr

/-- the size of a rectangle -/
structure Size where
  width : Float
  height : Float
deriving Repr

/-- distances and the size of letters -/
structure Options where
  padding : Float := 40
  nodeSpacing : Float := 24
  layerSpacing : Float := 40
  fontSize : Float := 13
deriving Repr

/-- an entity with its rectangle, of which `corner` is the upper left corner -/
structure PlacedEntity where
  id : Text
  entity : Entity
  corner : Point
  size : Size
deriving Repr

/-- a relation with the centers of its ends -/
structure PlacedRelation where
  relation : Relation
  start : Point
  stop : Point
deriving Repr

/-- what an engine is asked to place: the entities of one component with their sizes, and the pairs that are tied -/
structure Task where
  spacing : Size
  vertices : List (Text × Size)
  pairs : List (Text × Text)
deriving Repr

/-- a placed diagram, and what the engine was asked -/
structure Placed where
  size : Size
  entities : List PlacedEntity := []
  relations : List PlacedRelation := []
  tasks : List Task := []
deriving Repr

/-- where an engine puts an entity of a component -/
abbrev Engine := List Text → Text → Point

/-- an engine that knows where to put some entities, and puts the others one below another -/
def Engine.listed (positions : Entries Point) : Engine := fun members id =>
  (positions.get? id).getD ⟨0, 10 * Float.ofNat (members.idxOf id)⟩

/-! ## Sizes -/

/-- room on either side of a label -/
def paddingX : Float := 16

/-- room above and below a label -/
def paddingY : Float := 10

/-- the average width of a letter as a share of the font size -/
def glyphRatio : Float := 0.55

/-- the size of a rectangle around a label -/
def labelSize (fontSize : Float) (label : Text) : Size :=
  ⟨Float.ofNat label.length * fontSize * glyphRatio + paddingX * 2, fontSize + paddingY * 2⟩

/-- the size of an entity; one without a label shows its id -/
def sizeOf (o : Options) (g : Graph) (id : Text) : Size :=
  labelSize o.fontSize ((((g.entities.get? id).map Entity.label).bind fun l => Text.present (some l)).getD id)

/-- width and height exchanged -/
def Size.turned (s : Size) : Size := ⟨s.height, s.width⟩

/-! ## Components -/

/-- the smallest of some numbers, the first of equal ones -/
def smallest : List Float → Float
  | [] => 0
  | x :: xs => xs.foldl (fun m y => if y < m then y else m) x

/-- the largest of some numbers, the first of equal ones -/
def largest : List Float → Float
  | [] => 0
  | x :: xs => xs.foldl (fun m y => if m < y then y else m) x

/-- a point of an engine that layers from top to bottom, in a diagram of some direction -/
def turn (d : Direction) (p : Point) : Point :=
  let p : Point := if d.isHorizontal then ⟨p.y, p.x⟩ else p
  if d.isReversed then if d.isHorizontal then ⟨-p.x, p.y⟩ else ⟨p.x, -p.y⟩ else p

/-- an engine is not asked about a single entity -/
def isAlone (members : List Text) : Bool := members.length ≤ 1

/-- the center of an entity in the coordinates of its component -/
def rawCenter (engine : Engine) (d : Direction) (members : List Text) (id : Text) : Point :=
  turn d (if isAlone members then ⟨0, 0⟩ else engine members id)

/-- the centers of the entities of a component that begins at `left`, and where the next component begins -/
def componentCenters (o : Options) (engine : Engine) (g : Graph) (left : Float) (members : List Text) :
    List (Text × Point) × Float :=
  let raw := members.map fun id => (id, rawCenter engine g.direction members id)
  let minX := smallest (raw.map fun (id, p) => p.x - (sizeOf o g id).width / 2)
  let maxX := largest (raw.map fun (id, p) => p.x + (sizeOf o g id).width / 2)
  let minY := smallest (raw.map fun (id, p) => p.y - (sizeOf o g id).height / 2)
  (raw.map fun (id, p) => (id, ⟨p.x - minX + left, p.y - minY⟩), left + ((maxX - minX) + o.nodeSpacing))

/-- the centers of the entities of components, the first of which begins at `left` -/
def centersFrom (o : Options) (engine : Engine) (g : Graph) (left : Float) : List (List Text) → List (Text × Point)
  | [] => []
  | members :: rest =>
    let (centers, next) := componentCenters o engine g left members
    centers ++ centersFrom o engine g next rest

/-- the centers of the entities of all components, side by side from left to right -/
def centers (o : Options) (engine : Engine) (components : List (List Text)) (g : Graph) : Entries Point :=
  Entries.ofList (centersFrom o engine g 0 components)

/-- what the engine is asked about a component -/
def task? (o : Options) (g : Graph) (members : List Text) : Option Task :=
  let vertex (id : Text) : Text × Size :=
    (id, if g.direction.isHorizontal then (sizeOf o g id).turned else sizeOf o g id)
  let inOrder (a b : Text × Text) : Bool := if a.1 = b.1 then Text.le a.2 b.2 else Text.le a.1 b.1
  if isAlone members then none
  else
    some ⟨⟨o.nodeSpacing, o.layerSpacing⟩, members.map vertex,
      (g.pairs.filter fun p => members.contains p.1).mergeSort inOrder⟩

/-! ## The whole -/

/-- an entity around its center -/
def placeEntity (o : Options) (g : Graph) (centers : Entries Point) (id : Text) (e : Entity) : PlacedEntity :=
  let center := (centers.get? id).getD ⟨0, 0⟩
  let size := sizeOf o g id
  ⟨id, e, ⟨center.x - size.width / 2 + o.padding, center.y - size.height / 2 + o.padding⟩, size⟩

/-- a relation between two centers; one that names an unknown entity has no place -/
def placeRelation? (o : Options) (centers : Entries Point) (r : Relation) : Option PlacedRelation :=
  match centers.get? r.source, centers.get? r.target with
  | some s, some t =>
    some ⟨r, ⟨s.x + o.padding, s.y + o.padding⟩, ⟨t.x + o.padding, t.y + o.padding⟩⟩
  | _, _ => none

/-- places a graph that falls into these components -/
def placeIn (o : Options) (engine : Engine) (components : List (List Text)) (g : Graph) : Placed :=
  if g.entities.toList.isEmpty then { size := ⟨2 * o.padding, 2 * o.padding⟩ }
  else
    let centers := centers o engine components g
    let entities := g.entities.toList.map fun (id, e) => placeEntity o g centers id e
    { size :=
        ⟨largest (entities.map fun e => e.corner.x + e.size.width) + o.padding,
          largest (entities.map fun e => e.corner.y + e.size.height) + o.padding⟩
      entities := entities
      relations := g.relations.filterMap (placeRelation? o centers)
      tasks := components.filterMap (task? o g) }

/-- places a diagram of a dialect that has a graph, which `components` takes apart -/
def placeDiagramIn? (o : Options) (engine : Engine) (components : Graph → List (List Text)) (d : Diagram) : Option Placed :=
  (Graph.ofDiagram? d).map fun g => placeIn o engine (components g) g

/-- places a diagram of a dialect that has a graph by its connected components -/
def placeDiagram? (o : Options) (engine : Engine) (d : Diagram) : Option Placed :=
  placeDiagramIn? o engine Graph.components d

end DiagramText.Layout

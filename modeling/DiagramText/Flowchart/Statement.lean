/-
The statements of a flowchart, one per line: what each line says, apart from what it does to the chart.
-/
import DiagramText.Flowchart.Operator

namespace DiagramText.Flowchart

/-- a node mentioned in a line: its id, its label and shape when they are given, and a style class -/
structure Mention where
  id : Text
  shaped : Option (Text × NodeShape)
  className : Option Text
deriving DecidableEq, Repr

/-- nodes joined by ampersands -/
abbrev Group := List Mention

/-- a line of groups, each linked to the next -/
structure Chain where
  first : Group
  links : List (LinkForm × Group)
deriving DecidableEq, Repr

/-- what a line says -/
inductive Statement where
  | accessibility (line : AccessibilityLine)
  | classDef (names : List Text) (style : Style)
  | assignClass (nodes : List Text) (name : Text)
  | style (nodes : List Text) (style : Style)
  | linkStyle (keys : List Text) (style : Style)
  | click (click : Click)
  | direction (direction : Direction)
  | openSubgraph (id title : Text)
  | closeSubgraph
  | chain (chain : Chain)

/-! ## Nodes and groups -/

/-- the id of a node: word characters and single hyphens between them -/
def nodeId? (t : Text) : Option (Text × Text) := Scan.name? isWord t

/-- a character that a label in the text may hold without quotes -/
def isLabelChar (c : Char) : Bool := c ∉ ['"', '[', ']', '(', ')', '\x7b', '\x7d']

/-- the label in the delimiters of a shape, and the rest -/
def shapedLabel? (t : Text) (shape : NodeShape) : Option (Text × NodeShape × Text) :=
  let (opening, closing) := shape.delimiters
  (Text.dropPrefix? opening t).bind fun body =>
    let quoted := (Scan.quoted? body).bind fun (token, rest) => (Text.dropPrefix? closing rest).map (token, ·)
    let plain := Scan.shortest isLabelChar (fun run rest => (Text.dropPrefix? closing rest).map (run, ·)) body
    (quoted <|> plain).map fun (token, rest) => (labelValue token, shape, rest)

/-- three colons and the name of a style class -/
def classSuffix? (t : Text) : Option (Text × Text) :=
  (Text.dropPrefix? ":::" t).bind fun r => if Scan.startsWith isWord r then some (Text.span isWordOrHyphen r) else none

/-- a node, and the rest of the line -/
def mention? (t : Text) : Option (Mention × Text) :=
  (nodeId? t).map fun (id, afterId) =>
    let shaped := NodeShape.delimited.findSome? (shapedLabel? afterId)
    let afterShape := match shaped with
      | some (_, _, rest) => rest
      | none => afterId
    let definition := shaped.map fun (label, shape, _) => (label, shape)
    match classSuffix? afterShape with
    | some (name, rest) => (⟨id, definition, some name⟩, rest)
    | none => (⟨id, definition, none⟩, afterShape)

theorem shapedLabel?_suffix {t label rest : Text} {shape s : NodeShape}
    (h : shapedLabel? t shape = some (label, s, rest)) : rest <:+ t := by
  obtain ⟨body, hb, h⟩ := Option.bind_eq_some_iff.1 h
  obtain ⟨⟨token, rest'⟩, ht, he⟩ := Option.map_eq_some_iff.1 h
  simp only [Prod.mk.injEq] at he
  obtain ⟨_, _, rfl⟩ := he
  have hbody : body <:+ t := Text.dropPrefix?_eq_some_iff.1 hb ▸ List.suffix_append _ body
  refine List.IsSuffix.trans ?_ hbody
  have hclose : ∀ {run r : Text}, (Text.dropPrefix? shape.delimiters.2 r).map (run, ·) = some (token, rest') → rest' <:+ r := by
    intro run r hm
    obtain ⟨x, hx, he⟩ := Option.map_eq_some_iff.1 hm
    obtain ⟨-, rfl⟩ := Prod.mk.inj he
    exact Text.dropPrefix?_eq_some_iff.1 hx ▸ List.suffix_append _ x
  rcases Scan.orElse_eq_some_iff.1 ht with ht | ⟨_, ht⟩
  · obtain ⟨⟨q, r⟩, hq, hm⟩ := Option.bind_eq_some_iff.1 ht
    exact (hclose hm).trans (Scan.quoted?_append hq ▸ List.suffix_append q r)
  · obtain ⟨run, r, rfl, hm⟩ := Scan.exists_of_shortest ht
    exact (hclose hm).trans (List.suffix_append run r)

theorem classSuffix?_suffix {t name rest : Text} (h : classSuffix? t = some (name, rest)) : rest <:+ t := by
  obtain ⟨r, hr, h⟩ := Option.bind_eq_some_iff.1 h
  simp only [Option.ite_none_right_eq_some, Option.some.injEq] at h
  have hrest : rest <:+ r := Text.eq_append_of_span_eq h.2 ▸ List.suffix_append name rest
  exact hrest.trans (Text.dropPrefix?_eq_some_iff.1 hr ▸ List.suffix_append _ r)

theorem mention?_rest {t rest : Text} {m : Mention} (h : mention? t = some (m, rest)) : Scan.IsRest rest t := by
  obtain ⟨⟨id, afterId⟩, hid, h⟩ := Option.map_eq_some_iff.1 h
  rw [Scan.name?_append hid]
  refine (Scan.IsRest.append (Scan.name?_ne_nil hid) afterId).of_suffix ?_
  have hshape : (match NodeShape.delimited.findSome? (shapedLabel? afterId) with
      | some (_, _, rest) => rest
      | none => afterId) <:+ afterId := by
    split
    · rename_i hs
      obtain ⟨_, _, hs⟩ := List.exists_of_findSome?_eq_some hs
      exact shapedLabel?_suffix hs
    · exact List.suffix_rfl
  dsimp only at h
  split at h
  · rename_i hc
    obtain ⟨-, rfl⟩ := Prod.mk.inj h
    exact (classSuffix?_suffix hc).trans hshape
  · obtain ⟨-, rfl⟩ := Prod.mk.inj h
    exact hshape

/-- the nodes after an ampersand, and the rest of the line -/
def groupTail? (t : Text) : Option (Group × Text) :=
  match t with
  | '&' :: r =>
    match _h : mention? (Text.trim r) with
    | none => none
    | some (m, rest) => (groupTail? (Text.trim rest)).map fun (ms, rest) => (m :: ms, rest)
  | t => some ([], t)
termination_by t.length
decreasing_by
  have h1 := (mention?_rest _h).length_lt
  have h2 := Text.length_trim_le r
  have h3 := Text.length_trim_le rest
  simp only [List.length_cons]
  omega

/-- nodes joined by ampersands, and the trimmed rest of the line -/
def group? (t : Text) : Option (Group × Text) :=
  (mention? t).bind fun (m, rest) => (groupTail? (Text.trim rest)).map fun (ms, rest) => (m :: ms, rest)

theorem groupTail?_length {t rest : Text} {g : Group} (h : groupTail? t = some (g, rest)) : rest.length ≤ t.length := by
  fun_induction groupTail? t generalizing g with
  | case1 => simp at h
  | case2 r m rest' hm ih =>
    obtain ⟨⟨ms, r2⟩, h2, he⟩ := Option.map_eq_some_iff.1 h
    simp only [Prod.mk.injEq] at he
    obtain ⟨_, rfl⟩ := he
    have h1 := ih h2
    have h3 := (mention?_rest hm).length_lt
    have h4 := Text.length_trim_le r
    have h5 := Text.length_trim_le rest'
    simp only [List.length_cons]
    omega
  | case3 =>
    simp only [Option.some.injEq, Prod.mk.injEq] at h
    exact h.2 ▸ Nat.le_refl _

theorem group?_length {t rest : Text} {g : Group} (h : group? t = some (g, rest)) : rest.length < t.length := by
  obtain ⟨⟨m, r⟩, hm, h⟩ := Option.bind_eq_some_iff.1 h
  obtain ⟨⟨ms, r2⟩, h2, he⟩ := Option.map_eq_some_iff.1 h
  simp only [Prod.mk.injEq] at he
  obtain ⟨_, rfl⟩ := he
  have h1 := (mention?_rest hm).length_lt
  have h3 := groupTail?_length h2
  have h4 := Text.length_trim_le r
  omega

/-! ## Chains -/

/-- the links and groups after the first group of a line -/
def chainTail (l : SourceLine) (t : Text) : Except ParseError (List (LinkForm × Group)) :=
  if t = [] then .ok []
  else
    let offset (rest : Text) : Int := (l.text.length : Int) - rest.length
    match _h : link? t with
    | none => .error (l.errorAt (offset t) (.expectedLink t))
    | some (form, afterLink) =>
      match _g : group? (Text.trim afterLink) with
      | none => .error (l.errorAt (offset (Text.trim afterLink)) .expectedNode)
      | some (group, afterGroup) => (chainTail l (Text.trim afterGroup)).map ((form, group) :: ·)
termination_by t.length
decreasing_by
  have h1 := (link?_rest _h).length_lt
  have h2 := group?_length _g
  have h3 := Text.length_trim_le afterGroup
  have h4 := Text.length_trim_le afterLink
  omega

/-- a line of linked groups -/
def readChain (l : SourceLine) : Except ParseError Chain :=
  match group? l.text with
  | none => .error (l.error (.invalidStatement .flowchart l.text))
  | some (first, rest) => (chainTail l (Text.trim rest)).map (⟨first, ·⟩)

/-! ## Statements with keywords -/

/-- ids separated by commas after a keyword, with what a rule for the rest makes of the line -/
def idList? {α : Type} (keyword t : Text) (rest? : List Text → Text → Option α) : Option α :=
  (Scan.word? keyword t).bind fun r => (Scan.lists nodeId? r).findSome? fun (ids, rest) => rest? ids rest

/-- `classDef` with names and properties -/
def classDef? (t : Text) : Option Statement :=
  idList? "classDef" t fun names rest => (Scan.optionalRest? rest).map fun props => .classDef names (Style.ofText props)

/-- `class` with node ids and the name of a style class -/
def assignClass? (t : Text) : Option Statement :=
  idList? "class" t fun ids rest =>
    (Scan.blanks? rest).bind fun name =>
      if name ≠ [] ∧ name.all isWordOrHyphen then some (.assignClass ids name) else none

/-- properties after white space, at least one character -/
def properties? (t : Text) : Option Style :=
  (Scan.blanks? t).bind fun props => if props = [] then none else some (Style.ofText props)

/-- `style` with node ids and properties -/
def style? (t : Text) : Option Statement :=
  idList? "style" t fun ids rest => (properties? rest).map (.style ids)

/-- `linkStyle` with link numbers or `default`, and properties -/
def linkStyle? (t : Text) : Option Statement :=
  (Scan.word? "linkStyle" t).bind fun r =>
    let numbers := (Scan.lists (Scan.run? isDigit) r).findSome? fun (keys, rest) =>
      (properties? rest).map (.linkStyle keys)
    ((Text.dropPrefix? "default" r).bind fun rest => (properties? rest).map (.linkStyle ["default"])) <|> numbers

/-- a text in quotes after white space, if there is one -/
def optionalTooltip (t : Text) : Option Text × Text :=
  match (Scan.blanks? t).bind Scan.quoted? with
  | some (tooltip, rest) => (some (unquote tooltip), rest)
  | none => (none, t)

/-- the browsing contexts that a link may open in -/
def linkTargets : List Text := ["_self", "_blank", "_parent", "_top"]

/-- what follows `click`, the id of a node and white space -/
def clicked? (t : Text) : Option (Text × Text) :=
  (Scan.word? "click" t).bind fun r =>
    (nodeId? r).bind fun (id, rest) => (Scan.blanks? rest).map (id, ·)

/-- `click` with a page to open -/
def clickHref? (t : Text) : Option Statement :=
  (clicked? t).bind fun (id, r) =>
    (Scan.quoted? ((Scan.word? "href" r).getD r)).bind fun (url, rest) =>
      let (tooltip, rest) := optionalTooltip rest
      if rest = [] then some (.click (.href id (unquote url) tooltip none))
      else
        (Scan.blanks? rest).bind fun target =>
          if linkTargets.contains target then some (.click (.href id (unquote url) tooltip (some target))) else none

/-- the name of a function -/
def functionName? : Text → Option (Text × Text)
  | c :: r =>
    if isLetter c || c = '_' then
      let (name, rest) := Text.span (fun d => isWord d || d = '.') r
      some (c :: name, rest)
    else none
  | [] => none

/-- arguments in parentheses, if there are any -/
def arguments (t : Text) : Option Text × Text :=
  match t with
  | '(' :: r =>
    match Text.span (· ≠ ')') r with
    | (args, ')' :: rest) => (some args, rest)
    | _ => (none, t)
  | _ => (none, t)

/-- a function with arguments and a tooltip, to the end of the line -/
def callback? (id t : Text) : Option Statement :=
  (functionName? t).bind fun (name, rest) =>
    let (args, rest) := arguments rest
    let (tooltip, rest) := optionalTooltip rest
    if rest = [] then some (.click (.callback id name args tooltip)) else none

/-- `click` with a function to call -/
def clickCall? (t : Text) : Option Statement :=
  (clicked? t).bind fun (id, r) => (Scan.word? "call" r).bind (callback? id) <|> callback? id r

/-! ## Lines -/

/-- a direction, or an error at its place in the line -/
def directionAt (l : SourceLine) (token : Text) (offset : Int) : Except ParseError Direction :=
  match Direction.ofText? token with
  | some d => .ok d
  | none => .error (l.errorAt offset (.unknownDirection token))

/-- an id with a title in square brackets -/
def bracketed? (t : Text) : Option (Text × Text) :=
  (Scan.run? isWordOrHyphen t).bind fun (id, rest) =>
    match Scan.blanks rest with
    | '[' :: r =>
      if r.getLast? = some ']' ∧ r.dropLast ≠ [] then some (id, unquote (Text.trim r.dropLast)) else none
    | _ => none

/-- the id that a title gives to its subgraph -/
def idOfTitle (title : Text) : Text := (Text.replace " " "_" title).filter isWordOrHyphen

/-- the id and the title of a subgraph -/
def subgraphHead (l : SourceLine) (t : Text) : Except ParseError (Text × Text) :=
  match bracketed? t with
  | some head => .ok head
  | none =>
    if t.all isWordOrHyphen then .ok (t, t)
    else
      let title := unquote t
      let id := idOfTitle title
      if id = [] then .error (l.error (.noSubgraphId t)) else .ok (id, title)

/-- statements that begin with a keyword and never fail once recognised -/
def keywordStatement? (t : Text) : Option Statement :=
  (Accessibility.line? t).map .accessibility <|> classDef? t <|> assignClass? t <|> style? t <|> linkStyle? t
    <|> clickHref? t <|> clickCall? t

/-- what a line says -/
def Statement.read (l : SourceLine) : Except ParseError Statement :=
  match keywordStatement? l.text with
  | some s => .ok s
  | none =>
    match Direction.statement? l.text with
    | some (token, offset) => (directionAt l token offset).map .direction
    | none =>
      match Scan.word? "subgraph" l.text with
      | some (c :: r) => (subgraphHead l (c :: r)).map fun (id, title) => .openSubgraph id title
      | _ => if l.text = "end" then .ok .closeSubgraph else (readChain l).map .chain

end DiagramText.Flowchart

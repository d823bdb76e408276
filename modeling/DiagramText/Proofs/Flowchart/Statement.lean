/-
Statements read back from their lines. `Statement.toText` writes a statement, `Statement.IsPlain` says that its parts fit
the grammar, and `Statement.Misleads` lists the plain statements whose line says something else: a value that ends in the
semicolon that readers drop, a style without properties, and node lines that a keyword claims first. `read_toText` reads
every other one back as `Statement.settled`.
-/
import DiagramText.Flowchart.Printer
import DiagramText.Flowchart.Reader
import DiagramText.Proofs.Accessibility
import DiagramText.Proofs.Flowchart.Chain
import DiagramText.Proofs.Style

namespace DiagramText.Flowchart

open DiagramText.Text

/-! ## Writing -/

/-- a statement as it is written -/
def Statement.toText : Statement → Text
  | .accessibility line => accessibilityText line
  | .classDef names props => trimRight ("classDef " ++ join "," names ++ " " ++ props.toText)
  | .assignClass ids name => "class " ++ join "," ids ++ " " ++ name
  | .style ids props => "style " ++ join "," ids ++ " " ++ props.toText
  | .linkStyle keys props => "linkStyle " ++ join "," keys ++ " " ++ props.toText
  | .click c => c.toText
  | .direction d => "direction " ++ d.toText
  | .openSubgraph id title => "subgraph " ++ id ++ (if title = id then [] else '[' :: (labelText title ++ [']']))
  | .closeSubgraph => "end"
  | .chain c => c.toText

section

variable (names : List Text) (name id title : Text) (props : Style)

theorem toText_classDef : (Statement.classDef names props).toText
    = trimRight ("classDef " ++ join "," names ++ " " ++ props.toText) := rfl

/-- a keyword, a name and what follows it -/
theorem keyword_append (w name rest : Text) : w ++ [' '] ++ join "," [name] ++ [' '] ++ rest = w ++ ' ' :: (name ++ ' ' :: rest) := by
  simp only [join_singleton, List.append_assoc, List.cons_append, List.nil_append]

theorem toText_assignClass : (Statement.assignClass [id] name).toText = "class" ++ ' ' :: (id ++ ' ' :: name) :=
  keyword_append "class" id name

theorem toText_style : (Statement.style [id] props).toText = "style" ++ ' ' :: (id ++ ' ' :: props.toText) :=
  keyword_append "style" id props.toText

theorem toText_linkStyle : (Statement.linkStyle [id] props).toText = "linkStyle" ++ ' ' :: (id ++ ' ' :: props.toText) :=
  keyword_append "linkStyle" id props.toText

theorem toText_direction (d : Direction) : (Statement.direction d).toText = "direction " ++ d.toText := rfl

theorem toText_openSubgraph : (Statement.openSubgraph id title).toText
    = "subgraph " ++ id ++ (if title = id then [] else '[' :: (labelText title ++ [']'])) := rfl

theorem toText_click (c : Click) : (Statement.click c).toText = c.toText := rfl

theorem toText_chain (c : Chain) : (Statement.chain c).toText = c.toText := rfl

end

/-- the name of a function that a click can call -/
def isFunctionName : Text → Bool
  | [] => false
  | c :: r => (isLetter c || c = '_') && r.all fun d => isWord d || d = '.'

/-- a click that can be written in a line -/
def Click.IsPlain : Click → Prop
  | .href node target tooltip linkTarget =>
    Scan.isName isWord node = true ∧ '\n' ∉ target ∧ (∀ t, tooltip = some t → '\n' ∉ t) ∧
      ∀ t, linkTarget = some t → t = [] ∨ t ∈ linkTargets
  | .callback node function args tooltip =>
    Scan.isName isWord node = true ∧ isFunctionName function = true ∧
      (∀ t, args = some t → ')' ∉ t ∧ '\n' ∉ t) ∧ ∀ t, tooltip = some t → '\n' ∉ t

/-- a statement whose parts fit the grammar, about one node, class or link -/
def Statement.IsPlain : Statement → Prop
  | .accessibility line => line.IsPlain
  | .classDef names props => (∃ name, names = [name] ∧ Scan.isName isWord name = true) ∧ props.IsPlain
  | .assignClass ids name =>
    (∃ id, ids = [id] ∧ Scan.isName isWord id = true) ∧ name ≠ [] ∧ name.all isWordOrHyphen = true
  | .style ids props => (∃ id, ids = [id] ∧ Scan.isName isWord id = true) ∧ props.IsPlain
  | .linkStyle keys props =>
    (∃ key, keys = [key] ∧ (key = "default" ∨ key ≠ [] ∧ key.all isDigit = true)) ∧ props.IsPlain
  | .click c => c.IsPlain
  | .direction _ => True
  | .openSubgraph id title => id ≠ [] ∧ id.all isWordOrHyphen = true ∧ '\n' ∉ title
  | .closeSubgraph => True
  | .chain c => c.IsPlain

/-- a line of nodes that says something else, or nothing at all: the keyword `end` alone, a link or a further node after
the keyword `subgraph`, a class name after the keyword of an accessibility text, or a class name after colons that
starts with a hyphen -/
inductive Chain.Misleads : Chain → Prop
  | closes : Misleads ⟨[⟨"end", none, none⟩], []⟩
  | opens {ms : List Mention} {links : List (LinkForm × Group)} (h : ms ≠ [] ∨ links ≠ []) :
    Misleads ⟨⟨"subgraph", none, none⟩ :: ms, links⟩
  | describes {id name : Text} {ms : List Mention} {links : List (LinkForm × Group)}
    (h : id = "accTitle" ∨ id = "accDescr") : Misleads ⟨⟨id, none, some name⟩ :: ms, links⟩
  | hyphen {c : Chain} {m : Mention} (hm : m ∈ c.mentions) (h : ¬ m.NamesClass) : Misleads c

/-- a plain statement that its line does not say: readers take a semicolon at the end of a line away, and want at least
one property of a style -/
def Statement.Misleads : Statement → Prop
  | .accessibility (.title v) | .accessibility (.description v) => endsWith (· = ';') v = true
  | .classDef _ props => endsWith (· = ';') props.toText = true
  | .style _ props | .linkStyle _ props => props.toList = [] ∨ endsWith (· = ';') props.toText = true
  | .chain c => c.Misleads
  | _ => False

/-! ## What is read -/

/-- the click that is read from its text: arguments may be written as none, and quotes are read -/
def settledClick : Click → Click
  | .href node target tooltip linkTarget =>
    .href node (unquote (quote target)) (tooltip.map fun t => unquote (quote t)) (present linkTarget)
  | .callback node function args tooltip =>
    .callback node function (some (args.getD [])) (tooltip.map fun t => unquote (quote t))

/-- the statement that is read from its line -/
def Statement.settled : Statement → Statement
  | .click c => .click (settledClick c)
  | .openSubgraph id title => .openSubgraph id (if title = id then id else settledLabel title)
  | .chain c => .chain (settledChain c)
  | s => s

/-! ## Keywords and ids -/

/-- one id, and no comma after it, is read as a list of one -/
theorem lists_singleton {item? : Text → Option (Text × Text)} {t id rest : Text} (h : item? t = some (id, rest))
    (hc : Scan.comma? rest = none) : Scan.lists item? t = [([id], rest)] := by
  rw [Scan.lists, h]
  simp only [hc]

theorem comma?_eq_none {rest : Text} (h : Scan.startsWith (· = ',') (Scan.blanks rest) = false) :
    Scan.comma? rest = none := by
  unfold Scan.comma?
  split
  · rename_i r e
    rw [e] at h
    simp [Scan.startsWith] at h
  · rfl

theorem not_isWordOrHyphen_space (u : Text) : Scan.startsWith isWordOrHyphen (' ' :: u) = false :=
  (by decide : isWordOrHyphen ' ' = false)

/-- white space and what does not start with a comma -/
theorem comma?_space {u : Text} (hu : Scan.startsWith isMark u = true) (h : Scan.startsWith (· = ',') u = false) :
    Scan.comma? (' ' :: u) = none := by
  refine comma?_eq_none ?_
  rwa [Scan.blanks_space, Scan.blanks_of_startsWith hu]

/-- a keyword, one id, and what a rule makes of the rest -/
theorem idList?_single {α : Type} {keyword id rest : Text} (hid : Scan.isName isWord id = true)
    (hr : Scan.startsWith isWordOrHyphen rest = false) (hc : Scan.comma? rest = none)
    (rest? : List Text → Text → Option α) :
    idList? keyword (keyword ++ ' ' :: (id ++ rest)) rest? = rest? [id] rest := by
  have hw := word?_append (w := keyword) (u := id ++ rest)
    (startsWith_append rest (startsWith_mono (fun _ => isMark_of_isWord) (Scan.startsWith_of_isName hid)))
  have hl : Scan.lists nodeId? (id ++ rest) = [([id], rest)] := lists_singleton (Scan.name?_isName hid hr) hc
  rw [idList?, hw, Option.bind_some, hl]
  cases h : rest? [id] rest <;> simp [h]

theorem comma_style {style : Style} (h : style.IsPlain) : Scan.startsWith (· = ',') style.toText = false := by
  rw [Style.toText_eq]
  cases hs : style.toList with
  | nil => rfl
  | cons p r =>
    have hp := h p (by simp [hs])
    obtain ⟨c, n, e, hc⟩ := exists_cons_of_startsWith hp.name.first
    have hcomma : ∀ x : Text, Scan.startsWith (· = ',') (p.1 ++ x) = false := by
      intro x
      rw [e]
      refine decide_eq_false ?_
      rintro rfl
      exact hp.comma.1 (by simp [e])
    cases r with
    | nil => simpa [Style.pairText] using hcomma _
    | cons q r =>
      rw [List.map_cons, List.map_cons, join_cons_cons, Style.pairText]
      simpa using hcomma _

/-! ## Statements with keywords -/

theorem keywordStatement?_accessibility {line : AccessibilityLine} (h : line.IsPlain) :
    keywordStatement? (accessibilityText line) = some (.accessibility line) := by
  rw [keywordStatement?, line?_accessibilityText h]
  rfl

theorem ne_nil_of_isName {id : Text} (h : Scan.isName isWord id = true) : id ≠ [] := (Scan.isTight_of_isName h).ne_nil

theorem trimRight_classDef {name : Text} (hn : Scan.isName isWord name = true) {style : Style} (hs : style.IsPlain) :
    trimRight ("classDef " ++ name ++ " " ++ style.toText)
      = "classDef " ++ (name ++ if style.toList = [] then [] else ' ' :: style.toText) := by
  have hname : endsWith isMark ("classDef " ++ name) = true := endsWith_append _ (Scan.isTight_of_isName hn).last
  split
  · rename_i he
    rw [(Style.toText_eq_nil_iff hs).2 he, List.append_nil, List.append_nil, trimRight_append (by decide),
      trimRight_of_endsWith hname]
  · rename_i he
    rw [trimRight_of_endsWith (endsWith_append _ (Style.isTight_toText hs he).last)]
    simp

/-- the text of properties: it starts with a mark that is no comma -/
structure IsPropertyText (t : Text) : Prop where
  mark : Scan.startsWith isMark t = true
  comma : Scan.startsWith (· = ',') t = false

theorem isPropertyText_style {style : Style} (hs : style.IsPlain) (hne : style.toList ≠ []) : IsPropertyText style.toText :=
  ⟨(Style.isTight_toText hs hne).first, comma_style hs⟩

theorem keywordStatement?_of_classDef? {t : Text} {s : Statement} (h : classDef? ("classDef" ++ t) = some s) :
    keywordStatement? ("classDef" ++ t) = some s := by
  rw [keywordStatement?, line?_eq_none rfl, h]
  rfl

theorem keywordStatement?_classDef {name t : Text} (hn : Scan.isName isWord name = true) (ht : IsPropertyText t) :
    keywordStatement? ("classDef" ++ ' ' :: (name ++ ' ' :: t)) = some (.classDef [name] (Style.ofText t)) := by
  refine keywordStatement?_of_classDef? ?_
  rw [classDef?, idList?_single hn (not_isWordOrHyphen_space _) (comma?_space ht.mark ht.comma),
    Scan.optionalRest?, if_neg (by simp), Scan.blanks?_space ht.mark, Option.map_some]

theorem toText_classDef_single {name : Text} (hn : Scan.isName isWord name = true) {style : Style} (hs : style.IsPlain) :
    (Statement.classDef [name] style).toText
      = "classDef" ++ ' ' :: (name ++ if style.toList = [] then [] else ' ' :: style.toText) := by
  rw [toText_classDef, join_singleton, trimRight_classDef hn hs, show ("classDef " : Text) = "classDef" ++ [' '] from rfl,
    List.append_assoc, List.singleton_append]

theorem keywordStatement?_classDef_style {name : Text} (hn : Scan.isName isWord name = true) {style : Style}
    (hs : style.IsPlain) :
    keywordStatement? (Statement.classDef [name] style).toText = some (.classDef [name] style) := by
  have hstyle := Style.ofText_toText hs
  rw [toText_classDef_single hn hs]
  split
  · rename_i he
    rw [(Style.toText_eq_nil_iff hs).2 he] at hstyle
    refine keywordStatement?_of_classDef? ?_
    rw [classDef?, idList?_single hn rfl rfl, Scan.optionalRest?, if_pos rfl, Option.map_some, hstyle]
  · rename_i he
    rw [keywordStatement?_classDef hn (isPropertyText_style hs he), hstyle]

theorem idList?_eq_none {α : Type} {keyword t : Text} (h : dropPrefix? keyword t = none)
    (rest? : List Text → Text → Option α) : idList? keyword t rest? = none := by
  rw [idList?, Scan.word?, h]
  rfl

theorem keywordStatement?_assignClass {id name : Text} (hid : Scan.isName isWord id = true) (hne : name ≠ [])
    (hn : name.all isWordOrHyphen = true) :
    keywordStatement? ("class" ++ ' ' :: (id ++ ' ' :: name)) = some (.assignClass [id] name) := by
  have hmark : Scan.startsWith isMark name = true :=
    startsWith_mono (fun _ => isMark_of_isWordOrHyphen) (startsWith_of_all hne hn)
  have hcomma : Scan.startsWith (· = ',') name = false := by
    obtain ⟨c, r, rfl, hc⟩ := exists_cons_of_startsWith (startsWith_of_all hne hn)
    refine decide_eq_false ?_
    rintro rfl
    exact absurd hc (by decide)
  have hread : assignClass? ("class" ++ ' ' :: (id ++ ' ' :: name)) = some (.assignClass [id] name) := by
    rw [assignClass?, idList?_single hid (not_isWordOrHyphen_space _) (comma?_space hmark hcomma),
      Scan.blanks?_space hmark, Option.bind_some, if_pos ⟨hne, hn⟩]
  rw [keywordStatement?, line?_eq_none rfl, classDef?, idList?_eq_none rfl, hread]
  rfl

theorem properties?_space {t : Text} (ht : IsPropertyText t) : properties? (' ' :: t) = some (Style.ofText t) := by
  have hne : t ≠ [] := by
    rintro rfl
    exact absurd ht.mark (by decide)
  rw [properties?, Scan.blanks?_space ht.mark, Option.bind_some, if_neg hne]

theorem keywordStatement?_style {id t : Text} (hid : Scan.isName isWord id = true) (ht : IsPropertyText t) :
    keywordStatement? ("style" ++ ' ' :: (id ++ ' ' :: t)) = some (.style [id] (Style.ofText t)) := by
  have hread : style? ("style" ++ ' ' :: (id ++ ' ' :: t)) = some (.style [id] (Style.ofText t)) := by
    rw [style?, idList?_single hid (not_isWordOrHyphen_space _) (comma?_space ht.mark ht.comma), properties?_space ht]
    rfl
  rw [keywordStatement?, line?_eq_none rfl, classDef?, idList?_eq_none rfl, assignClass?, idList?_eq_none rfl, hread]
  rfl

theorem keywordStatement?_linkStyle {key t : Text} (hkey : key = "default" ∨ key ≠ [] ∧ key.all isDigit = true)
    (ht : IsPropertyText t) :
    keywordStatement? ("linkStyle" ++ ' ' :: (key ++ ' ' :: t)) = some (.linkStyle [key] (Style.ofText t)) := by
  have hread : linkStyle? ("linkStyle" ++ ' ' :: (key ++ ' ' :: t)) = some (.linkStyle [key] (Style.ofText t)) := by
    rw [linkStyle?]
    rcases hkey with rfl | ⟨hk, hdigits⟩
    · rw [word?_append rfl, Option.bind_some, dropPrefix?_append, Option.bind_some, properties?_space ht]
      rfl
    · have hdigit : ∀ c, isDigit c = true → isMark c = true ∧ c ≠ 'd' := by
        intro c hc
        refine ⟨isMark_of_isDigit hc, ?_⟩
        rintro rfl
        exact absurd hc (by decide)
      have hfirst := startsWith_append (' ' :: t) (startsWith_of_all hk hdigits)
      have hdefault : dropPrefix? "default" (key ++ ' ' :: t) = none := by
        obtain ⟨c, r, e, hc⟩ := exists_cons_of_startsWith hfirst
        rw [e]
        exact if_neg (Ne.symm (hdigit c hc).2)
      have hspace : Scan.startsWith isDigit (' ' :: t) = false := (by decide : isDigit ' ' = false)
      have hlist := lists_singleton (run?_digits hk hdigits hspace) (comma?_space ht.mark ht.comma)
      rw [word?_append (startsWith_mono (fun c hc => (hdigit c hc).1) hfirst), Option.bind_some, hdefault, hlist]
      simp only [List.findSome?_cons, properties?_space ht, Option.map_some]
      rfl
  rw [keywordStatement?, line?_eq_none rfl, classDef?, idList?_eq_none rfl, assignClass?, idList?_eq_none rfl, style?,
    idList?_eq_none rfl, hread]
  rfl

/-! ## Clicks -/

/-- a tooltip as it is written -/
def tooltipText : Option Text → Text
  | some t => ' ' :: quote t
  | none => []

/-- the browsing context of a link as it is written -/
def targetText : Option Text → Text
  | some t => ' ' :: t
  | none => []

theorem toText_href (node target : Text) (tooltip linkTarget : Option Text) :
    (Click.href node target tooltip linkTarget).toText
      = "click" ++ ' ' :: (node ++ ' ' :: ("href" ++ ' ' :: (quote target
          ++ (tooltipText tooltip ++ targetText (present linkTarget))))) := by
  have h1 : ("click " : Text) = "click" ++ [' '] := rfl
  have h2 : (" href " : Text) = [' '] ++ ("href" ++ [' ']) := rfl
  have h : (Click.href node target tooltip linkTarget).toText
      = "click " ++ node ++ " href " ++ quote target ++ tooltipText tooltip ++ targetText (present linkTarget) := rfl
  rw [h, h1, h2]
  simp only [List.append_assoc, List.cons_append, List.nil_append]

theorem toText_callback (node function : Text) (args tooltip : Option Text) :
    (Click.callback node function args tooltip).toText
      = "click" ++ ' ' :: (node ++ ' ' :: ("call" ++ ' ' :: (function
          ++ '(' :: (args.getD [] ++ ')' :: tooltipText tooltip)))) := by
  have h1 : ("click " : Text) = "click" ++ [' '] := rfl
  have h2 : (" call " : Text) = [' '] ++ ("call" ++ [' ']) := rfl
  have h : (Click.callback node function args tooltip).toText
      = "click " ++ node ++ " call " ++ function ++ ['('] ++ args.getD [] ++ [')'] ++ tooltipText tooltip := rfl
  rw [h, h1, h2]
  simp only [List.append_assoc, List.cons_append, List.nil_append]

/-- a tooltip is read where one is written -/
theorem optionalTooltip_tooltipText (tooltip : Option Text) {rest : Text} (h : (Scan.blanks? rest).bind Scan.quoted? = none) :
    optionalTooltip (tooltipText tooltip ++ rest) = (tooltip.map fun t => unquote (quote t), rest) := by
  cases tooltip with
  | none => simp only [tooltipText, List.nil_append, optionalTooltip, h, Option.map_none]
  | some t =>
    have hb : Scan.blanks? (' ' :: (quote t ++ rest)) = some (quote t ++ rest) := by
      refine Scan.blanks?_space ?_
      rw [quote_eq]
      rfl
    simp only [tooltipText, List.cons_append, optionalTooltip, hb, Option.bind_some, quoted?_quote, Option.map_some]

theorem clicked?_node {node : Text} (rest : Text) (hn : Scan.isName isWord node = true)
    (hr : Scan.startsWith isMark rest = true) :
    clicked? ("click" ++ ' ' :: (node ++ ' ' :: rest)) = some (node, rest) := by
  have hword := word?_append (w := "click") (u := node ++ ' ' :: rest)
    (startsWith_append _ (Scan.isTight_of_isName hn).first)
  have hid : nodeId? (node ++ ' ' :: rest) = some (node, ' ' :: rest) :=
    Scan.name?_isName hn (not_isWordOrHyphen_space rest)
  rw [clicked?, hword, Option.bind_some, hid]
  simp only [Option.bind_some, Scan.blanks?_space hr, Option.map_some]

theorem keywordStatement?_clickWord (u : Text) : keywordStatement? ("click" ++ ' ' :: u)
    = (clickHref? ("click" ++ ' ' :: u) <|> clickCall? ("click" ++ ' ' :: u)) := by
  rw [keywordStatement?, line?_eq_none rfl, classDef?, idList?_eq_none rfl, assignClass?, idList?_eq_none rfl, style?,
    idList?_eq_none rfl, linkStyle?, Scan.word?, show dropPrefix? "linkStyle" ("click" ++ ' ' :: u) = none from rfl]
  rfl

/-- a browsing context starts with a mark, which is no quotation mark -/
theorem startsWith_of_mem_linkTargets {t : Text} (h : t ∈ linkTargets) : Scan.startsWith isMark t = true ∧ Scan.quoted? t = none := by
  simp only [linkTargets, List.mem_cons, List.not_mem_nil, or_false] at h
  rcases h with rfl | rfl | rfl | rfl <;> exact ⟨rfl, rfl⟩

theorem keywordStatement?_href {node target : Text} {tooltip linkTarget : Option Text}
    (h : (Click.href node target tooltip linkTarget).IsPlain) :
    keywordStatement? (Click.href node target tooltip linkTarget).toText
      = some (.click (settledClick (.href node target tooltip linkTarget))) := by
  obtain ⟨hn, -, -, ht⟩ := h
  have hclicked := clicked?_node ("href" ++ ' ' :: (quote target ++ (tooltipText tooltip ++ targetText (present linkTarget)))) hn rfl
  have hhref : Scan.word? "href" ("href" ++ ' ' :: (quote target ++ (tooltipText tooltip ++ targetText (present linkTarget))))
      = some (quote target ++ (tooltipText tooltip ++ targetText (present linkTarget))) := by
    refine word?_append ?_
    rw [quote_eq]
    rfl
  rw [toText_href, keywordStatement?_clickWord, clickHref?, hclicked, Option.bind_some]
  simp only [hhref, Option.getD_some, quoted?_quote, Option.bind_some]
  cases hl : present linkTarget with
  | none =>
    have hnone : (Scan.blanks? (targetText none)).bind Scan.quoted? = none := rfl
    have htip := optionalTooltip_tooltipText tooltip hnone
    simp only [htip]
    rw [if_pos (show targetText none = [] from rfl), settledClick, hl]
    rfl
  | some t =>
    have hmem : t ∈ linkTargets := by
      obtain ⟨h1, h2⟩ := Option.filter_eq_some_iff.1 hl
      exact (ht t h1).resolve_left (by simpa using h2)
    obtain ⟨hmark, hquoted⟩ := startsWith_of_mem_linkTargets hmem
    have hb : Scan.blanks? (targetText (some t)) = some t := Scan.blanks?_space hmark
    have hnone : (Scan.blanks? (targetText (some t))).bind Scan.quoted? = none := by
      rw [hb]
      exact hquoted
    have htip := optionalTooltip_tooltipText tooltip hnone
    simp only [htip, hb, Option.bind_some]
    rw [if_neg (by simp [targetText]), if_pos (by simpa using hmem), settledClick, hl]
    rfl

theorem startsWith_of_isFunctionName {name : Text} (h : isFunctionName name = true) : Scan.startsWith isMark name = true := by
  cases name with
  | nil => exact absurd h (by simp [isFunctionName])
  | cons c name =>
    simp only [isFunctionName, Bool.and_eq_true] at h
    change isMark c = true
    rcases Bool.or_eq_true_iff.1 h.1 with hc | hc
    · exact isMark_of_isWord (by simp [isWord, hc])
    · exact isMark_of_isWord (by simp [isWord, of_decide_eq_true hc])

theorem functionName?_append {name : Text} (h : isFunctionName name = true) (rest : Text) :
    functionName? (name ++ '(' :: rest) = some (name, '(' :: rest) := by
  cases name with
  | nil => exact absurd h (by simp [isFunctionName])
  | cons c name =>
    simp only [isFunctionName, Bool.and_eq_true] at h
    have hspan : span (fun d => isWord d || d = '.') (name ++ '(' :: rest) = (name, '(' :: rest) := by
      refine span_of_all h.2 ?_
      exact (by decide : (isWord '(' || '(' = '.') = false)
    rw [List.cons_append, functionName?, if_pos h.1, hspan]

theorem arguments_append {args : Text} (h : ')' ∉ args) (rest : Text) :
    arguments ('(' :: (args ++ ')' :: rest)) = (some args, rest) := by
  have hspan : span (· ≠ ')') (args ++ ')' :: rest) = (args, ')' :: rest) := by
    refine span_of_all (List.all_eq_true.2 fun d hd => ?_) (by simp [Scan.startsWith])
    rw [decide_eq_true_eq]
    rintro rfl
    exact h hd
  simp only [arguments, hspan]

theorem keywordStatement?_callback {node function : Text} {args tooltip : Option Text}
    (h : (Click.callback node function args tooltip).IsPlain) :
    keywordStatement? (Click.callback node function args tooltip).toText
      = some (.click (settledClick (.callback node function args tooltip))) := by
  obtain ⟨hn, hf, ha, -⟩ := h
  have hclicked := clicked?_node ("call" ++ ' ' :: (function ++ '(' :: (args.getD [] ++ ')' :: tooltipText tooltip))) hn rfl
  have hcall : Scan.word? "call" ("call" ++ ' ' :: (function ++ '(' :: (args.getD [] ++ ')' :: tooltipText tooltip)))
      = some (function ++ '(' :: (args.getD [] ++ ')' :: tooltipText tooltip)) :=
    word?_append (startsWith_append _ (startsWith_of_isFunctionName hf))
  have hname := functionName?_append hf (args.getD [] ++ ')' :: tooltipText tooltip)
  have hclosing : ')' ∉ args.getD [] := by
    cases args with
    | none => exact List.not_mem_nil
    | some t => exact (ha t rfl).1
  have hargs := arguments_append hclosing (tooltipText tooltip)
  have htip := optionalTooltip_tooltipText tooltip (rfl : (Scan.blanks? []).bind Scan.quoted? = none)
  rw [List.append_nil] at htip
  have hnohref : ∀ u : Text, Scan.word? "href" ("call" ++ ' ' :: u) = none := fun _ => rfl
  have hnoquote : ∀ u : Text, Scan.quoted? ("call" ++ ' ' :: u) = none := fun _ => rfl
  rw [toText_callback, keywordStatement?_clickWord, clickHref?, hclicked, Option.bind_some]
  simp only [hnohref, Option.getD_none, hnoquote, Option.bind_none, clickCall?, hclicked, Option.bind_some, hcall,
    callback?, hname, hargs, htip, if_true]
  rfl

theorem keywordStatement?_click {c : Click} (h : c.IsPlain) :
    keywordStatement? c.toText = some (.click (settledClick c)) := by
  cases c with
  | href node target tooltip linkTarget => exact keywordStatement?_href h
  | callback node function args tooltip => exact keywordStatement?_callback h

/-! ## Directions and subgraphs -/

/-- a line that starts like no keyword is no statement with a keyword -/
theorem keywordStatement?_eq_none {t : Text} (h : ∀ k ∈ (["acc", "class", "style", "linkStyle", "click"] : List String),
    dropPrefix? k t = none) : keywordStatement? t = none := by
  have hdef : dropPrefix? "classDef" t = none := by
    rw [Option.eq_none_iff_forall_not_mem]
    intro r hr
    have := h "class" (by decide)
    rw [dropPrefix?_eq_some_iff.1 hr, show ("classDef" : Text) = "class" ++ "Def" from rfl, List.append_assoc,
      dropPrefix?_append] at this
    exact absurd this (by simp)
  have hclicked : clicked? t = none := by
    rw [clicked?, Scan.word?, h "click" (by decide)]
    rfl
  rw [keywordStatement?, line?_eq_none (h "acc" (by decide)), classDef?, idList?_eq_none hdef, assignClass?,
    idList?_eq_none (h "class" (by decide)), style?, idList?_eq_none (h "style" (by decide)), linkStyle?, Scan.word?,
    h "linkStyle" (by decide), clickHref?, clickCall?, hclicked]
  rfl

theorem read_direction (d : Direction) {l : SourceLine} (hl : l.text = "direction " ++ d.toText) :
    Statement.read l = .ok (.direction d) := by
  have hkey : keywordStatement? l.text = none := by
    rw [hl]
    refine keywordStatement?_eq_none fun k hk => ?_
    simp only [List.mem_cons, List.not_mem_nil, or_false] at hk
    rcases hk with rfl | rfl | rfl | rfl | rfl <;> rfl
  have hdir : Direction.statement? l.text = some (d.toText, 10) := by
    rw [hl]
    cases d <;> decide +kernel
  have hof : Direction.ofText? d.toText = some d := by cases d <;> decide +kernel
  simp only [Statement.read, hkey, hdir, directionAt, hof]
  rfl

theorem bracketed?_eq_none {t : Text} (h : t.all isWordOrHyphen = true) : bracketed? t = none := by
  have hspan : span isWordOrHyphen (t ++ []) = (t, []) := span_of_all h rfl
  rw [List.append_nil] at hspan
  cases t with
  | nil => rfl
  | cons c r =>
    rw [bracketed?, Scan.run?, hspan]
    rfl

theorem bracketed?_labelText {id title : Text} (hne : id ≠ []) (hid : id.all isWordOrHyphen = true) (hl : '\n' ∉ title) :
    bracketed? (id ++ '[' :: (labelText title ++ [']'])) = some (id, settledLabel title) := by
  have hspan : span isWordOrHyphen (id ++ '[' :: (labelText title ++ [']'])) = (id, '[' :: (labelText title ++ [']'])) :=
    span_of_all hid (by decide : isWordOrHyphen '[' = false)
  have hrun : Scan.run? isWordOrHyphen (id ++ '[' :: (labelText title ++ [']'])) = some (id, '[' :: (labelText title ++ [']'])) := by
    cases id with
    | nil => exact absurd rfl hne
    | cons c r => rw [Scan.run?, hspan]
  have hblanks : Scan.blanks ('[' :: (labelText title ++ [']'])) = '[' :: (labelText title ++ [']']) :=
    Scan.blanks_of_startsWith (by decide : isMark '[' = true)
  have hvalue : unquote (trim (labelText title)) = settledLabel title := by
    by_cases hp : isPlainLabel title = true
    · rw [settledLabel_of_isPlainLabel hl hp, labelText, if_pos hp, trim_of_isTight (isTight_of_isPlainLabel hl hp), unquote,
        isQuoted_eq_false (quote_not_mem_of_isPlainLabel hl hp)]
      rfl
    · rw [settledLabel_of_not_isPlainLabel hp, labelText, if_neg hp, trim_of_isTight (isTight_quote title), unquote_quote]
  rw [bracketed?, hrun]
  simp only [Option.bind_some, hblanks, List.getLast?_concat, List.dropLast_concat, true_and]
  rw [if_pos (labelText_ne_nil hl), hvalue]

theorem read_openSubgraph {id title : Text} (hne : id ≠ []) (hid : id.all isWordOrHyphen = true) (hl : '\n' ∉ title)
    {l : SourceLine} (ht : l.text = (Statement.openSubgraph id title).toText) :
    Statement.read l = .ok (Statement.openSubgraph id title).settled := by
  have htext : ("subgraph " : Text) = "subgraph" ++ [' '] := rfl
  rw [toText_openSubgraph, htext, List.append_assoc, List.append_assoc, List.singleton_append] at ht
  have hkey : keywordStatement? l.text = none := by
    rw [ht]
    refine keywordStatement?_eq_none fun k hk => ?_
    simp only [List.mem_cons, List.not_mem_nil, or_false] at hk
    rcases hk with rfl | rfl | rfl | rfl | rfl <;> rfl
  have hdir : Direction.statement? l.text = none := by
    rw [ht]
    rfl
  have hmark := startsWith_append (if title = id then [] else '[' :: (labelText title ++ [']']))
    (startsWith_mono (fun _ => isMark_of_isWordOrHyphen) (startsWith_of_all hne hid))
  have hword := word?_append (w := "subgraph") hmark
  obtain ⟨c, r, e, _⟩ := exists_cons_of_startsWith hmark
  have hhead : subgraphHead l (id ++ if title = id then [] else '[' :: (labelText title ++ [']']))
      = .ok (id, if title = id then id else settledLabel title) := by
    unfold subgraphHead
    split
    · rename_i head hsome
      by_cases hti : title = id
      · simp only [if_pos hti, List.append_nil, bracketed?_eq_none hid] at hsome
        exact absurd hsome (by simp)
      · simp only [if_neg hti, bracketed?_labelText hne hid hl, Option.some.injEq] at hsome
        rw [← hsome, if_neg hti]
    · rename_i hnone
      by_cases hti : title = id
      · simp only [if_pos hti, List.append_nil]
        rw [if_pos hid]
      · simp only [if_neg hti, bracketed?_labelText hne hid hl] at hnone
        exact absurd hnone (by simp)
  rw [← ht, e] at hword
  rw [e] at hhead
  simp only [Statement.read, hkey, hdir, hword, hhead]
  rfl

end DiagramText.Flowchart

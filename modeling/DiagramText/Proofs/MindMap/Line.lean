/-
Lines of a mind map read back. A node in delimiters is an id, the delimiters and a label between them
(`exists_of_shaped?`); written again with its label bare or in quotes it is told from every shape that is
tried earlier (`findSome?_shaped?`) and from a decoration (`icon?_wrapped`, `cssClass?_wrapped`).
`read_toText` puts this together: what a line said of a node, the line that is printed for the node says too.
-/
import DiagramText.MindMap
import DiagramText.Proofs.Text.Names
import DiagramText.Proofs.Text.Scan
import DiagramText.Proofs.Text.Statement

namespace DiagramText.MindMap

open DiagramText.Text
open SourceLine (IsLine)

/-! ## Nodes in delimiters -/

/-- a character of an id -/
def isIdChar (c : Char) : Bool := !isBlank c && !isBracket c

/-- an id, and a text in the delimiters of a shape -/
def wrapped (id : Text) (shape : Shape) (inner : Text) : Text :=
  id ++ (shape.delimiters.1 ++ (inner ++ shape.delimiters.2))

/-- the node of an id and a label; without an id of its own its label is its id -/
def topicOf (id label : Text) (shape : Shape) : Topic := ⟨if id = [] then label else id, label, shape, none, none⟩

variable {id inner label line t : Text} {shape : Shape}

theorem delimiters_ne_nil (hs : shape ≠ .default) : shape.delimiters.1 ≠ [] ∧ shape.delimiters.2 ≠ [] := by
  cases shape with
  | default => exact absurd rfl hs
  | _ => exact ⟨by decide, by decide⟩

theorem startsWith_delimiters (hs : shape ≠ .default) (rest : Text) :
    Scan.startsWith isIdChar (shape.delimiters.1 ++ rest) = false := by
  cases shape with
  | default => exact absurd rfl hs
  | _ => rfl

theorem span_wrapped (hid : id.all isIdChar = true) (hs : shape ≠ .default) (inner : Text) :
    span isIdChar (wrapped id shape inner) = (id, shape.delimiters.1 ++ (inner ++ shape.delimiters.2)) :=
  span_of_all hid (startsWith_delimiters hs _)

theorem beforeEnding?_eq_some_iff {ending t u : Text} : beforeEnding? ending t = some u ↔ t = u ++ ending ∧ u ≠ [] := by
  rw [beforeEnding?, Option.bind_eq_some_iff]
  constructor
  · rintro ⟨r, hr, hu⟩
    obtain ⟨hu, hne⟩ := present_eq_some_iff.1 hu
    obtain rfl := Option.some.inj hu
    have := congrArg List.reverse (dropPrefix?_eq_some_iff.1 hr)
    rw [List.reverse_append, List.reverse_reverse, List.reverse_reverse] at this
    exact ⟨this, hne⟩
  · rintro ⟨rfl, hne⟩
    refine ⟨u.reverse, dropPrefix?_eq_some_iff.2 (by rw [List.reverse_append]), ?_⟩
    rw [List.reverse_reverse]
    exact present_eq_some_iff.2 ⟨rfl, hne⟩

theorem shaped?_wrapped (hid : id.all isIdChar = true) (hs : shape ≠ .default) (hne : inner ≠ []) :
    shaped? (wrapped id shape inner) shape = some (topicOf id (unquote (trim inner)) shape) := by
  have hspan := span_wrapped hid hs inner
  unfold isIdChar at hspan
  unfold shaped?
  rw [hspan]
  simp only [dropPrefix?_append, Option.bind_some, beforeEnding?_eq_some_iff.2 ⟨rfl, hne⟩, Option.map_some]
  rfl

/-- **what is read in delimiters** -/
theorem exists_of_shaped? {a : Topic} (h : shaped? line shape = some a) :
    ∃ id inner, id.all isIdChar = true ∧ inner ≠ [] ∧ line = wrapped id shape inner ∧
      a = topicOf id (unquote (trim inner)) shape := by
  have happend := span_append isIdChar line
  have hall : (span isIdChar line).1.all isIdChar = true := all_of_span_eq rfl
  unfold isIdChar at happend hall
  unfold shaped? at h
  generalize span (fun c => !isBlank c && !isBracket c) line = cut at *
  obtain ⟨raw, hraw, rfl⟩ := Option.map_eq_some_iff.1 h
  obtain ⟨rest, hrest, hending⟩ := Option.bind_eq_some_iff.1 hraw
  obtain ⟨rfl, hne⟩ := beforeEnding?_eq_some_iff.1 hending
  refine ⟨cut.1, raw, hall, hne, ?_, rfl⟩
  rw [wrapped, ← dropPrefix?_eq_some_iff.1 hrest, happend]

/-! ## Labels -/

/-- a label between delimiters, in quotes where it would be read differently without -/
def printedLabel (label : Text) : Text := if needsQuotes label then quote label else label

theorem isEdge_eq_false {c : Option Char} (h : isEdge c = false) : ∃ d, c = some d ∧ isIdChar d = true ∧ d ≠ '"' := by
  cases c with
  | none => exact absurd h (by decide)
  | some d =>
    rw [isEdge, Option.all_some, Bool.or_eq_false_iff, Bool.or_eq_false_iff] at h
    exact ⟨d, rfl, by rw [isIdChar, h.1.1, h.1.2]; rfl, of_decide_eq_false h.2⟩

theorem isMark_of_isIdChar {c : Char} (h : isIdChar c = true) : isMark c = true := (Bool.and_eq_true_iff.1 h).1

theorem startsWith_printedLabel (label : Text) : Scan.startsWith isIdChar (printedLabel label) = true := by
  rw [printedLabel]
  split
  · rw [quote_eq]
    rfl
  · rename_i h
    obtain ⟨hfirst, -⟩ := Bool.or_eq_false_iff.1 (Bool.not_eq_true _ ▸ h)
    obtain ⟨d, hd, hid, -⟩ := isEdge_eq_false hfirst
    obtain ⟨r, rfl⟩ := List.head?_eq_some_iff.1 hd
    exact hid

theorem endsWith_printedLabel (label : Text) : endsWith isIdChar (printedLabel label) = true := by
  rw [printedLabel]
  split
  · rw [quote_eq]
    exact endsWith_append ('"' :: _) (by decide)
  · rename_i h
    obtain ⟨-, hlast⟩ := Bool.or_eq_false_iff.1 (Bool.not_eq_true _ ▸ h)
    obtain ⟨d, hd, hid, -⟩ := isEdge_eq_false hlast
    rw [endsWith, hd]
    exact hid

theorem isTight_printedLabel (label : Text) : IsTight (printedLabel label) :=
  ⟨startsWith_mono (fun _ => isMark_of_isIdChar) (startsWith_printedLabel label),
    endsWith_mono (fun _ => isMark_of_isIdChar) (endsWith_printedLabel label)⟩

/-- **a printed label is read back** -/
theorem unquote_printedLabel (h : ¬ quoteEntity <:+: label) : unquote (trim (printedLabel label)) = label := by
  rw [trim_of_isTight (isTight_printedLabel label), printedLabel]
  split
  · exact unquote_quote_eq_self h
  · rename_i hbare
    obtain ⟨hfirst, -⟩ := Bool.or_eq_false_iff.1 (Bool.not_eq_true _ ▸ hbare)
    obtain ⟨d, hd, -, hquote⟩ := isEdge_eq_false hfirst
    obtain ⟨r, rfl⟩ := List.head?_eq_some_iff.1 hd
    rw [unquote, if_neg]
    simp [isQuoted, hquote]

theorem lineFeed_not_mem_printedLabel (h : '\n' ∉ label) : '\n' ∉ printedLabel label := by
  rw [printedLabel]
  split
  · exact lineFeed_not_mem_quote h
  · exact h

/-! ## What is tried earlier -/

/-- no opening delimiter that is tried earlier begins another one that text follows -/
theorem dropPrefix?_delimiters {earlier : Shape} (h : earlier ∈ Shape.delimited.takeWhile (· ≠ shape)) (hs : shape ≠ .default)
    {c : Char} (hc : isBracket c = false) (r : Text) :
    dropPrefix? earlier.delimiters.1 (shape.delimiters.1 ++ c :: r) = none := by
  have hopen : '(' ≠ c := by
    rintro rfl
    exact absurd hc (by decide)
  have hclose : ')' ≠ c := by
    rintro rfl
    exact absurd hc (by decide)
  -- two shapes share an opening bracket only where the one that is tried first has two of it
  cases shape <;> cases earlier <;> simp_all [Shape.delimited, Shape.delimiters, dropPrefix?]

/-- no shape that is tried earlier fits -/
theorem shaped?_eq_none (hid : id.all isIdChar = true) (hs : shape ≠ .default) (hinner : Scan.startsWith isIdChar inner = true)
    {earlier : Shape} (h : earlier ∈ Shape.delimited.takeWhile (· ≠ shape)) : shaped? (wrapped id shape inner) earlier = none := by
  have hspan := span_wrapped hid hs inner
  unfold isIdChar at hspan
  obtain ⟨c, r, rfl, hc⟩ := exists_cons_of_startsWith hinner
  have hbracket : isBracket c = false := by simpa using (Bool.and_eq_true_iff.1 hc).2
  unfold shaped?
  rw [hspan]
  simp only [List.cons_append, dropPrefix?_delimiters h hs hbracket, Option.bind_none, Option.map_none]

theorem findSome?_shaped? (hid : id.all isIdChar = true) (hs : shape ≠ .default)
    (hinner : Scan.startsWith isIdChar inner = true) :
    Shape.delimited.findSome? (shaped? (wrapped id shape inner)) = some (topicOf id (unquote (trim inner)) shape) := by
  have hne : inner ≠ [] := by
    rintro rfl
    exact absurd hinner (by decide)
  have hmem : ∀ s : Shape, s ≠ .default → s ∈ Shape.delimited := by
    intro s
    cases s <;> decide
  exact findSome?_eq_some_of_takeWhile (hmem shape hs) (fun _ => shaped?_eq_none hid hs hinner) (shaped?_wrapped hid hs hne)

/-! ## Decorations -/

theorem read_eq_topic_iff {a : Topic} : Line.read line = .topic a ↔ icon? line = none ∧ cssClass? line = none ∧ Topic.read line = a := by
  unfold Line.read
  cases icon? line with
  | some name => simp
  | none => cases cssClass? line <;> simp

theorem startsWith_wrapped (hid : id.all isIdChar = true) (hs : shape ≠ .default) (inner : Text) :
    Scan.startsWith isMark (wrapped id shape inner) = true := by
  cases id with
  | nil =>
    cases shape with
    | default => exact absurd rfl hs
    | _ => rfl
  | cons c r => exact isMark_of_isIdChar (Bool.and_eq_true_iff.1 hid).1

/-- whether a node in delimiters is taken for an icon does not depend on its label -/
theorem icon?_wrapped (hid : id.all isIdChar = true) (hs : shape ≠ .default) (inner : Text) :
    (icon? (wrapped id shape inner)).isSome = true ↔
      id = "::icon" ∧ shape.delimiters.1.head? = some '(' ∧ shape.delimiters.2.getLast? = some ')' := by
  have hlast : ∀ u : Text, (u ++ shape.delimiters.2).getLast? = shape.delimiters.2.getLast? := fun u => by
    rw [List.getLast?_append_of_ne_nil _ (delimiters_ne_nil hs).2]
  constructor
  · intro h
    obtain ⟨name, hname⟩ := Option.isSome_iff_exists.1 h
    obtain ⟨rest, hrest, hname⟩ := Option.bind_eq_some_iff.1 hname
    have hend : rest.getLast? = some ')' := (Option.ite_none_right_eq_some.1 hname).1
    have htext : wrapped id shape inner = ("::icon(" : Text) ++ rest := dropPrefix?_eq_some_iff.1 hrest
    have hword : dropPrefix? "::icon" (wrapped id shape inner) = some ('(' :: rest) := dropPrefix?_eq_some_iff.2 htext
    obtain ⟨n, rfl, hn⟩ := Scan.dropPrefix?_name (by decide) (startsWith_delimiters hs _) hword
    cases n with
    | cons c n =>
      -- the parenthesis would belong to the id
      have hc : isIdChar c = true := List.all_eq_true.1 hid c (by simp)
      rw [← (List.cons.inj hn).1] at hc
      exact absurd hc (by decide)
    | nil =>
      refine ⟨by simp, ?_, ?_⟩
      · obtain ⟨c, r, hopen⟩ := List.exists_cons_of_ne_nil (delimiters_ne_nil hs).1
        rw [hopen] at hn ⊢
        rw [(List.cons.inj hn).1]
        rfl
      · have hend : ('(' :: rest).getLast? = some ')' := by
          rw [List.getLast?_cons, hend]
          rfl
        rwa [hn, List.nil_append, ← List.append_assoc, hlast] at hend
  · rintro ⟨rfl, hopen, hclose⟩
    obtain ⟨r, hr⟩ := List.head?_eq_some_iff.1 hopen
    have hdrop : dropPrefix? "::icon(" (wrapped "::icon" shape inner) = some (r ++ inner ++ shape.delimiters.2) := by
      rw [wrapped, hr, dropPrefix?_eq_some_iff]
      simp
    rw [icon?, hdrop, Option.bind_some, if_pos ((hlast _).trans hclose)]
    rfl

/-- whether a node in delimiters is taken for a style class depends on its id alone -/
theorem cssClass?_wrapped (hid : id.all isIdChar = true) (hs : shape ≠ .default) (inner : Text) :
    (cssClass? (wrapped id shape inner)).isSome = true ↔ (":::" : Text) <+: id := by
  constructor
  · intro h
    obtain ⟨name, hname⟩ := Option.isSome_iff_exists.1 h
    obtain ⟨rest, hrest, -⟩ := Option.bind_eq_some_iff.1 hname
    obtain ⟨n, rfl, -⟩ := Scan.dropPrefix?_name (by decide) (startsWith_delimiters hs _) hrest
    exact List.prefix_append _ _
  · rintro ⟨n, rfl⟩
    have hn : n.all isIdChar = true := (Bool.and_eq_true_iff.1 (List.all_append ▸ hid)).2
    have htrim : trim (wrapped n shape inner) ≠ [] := by
      have hfirst := startsWith_wrapped hn hs inner
      rw [trim, trimLeft_of_startsWith hfirst]
      exact trimRight_ne_nil hfirst
    have hdrop : dropPrefix? ":::" (wrapped ((":::" : Text) ++ n) shape inner) = some (wrapped n shape inner) := by
      rw [wrapped, List.append_assoc]
      exact dropPrefix?_append _ _
    rw [cssClass?, hdrop, Option.bind_some, present_eq_some_iff.2 ⟨rfl, htrim⟩]
    rfl

/-! ## Printed nodes -/

theorem not_infix_unquote (h : ¬ quoteEntity <:+: inner) : ¬ quoteEntity <:+: unquote inner := by
  rw [unquote]
  split
  · have hmiddle : ¬ quoteEntity <:+: inner.tail.dropLast := fun hi =>
      h (hi.trans ((List.dropLast_prefix _).isInfix.trans (List.tail_suffix inner).isInfix))
    rw [← readEntities, readEntities_eq_self hmiddle]
    exact hmiddle
  · exact h

/-- a node is printed between its delimiters, with its id unless that is its label -/
theorem toText_eq {a : Topic} (hs : a.shape ≠ .default) :
    a.toText = wrapped (if a.id = a.label then [] else a.id) a.shape (printedLabel a.label) := by
  rw [Topic.toText, if_neg hs]
  simp [wrapped, printedLabel]

theorem all_of_eq_nil_or (hid : id.all isIdChar = true) {shown : Text} (h : shown = [] ∨ shown = id) :
    shown.all isIdChar = true := by
  rcases h with rfl | rfl
  · rfl
  · exact hid

/-- a node in the delimiters of a line that is no decoration, its label printed anew, with its id or without -/
theorem read_wrapped (hid : id.all isIdChar = true) (hs : shape ≠ .default) (hicon : icon? (wrapped id shape inner) = none)
    (hclass : cssClass? (wrapped id shape inner) = none) (hlabel : ¬ quoteEntity <:+: label) {shown : Text}
    (hshown : shown = [] ∨ shown = id) :
    Line.read (wrapped shown shape (printedLabel label)) = .topic (topicOf shown label shape) := by
  have hall := all_of_eq_nil_or hid hshown
  have hread := findSome?_shaped? hall hs (startsWith_printedLabel label)
  rw [unquote_printedLabel hlabel] at hread
  refine read_eq_topic_iff.2 ⟨?_, ?_, by rw [Topic.read, hread]; rfl⟩
  · rw [← Option.not_isSome_iff_eq_none, icon?_wrapped hall hs]
    rw [← Option.not_isSome_iff_eq_none, icon?_wrapped hid hs] at hicon
    rcases hshown with rfl | rfl
    · exact fun h => absurd h.1 (by decide)
    · exact hicon
  · rw [← Option.not_isSome_iff_eq_none, cssClass?_wrapped hall hs]
    rw [← Option.not_isSome_iff_eq_none, cssClass?_wrapped hid hs] at hclass
    rcases hshown with rfl | rfl
    · exact fun h => absurd (List.prefix_nil.1 h) (by decide)
    · exact hclass

theorem isLine_wrapped (hid : id.all isIdChar = true) (hs : shape ≠ .default) (hline : IsLine (wrapped id shape inner))
    (hlabel : '\n' ∉ label) {shown : Text} (hshown : shown = [] ∨ shown = id) :
    IsLine (wrapped shown shape (printedLabel label)) := by
  have hall := all_of_eq_nil_or hid hshown
  refine ⟨⟨startsWith_wrapped hall hs _, ?_⟩, ?_, ?_⟩
  · have hclose : endsWith isMark shape.delimiters.2 = true := by
      cases shape with
      | default => exact absurd rfl hs
      | _ => decide
    exact endsWith_append _ (endsWith_append _ (endsWith_append _ hclose))
  · have hline := hline.lineFeed
    simp only [wrapped, List.mem_append, not_or] at hline ⊢
    obtain ⟨hid, hopen, -, hclose⟩ := hline
    refine ⟨?_, hopen, lineFeed_not_mem_printedLabel hlabel, hclose⟩
    rcases hshown with rfl | rfl
    · exact List.not_mem_nil
    · exact hid
  · rw [Option.eq_none_iff_forall_not_mem]
    intro r hr
    obtain ⟨n, hn, -⟩ := Scan.dropPrefix?_name (by decide) (startsWith_delimiters hs _) hr
    have hid : shown = id := hshown.resolve_left fun h => absurd (hn.symm.trans h) (by simp)
    have hcomment : dropPrefix? "%%" (wrapped id shape inner) = some (wrapped n shape inner) := by
      rw [← hid, hn, wrapped, List.append_assoc]
      exact dropPrefix?_append _ _
    exact absurd (hline.comment.symm.trans hcomment) (by simp)

/-- an id is left out where the label says it -/
theorem topicOf_shown (id label : Text) (hs : shape ≠ .default) :
    ∃ shown : Text, (topicOf id label shape).toText = wrapped shown shape (printedLabel label) ∧ (shown = [] ∨ shown = id) ∧
      topicOf shown label shape = topicOf id label shape := by
  refine ⟨_, toText_eq hs, ?_⟩
  by_cases hid : id = []
  · simp [topicOf, hid]
  · by_cases hlabel : id = label
    · simp [topicOf, hlabel]
    · simp [topicOf, hid, hlabel]

/-- what is printed of a node: its line again, or what was in the delimiters of a shape, the label printed anew -/
theorem toText_of_read {a : Topic} (h : Line.read line = .topic a) :
    a.toText = line ∨ ∃ id shown inner shape, id.all isIdChar = true ∧ (shown = [] ∨ shown = id) ∧ shape ≠ .default ∧
      line = wrapped id shape inner ∧ a = topicOf shown (unquote (trim inner)) shape ∧
      a.toText = wrapped shown shape (printedLabel (unquote (trim inner))) := by
  obtain ⟨-, -, hread⟩ := read_eq_topic_iff.1 h
  rw [Topic.read] at hread
  cases hshape : Shape.delimited.findSome? (shaped? line) with
  | none =>
    rw [hshape, Option.getD_none] at hread
    subst hread
    exact Or.inl rfl
  | some b =>
    rw [hshape, Option.getD_some] at hread
    subst hread
    obtain ⟨shape, hmem, hshaped⟩ := List.exists_of_findSome?_eq_some hshape
    have hs : shape ≠ .default := by
      rintro rfl
      exact absurd hmem (by decide)
    obtain ⟨id, inner, hid, -, rfl, rfl⟩ := exists_of_shaped? hshaped
    obtain ⟨shown, htext, hshown, htopic⟩ := topicOf_shown id (unquote (trim inner)) hs
    exact Or.inr ⟨id, shown, inner, shape, hid, hshown, hs, rfl, htopic.symm, htext⟩

theorem inner_isInfix (id inner : Text) (shape : Shape) : inner <:+: wrapped id shape inner :=
  ⟨id ++ shape.delimiters.1, shape.delimiters.2, by simp [wrapped]⟩

/-- a printed node is a line -/
theorem isLine_toText {a : Topic} (hline : IsLine line) (h : Line.read line = .topic a) : IsLine a.toText := by
  rcases toText_of_read h with htext | ⟨id, shown, inner, shape, hid, hshown, hs, rfl, -, htext⟩
  · exact htext ▸ hline
  · have hlineFeed : '\n' ∉ unquote (trim inner) :=
      lineFeed_not_mem_unquote fun hm => hline.lineFeed ((inner_isInfix id inner shape).subset (mem_of_mem_trim hm))
    exact htext ▸ isLine_wrapped hid hs hline hlineFeed hshown

/-- **a printed node is read as the line that the node was read from** -/
theorem read_toText {a : Topic} (hentity : ¬ quoteEntity <:+: line) (h : Line.read line = .topic a) :
    Line.read a.toText = .topic a := by
  rcases toText_of_read h with htext | ⟨id, shown, inner, shape, hid, hshown, hs, rfl, htopic, htext⟩
  · rw [htext, h]
  · obtain ⟨hicon, hclass, -⟩ := read_eq_topic_iff.1 h
    have hlabel : ¬ quoteEntity <:+: unquote (trim inner) :=
      not_infix_unquote fun hi => hentity (hi.trans ((trim_isInfix inner).trans (inner_isInfix id inner shape)))
    rw [htext, htopic]
    exact read_wrapped hid hs hicon hclass hlabel hshown

/-- a line says nothing of the decorations of its node -/
theorem undecorated_of_read {a : Topic} (h : Line.read line = .topic a) : a.icon = none ∧ a.cssClass = none := by
  obtain ⟨-, -, rfl⟩ := read_eq_topic_iff.1 h
  rw [Topic.read]
  cases hshape : Shape.delimited.findSome? (shaped? line) with
  | none => exact ⟨rfl, rfl⟩
  | some b =>
    obtain ⟨shape, -, hshaped⟩ := List.exists_of_findSome?_eq_some hshape
    obtain ⟨id, inner, -, -, -, rfl⟩ := exists_of_shaped? hshaped
    exact ⟨rfl, rfl⟩

/-! ## Printed decorations -/

/-- a name that is read back from its line -/
structure IsName (name : Text) : Prop where
  trim : Text.trim name = name
  lineFeed : '\n' ∉ name

theorem read_icon {name : Text} (h : IsName name) : Line.read ("::icon(" ++ name ++ ")") = .icon name := by
  have hicon : icon? ("::icon(" ++ name ++ ")") = some name := by
    rw [icon?, List.append_assoc, dropPrefix?_append, Option.bind_some]
    simp [h.trim]
  rw [Line.read, hicon]
  rfl

theorem isLine_icon {name : Text} (h : IsName name) : IsLine ("::icon(" ++ name ++ ")") := by
  refine ⟨⟨rfl, endsWith_append _ (by decide)⟩, ?_, rfl⟩
  simp [h.lineFeed]

theorem read_cssClass {name : Text} (h : IsName name) (hne : name ≠ []) : Line.read (":::" ++ name) = .cssClass name := by
  have hicon : icon? (":::" ++ name) = none := rfl
  have hclass : cssClass? (":::" ++ name) = some name := by
    rw [cssClass?, dropPrefix?_append, Option.bind_some, h.trim]
    exact present_eq_some_iff.2 ⟨rfl, hne⟩
  rw [Line.read, hicon, hclass]
  rfl

theorem isLine_cssClass {name : Text} (h : IsName name) (hne : name ≠ []) : IsLine (":::" ++ name) := by
  refine ⟨⟨rfl, endsWith_append _ ?_⟩, ?_, rfl⟩
  · exact ((trim_eq_self_iff.1 h.trim).resolve_left hne).last
  · simp [h.lineFeed]

theorem icon?_of_read {name : Text} (h : Line.read line = .icon name) : icon? line = some name := by
  unfold Line.read at h
  cases hicon : icon? line with
  | some n => simpa [hicon] using h
  | none => cases hclass : cssClass? line <;> simp [hicon, hclass] at h

theorem cssClass?_of_read {name : Text} (h : Line.read line = .cssClass name) : cssClass? line = some name := by
  unfold Line.read at h
  cases hicon : icon? line with
  | some n => simp [hicon] at h
  | none =>
    cases hclass : cssClass? line with
    | some n => simpa [hicon, hclass] using h
    | none => simp [hicon, hclass] at h

/-- names that are read are trimmed -/
theorem isName_trim {t : Text} (h : '\n' ∉ t) : IsName (Text.trim t) := ⟨trim_trim t, fun hm => h (mem_of_mem_trim hm)⟩

theorem isName_of_icon (hline : '\n' ∉ line) {name : Text} (h : Line.read line = .icon name) : IsName name := by
  obtain ⟨rest, hrest, hname⟩ := Option.bind_eq_some_iff.1 (icon?_of_read h)
  obtain ⟨-, hname⟩ := Option.ite_none_right_eq_some.1 hname
  obtain rfl := Option.some.inj hname
  exact isName_trim fun hm => hline (dropPrefix?_subset hrest (List.mem_of_mem_dropLast hm))

theorem isName_of_cssClass (hline : '\n' ∉ line) {name : Text} (h : Line.read line = .cssClass name) :
    IsName name ∧ name ≠ [] := by
  obtain ⟨rest, hrest, hname⟩ := Option.bind_eq_some_iff.1 (cssClass?_of_read h)
  obtain ⟨hname, hne⟩ := present_eq_some_iff.1 hname
  obtain rfl := Option.some.inj hname
  exact ⟨isName_trim fun hm => hline (dropPrefix?_subset hrest hm), hne⟩

end DiagramText.MindMap

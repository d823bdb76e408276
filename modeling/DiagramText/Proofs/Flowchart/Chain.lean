/-
Lines of nodes and links read back. `Mention.toText`, `groupText` and `Chain.toText` write what a line mentions;
`mention?_toText`, `group?_groupText` and `readChain_toText` say that the readers of nodes, groups and whole lines take
exactly what was written, with labels as they settle. Whether a line of nodes is read as such at all is the matter of
the statements with keywords, which are tried first.
-/
import DiagramText.Proofs.Flowchart.Operator

namespace DiagramText.Flowchart

/-! ## Writing -/

/-- a label in the delimiters of a shape -/
def shapeText : Option (Text × NodeShape) → Text
  | some (label, shape) => shape.delimiters.1 ++ (labelText label ++ shape.delimiters.2)
  | none => []

/-- a style class after three colons -/
def classText : Option Text → Text
  | some name => ":::" ++ name
  | none => []

/-- what stands after the id of a node -/
def Mention.suffix (m : Mention) : Text := shapeText m.shaped ++ classText m.className

/-- a node as it is written -/
def Mention.toText (m : Mention) : Text := m.id ++ m.suffix

/-- nodes joined by ampersands -/
def groupText (g : Group) : Text := Text.join " & " (g.map Mention.toText)

/-- links and groups after the first group of a line -/
def linksText (links : List (LinkForm × Group)) : Text :=
  links.flatMap fun (form, group) => ' ' :: (form.toText ++ ' ' :: groupText group)

/-- a line of linked groups -/
def Chain.toText (c : Chain) : Text := groupText c.first ++ linksText c.links

/-! ## What reads back -/

/-- a node that can be written in a line -/
structure Mention.IsPlain (m : Mention) : Prop where
  id : Scan.isName isWord m.id = true
  label : ∀ l s, m.shaped = some (l, s) → '\n' ∉ l
  className : ∀ n, m.className = some n → n ≠ [] ∧ n.all isWordOrHyphen = true

/-- the colons introduce a class name: a class statement takes names that start with a hyphen, colons do not -/
def Mention.NamesClass (m : Mention) : Prop := ∀ n, m.className = some n → Scan.startsWith isWord n = true

/-- a group that can be written -/
structure Group.IsPlain (g : Group) : Prop where
  ne_nil : g ≠ []
  mention : ∀ m ∈ g, m.IsPlain

/-- a line that can be written, as far as its nodes and links go -/
structure Chain.IsPlain (c : Chain) : Prop where
  first : Group.IsPlain c.first
  links : ∀ p ∈ c.links, p.1.IsPlain ∧ Group.IsPlain p.2

/-- the nodes that a line mentions, in order -/
def Chain.mentions (c : Chain) : List Mention := c.first ++ c.links.flatMap Prod.snd

/-- the node that is read from its text -/
def settledMention (m : Mention) : Mention :=
  { m with shaped := m.shaped.map fun (label, shape) => (settledLabel label, settledShape shape) }

/-- the line that is read from its text -/
def settledChain (c : Chain) : Chain :=
  ⟨c.first.map settledMention, c.links.map fun (form, group) => (settledForm form, group.map settledMention)⟩

/-! ## Nodes -/

/-- what may follow a node in a written line: nothing, or a space -/
def EndsNode (rest : Text) : Prop := rest = [] ∨ ∃ r, rest = ' ' :: r

theorem EndsNode.startsWith {p : Char → Bool} (hp : p ' ' = false) {rest : Text} (h : EndsNode rest) :
    Scan.startsWith p rest = false := by
  rcases h with rfl | ⟨r, rfl⟩
  · rfl
  · exact hp

/-- class names read back -/
theorem classSuffix?_classText {className : Option Text}
    (hn : ∀ n, className = some n → n ≠ [] ∧ n.all isWordOrHyphen = true)
    (hw : ∀ n, className = some n → Scan.startsWith isWord n = true) {rest : Text} (h : EndsNode rest) : classSuffix? (classText className ++ rest) = className.map (·, rest) := by
  cases className with
  | none => rcases h with rfl | ⟨r, rfl⟩ <;> rfl
  | some name =>
    have hs := hw name rfl
    have hall := (hn name rfl).2
    have hspan : Text.span isWordOrHyphen (name ++ rest) = (name, rest) := span_of_all hall (h.startsWith (by decide))
    have hdrop : Text.dropPrefix? ":::" (":::" ++ name ++ rest) = some (name ++ rest) :=
      Text.dropPrefix?_eq_some_iff.2 (List.append_assoc _ _ _)
    rw [classText, classSuffix?, hdrop, Option.bind_some, if_pos (Text.startsWith_append rest hs), hspan]
    rfl

/-- no shape opens with a colon or a space -/
theorem findSome?_shapedLabel?_eq_none {rest : Text}
    (h : Scan.startsWith (· ∈ ['(', '[', '\x7b', '>']) rest = false) :
    NodeShape.delimited.findSome? (shapedLabel? rest) = none := by
  rw [List.findSome?_eq_none_iff]
  intro shape hs
  refine shapedLabel?_eq_none ?_
  cases rest with
  | nil => cases shape <;> rfl
  | cons c r =>
    have hc : c ∉ ['(', '[', '\x7b', '>'] := by simpa [Scan.startsWith] using h
    simp only [List.mem_cons, List.not_mem_nil, or_false, not_or] at hc
    cases shape <;> simp [NodeShape.delimiters, Text.dropPrefix?, Ne.symm hc.1, Ne.symm hc.2.1, Ne.symm hc.2.2.1,
      Ne.symm hc.2.2.2]

/-- what a suffix of a node starts with -/
def isSuffixHead (c : Char) : Bool := c ∈ ['(', '[', '\x7b', '>', ':']

theorem startsWith_opening (shape : NodeShape) : Scan.startsWith isSuffixHead shape.delimiters.1 = true := by
  cases shape <;> decide

/-- a suffix is empty or starts with a delimiter -/
theorem suffix_eq_nil_or (m : Mention) :
    (m.shaped = none ∧ m.className = none ∧ m.suffix = []) ∨ Scan.startsWith isSuffixHead m.suffix = true := by
  obtain ⟨id, shaped, className⟩ := m
  cases shaped with
  | some p => exact Or.inr (Text.startsWith_append _ (Text.startsWith_append _ (startsWith_opening p.2)))
  | none =>
    cases className with
    | some name => exact Or.inr rfl
    | none => exact Or.inl ⟨rfl, rfl, rfl⟩

theorem isSuffixHead_ne {c : Char} (h : isSuffixHead c = true) : isWordOrHyphen c = false ∧ Text.isMark c = true := by
  simp only [isSuffixHead, List.mem_cons, List.not_mem_nil, or_false, decide_eq_true_eq] at h
  rcases h with rfl | rfl | rfl | rfl | rfl <;> decide

/-- the suffix of a node starts with no character of a name -/
theorem startsWith_suffix (m : Mention) {rest : Text} (h : EndsNode rest) :
    Scan.startsWith isWordOrHyphen (m.suffix ++ rest) = false := by
  rcases suffix_eq_nil_or m with ⟨-, -, e⟩ | hs
  · rw [e]
    exact h.startsWith (by decide)
  · obtain ⟨c, r, e, hc⟩ := Text.exists_cons_of_startsWith hs
    rw [e]
    exact (isSuffixHead_ne hc).1

/-- a node with a label in delimiters is read up to its style class, whatever follows its closing delimiter -/
theorem mention?_shaped {id label : Text} (hid : Scan.isName isWord id = true) (hl : '\n' ∉ label) (shape : NodeShape)
    (rest : Text) :
    mention? (id ++ (shapeText (some (label, shape)) ++ rest))
      = some (⟨id, some (settledLabel label, settledShape shape), (classSuffix? rest).map Prod.fst⟩,
          ((classSuffix? rest).map Prod.snd).getD rest) := by
  have hopening : Scan.startsWith isWordOrHyphen (shapeText (some (label, shape)) ++ rest) = false := by
    obtain ⟨c, r, e, hc⟩ := Text.exists_cons_of_startsWith (startsWith_opening shape)
    rw [shapeText, e]
    exact (isSuffixHead_ne hc).1
  have hname : nodeId? (id ++ (shapeText (some (label, shape)) ++ rest)) = some (id, shapeText (some (label, shape)) ++ rest) :=
    Scan.name?_isName hid hopening
  have hshape := findSome?_shapedLabel? shape hl rest
  rw [mention?, hname, Option.map_some]
  simp only [shapeText, List.append_assoc, hshape, Option.map_some]
  cases classSuffix? rest <;> rfl

/-- **nodes read back** -/
theorem mention?_toText {m : Mention} (h : m.IsPlain) (hc : m.NamesClass) {rest : Text} (hrest : EndsNode rest) :
    mention? (m.toText ++ rest) = some (settledMention m, rest) := by
  obtain ⟨id, shaped, className⟩ := m
  have hclass := classSuffix?_classText h.className hc hrest
  cases shaped with
  | none =>
    have hid : nodeId? (Mention.toText ⟨id, none, className⟩ ++ rest) = some (id, classText className ++ rest) := by
      rw [Mention.toText, List.append_assoc]
      exact Scan.name?_isName h.id (startsWith_suffix ⟨id, none, className⟩ hrest)
    have hnone : NodeShape.delimited.findSome? (shapedLabel? (classText className ++ rest)) = none := by
      refine findSome?_shapedLabel?_eq_none ?_
      cases className with
      | none => exact hrest.startsWith (by decide)
      | some name => rfl
    rw [mention?, hid, Option.map_some]
    simp only [hnone, Option.map_none, hclass]
    cases className <;> rfl
  | some p =>
    obtain ⟨label, shape⟩ := p
    have hshaped := mention?_shaped h.id (h.label label shape rfl) shape (classText className ++ rest)
    rw [Mention.toText, Mention.suffix, List.append_assoc, List.append_assoc, hshaped, hclass]
    cases className <;> rfl

/-! ## Ends of nodes -/

/-- what a written node ends with -/
def isNodeEnd (c : Char) : Bool := isWordOrHyphen c || c ∈ [']', ')', '\x7d']

theorem isNodeEnd_ne {c : Char} (h : isNodeEnd c = true) : Text.isMark c = true ∧ c ≠ ';' := by
  rcases Bool.or_eq_true_iff.1 h with h | h
  · refine ⟨isMark_of_isWordOrHyphen h, ?_⟩
    rintro rfl
    exact absurd h (by decide)
  · simp only [List.mem_cons, List.not_mem_nil, or_false, decide_eq_true_eq] at h
    rcases h with rfl | rfl | rfl <;> decide

theorem endsWith_closing (shape : NodeShape) : Text.endsWith isNodeEnd shape.delimiters.2 = true := by
  cases shape <;> decide

theorem isNodeEnd_of_isWordOrHyphen {c : Char} (h : isWordOrHyphen c = true) : isNodeEnd c = true := by
  simp [isNodeEnd, h]

section

variable {m : Mention} (h : m.IsPlain)
include h

theorem startsWith_mention : Scan.startsWith isWord m.toText = true :=
  Text.startsWith_append _ (Scan.startsWith_of_isName h.id)

theorem endsWith_mention : Text.endsWith isNodeEnd m.toText = true := by
  obtain ⟨id, shaped, className⟩ := m
  rw [Mention.toText, Mention.suffix]
  cases className with
  | some name =>
    obtain ⟨hne, hall⟩ := h.className name rfl
    refine Text.endsWith_append _ (Text.endsWith_append _ (Text.endsWith_append _ ?_))
    exact Text.endsWith_mono (fun _ => isNodeEnd_of_isWordOrHyphen) (Text.endsWith_of_all hne hall)
  | none =>
    cases shaped with
    | some p =>
      rw [classText, List.append_nil]
      exact Text.endsWith_append _ (Text.endsWith_append _ (Text.endsWith_append _ (endsWith_closing p.2)))
    | none =>
      have hne : id ≠ [] := (Scan.isTight_of_isName h.id).ne_nil
      simp only [shapeText, classText, List.append_nil]
      exact Text.endsWith_mono (fun _ => isNodeEnd_of_isWordOrHyphen) (Text.endsWith_of_all hne (Scan.all_of_isName h.id))

theorem isTight_mention : Text.IsTight m.toText :=
  ⟨Text.startsWith_mono (fun _ => isMark_of_isWord) (startsWith_mention h),
    Text.endsWith_mono (fun _ hc => (isNodeEnd_ne hc).1) (endsWith_mention h)⟩

theorem lineFeed_not_mem_mention : '\n' ∉ m.toText := by
  obtain ⟨id, shaped, className⟩ := m
  simp only [Mention.toText, Mention.suffix, List.mem_append, not_or]
  refine ⟨lineFeed_not_mem_of_all (Scan.all_of_isName h.id), ?_, ?_⟩
  · cases shaped with
    | none => simp [shapeText]
    | some p =>
      obtain ⟨label, shape⟩ := p
      simp only [shapeText, List.mem_append, not_or]
      refine ⟨?_, lineFeed_not_mem_labelText (h.label label shape rfl), ?_⟩ <;> cases shape <;> decide
  · cases className with
    | none => simp [classText]
    | some name =>
      simp only [classText, List.mem_append, not_or]
      exact ⟨by decide, lineFeed_not_mem_of_all (h.className name rfl).2⟩

end

/-! ## Groups -/

/-- the nodes of a group after its first -/
def groupTailText (ms : Group) : Text := ms.flatMap fun m => " & " ++ m.toText

theorem groupText_cons (m : Mention) (ms : Group) : groupText (m :: ms) = m.toText ++ groupTailText ms := by
  induction ms generalizing m with
  | nil => simp [groupText, groupTailText]
  | cons n ns ih =>
    have := ih n
    rw [groupText, List.map_cons] at this
    rw [groupText, List.map_cons, List.map_cons, Text.join_cons_cons, this]
    simp [groupTailText]

/-- what may follow a group in a written line: nothing, or a space and an operator -/
def EndsGroup (rest : Text) : Prop :=
  rest = [] ∨ ∃ t, rest = ' ' :: t ∧ Text.IsTight t ∧ Scan.startsWith (· = '&') t = false

/-- what follows a node in a group ends like the line -/
theorem endsWith_groupTail {p : Char → Bool} (hp : ∀ c, isNodeEnd c = true → p c = true) {ms : Group}
    (h : ∀ m ∈ ms, m.IsPlain) {rest : Text} (hrest : rest ≠ [] → Text.endsWith p rest = true) {t : Text}
    (ht : Text.endsWith p t = true) : Text.endsWith p (t ++ (groupTailText ms ++ rest)) = true := by
  by_cases hr : rest = []
  · subst hr
    rw [List.append_nil]
    induction ms generalizing t with
    | nil => simpa [groupTailText] using ht
    | cons m ms ih =>
      rw [groupTailText, List.flatMap_cons, ← List.append_assoc]
      refine ih (fun n hn => h n (by simp [hn])) (Text.endsWith_append _ (Text.endsWith_append _ ?_))
      exact Text.endsWith_mono hp (endsWith_mention (h m (by simp)))
  · exact Text.endsWith_append _ (Text.endsWith_append _ (hrest hr))

theorem endsNode_groupTailText (ms : Group) {rest : Text} (h : EndsGroup rest) : EndsNode (groupTailText ms ++ rest) := by
  cases ms with
  | nil =>
    rcases h with rfl | ⟨t, rfl, _⟩
    · exact Or.inl rfl
    · exact Or.inr ⟨t, rfl⟩
  | cons n ns => exact Or.inr ⟨_, rfl⟩

theorem groupTail?_groupTailText {ms : Group} (h : ∀ m ∈ ms, m.IsPlain) (hc : ∀ m ∈ ms, m.NamesClass) {rest : Text} (hrest : EndsGroup rest) :
    groupTail? (Text.trim (groupTailText ms ++ rest)) = some (ms.map settledMention, Text.trim rest) := by
  induction ms with
  | nil =>
    rcases hrest with rfl | ⟨t, rfl, ht, hamp⟩
    · rw [show Text.trim (groupTailText [] ++ []) = [] from rfl, groupTail?]
      · rfl
      · simp
    · rw [show groupTailText [] ++ ' ' :: t = ' ' :: t from rfl, Text.trim_space ht, groupTail?]
      · rfl
      · rintro r rfl
        simp [Scan.startsWith] at hamp
  | cons m ms ih =>
    have hm := h m (by simp)
    have hmention := mention?_toText hm (hc m (by simp)) (endsNode_groupTailText ms hrest)
    have hms : ∀ n ∈ ms, n.IsPlain := fun n hn => h n (by simp [hn])
    have htight : Text.IsTight (m.toText ++ (groupTailText ms ++ rest)) := by
      refine ⟨Text.startsWith_append _ (isTight_mention hm).first,
        endsWith_groupTail (fun _ hc => (isNodeEnd_ne hc).1) hms (fun hn => ?_) (isTight_mention hm).last⟩
      rcases hrest with rfl | ⟨t, rfl, ht, _⟩
      · exact absurd rfl hn
      · exact Text.endsWith_append [' '] ht.last
    have htext : groupTailText (m :: ms) ++ rest = ' ' :: '&' :: ' ' :: (m.toText ++ (groupTailText ms ++ rest)) := by
      simp [groupTailText]
    have hamp : Text.IsTight ('&' :: ' ' :: (m.toText ++ (groupTailText ms ++ rest))) :=
      Text.IsTight.append (s := ['&', ' ']) (by decide) htight.last
    rw [htext, Text.trim_space hamp, groupTail?, Text.trim_space htight]
    split
    · rename_i hnone
      rw [hmention] at hnone
      exact absurd hnone (by simp)
    · rename_i n r hsome
      rw [hmention, Option.some.injEq, Prod.mk.injEq] at hsome
      obtain ⟨rfl, rfl⟩ := hsome
      rw [ih hms fun n hn => hc n (by simp [hn])]
      rfl

/-- **groups read back** -/
theorem group?_groupText {g : Group} (h : Group.IsPlain g) (hc : ∀ m ∈ g, m.NamesClass) {rest : Text} (hrest : EndsGroup rest) :
    group? (groupText g ++ rest) = some (g.map settledMention, Text.trim rest) := by
  cases g with
  | nil => exact absurd rfl h.ne_nil
  | cons m ms =>
    have hms : ∀ n ∈ ms, n.IsPlain := fun n hn => h.mention n (by simp [hn])
    have hmention := mention?_toText (h.mention m (by simp)) (hc m (by simp)) (endsNode_groupTailText ms hrest)
    rw [groupText_cons, List.append_assoc, group?, hmention]
    simp only [Option.bind_some, groupTail?_groupTailText hms (fun n hn => hc n (by simp [hn])) hrest]
    rfl

/-! ## Lines -/

theorem isTight_groupText {g : Group} (h : Group.IsPlain g) :
    Scan.startsWith isWord (groupText g) = true ∧ Text.endsWith isNodeEnd (groupText g) = true := by
  cases g with
  | nil => exact absurd rfl h.ne_nil
  | cons m ms =>
    have hm := h.mention m (by simp)
    rw [groupText_cons]
    refine ⟨Text.startsWith_append _ (startsWith_mention hm), ?_⟩
    have := endsWith_groupTail (fun _ hc => hc) (fun n hn => h.mention n (List.mem_cons_of_mem m hn))
      (fun hn : [] ≠ [] => absurd rfl hn) (endsWith_mention hm)
    rwa [List.append_nil] at this

/-- the links of a line, without the space before them, end like a node -/
theorem endsWith_linksText {ls : List (LinkForm × Group)} (h : ∀ p ∈ ls, p.1.IsPlain ∧ Group.IsPlain p.2) {t : Text}
    (ht : Text.endsWith isNodeEnd t = true) : Text.endsWith isNodeEnd (t ++ linksText ls) = true := by
  induction ls generalizing t with
  | nil => simpa [linksText] using ht
  | cons p ls ih =>
    obtain ⟨form, group⟩ := p
    have hp := h _ (List.mem_cons_self)
    rw [linksText, List.flatMap_cons, ← linksText, ← List.append_assoc]
    refine ih (fun q hq => h q (List.mem_cons_of_mem _ hq)) (Text.endsWith_append _ ?_)
    have := Text.endsWith_append (' ' :: form.toText ++ [' ']) (isTight_groupText hp.2).2
    simpa using this

/-- an operator starts with a head or a stroke character -/
theorem startsWith_operator {f : LinkForm} (h : f.IsPlain) :
    Scan.startsWith (· ∈ ['<', '-', '=']) f.toText = true := by
  refine Text.startsWith_append _ ?_
  rw [operator_eq]
  cases f.bidirectional with
  | true => rfl
  | false =>
    obtain ⟨a, b, c, r, e, ho, _⟩ := strokes_cons h []
    simp only [List.append_nil] at e
    simp only [Bool.false_eq_true, if_false, List.nil_append, e]
    cases hs : f.stroke <;> simp_all [openingStroke, Scan.startsWith]

theorem endsGroup_linksText {ls : List (LinkForm × Group)} (h : ∀ p ∈ ls, p.1.IsPlain ∧ Group.IsPlain p.2) :
    EndsGroup (linksText ls) := by
  cases ls with
  | nil => exact Or.inl rfl
  | cons p ls =>
    obtain ⟨form, group⟩ := p
    obtain ⟨hf, hg⟩ := h _ (List.mem_cons_self)
    obtain ⟨c, r, e, hc⟩ := Text.exists_cons_of_startsWith (startsWith_operator hf)
    refine Or.inr ⟨form.toText ++ ' ' :: (groupText group ++ linksText ls), by simp [linksText], ⟨?_, ?_⟩, ?_⟩
    · refine Text.startsWith_append _ (Text.startsWith_mono (fun d hd => ?_) (startsWith_operator hf))
      simp only [List.mem_cons, List.not_mem_nil, or_false, decide_eq_true_eq] at hd
      rcases hd with rfl | rfl | rfl <;> decide
    · have := endsWith_linksText (fun q hq => h q (List.mem_cons_of_mem _ hq)) (isTight_groupText hg).2
      exact Text.endsWith_append _ (Text.endsWith_append [' '] (Text.endsWith_mono (fun _ hd => (isNodeEnd_ne hd).1) this))
    · rw [e]
      simp only [List.mem_cons, List.not_mem_nil, or_false, decide_eq_true_eq] at hc
      rcases hc with rfl | rfl | rfl <;> rfl

/-- the links of a line read back -/
theorem chainTail_linksText (l : SourceLine) {ls : List (LinkForm × Group)}
    (h : ∀ p ∈ ls, p.1.IsPlain ∧ Group.IsPlain p.2) (hc : ∀ p ∈ ls, ∀ m ∈ p.2, m.NamesClass) :
    chainTail l (Text.trim (linksText ls))
      = .ok (ls.map fun (form, group) => (settledForm form, group.map settledMention)) := by
  induction ls with
  | nil => rw [show Text.trim (linksText []) = [] from rfl, chainTail, if_pos rfl]; rfl
  | cons p ls ih =>
    obtain ⟨form, group⟩ := p
    obtain ⟨hf, hg⟩ := h _ (List.mem_cons_self)
    have hls : ∀ q ∈ ls, q.1.IsPlain ∧ Group.IsPlain q.2 := fun q hq => h q (List.mem_cons_of_mem _ hq)
    have hrest : Text.IsTight (groupText group ++ linksText ls) := by
      obtain ⟨h1, h2⟩ := isTight_groupText hg
      exact ⟨Text.startsWith_append _ (Text.startsWith_mono (fun _ => isMark_of_isWord) h1),
        Text.endsWith_mono (fun _ hd => (isNodeEnd_ne hd).1) (endsWith_linksText hls h2)⟩
    have htrim : Text.trim (linksText ((form, group) :: ls)) = form.toText ++ ' ' :: (groupText group ++ linksText ls) := by
      rcases endsGroup_linksText h with hnil | ⟨t, e, ht, _⟩
      · simp [linksText] at hnil
      · have e' : t = form.toText ++ ' ' :: (groupText group ++ linksText ls) := by
          simpa [linksText] using e.symm
        rw [e, Text.trim_space ht, e']
    have hpipe : Scan.startsWith (· = '|') (groupText group ++ linksText ls) = false := by
      obtain ⟨c, r, e, hc⟩ := Text.exists_cons_of_startsWith (isTight_groupText hg).1
      rw [e]
      refine decide_eq_false ?_
      rintro rfl
      exact absurd hc (by decide)
    have hlink := link?_toText hf hrest.first hpipe
    have hgroup := group?_groupText hg (hc _ (List.mem_cons_self)) (endsGroup_linksText hls)
    rw [htrim, chainTail, if_neg (by simp)]
    split
    · rename_i hnone
      rw [hlink] at hnone
      exact absurd hnone (by simp)
    · rename_i form' after hsome
      rw [hlink, Option.some.injEq, Prod.mk.injEq] at hsome
      obtain ⟨rfl, rfl⟩ := hsome
      split
      · rename_i hnone
        rw [Text.trim_space hrest, hgroup] at hnone
        exact absurd hnone (by simp)
      · rename_i group' after hsome
        rw [Text.trim_space hrest, hgroup, Option.some.injEq, Prod.mk.injEq] at hsome
        obtain ⟨rfl, rfl⟩ := hsome
        rw [Text.trim_trim, ih hls fun q hq => hc q (List.mem_cons_of_mem _ hq)]
        rfl

/-- **lines of nodes and links read back** -/
theorem readChain_toText {c : Chain} (h : c.IsPlain) (hc : ∀ m ∈ c.mentions, m.NamesClass) {l : SourceLine} (hl : l.text = c.toText) :
    readChain l = .ok (settledChain c) := by
  have hfirst : ∀ m ∈ c.first, m.NamesClass := fun m hm => hc m (List.mem_append_left _ hm)
  have hlinks : ∀ p ∈ c.links, ∀ m ∈ p.2, m.NamesClass := fun p hp m hm =>
    hc m (List.mem_append_right _ (List.mem_flatMap.2 ⟨p, hp, hm⟩))
  have hgroup := group?_groupText h.first hfirst (endsGroup_linksText h.links)
  rw [readChain, hl, Chain.toText, hgroup]
  simp only [Text.trim_trim, chainTail_linksText l h.links hlinks]
  rfl

end DiagramText.Flowchart

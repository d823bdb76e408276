/-
Labels. `settledLabel` is what a label reads back as once it is written. It is the label itself unless the label spells
the quote entity (`settledLabel_of_not_infix`), and it is written like the label (`labelText_settledLabel`), so a second
reading changes nothing. `shapedLabel?_labelText` reads a label in the delimiters of each shape.
-/
import DiagramText.Flowchart.Statement
import DiagramText.Proofs.Text.Names

namespace DiagramText

namespace Flowchart

/-! ## Written labels -/

/-- what a label reads back as once it is written -/
def settledLabel (label : Text) : Text := labelValue (labelText label)

theorem isPlainLabel_eq {label : Text} (h : '\n' ∉ label) :
    isPlainLabel label = (Scan.startsWith isPlainEdge label && label.all isPlainInner
      && Text.endsWith isPlainEdge label) := by
  have : (label.getLast? == some '\n') = false := by
    rw [beq_eq_false_iff_ne]
    exact fun e => h (List.mem_of_getLast? e)
  simp only [isPlainLabel, this, Bool.false_eq_true, if_false, Text.startsWith_reverse]

theorem isMark_of_isPlainEdge {c : Char} (h : isPlainEdge c = true) : Text.isMark c = true := by
  simp only [isPlainEdge, Bool.and_eq_true] at h
  exact h.1.2

theorem isTight_of_isPlainLabel {label : Text} (hl : '\n' ∉ label) (h : isPlainLabel label = true) :
    Text.IsTight label := by
  rw [isPlainLabel_eq hl, Bool.and_eq_true, Bool.and_eq_true] at h
  exact ⟨Text.startsWith_mono (fun _ => isMark_of_isPlainEdge) h.1.1,
    Text.endsWith_mono (fun _ => isMark_of_isPlainEdge) h.2⟩

theorem quote_not_mem_of_isPlainLabel {label : Text} (hl : '\n' ∉ label) (h : isPlainLabel label = true) :
    '"' ∉ label := by
  rw [isPlainLabel_eq hl, Bool.and_eq_true, Bool.and_eq_true] at h
  intro hm
  exact absurd (List.all_eq_true.1 h.1.2 _ hm) (by decide)

theorem isQuoted_eq_false {t : Text} (h : '"' ∉ t) : isQuoted t = false := by
  unfold isQuoted
  split
  · exact absurd (List.mem_cons_self) h
  · rfl

theorem settledLabel_of_isPlainLabel {label : Text} (hl : '\n' ∉ label) (h : isPlainLabel label = true) :
    settledLabel label = label := by
  rw [settledLabel, labelText, if_pos h, labelValue, isQuoted_eq_false (quote_not_mem_of_isPlainLabel hl h)]
  exact Text.trim_of_isTight (isTight_of_isPlainLabel hl h)

theorem settledLabel_of_not_isPlainLabel {label : Text} (h : ¬ isPlainLabel label = true) :
    settledLabel label = readEntities label := by
  rw [settledLabel, labelText, if_neg h, labelValue, if_pos (isQuoted_quote label), unquote_quote]

theorem settledLabel_eq_self_or {label : Text} (hl : '\n' ∉ label) :
    settledLabel label = label ∨ '"' ∈ settledLabel label := by
  by_cases h : isPlainLabel label = true
  · exact Or.inl (settledLabel_of_isPlainLabel hl h)
  · rw [settledLabel_of_not_isPlainLabel h]
    exact readEntities_eq_self_or label

/-- **a label that spells no entity reads back as itself** -/
theorem settledLabel_of_not_infix {label : Text} (hl : '\n' ∉ label) (h : ¬ quoteEntity <:+: label) :
    settledLabel label = label := by
  by_cases hp : isPlainLabel label = true
  · exact settledLabel_of_isPlainLabel hl hp
  · rw [settledLabel_of_not_isPlainLabel hp, readEntities_eq_self h]

theorem mem_of_mem_settledLabel {c : Char} {label : Text} (hl : '\n' ∉ label) (h : c ∈ settledLabel label) :
    c = '"' ∨ c ∈ label := by
  by_cases hp : isPlainLabel label = true
  · rw [settledLabel_of_isPlainLabel hl hp] at h
    exact Or.inr h
  · rw [settledLabel_of_not_isPlainLabel hp] at h
    exact mem_of_mem_readEntities h

theorem lineFeed_not_mem_settledLabel {label : Text} (hl : '\n' ∉ label) : '\n' ∉ settledLabel label := by
  intro h
  rcases mem_of_mem_settledLabel hl h with h | h
  · exact absurd h (by decide)
  · exact hl h

theorem readEntities_ne_nil {t : Text} (h : t ≠ []) : readEntities t ≠ [] := by
  induction t using entity_induction with
  | nil => exact absurd rfl h
  | entity r _ => simp [readEntities_entity]
  | cons c r hn _ => simp [readEntities_cons hn]

theorem settledLabel_ne_nil {label : Text} (hl : '\n' ∉ label) (h : label ≠ []) : settledLabel label ≠ [] := by
  by_cases hp : isPlainLabel label = true
  · rwa [settledLabel_of_isPlainLabel hl hp]
  · rw [settledLabel_of_not_isPlainLabel hp]
    exact readEntities_ne_nil h

/-- **a label that has been read is written as before** -/
theorem labelText_settledLabel {label : Text} (hl : '\n' ∉ label) : labelText (settledLabel label) = labelText label := by
  by_cases hp : isPlainLabel label = true
  · rw [settledLabel_of_isPlainLabel hl hp]
  · rcases settledLabel_eq_self_or hl with h | h
    · rw [h]
    · have hn : ¬ isPlainLabel (settledLabel label) = true := fun hs =>
        quote_not_mem_of_isPlainLabel (lineFeed_not_mem_settledLabel hl) hs h
      rw [labelText, if_neg hn, labelText, if_neg hp, settledLabel_of_not_isPlainLabel hp, ← unquote_quote,
        quote_unquote_quote]

theorem lineFeed_not_mem_labelText {label : Text} (hl : '\n' ∉ label) : '\n' ∉ labelText label := by
  unfold labelText
  split
  · exact hl
  · exact lineFeed_not_mem_quote hl

theorem labelText_ne_nil {label : Text} (hl : '\n' ∉ label) : labelText label ≠ [] := by
  unfold labelText
  split
  · rename_i h
    exact (isTight_of_isPlainLabel hl h).ne_nil
  · simp [quote]

/-- what a written label starts with -/
def isLabelHead (c : Char) : Bool := c = '"' || isPlainEdge c

theorem startsWith_labelText {label : Text} (hl : '\n' ∉ label) :
    Scan.startsWith isLabelHead (labelText label) = true := by
  unfold labelText
  split
  · rename_i h
    rw [isPlainLabel_eq hl, Bool.and_eq_true, Bool.and_eq_true] at h
    exact Text.startsWith_mono (fun c hc => by simp [isLabelHead, hc]) h.1.1
  · simp [quote, Scan.startsWith, isLabelHead]

/-! ## Labels in delimiters -/

theorem quoted?_of_isPlainLabel {label : Text} (hl : '\n' ∉ label) (h : isPlainLabel label = true) (rest : Text) :
    Scan.quoted? (label ++ rest) = none := by
  rw [isPlainLabel_eq hl, Bool.and_eq_true, Bool.and_eq_true] at h
  obtain ⟨c, r, rfl, hc⟩ := Text.exists_cons_of_startsWith h.1.1
  unfold Scan.quoted?
  split
  · rename_i e
    rw [List.cons_append, List.cons.injEq] at e
    rw [e.1] at hc
    exact absurd hc (by decide)
  · rfl

/-- a closing delimiter does not begin inside a label without quotes -/
theorem dropPrefix?_closing (shape : NodeShape) {c : Char} {b : Text} (rest : Text) (hc : isPlainInner c = true)
    (hb : b.all isPlainInner = true) :
    Text.dropPrefix? shape.delimiters.2 (c :: b ++ (shape.delimiters.2 ++ rest)) = none := by
  have hne : ∀ d, isPlainInner d = false → ¬ d = c := by
    rintro d hd rfl
    simp [hc] at hd
  cases shape with
  | ellipse =>
    -- the hyphen may stand in a label, but no parenthesis follows it there
    change Text.dropPrefix? ['-', ')'] (c :: (b ++ '-' :: ')' :: rest)) = none
    cases b with
    | nil => simp [Text.dropPrefix?]
    | cons e b =>
      have he : ¬ ')' = e := by
        rintro rfl
        simp [isPlainInner] at hb
      simp [Text.dropPrefix?, he]
  | _ =>
    refine if_neg (hne _ ?_)
    decide

/-- a written label is read up to its closing delimiter -/
theorem shapedLabel?_labelText (shape : NodeShape) {label : Text} (hl : '\n' ∉ label) (rest : Text) :
    shapedLabel? (shape.delimiters.1 ++ (labelText label ++ (shape.delimiters.2 ++ rest))) shape
      = some (settledLabel label, shape, rest) := by
  have hclose : Text.dropPrefix? shape.delimiters.2 (shape.delimiters.2 ++ rest) = some rest :=
    Text.dropPrefix?_eq_some_iff.2 rfl
  have hopen : ∀ t, Text.dropPrefix? shape.delimiters.1 (shape.delimiters.1 ++ t) = some t :=
    fun t => Text.dropPrefix?_eq_some_iff.2 rfl
  by_cases hp : isPlainLabel label = true
  · have hall := hp
    rw [isPlainLabel_eq hl, Bool.and_eq_true, Bool.and_eq_true] at hall
    have hq : Scan.quoted? (label ++ (shape.delimiters.2 ++ rest)) = none := quoted?_of_isPlainLabel hl hp _
    have hlabel : label.all isLabelChar = true := by
      refine List.all_eq_true.2 fun c hc => ?_
      have := List.all_eq_true.1 hall.1.2 c hc
      simp only [isPlainInner, isLabelChar, List.mem_cons, decide_eq_true_eq, not_or] at this ⊢
      simp [this]
    have hrun := Scan.shortest_append
      (k := fun run rest => (Text.dropPrefix? shape.delimiters.2 rest).map (run, ·)) (shape.delimiters.2 ++ rest)
      hlabel (x := (label, rest))
      (fun a c b e => by
        have hcb := List.all_eq_true.1 hall.1.2
        have hc : isPlainInner c = true := hcb c (by simp [e])
        have hb : b.all isPlainInner = true := List.all_eq_true.2 fun d hd => hcb d (by simp [e, hd])
        rw [dropPrefix?_closing shape rest hc hb]
        rfl)
      (by rw [hclose]; rfl)
    simp only [shapedLabel?, labelText, if_pos hp, hopen, Option.bind_some, hq, Option.bind_none, hrun]
    rw [settledLabel, labelText, if_pos hp]
    rfl
  · simp only [shapedLabel?, labelText, if_neg hp, hopen, Option.bind_some, quoted?_quote, hclose, Option.map_some]
    rw [settledLabel, labelText, if_neg hp]
    rfl

theorem shapedLabel?_eq_none {t : Text} {shape : NodeShape} (h : Text.dropPrefix? shape.delimiters.1 t = none) :
    shapedLabel? t shape = none := by
  simp only [shapedLabel?, h]
  rfl

/-- a default node with a label reads back as a square one -/
def settledShape : NodeShape → NodeShape
  | .default => .square
  | shape => shape

/-- the two shapes that open like an earlier one close with the other slant -/
def IsMirror (earlier shape : NodeShape) : Prop :=
  (earlier = .trapezoid ∧ shape = .leanRight) ∨ (earlier = .invTrapezoid ∧ shape = .leanLeft)

instance (earlier shape : NodeShape) : Decidable (IsMirror earlier shape) := inferInstanceAs (Decidable (_ ∨ _))

/-- an earlier shape opens with characters that no label starts with, and not like the shape, or is its mirror -/
theorem opening_of_earlier {earlier shape : NodeShape} (hs : shape ≠ .default)
    (h : earlier ∈ NodeShape.delimited.takeWhile (· ≠ shape)) :
    (earlier.delimiters.1.all fun c => !isLabelHead c) = true
      ∧ (¬ earlier.delimiters.1 <+: shape.delimiters.1 ∨ IsMirror earlier shape) := by
  have : ∀ t ∈ NodeShape.delimited.takeWhile (· ≠ shape), (t.delimiters.1.all fun c => !isLabelHead c) = true
      ∧ (¬ t.delimiters.1 <+: shape.delimiters.1 ∨ IsMirror t shape) := by
    cases shape with
    | default => exact absurd rfl hs
    | _ => decide
  exact this earlier h

/-- a shape takes nothing that opens otherwise -/
theorem dropPrefix?_opening {o o' label : Text} (ho : (o.all fun c => !isLabelHead c) = true) (h : ¬ o <+: o')
    (hl : Scan.startsWith isLabelHead label = true) : Text.dropPrefix? o (o' ++ label) = none := by
  rw [Option.eq_none_iff_forall_not_mem]
  intro r hr
  obtain ⟨c, s, rfl, hc⟩ := Text.exists_cons_of_startsWith hl
  rcases List.append_eq_append_iff.1 (Text.dropPrefix?_eq_some_iff.1 hr) with ⟨m, rfl, e⟩ | ⟨m, rfl, _⟩
  · cases m with
    | nil => exact h (by simp)
    | cons d m =>
      rw [List.cons_append, List.cons.injEq] at e
      have := List.all_eq_true.1 ho d (by simp)
      simp [← e.1, hc] at this
  · exact h (List.prefix_append o m)

section

-- a shape and its mirror close with a slant and a square bracket: `a` is the slant looked for, `b` the one that is there
variable {a b : Char} {label : Text}

theorem dropPrefix?_bracket_eq_none {d : Char} (h : d ≠ a) (t : Text) : Text.dropPrefix? [a, ']'] (d :: t) = none := by
  simp [Text.dropPrefix?, Ne.symm h]

/-- a plain label that ends with one slant is no label that ends with the other -/
theorem shortest_plain_eq_none (ha : a ∈ ['/', '\\']) (hab : a ≠ b) (hl : '\n' ∉ label) (hp : isPlainLabel label = true)
    (rest : Text) : Scan.shortest isLabelChar (fun run rest => (Text.dropPrefix? [a, ']'] rest).map (run, ·))
      (label ++ (b :: ']' :: rest)) = none := by
  have hall := hp
  rw [isPlainLabel_eq hl, Bool.and_eq_true, Bool.and_eq_true] at hall
  have hslant : isPlainInner a = false := by
    rcases List.mem_pair.1 ha with rfl | rfl <;> decide
  refine Scan.shortest_eq_none fun run r e hrun => ?_
  rw [Option.map_eq_none_iff]
  -- the run ends in the label, before the slant, or before the bracket, which is no label character
  rcases List.append_eq_append_iff.1 e with ⟨m, rfl, em⟩ | ⟨m, rfl, rfl⟩
  · rcases m with - | ⟨d, - | ⟨d', m⟩⟩
    · rw [List.nil_append] at em
      rw [← em]
      exact dropPrefix?_bracket_eq_none (Ne.symm hab) _
    · rw [List.singleton_append, List.cons.injEq] at em
      rw [← em.2]
      exact dropPrefix?_bracket_eq_none (by rcases List.mem_pair.1 ha with rfl | rfl <;> decide) _
    · simp only [List.cons_append, List.cons.injEq] at em
      rw [← em.2.1] at hrun
      simp [isLabelChar] at hrun
  · cases m with
    | nil => exact dropPrefix?_bracket_eq_none (Ne.symm hab) _
    | cons d m =>
      refine dropPrefix?_bracket_eq_none ?_ _
      rintro rfl
      have := List.all_eq_true.1 hall.1.2 d (by simp)
      simp [hslant] at this

/-- a quotation mark is no label character -/
theorem shortest_quote_eq_none (ha : a ∈ ['/', '\\']) (label rest : Text) :
    Scan.shortest isLabelChar (fun run rest => (Text.dropPrefix? [a, ']'] rest).map (run, ·)) (quote label ++ rest) = none := by
  have hmark : isLabelChar '"' = false := by decide
  have hslant : '"' ≠ a := by rcases List.mem_pair.1 ha with rfl | rfl <;> decide
  rw [quote_eq, List.cons_append, Scan.shortest, dropPrefix?_bracket_eq_none hslant]
  simp [hmark]

/-- a shape that closes with the other slant does not find its closing delimiter -/
theorem shapedLabel?_slant {earlier shape : NodeShape} {opening : Text} (ha : a ∈ ['/', '\\']) (hab : a ≠ b)
    (he : earlier.delimiters = (opening, [a, ']'])) (hs : shape.delimiters = (opening, [b, ']'])) (hl : '\n' ∉ label) (rest : Text) :
    shapedLabel? (shape.delimiters.1 ++ (labelText label ++ (shape.delimiters.2 ++ rest))) earlier = none := by
  have hbody : shapedLabel? (shape.delimiters.1 ++ (labelText label ++ (shape.delimiters.2 ++ rest))) earlier
      = ((((Scan.quoted? (labelText label ++ (b :: ']' :: rest))).bind fun x =>
          (Text.dropPrefix? [a, ']'] x.2).map (x.1, ·)) <|> Scan.shortest isLabelChar
            (fun run rest => (Text.dropPrefix? [a, ']'] rest).map (run, ·)) (labelText label ++ (b :: ']' :: rest))).map
          fun x => (labelValue x.1, earlier, x.2)) := by
    have hopen : Text.dropPrefix? opening (opening ++ (labelText label ++ (b :: ']' :: rest)))
        = some (labelText label ++ (b :: ']' :: rest)) := Text.dropPrefix?_eq_some_iff.2 rfl
    simp only [shapedLabel?, he, hs, List.cons_append, List.nil_append, hopen, Option.bind_some]
  rw [hbody]
  by_cases hp : isPlainLabel label = true
  · have hq : Scan.quoted? (label ++ (b :: ']' :: rest)) = none := quoted?_of_isPlainLabel hl hp _
    have hlt : labelText label = label := by rw [labelText, if_pos hp]
    rw [hlt, hq, shortest_plain_eq_none ha hab hl hp]
    rfl
  · have hq : labelText label = quote label := by rw [labelText, if_neg hp]
    rw [hq, quoted?_quote, shortest_quote_eq_none ha]
    simp only [Option.bind_some, dropPrefix?_bracket_eq_none (Ne.symm hab)]
    rfl

/-- a mirrored shape does not find its closing delimiter -/
theorem shapedLabel?_mirror {earlier shape : NodeShape} (h : IsMirror earlier shape) (hl : '\n' ∉ label) (rest : Text) :
    shapedLabel? (shape.delimiters.1 ++ (labelText label ++ (shape.delimiters.2 ++ rest))) earlier = none := by
  rcases h with ⟨rfl, rfl⟩ | ⟨rfl, rfl⟩
  · exact shapedLabel?_slant (by decide) (by decide) rfl rfl hl rest
  · exact shapedLabel?_slant (by decide) (by decide) rfl rfl hl rest

end

/-- **labels in delimiters read back**: no shape that is tried earlier takes the text -/
theorem findSome?_shapedLabel? (shape : NodeShape) {label : Text} (hl : '\n' ∉ label) (rest : Text) :
    NodeShape.delimited.findSome?
        (shapedLabel? (shape.delimiters.1 ++ (labelText label ++ (shape.delimiters.2 ++ rest))))
      = some (settledLabel label, settledShape shape, rest) := by
  have key : ∀ s : NodeShape, s ≠ .default → NodeShape.delimited.findSome?
      (shapedLabel? (s.delimiters.1 ++ (labelText label ++ (s.delimiters.2 ++ rest))))
      = some (settledLabel label, s, rest) := by
    intro s hs
    refine findSome?_eq_some_of_takeWhile (x := s) (by cases s <;> simp_all [NodeShape.delimited]) (fun t ht => ?_)
      (shapedLabel?_labelText s hl rest)
    obtain ⟨ho, h | h⟩ := opening_of_earlier hs ht
    · exact shapedLabel?_eq_none (dropPrefix?_opening ho h (Text.startsWith_append _ (startsWith_labelText hl)))
    · exact shapedLabel?_mirror h hl rest
  cases shape with
  | default => exact key .square (by decide)
  | _ => exact key _ (by decide)

end Flowchart

end DiagramText

/-
Link operators read back. A written operator is an optional head, a run of strokes and an end (`operator_eq`); text
inside an operator would follow white space that is not there (`textOperator?_operator`), so `link?_toText` finds the
operator with its label between pipes: every field of the link as it was, the label as it reads back.
-/
import DiagramText.Proofs.Flowchart.Label

namespace DiagramText.Flowchart

/-- a link that an operator can show: long enough, with heads of one kind, its label on one line -/
structure LinkForm.IsPlain (f : LinkForm) : Prop where
  length : 1 ≤ f.length
  heads : f.bidirectional = true → f.arrow = .point
  label : ∀ l, f.label = some l → '\n' ∉ l

/-- the link that is read from its operator -/
def settledForm (f : LinkForm) : LinkForm := { f with label := (Text.present f.label).map settledLabel }

/-! ## Parts of an operator -/

/-- the stroke characters of an operator -/
def LinkForm.strokes (f : LinkForm) : Text :=
  match f.stroke with
  | .dotted => '-' :: (List.replicate f.length.toNat '.' ++ ['-'])
  | .thick => List.replicate (f.length + if f.arrow = .open then 2 else 1).toNat '='
  | .normal => List.replicate (f.length + if f.arrow = .open then 2 else 1).toNat '-'

theorem operator_eq (f : LinkForm) :
    f.operator = (if f.bidirectional then ['<'] else []) ++ (f.strokes ++ f.arrow.toText) := by
  unfold LinkForm.operator LinkForm.strokes
  cases f.stroke <;> simp

/-- the strokes after the text of an operator that has text inside: all but the hyphen that opens a dotted operator -/
def LinkForm.closingStrokes (f : LinkForm) : Text :=
  match f.stroke with
  | .dotted => List.replicate f.length.toNat '.' ++ ['-']
  | .thick => f.strokes
  | .normal => f.strokes

/-- what may follow an operator: a label between pipes, or white space and the next node -/
def afterOperator (c : Char) : Bool := isBlank c || c = '|'

/-- what follows an operator is no part of it -/
theorem ne_of_afterOperator {c d : Char} (hc : afterOperator c = true) (hd : d ∈ ['>', 'o', 'x', '-', '=']) : c ≠ d := by
  rintro rfl
  simp only [List.mem_cons, List.not_mem_nil, or_false] at hd
  rcases hd with rfl | rfl | rfl | rfl | rfl <;> exact absurd hc (by decide)

theorem arrowEnd_toText (arrow : Arrow) {tail : Text} (h : Scan.startsWith afterOperator tail = true) :
    arrowEnd (arrow.toText ++ tail) = (arrow, tail) := by
  obtain ⟨c, r, rfl, hc⟩ := Text.exists_cons_of_startsWith h
  cases arrow with
  | «open» =>
    simp only [Arrow.toText, List.nil_append]
    unfold arrowEnd
    split <;> first
      | exact absurd (List.cons.inj ‹_›).1 (ne_of_afterOperator hc (by decide))
      | rfl
  | _ => rfl

/-- no stroke character follows the strokes -/
theorem startsWith_stroke {arrow : Arrow} {tail : Text} (h : Scan.startsWith afterOperator tail = true) {d : Char}
    (hd : d = '-' ∨ d = '=') : Scan.startsWith (fun c => decide (c = d)) (arrow.toText ++ tail) = false := by
  obtain ⟨c, r, rfl, hc⟩ := Text.exists_cons_of_startsWith h
  cases arrow with
  | «open» => exact decide_eq_false (ne_of_afterOperator hc (by rcases hd with rfl | rfl <;> decide))
  | _ => rcases hd with rfl | rfl <;> rfl

/-- a run of strokes is read to its end -/
theorem strokeRun?_replicate {n : Nat} {d : Char} {rest : Text} (hn : 2 ≤ n)
    (h : Scan.startsWith (fun c => decide (c = d)) rest = false) :
    strokeRun? d (List.replicate n d ++ rest) = some (n, rest) := by
  have hs : Text.span (fun c => decide (c = d)) (List.replicate n d ++ rest) = (List.replicate n d, rest) :=
    span_of_all (by simp) h
  simp [strokeRun?, hs, hn]

theorem dots?_replicate {n : Nat} (hn : 1 ≤ n) (rest : Text) :
    dots? (List.replicate n '.' ++ '-' :: rest) = some (n, rest) := by
  have hs : Text.span (fun c => decide (c = '.')) (List.replicate n '.' ++ '-' :: rest)
      = (List.replicate n '.', '-' :: rest) := span_of_all (by simp) rfl
  obtain ⟨m, rfl⟩ : ∃ m, n = m + 1 := ⟨n - 1, by omega⟩
  rw [dots?, hs, List.replicate_succ]
  simp

theorem linkForm?_of_isPlain {f : LinkForm} (h : f.IsPlain) :
    linkForm? f.bidirectional f.stroke f.arrow f.length none = some { f with label := none } := by
  have : ¬ (f.length < 1 ∨ (f.bidirectional = true ∧ f.arrow ≠ .point)) := by
    rintro (hl | ⟨hb, ha⟩)
    · have := h.length
      omega
    · exact ha (h.heads hb)
  rw [linkForm?, if_neg this]

/-- the length of a link that so many strokes show -/
theorem solidLength_toNat {length : Int} (h : 1 ≤ length) (arrow : Arrow) :
    solidLength (length + if arrow = .open then 2 else 1).toNat arrow = length := by
  unfold solidLength
  split <;> omega

theorem dotted?_strokes (b : Bool) (arrow : Arrow) {n : Nat} (hn : 1 ≤ n) {tail : Text}
    (htail : Scan.startsWith afterOperator tail = true) :
    dotted? b (List.replicate n '.' ++ '-' :: (arrow.toText ++ tail)) = some (linkForm? b .dotted arrow n none, tail) := by
  simp only [dotted?, dots?_replicate hn, Option.map_some, arrowEnd_toText _ htail]

theorem solid?_strokes (b : Bool) (stroke : Stroke) (arrow : Arrow) {d : Char} (hd : d = '-' ∨ d = '=') {n : Nat}
    (hn : 2 ≤ n) {tail : Text} (htail : Scan.startsWith afterOperator tail = true) :
    solid? b stroke d (List.replicate n d ++ (arrow.toText ++ tail))
      = some (linkForm? b stroke arrow (solidLength n arrow) none, tail) := by
  simp only [solid?, strokeRun?_replicate hn (startsWith_stroke htail hd), Option.map_some, arrowEnd_toText _ htail]

/-! ## Labels between pipes -/

theorem pipeLabel?_space {rest : Text} (hrest : Scan.startsWith Text.isMark rest = true)
    (hpipe : Scan.startsWith (· = '|') rest = false) : pipeLabel? (' ' :: rest) = none := by
  obtain ⟨c, r, rfl, _⟩ := Text.exists_cons_of_startsWith hrest
  rw [pipeLabel?, Scan.blanks_space, Scan.blanks_of_startsWith hrest]
  split
  · rename_i e
    rw [(List.cons.inj e).1] at hpipe
    exact absurd hpipe (by simp [Scan.startsWith])
  · rfl

theorem pipeLabel?_labelText {label : Text} (hl : '\n' ∉ label) (rest : Text) :
    pipeLabel? ('|' :: (labelText label ++ '|' :: rest)) = some (labelText label, rest) := by
  rw [pipeLabel?, Scan.blanks_of_startsWith (by simp [Scan.startsWith]; decide)]
  by_cases hp : isPlainLabel label = true
  · have hall := hp
    rw [isPlainLabel_eq hl, Bool.and_eq_true, Bool.and_eq_true] at hall
    have hs : Text.span (· ≠ '|') (label ++ '|' :: rest) = (label, '|' :: rest) := by
      refine span_of_all (List.all_eq_true.2 fun c hc => ?_) (by simp [Scan.startsWith])
      have := List.all_eq_true.1 hall.1.2 c hc
      rw [decide_eq_true_eq]
      rintro rfl
      exact absurd this (by decide)
    simp only [labelText, if_pos hp, hs, quoted?_of_isPlainLabel hl hp]
  · simp only [labelText, if_neg hp, quoted?_quote]

theorem nonemptyLabel_labelText {label : Text} (hl : '\n' ∉ label) (hn : label ≠ []) :
    nonemptyLabel (labelText label) = some (settledLabel label) := by
  rw [nonemptyLabel, ← settledLabel, Text.present, Option.filter_some,
    if_pos (by simpa using settledLabel_ne_nil hl hn)]

/-! ## Whole operators -/

/-- a solid run of strokes and what ends it: at least two strokes, and no white space after the second -/
theorem solid_cons {d : Char} (hd : isBlank d = false) (arrow : Arrow) {n : Nat} {length : Int} (h : 1 ≤ length)
    (hn : n = (length + if arrow = .open then 2 else 1).toNat) (tail : Text) :
    ∃ c r, List.replicate n d ++ (arrow.toText ++ tail) = d :: d :: c :: r ∧ isBlank c = false := by
  obtain ⟨m, rfl⟩ : ∃ m, n = m + 2 := ⟨n - 2, by split at hn <;> omega⟩
  cases m with
  | zero =>
    cases arrow with
    | «open» =>
      simp only [if_true] at hn
      omega
    | point => exact ⟨'>', tail, rfl, by decide⟩
    | circle => exact ⟨'o', tail, rfl, by decide⟩
    | cross => exact ⟨'x', tail, rfl, by decide⟩
  | succ m => exact ⟨d, _, by simp only [List.replicate_succ, List.cons_append]; rfl, hd⟩

section

variable {f : LinkForm} (h : f.IsPlain)
include h

/-- an operator begins with the two characters of its stroke, and no white space follows them -/
theorem strokes_cons (tail : Text) :
    ∃ a b c r, f.strokes ++ (f.arrow.toText ++ tail) = a :: b :: c :: r ∧ [a, b] = openingStroke f.stroke ∧
      isBlank c = false := by
  have hl := h.length
  cases hs : f.stroke with
  | dotted =>
    obtain ⟨n, hn⟩ : ∃ n, f.length.toNat = n + 1 := ⟨f.length.toNat - 1, by omega⟩
    rw [LinkForm.strokes, hs, hn]
    cases n with
    | zero => exact ⟨'-', '.', '-', _, rfl, rfl, by decide⟩
    | succ n => exact ⟨'-', '.', '.', _, by simp only [List.replicate_succ, List.cons_append]; rfl, rfl, by decide⟩
  | normal =>
    obtain ⟨c, r, e, hc⟩ := solid_cons (d := '-') (by decide) f.arrow hl rfl tail
    exact ⟨'-', '-', c, r, by rw [LinkForm.strokes, hs]; exact e, rfl, hc⟩
  | thick =>
    obtain ⟨c, r, e, hc⟩ := solid_cons (d := '=') (by decide) f.arrow hl rfl tail
    exact ⟨'=', '=', c, r, by rw [LinkForm.strokes, hs]; exact e, rfl, hc⟩

theorem openingHead_operator (tail : Text) :
    openingHead (f.operator ++ tail) = (f.bidirectional, f.strokes ++ (f.arrow.toText ++ tail)) := by
  rw [operator_eq, List.append_assoc, List.append_assoc]
  cases hb : f.bidirectional with
  | true => rfl
  | false =>
    obtain ⟨a, b, c, r, e, ho, _⟩ := strokes_cons h tail
    simp only [Bool.false_eq_true, if_false, List.nil_append]
    rw [e]
    have ha : a ≠ '<' := by
      rintro rfl
      cases hs : f.stroke <;> simp [hs, openingStroke] at ho
    unfold openingHead
    split
    · rename_i e'
      exact absurd (List.cons.inj e').1 ha
    · rfl

/-- no text stands inside a written operator, since no white space follows its opening half -/
theorem textOperator?_operator (tail : Text) (stroke : Stroke) : textOperator? (f.operator ++ tail) stroke = none := by
  obtain ⟨a, b, c, r, e, ho, hc⟩ := strokes_cons h tail
  have hnone : textAndClosing? f.bidirectional stroke (c :: r) = none := by
    rw [textAndClosing?, Scan.longest, if_neg (by simp [hc])]
    rfl
  have hdrop : (Text.dropPrefix? (openingStroke stroke) (a :: b :: c :: r)).bind
      (textAndClosing? f.bidirectional stroke) = none := by
    cases hd : Text.dropPrefix? (openingStroke stroke) (a :: b :: c :: r) with
    | none => rfl
    | some t =>
      have e' := Text.dropPrefix?_eq_some_iff.1 hd
      have ht : t = c :: r := by
        cases stroke <;> exact (List.cons.inj (List.cons.inj e').2).2.symm
      rw [ht]
      exact hnone
  simp only [textOperator?, openingHead_operator h, e, hdrop]

/-- the closing half of an operator shows all of the link but its label -/
theorem closing?_closingStrokes {tail : Text} (htail : Scan.startsWith afterOperator tail = true) :
    closing? f.bidirectional f.stroke (f.closingStrokes ++ (f.arrow.toText ++ tail))
      = some (some { f with label := none }, tail) := by
  have hform := linkForm?_of_isPlain h
  have hl := h.length
  have hstrokes : 2 ≤ (f.length + if f.arrow = .open then 2 else 1).toNat := by split <;> omega
  cases hs : f.stroke with
  | dotted =>
    have hd := dotted?_strokes f.bidirectional f.arrow (n := f.length.toNat) (by omega) htail
    rw [show ((f.length.toNat : Nat) : Int) = f.length by omega, ← hs, hform] at hd
    simp only [closing?, LinkForm.closingStrokes, hs, List.append_assoc, List.cons_append, List.nil_append, hd]
  | thick =>
    have hd := solid?_strokes f.bidirectional .thick f.arrow (d := '=') (Or.inr rfl) hstrokes htail
    rw [solidLength_toNat hl, ← hs, hform, hs] at hd
    simp only [closing?, LinkForm.closingStrokes, LinkForm.strokes, hs, hd]
  | normal =>
    have hd := solid?_strokes f.bidirectional .normal f.arrow (d := '-') (Or.inl rfl) hstrokes htail
    rw [solidLength_toNat hl, ← hs, hform, hs] at hd
    simp only [closing?, LinkForm.closingStrokes, LinkForm.strokes, hs, hd]

/-- **operators read back** -/
theorem operator?_operator {tail : Text} (htail : Scan.startsWith afterOperator tail = true) :
    operator? (f.operator ++ tail) = some ({ f with label := none }, tail) := by
  have hclosing := closing?_closingStrokes h htail
  have hl := h.length
  cases hs : f.stroke with
  | dotted =>
    simp only [closing?, LinkForm.closingStrokes, hs, List.append_assoc, List.cons_append, List.nil_append] at hclosing
    simp only [operator?, openingHead_operator h, LinkForm.strokes, hs, List.cons_append, List.append_assoc,
      List.nil_append, hclosing]
    simp
  | thick =>
    obtain ⟨c, r, e, _⟩ := solid_cons (d := '=') (by decide) f.arrow hl rfl tail
    simp only [closing?, LinkForm.closingStrokes, LinkForm.strokes, hs, e] at hclosing
    simp only [operator?, openingHead_operator h, LinkForm.strokes, hs, e, hclosing]
    simp
  | normal =>
    obtain ⟨c, r, e, _⟩ := solid_cons (d := '-') (by decide) f.arrow hl rfl tail
    simp only [closing?, LinkForm.closingStrokes, LinkForm.strokes, hs, e] at hclosing
    have hdotted : dotted? f.bidirectional ('-' :: c :: r) = none := rfl
    have hthick : solid? f.bidirectional .thick '=' ('-' :: '-' :: c :: r) = none := rfl
    simp only [operator?, openingHead_operator h, LinkForm.strokes, hs, e, hdotted, hthick, hclosing]
    simp

theorem findSome?_textOperator? (tail : Text) :
    [Stroke.normal, .thick, .dotted].findSome? (textOperator? (f.operator ++ tail)) = none := by
  simp [List.findSome?, textOperator?_operator h]

/-- an operator and a label between pipes -/
theorem link?_operator_label {label : Text} (hl : '\n' ∉ label) (hne : label ≠ []) (rest : Text) :
    link? (f.operator ++ '|' :: (labelText label ++ '|' :: rest))
      = some ({ f with label := some (settledLabel label) }, rest) := by
  have hafter : Scan.startsWith afterOperator ('|' :: (labelText label ++ '|' :: rest)) = true := rfl
  simp only [link?, findSome?_textOperator? h, operator?_operator h hafter, Option.map_some, pipeLabel?_labelText hl,
    nonemptyLabel_labelText hl hne]
  simp

/-- **a link reads back from its operator and label** -/
theorem link?_toText {rest : Text} (hrest : Scan.startsWith Text.isMark rest = true)
    (hpipe : Scan.startsWith (· = '|') rest = false) :
    link? (f.toText ++ ' ' :: rest) = some (settledForm f, ' ' :: rest) := by
  cases hp : Text.present f.label with
  | none =>
    have hop := operator?_operator h (rfl : Scan.startsWith afterOperator (' ' :: rest) = true)
    simp only [link?, LinkForm.toText, hp, List.append_nil, findSome?_textOperator? h, hop, Option.map_some,
      pipeLabel?_space hrest hpipe]
    simp [settledForm, hp]
  | some label =>
    obtain ⟨hlabel, hne⟩ := Option.filter_eq_some_iff.1 hp
    have ht : f.toText ++ ' ' :: rest = f.operator ++ '|' :: (labelText label ++ '|' :: ' ' :: rest) := by
      simp [LinkForm.toText, hp]
    rw [ht, link?_operator_label h (h.label label hlabel) (by simpa using hne), settledForm, hp, Option.map_some]

end

end DiagramText.Flowchart

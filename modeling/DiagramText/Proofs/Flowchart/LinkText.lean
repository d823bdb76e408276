/-
The two notations of a link's label. A label stands between pipes after the operator (`LinkForm.pipeNotation`) or
inside the operator, between its opening and its closing half (`LinkForm.textNotation`). The text inside an operator
ends at the first white space that a closing half follows, so a label with no stroke character after white space is
taken whole (`textAndClosing?_append`), and both notations read as one link (`link?_textNotation`).
-/
import DiagramText.Proofs.Flowchart.Operator

namespace DiagramText.Flowchart

/-! ## The notations -/

/-- a link with its label inside the operator -/
def LinkForm.textNotation (f : LinkForm) (label : Text) : Text :=
  (if f.bidirectional then ['<'] else []) ++
    (openingStroke f.stroke ++ ' ' :: (label ++ ' ' :: (f.closingStrokes ++ f.arrow.toText)))

/-- a link with its label between pipes after the operator -/
def LinkForm.pipeNotation (f : LinkForm) (label : Text) : Text := f.operator ++ '|' :: (label ++ ['|'])

/-- a character that a closing half may start with -/
def isStroke (c : Char) : Bool := c ∈ ['-', '=', '.']

theorem isMark_of_isStroke {c : Char} (h : isStroke c = true) : Text.isMark c = true := by
  simp only [isStroke, List.mem_cons, List.not_mem_nil, or_false, decide_eq_true_eq] at h
  rcases h with rfl | rfl | rfl <;> rfl

/-- no white space is followed by a stroke character -/
def NoStrokeAfterBlank (t : Text) : Prop := t.IsChain fun c d => isBlank c = true → isStroke d = false

instance (t : Text) : Decidable (NoStrokeAfterBlank t) := inferInstanceAs (Decidable (List.IsChain _ t))

theorem ne_nil_of_isPlainLabel {label : Text} (h : isPlainLabel label = true) : label ≠ [] := by
  rintro rfl
  exact absurd h (by decide)

/-- a link whose label needs no quotes is printed in pipe notation -/
theorem toText_eq_pipeNotation {f : LinkForm} {label : Text} (hf : f.label = some label)
    (hplain : isPlainLabel label = true) : f.toText = f.pipeNotation label := by
  have hpresent : Text.present f.label = some label := by
    rw [hf, Text.present, Option.filter_some, if_pos (by simpa using ne_nil_of_isPlainLabel hplain)]
  simp [LinkForm.toText, LinkForm.pipeNotation, hpresent, labelText, hplain]

/-! ## Where the text ends -/

/-- every closing half starts with a stroke character -/
theorem closing?_eq_none {t : Text} (b : Bool) (s : Stroke) (h : Scan.startsWith isStroke t = false) :
    closing? b s t = none := by
  cases t with
  | nil => cases s <;> rfl
  | cons c r =>
    have hc : c ∉ ['-', '=', '.'] := by simpa [Scan.startsWith, isStroke] using h
    simp only [List.mem_cons, List.not_mem_nil, or_false, not_or] at hc
    obtain ⟨hhyphen, hequals, hdot⟩ := hc
    cases s <;> simp [closing?, solid?, strokeRun?, dotted?, dots?, Text.span, hhyphen, hequals, hdot]

/-- where such a text goes on with white space, what comes after the white space is no stroke character -/
theorem startsWith_blanks_append {c : Char} {r : Text} (h : NoStrokeAfterBlank (c :: r)) (hc : isBlank c = true)
    (hlast : Text.endsWith Text.isMark (c :: r) = true) (s : Text) :
    Scan.startsWith isStroke (Scan.blanks (c :: r ++ s)) = false := by
  induction r generalizing c with
  | nil => simp [Text.endsWith, Text.isMark, hc] at hlast
  | cons d r ih =>
    obtain ⟨hd, hr⟩ := List.isChain_cons_cons.1 h
    have hlast' : Text.endsWith Text.isMark (d :: r) = true :=
      Text.endsWith_of_endsWith_append (s := [c]) hlast (List.cons_ne_nil d r)
    have hskip : Scan.blanks (c :: d :: r ++ s) = Scan.blanks (d :: r ++ s) := List.dropWhile_cons_of_pos hc
    rw [hskip]
    by_cases hb : isBlank d = true
    · exact ih hr hb hlast'
    · have hmark : Scan.startsWith Text.isMark (d :: r ++ s) = true := by simpa [Scan.startsWith, Text.isMark] using hb
      rw [Scan.blanks_of_startsWith hmark]
      exact hd hc

/-- **the text is taken whole**: no closing half is found before its end -/
theorem textAndClosing?_append {text close rest : Text} {b : Bool} {s : Stroke} {form : Option LinkForm}
    (htight : Text.IsTight text) (hline : '\n' ∉ text) (hstroke : NoStrokeAfterBlank text)
    (hclose : Scan.startsWith isStroke close = true) (hform : closing? b s close = some (form, rest)) :
    textAndClosing? b s (' ' :: (text ++ ' ' :: close)) = some (text, form, rest) := by
  have hmark : Scan.startsWith Text.isMark close = true := Text.startsWith_mono (fun _ => isMark_of_isStroke) hclose
  have hne : text ≠ [] := by
    rintro rfl
    exact absurd htight.first nofun
  -- the white space after the opening half ends where the text starts
  have hstart : Scan.startsWith isBlank (text ++ ' ' :: close) = false := by
    obtain ⟨c, r, rfl, hc⟩ := Text.exists_cons_of_startsWith htight.first
    simpa [Scan.startsWith, Text.isMark] using hc
  have hspace : [' '].all isBlank = true := by decide
  refine Scan.longest_append hspace hstart ?_
  rw [if_neg (by decide)]
  refine Scan.shortest_append (' ' :: close) ?_ ?_ ?_
  · rw [List.all_eq_true]
    intro c hc
    simp only [Scan.notLineFeed, decide_eq_true_eq]
    rintro rfl
    exact hline hc
  · -- a cut inside the text is not at white space, or no closing half comes after the white space
    intro pre c suf e
    have hsuf : NoStrokeAfterBlank (c :: suf) := List.IsChain.right_of_append (e ▸ hstroke)
    have hlast : Text.endsWith Text.isMark (c :: suf) = true :=
      Text.endsWith_of_endsWith_append (e ▸ htight.last) (List.cons_ne_nil c suf)
    have hnone : (Scan.blanks? (c :: suf ++ ' ' :: close)).bind (closing? b s) = none := by
      cases hb : Scan.blanks? (c :: suf ++ ' ' :: close) with
      | none => rfl
      | some r =>
        obtain ⟨hc, rfl⟩ := Scan.blanks?_eq_some hb
        exact closing?_eq_none b s (startsWith_blanks_append hsuf hc hlast _)
    simp only [hnone, Option.map_none, ite_self]
  · rw [if_neg hne, Scan.blanks?_space hmark, Option.bind_some, hform, Option.map_some]

/-! ## Both notations -/

theorem openingHead_textNotation (f : LinkForm) (label tail : Text) :
    openingHead (f.textNotation label ++ tail)
      = (f.bidirectional, openingStroke f.stroke
          ++ ' ' :: (label ++ ' ' :: (f.closingStrokes ++ (f.arrow.toText ++ tail)))) := by
  rw [LinkForm.textNotation]
  cases f.bidirectional with
  | true => simp [openingHead]
  | false => cases f.stroke <;> simp [openingHead, openingStroke]

section

variable {f : LinkForm} (h : f.IsPlain)
include h

theorem startsWith_closingStrokes (tail : Text) : Scan.startsWith isStroke (f.closingStrokes ++ tail) = true := by
  have hl := h.length
  obtain ⟨n, hn⟩ : ∃ n, f.length.toNat = n + 1 := ⟨f.length.toNat - 1, by omega⟩
  obtain ⟨m, hm⟩ : ∃ m, (f.length + if f.arrow = .open then 2 else 1).toNat = m + 1 :=
    ⟨(f.length + if f.arrow = .open then 2 else 1).toNat - 1, by split <;> omega⟩
  cases hs : f.stroke <;> simp [LinkForm.closingStrokes, LinkForm.strokes, hs, hn, hm, List.replicate_succ,
    Scan.startsWith, isStroke]

variable {label rest : Text} (hlabel : f.label = some label) (hplain : isPlainLabel label = true)
  (hrest : Scan.startsWith isBlank rest = true)
include hlabel hplain hrest

/-- of the three readers of text inside an operator, the one of the link's stroke finds the link -/
theorem textOperator?_textNotation (hstroke : NoStrokeAfterBlank label) (s : Stroke) :
    textOperator? (f.textNotation label ++ rest) s = if s = f.stroke then some (f, rest) else none := by
  have hline := h.label label hlabel
  have hafter : Scan.startsWith afterOperator rest = true :=
    Text.startsWith_mono (fun c hc => by simp [afterOperator, hc]) hrest
  have htext := textAndClosing?_append (isTight_of_isPlainLabel hline hplain) hline hstroke
    (startsWith_closingStrokes h _) (closing?_closingStrokes h hafter)
  have htoken : nonemptyLabel label = some label := by
    have := nonemptyLabel_labelText hline (ne_nil_of_isPlainLabel hplain)
    rwa [labelText, if_pos hplain, settledLabel_of_isPlainLabel hline hplain] at this
  rw [textOperator?, openingHead_textNotation]
  by_cases hs : s = f.stroke
  · simp only [hs, if_true, dropPrefix?_append, Option.bind_some, htext, htoken, ← hlabel]
  · have hother : ∀ t, Text.dropPrefix? (openingStroke s) (openingStroke f.stroke ++ t) = none := by
      intro t
      cases s <;> cases hf : f.stroke <;> first | rfl | exact absurd hf.symm hs
    simp only [if_neg hs, hother, Option.bind_none]

/-- **the two notations of a label agree**: text inside an operator reads exactly as the same label between pipes does,
and either way the link is read with every field as it was -/
theorem link?_textNotation (hstroke : NoStrokeAfterBlank label) :
    link? (f.textNotation label ++ rest) = link? (f.pipeNotation label ++ rest) ∧
      link? (f.pipeNotation label ++ rest) = some (f, rest) := by
  have hline := h.label label hlabel
  have htext : link? (f.textNotation label ++ rest) = some (f, rest) := by
    have hread := textOperator?_textNotation h hlabel hplain hrest hstroke
    rw [link?]
    cases hs : f.stroke <;> simp [List.findSome?, hread, hs]
  have hpipe : link? (f.pipeNotation label ++ rest) = some (f, rest) := by
    have := link?_operator_label h hline (ne_nil_of_isPlainLabel hplain) rest
    rw [labelText, if_pos hplain, settledLabel_of_isPlainLabel hline hplain, ← hlabel] at this
    simpa [LinkForm.pipeNotation] using this
  exact ⟨htext.trans hpipe.symm, hpipe⟩

end

/-- two heads, a dotted operator of three dots, hyphens and a full stop inside the words of the label, and a tab after
the operator -/
theorem link?_textNotation_dotted :
    link? "<-. re-read v1.2 ...->\tnext" = link? "<-...->|re-read v1.2|\tnext" ∧
      link? "<-...->|re-read v1.2|\tnext"
        = some ((⟨.dotted, .point, 3, true, some "re-read v1.2"⟩ : LinkForm), ("\tnext" : Text)) :=
  link?_textNotation (f := ⟨.dotted, .point, 3, true, some "re-read v1.2"⟩)
    ⟨by decide, by decide, fun _ hl => Option.some.inj hl ▸ by decide⟩ rfl (by decide)
    (by decide : Scan.startsWith isBlank "\tnext" = true) (by decide)

/-- with a stroke after white space the text ends early: what stands there closes no operator, and no link is read -/
example : link? "-- a --b --> next" = none ∧
    link? "-->|a --b| next" = some ((⟨.normal, .point, 1, false, some "a --b"⟩ : LinkForm), (" next" : Text)) := by decide

end DiagramText.Flowchart

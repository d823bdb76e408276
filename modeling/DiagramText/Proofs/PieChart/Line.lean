/-
The lines of a pie chart. `IsBlankLine`, `IsStatementLine` and `IsHeaderLine` are its grammar, line by line. What a rule of the
reader takes is a whole line of its kind, and every line of its kind is taken, whatever lines follow (`takesLines_blank?`,
`takesLines_statement?`, `takesLines_header?`): no choice that is made early hides another reading of a line.
-/
import DiagramText.PieChart
import DiagramText.Proofs.Number.Numeral
import DiagramText.Proofs.Text.LetterCase
import DiagramText.Proofs.Text.Scan

namespace DiagramText.PieChart

open DiagramText.Text

/-! ## The grammar of lines -/

/-- a keyword in any letter case -/
def Spells (keyword w : Text) : Prop := w.map foldLetter = keyword.map foldLetter

/-- the end of a line: spaces, tabs and at most one semicolon -/
inductive IsEnding : Text → Prop where
  | padding {a : Text} (ha : a.all isPadding = true) : IsEnding a
  | semicolon {a b : Text} (ha : a.all isPadding = true) (hb : b.all isPadding = true) : IsEnding (a ++ ';' :: b)

/-- a line without meaning: nothing, or a comment up to its end -/
inductive IsBlankLine : Text → Prop where
  | ending {e : Text} (he : IsEnding e) : IsBlankLine e
  | comment {a : Text} (ha : a.all isPadding = true) (v : Text) : IsBlankLine (a ++ ("%%" ++ v))

/-- a keyword, white space and a title -/
inductive IsTitle : Text → Prop where
  | mk {k a : Text} (hk : Spells "title" k) (ha : a.all isPadding = true) (hne : a ≠ []) (v : Text) : IsTitle (k ++ (a ++ v))

/-- what a line can say: an accessibility text, a title, or a label with a number -/
inductive IsStatement : Text → Prop where
  | accessibility {keyword a : Text} (hk : keyword = "accTitle" ∨ keyword = "accDescr") (ha : a.all isPadding = true) (v : Text) :
    IsStatement (keyword ++ (a ++ ':' :: v))
  | title {t : Text} (ht : IsTitle t) : IsStatement t
  | slice {label a b n : Text} (hl : '"' ∉ label) (ha : a.all isPadding = true) (hb : b.all isPadding = true)
    (hn : Decimal.IsNumeral n) : IsStatement ('"' :: (label ++ '"' :: (a ++ ':' :: (b ++ n))))

/-- a line that says something -/
inductive IsStatementLine : Text → Prop where
  | mk {a s e : Text} (ha : a.all isPadding = true) (hs : IsStatement s) (he : IsEnding e) : IsStatementLine (a ++ (s ++ e))

/-- the keyword that shows the data, after white space, or nothing -/
inductive IsData : Text → Prop where
  | none : IsData []
  | shown {a k : Text} (ha : a.all isPadding = true) (hne : a ≠ []) (hk : Spells "showData" k) : IsData (a ++ k)

/-- a title after white space, or nothing -/
inductive IsHeading : Text → Prop where
  | none : IsHeading []
  | title {a t : Text} (ha : a.all isPadding = true) (hne : a ≠ []) (ht : IsTitle t) : IsHeading (a ++ t)

/-- the line that begins a chart -/
inductive IsHeaderLine : Text → Prop where
  | mk {a k d h e : Text} (ha : a.all isPadding = true) (hk : Spells "pie" k) (hd : IsData d) (hh : IsHeading h) (he : IsEnding e) :
    IsHeaderLine (a ++ (k ++ (d ++ (h ++ e))))

/-! ## Where a line ends -/

variable {a t r s l e : Text}

theorem lineFeed_not_mem_padding (h : a.all isPadding = true) : '\n' ∉ a := fun hm =>
  absurd (List.all_eq_true.1 h _ hm) (by decide)

/-- what is taken before a line feed belongs to the line that it ends -/
theorem exists_of_append_eq {b : Text} (ha : '\n' ∉ a) (h : a ++ b = l ++ '\n' :: r) :
    ∃ m, l = a ++ m ∧ b = m ++ '\n' :: r := by
  rcases List.append_eq_append_iff.1 h with ⟨m, hl, hb⟩ | ⟨m, rfl, hr⟩
  · exact ⟨m, hl, hb⟩
  · cases m with
    | nil => exact ⟨[], by simp, hr.symm⟩
    | cons c m =>
      obtain ⟨rfl, -⟩ := List.cons.inj hr
      exact absurd (List.mem_append_right l List.mem_cons_self) ha

theorem line_unique {l' r' : Text} (hl : '\n' ∉ l) (hl' : '\n' ∉ l') (h : l ++ '\n' :: r = l' ++ '\n' :: r') :
    l = l' ∧ r = r' := by
  obtain ⟨m, hm, hr⟩ := exists_of_append_eq hl h
  cases m with
  | nil => exact ⟨by rw [hm, List.append_nil], (List.cons.inj hr).2⟩
  | cons c m =>
    obtain ⟨rfl, -⟩ := List.cons.inj hr
    exact absurd (hm ▸ List.mem_append_right l List.mem_cons_self) hl'

/-- a text whose first character is neither a space nor a tab -/
def IsUnpadded (t : Text) : Prop := Scan.startsWith isPadding t = false

theorem isUnpadded_of_startsWith (h : Scan.startsWith isMark t = true) : IsUnpadded t := by
  obtain ⟨c, r, rfl, hc⟩ := exists_cons_of_startsWith h
  refine Bool.or_eq_false_iff.2 ⟨decide_eq_false ?_, decide_eq_false ?_⟩ <;>
    · rintro rfl
      exact absurd hc (by decide)

theorem exists_unpad (t : Text) : ∃ a, a.all isPadding = true ∧ t = a ++ unpad t ∧ IsUnpadded (unpad t) := by
  refine ⟨t.takeWhile isPadding, List.all_takeWhile, (span_append isPadding t).symm, ?_⟩
  have hfirst := List.head?_dropWhile_not isPadding t
  rw [IsUnpadded, unpad]
  cases h : t.dropWhile isPadding with
  | nil => rfl
  | cons c r =>
    rw [h] at hfirst
    simpa [Scan.startsWith] using hfirst

theorem unpad_append (ha : a.all isPadding = true) (ht : IsUnpadded t) : unpad (a ++ t) = t :=
  congrArg Prod.snd (span_of_all ha ht)

theorem unpad_unpad (t : Text) : unpad (unpad t) = unpad t := by
  obtain ⟨a, -, -, hstop⟩ := exists_unpad t
  exact unpad_append (a := []) rfl hstop

theorem unpad?_append (ha : a.all isPadding = true) (hne : a ≠ []) (ht : IsUnpadded t) : unpad? (a ++ t) = some t := by
  obtain ⟨c, a, rfl⟩ := List.exists_cons_of_ne_nil hne
  rw [List.all_cons, Bool.and_eq_true] at ha
  rw [List.cons_append, unpad?, if_pos ha.1, unpad_append ha.2 ht]

theorem exists_of_unpad? (h : unpad? t = some r) : ∃ a, a.all isPadding = true ∧ a ≠ [] ∧ t = a ++ r := by
  cases t with
  | nil => exact absurd h (by simp [unpad?])
  | cons c s =>
    rw [unpad?, Option.ite_none_right_eq_some, Option.some.injEq] at h
    obtain ⟨a, ha, hs, -⟩ := exists_unpad s
    exact ⟨c :: a, by rw [List.all_cons, h.1, ha]; rfl, List.cons_ne_nil c a, by rw [← h.2, List.cons_append, ← hs]⟩

/-- **where a line may end it does** -/
theorem lineEnd?_append (he : IsEnding e) (r : Text) : lineEnd? (e ++ '\n' :: r) = some r := by
  cases he with
  | padding ha =>
    have hstop : IsUnpadded ('\n' :: r) := rfl
    have hempty : unpad ('\n' :: r) = '\n' :: r := rfl
    rw [lineEnd?, unpad_append ha hstop]
    change dropPrefix? "\n" (unpad ('\n' :: r)) = some r
    rw [hempty]
    rfl
  | @semicolon a b ha hb =>
    have hstop : IsUnpadded (';' :: (b ++ '\n' :: r)) := rfl
    rw [List.append_assoc, List.cons_append, lineEnd?, unpad_append ha hstop]
    change dropPrefix? "\n" (unpad (b ++ '\n' :: r)) = some r
    rw [unpad_append hb (rfl : IsUnpadded ('\n' :: r))]
    rfl

theorem lineEnd?_lineFeed (r : Text) : lineEnd? ('\n' :: r) = some r := lineEnd?_append (e := []) (.padding rfl) r

/-- and nowhere else -/
theorem exists_of_lineEnd? (h : lineEnd? t = some r) : ∃ e, IsEnding e ∧ '\n' ∉ e ∧ t = e ++ '\n' :: r := by
  obtain ⟨a, ha, ht, -⟩ := exists_unpad t
  rw [lineEnd?] at h
  generalize unpad t = u at h ht
  subst ht
  have hlast : ∀ {v : Text}, dropPrefix? "\n" (unpad v) = some r → ∃ b, b.all isPadding = true ∧ v = b ++ '\n' :: r := by
    intro v hv
    obtain ⟨b, hb, hsplit, -⟩ := exists_unpad v
    exact ⟨b, hb, by rw [hsplit, dropPrefix?_eq_some_iff.1 hv]; rfl⟩
  cases hsemi : dropPrefix? ";" u with
  | none =>
    rw [hsemi] at h
    obtain ⟨b, hb, rfl⟩ := hlast h
    have hab : (a ++ b).all isPadding = true := by rw [List.all_append, ha, hb]; rfl
    exact ⟨a ++ b, .padding hab, lineFeed_not_mem_padding hab, (List.append_assoc a b _).symm⟩
  | some v =>
    rw [hsemi] at h
    obtain ⟨b, hb, rfl⟩ := hlast h
    refine ⟨a ++ ';' :: b, .semicolon ha hb, ?_, ?_⟩
    · simp [lineFeed_not_mem_padding ha, lineFeed_not_mem_padding hb]
    · rw [dropPrefix?_eq_some_iff.1 hsemi, List.append_assoc]
      rfl

theorem IsEnding.all (he : IsEnding e) : e.all (fun c => isPadding c || c = ';') = true := by
  have hpad : ∀ {a : Text}, a.all isPadding = true → a.all (fun c => isPadding c || c = ';') = true := fun ha =>
    List.all_eq_true.2 fun c hc => by rw [List.all_eq_true.1 ha c hc, Bool.true_or]
  cases he with
  | padding ha => exact hpad ha
  | semicolon ha hb =>
    rw [List.all_append, List.all_cons, hpad ha, hpad hb]
    rfl

/-- an ending starts with a character that belongs to it -/
theorem IsEnding.startsWith (he : IsEnding e) (r : Text) :
    Scan.startsWith (fun c => isPadding c || c = ';' || c = '\n') (e ++ '\n' :: r) = true := by
  by_cases hne : e = []
  · rw [hne]
    rfl
  · refine startsWith_append _ (startsWith_mono (fun c hc => ?_) (startsWith_of_all hne he.all))
    rw [hc, Bool.true_or]

/-- what ends with neither white space nor a semicolon holds no ending at its end -/
theorem IsEnding.eq_nil (he : IsEnding e) (h : endsWith isLineEnd (t ++ e) = true) : e = [] := by
  rcases List.eq_nil_or_concat' e with rfl | ⟨s, c, rfl⟩
  · rfl
  · have hc := List.all_eq_true.1 he.all c (by simp)
    rw [← List.append_assoc, endsWith, List.getLast?_concat, Option.any_some] at h
    simp only [isPadding, Bool.or_eq_true, decide_eq_true_eq] at hc
    rcases hc with (rfl | rfl) | rfl <;> exact absurd h (by decide)

/-! ## Remarks -/

theorem notLineFeed_of_not_mem (h : '\n' ∉ t) : t.all Scan.notLineFeed = true := by
  refine List.all_eq_true.2 fun c hc => ?_
  rw [Scan.notLineFeed, decide_eq_true_eq]
  rintro rfl
  exact h hc

theorem lineFeed_not_mem_of_all_notLineFeed (h : t.all Scan.notLineFeed = true) : '\n' ∉ t := fun hm =>
  absurd (List.all_eq_true.1 h _ hm) (by decide)

/-- a remark leaves the end of its line -/
theorem exists_of_remark? {v : Text} (h : remark? t = some (v, r)) :
    ∃ u, '\n' ∉ u ∧ t = u ++ r ∧ v = trim u := by
  obtain ⟨u, rest, ht, hu, hk⟩ := Scan.exists_of_shortest_all h
  rw [Option.ite_none_right_eq_some, Option.some.injEq, Prod.mk.injEq] at hk
  obtain ⟨-, rfl, rfl⟩ := hk
  exact ⟨u, lineFeed_not_mem_of_all_notLineFeed hu, ht, rfl⟩

/-- on every line there is a remark, and after it the line ends -/
theorem exists_remark? (ht : '\n' ∉ t) (r : Text) :
    ∃ v e, remark? (t ++ '\n' :: r) = some (v, e ++ '\n' :: r) ∧ IsEnding e := by
  have hsome : (remark? (t ++ '\n' :: r)).isSome = true :=
    Scan.shortest_isSome (notLineFeed_of_not_mem ht) (by rw [lineEnd?_lineFeed]; rfl)
  obtain ⟨⟨v, rest⟩, hv⟩ := Option.isSome_iff_exists.1 hsome
  obtain ⟨u, rest', hsplit, hu, hk⟩ := Scan.exists_of_shortest_all hv
  rw [Option.ite_none_right_eq_some, Option.some.injEq, Prod.mk.injEq] at hk
  obtain ⟨hend, -, rfl⟩ := hk
  obtain ⟨s, hs⟩ := Option.isSome_iff_exists.1 hend
  obtain ⟨e, he, hlf, rfl⟩ := exists_of_lineEnd? hs
  obtain ⟨m, hm, hrest⟩ := exists_of_append_eq (lineFeed_not_mem_of_all_notLineFeed hu) hsplit.symm
  obtain ⟨-, rfl⟩ := line_unique (fun hmem => ht (hm ▸ List.mem_append_right u hmem)) hlf hrest.symm
  exact ⟨v, e, hv, he⟩

/-- on every line there is a remark after white space too -/
theorem exists_remark?_unpad (ht : '\n' ∉ t) (r : Text) :
    ∃ v e, remark? (unpad (t ++ '\n' :: r)) = some (v, e ++ '\n' :: r) ∧ IsEnding e := by
  obtain ⟨a, ha, hsplit, -⟩ := exists_unpad (t ++ '\n' :: r)
  obtain ⟨u, hu, hunpad⟩ := exists_of_append_eq (lineFeed_not_mem_padding ha) hsplit.symm
  rw [hunpad]
  exact exists_remark? (fun hm => ht (hu ▸ List.mem_append_right a hm)) r

/-! ## Rules that take whole lines -/

/-- what a rule takes is a whole line of a kind, and all lines of that kind are taken, whatever lines follow -/
structure TakesLines {α : Type} (rule : Text → Option (α × Text)) (kind : Text → Prop) : Prop where
  sound : ∀ {t r : Text} {x : α}, rule t = some (x, r) → ∃ l, kind l ∧ '\n' ∉ l ∧ t = l ++ '\n' :: r
  complete : ∀ {l : Text}, kind l → '\n' ∉ l → ∀ r, ∃ x, rule (l ++ '\n' :: r) = some (x, r)

namespace TakesLines

variable {α : Type} {rule rule' : Text → Option (α × Text)} {kind kind' : Text → Prop}

theorem eq_none (h : TakesLines rule kind) (hl : '\n' ∉ l) (hkind : ¬ kind l) (r : Text) : rule (l ++ '\n' :: r) = none := by
  rw [Option.eq_none_iff_forall_not_mem]
  rintro ⟨x, s⟩ hx
  obtain ⟨l', hl', hlf, hsplit⟩ := h.sound hx
  exact hkind ((line_unique hl hlf hsplit).1 ▸ hl')

theorem eq_none_nil (h : TakesLines rule kind) : rule [] = none := by
  rw [Option.eq_none_iff_forall_not_mem]
  rintro ⟨x, s⟩ hx
  obtain ⟨l, -, -, hsplit⟩ := h.sound hx
  exact absurd hsplit (by simp)

/-- a choice takes the lines of either kind: a line that the first rule takes is taken whole -/
theorem orElse (h : TakesLines rule kind) (h' : TakesLines rule' kind') :
    TakesLines (fun t => rule t <|> rule' t) fun l => kind l ∨ kind' l where
  sound hx := by
    rcases Scan.orElse_eq_some_iff.1 hx with hx | ⟨-, hx⟩
    · obtain ⟨l, hl, hlf, hsplit⟩ := h.sound hx
      exact ⟨l, Or.inl hl, hlf, hsplit⟩
    · obtain ⟨l, hl, hlf, hsplit⟩ := h'.sound hx
      exact ⟨l, Or.inr hl, hlf, hsplit⟩
  complete {l} hl hlf r := by
    cases hfirst : rule (l ++ '\n' :: r) with
    | some y =>
      obtain ⟨x, s⟩ := y
      obtain ⟨l', -, hlf', hsplit⟩ := h.sound hfirst
      obtain ⟨-, rfl⟩ := line_unique hlf hlf' hsplit
      exact ⟨x, rfl⟩
    | none =>
      rcases hl with hl | hl
      · obtain ⟨x, hx⟩ := h.complete hl hlf r
        exact absurd (hfirst.symm.trans hx) (by simp)
      · exact h'.complete hl hlf r

end TakesLines

/-! ## Lines without meaning -/

theorem lineEnd?_unpad (t : Text) : lineEnd? (unpad t) = lineEnd? t := by rw [lineEnd?, unpad_unpad, ← lineEnd?]

/-- a comment does not end its line at once -/
theorem comment?_eq_none (h : lineEnd? t = some r) : comment? (unpad t) = none := by
  rw [comment?, Option.map_eq_none_iff, Option.eq_none_iff_forall_not_mem]
  intro v hv
  rw [← lineEnd?_unpad, dropPrefix?_eq_some_iff.1 hv] at h
  exact absurd h (by simp [lineEnd?, unpad, isPadding, dropPrefix?])

theorem takesLines_blank? : TakesLines blank? IsBlankLine where
  sound {t r x} hx := by
    obtain ⟨s, hs, hxs⟩ := Option.map_eq_some_iff.1 hx
    obtain ⟨-, rfl⟩ := Prod.mk.inj hxs
    obtain ⟨a, ha, ht, -⟩ := exists_unpad t
    cases hcomment : comment? (unpad t) with
    | none =>
      rw [hcomment, Option.getD_none, lineEnd?_unpad] at hs
      obtain ⟨e, he, hlf, hsplit⟩ := exists_of_lineEnd? hs
      exact ⟨e, .ending he, hlf, hsplit⟩
    | some u =>
      -- the comment takes all characters of its line, the end of the line only its line feed
      rw [hcomment, Option.getD_some] at hs
      obtain ⟨v, hv, rfl⟩ := Option.map_eq_some_iff.1 hcomment
      obtain ⟨e, -, hlf, hsplit⟩ := exists_of_lineEnd? hs
      have hrun : v = v.takeWhile Scan.notLineFeed ++ (e ++ '\n' :: s) := by
        rw [← hsplit]
        exact (span_append Scan.notLineFeed v).symm
      refine ⟨a ++ ("%%" ++ (v.takeWhile Scan.notLineFeed ++ e)), .comment ha _, ?_, ?_⟩
      · have htake : '\n' ∉ v.takeWhile Scan.notLineFeed := lineFeed_not_mem_of_all_notLineFeed List.all_takeWhile
        simp [lineFeed_not_mem_padding ha, htake, hlf]
      · rw [ht, dropPrefix?_eq_some_iff.1 hv]
        conv_lhs => rw [hrun]
        simp
  complete {l} hl hlf r := by
    refine ⟨.blank, ?_⟩
    cases hl with
    | ending he =>
      have hend := lineEnd?_append he r
      rw [blank?, comment?_eq_none hend, Option.getD_none, lineEnd?_unpad, hend]
      rfl
    | comment ha v =>
      have hv : '\n' ∉ v := fun hm => hlf (by simp [hm])
      have hdrop : (v ++ '\n' :: r).dropWhile Scan.notLineFeed = '\n' :: r :=
        congrArg Prod.snd (span_of_all (notLineFeed_of_not_mem hv) (by rfl))
      rw [List.append_assoc, List.append_assoc, blank?, unpad_append ha (by rfl), comment?, dropPrefix?_append, Option.map_some,
        Option.getD_some, hdrop, lineEnd?_lineFeed]
      rfl

/-! ## Statements -/

theorem Spells.lineFeed {keyword w : Text} (h : Spells keyword w) (hk : '\n' ∉ keyword.map foldLetter) : '\n' ∉ w := by
  intro hm
  have hmem : foldLetter '\n' ∈ w.map foldLetter := List.mem_map_of_mem hm
  rw [h] at hmem
  exact hk hmem

theorem exists_of_accessible? {keyword v : Text} (hk : '\n' ∉ keyword) (h : accessible? keyword t = some (v, r)) :
    ∃ a u, a.all isPadding = true ∧ '\n' ∉ keyword ++ (a ++ ':' :: u) ∧ t = keyword ++ (a ++ ':' :: u) ++ r := by
  obtain ⟨t₁, ht₁, h⟩ := Option.bind_eq_some_iff.1 h
  obtain ⟨t₂, ht₂, h⟩ := Option.bind_eq_some_iff.1 h
  obtain ⟨a, ha, hsplit, -⟩ := exists_unpad t₁
  obtain ⟨b, hb, hsplit', -⟩ := exists_unpad t₂
  obtain ⟨u, hu, hunpad, -⟩ := exists_of_remark? h
  refine ⟨a, b ++ u, ha, ?_, ?_⟩
  · simp [hk, lineFeed_not_mem_padding ha, lineFeed_not_mem_padding hb, hu]
  · rw [dropPrefix?_eq_some_iff.1 ht₁, hsplit, dropPrefix?_eq_some_iff.1 ht₂, hsplit', hunpad]
    simp

theorem exists_of_title? {v : Text} (h : title? t = some (v, r)) : ∃ s, IsTitle s ∧ '\n' ∉ s ∧ t = s ++ r := by
  obtain ⟨t₂, hword, hremark⟩ := Option.bind_eq_some_iff.1 h
  obtain ⟨t₁, ht₁, ht₂⟩ := Option.bind_eq_some_iff.1 hword
  obtain ⟨k, rfl, hk⟩ := dropFolded?_eq_some ht₁
  obtain ⟨a, ha, hne, rfl⟩ := exists_of_unpad? ht₂
  obtain ⟨u, hu, rfl, -⟩ := exists_of_remark? hremark
  refine ⟨k ++ (a ++ u), .mk hk ha hne u, ?_, by simp⟩
  have hkeyword : '\n' ∉ k := Spells.lineFeed hk (by decide)
  simp [hkeyword, lineFeed_not_mem_padding ha, hu]

theorem exists_of_label? {token : Text} (h : label? t = some (token, r)) :
    ∃ label, '"' ∉ label ∧ '\n' ∉ label ∧ token = '"' :: (label ++ ['"']) ∧ t = token ++ r := by
  obtain ⟨hquoted, hline⟩ := Option.filter_eq_some_iff.1 h
  have happend := Scan.quoted?_append hquoted
  unfold Scan.quoted? at hquoted
  split at hquoted
  · split at hquoted
    · rename_i inner rest hspan
      obtain ⟨rfl, -⟩ := Prod.mk.inj (Option.some.inj hquoted)
      refine ⟨inner, fun hm => ?_, fun hm => ?_, rfl, happend⟩
      · exact absurd (List.all_eq_true.1 (all_of_span_eq hspan) _ hm) (by decide)
      · simp [hm] at hline
    · exact absurd hquoted (by simp)
  · exact absurd hquoted (by simp)

theorem exists_of_slice? {s : Slice} (h : slice? t = some (s, r)) : ∃ u, IsStatement u ∧ '\n' ∉ u ∧ t = u ++ r := by
  obtain ⟨⟨token, t₁⟩, hlabel, h⟩ := Option.bind_eq_some_iff.1 h
  obtain ⟨t₂, hcolon, h⟩ := Option.bind_eq_some_iff.1 h
  obtain ⟨⟨d, t₃⟩, hnumber, hs⟩ := Option.map_eq_some_iff.1 h
  obtain ⟨-, rfl⟩ := Prod.mk.inj hs
  obtain ⟨label, hquote, hlf, rfl, rfl⟩ := exists_of_label? hlabel
  obtain ⟨a, ha, hsplit, -⟩ := exists_unpad t₁
  obtain ⟨b, hb, hsplit', -⟩ := exists_unpad t₂
  obtain ⟨n, hn, hnumeral⟩ := Decimal.exists_of_read? hnumber
  refine ⟨'"' :: (label ++ '"' :: (a ++ ':' :: (b ++ n))), .slice hquote ha hb hnumeral, ?_, ?_⟩
  · simp [hlf, lineFeed_not_mem_padding ha, lineFeed_not_mem_padding hb, hnumeral.lineFeed]
  · rw [hsplit, dropPrefix?_eq_some_iff.1 hcolon, hsplit', hn]
    simp

/-- what a line says is a statement -/
theorem exists_of_said? {x : Line} (h : said? t = some (x, r)) : ∃ s, IsStatement s ∧ '\n' ∉ s ∧ t = s ++ r := by
  have haccessible : ∀ {keyword v : Text}, keyword = "accTitle" ∨ keyword = "accDescr" → accessible? keyword t = some (v, r) →
      ∃ s, IsStatement s ∧ '\n' ∉ s ∧ t = s ++ r := by
    intro keyword v hk hv
    obtain ⟨a, u, ha, hlf, ht⟩ := exists_of_accessible? (by rcases hk with rfl | rfl <;> decide) hv
    exact ⟨_, .accessibility hk ha u, hlf, ht⟩
  simp only [said?, Scan.orElse_eq_some_iff, Option.map_eq_some_iff] at h
  rcases h with ⟨⟨v, r'⟩, hv, hx⟩ | ⟨-, ⟨⟨v, r'⟩, hv, hx⟩ | ⟨-, ⟨⟨v, r'⟩, hv, hx⟩ | ⟨-, ⟨s, r'⟩, hs, hx⟩⟩⟩
  · obtain ⟨-, rfl⟩ := Prod.mk.inj hx
    exact haccessible (Or.inl rfl) hv
  · obtain ⟨-, rfl⟩ := Prod.mk.inj hx
    exact haccessible (Or.inr rfl) hv
  · obtain ⟨-, rfl⟩ := Prod.mk.inj hx
    obtain ⟨s, hs, hlf, ht⟩ := exists_of_title? hv
    exact ⟨s, .title hs, hlf, ht⟩
  · obtain ⟨-, rfl⟩ := Prod.mk.inj hx
    exact exists_of_slice? hs

/-! ## Keywords at the beginning of a line -/

/-- the first character of a keyword is taken for its first letter -/
theorem Spells.exists_cons {c : Char} {keyword w : Text} (h : Spells (c :: keyword) w) :
    ∃ d u, w = d :: u ∧ foldLetter d = foldLetter c := by
  cases w with
  | nil => exact absurd h (by simp [Spells])
  | cons d u => exact ⟨d, u, rfl, (List.cons.inj h).1⟩

theorem Spells.dropWord? {keyword w : Text} (h : Spells keyword w) (r : Text) : dropWord? keyword (w ++ r) = some r :=
  dropFolded?_append h r

/-- another letter begins another keyword -/
theorem dropWord?_eq_none {c d : Char} (h : foldLetter c ≠ foldLetter d) (keyword r : Text) :
    PieChart.dropWord? (c :: keyword) (d :: r) = none := if_neg h

/-- a letter of a keyword is no space and no tab -/
theorem isUnpadded_of_foldLetter {c d : Char} (h : foldLetter d = c) (hc : c ≠ ' ' ∧ c ≠ '\t') (r : Text) : IsUnpadded (d :: r) := by
  rw [IsUnpadded, Scan.startsWith, isPadding, Bool.or_eq_false_iff, decide_eq_false_iff_not, decide_eq_false_iff_not]
  constructor
  · rintro rfl
    exact hc.1 (by rw [← h]; decide)
  · rintro rfl
    exact hc.2 (by rw [← h]; decide)

theorem Spells.isUnpadded {c : Char} {keyword w : Text} (h : Spells (c :: keyword) w) (hc : foldLetter c ≠ ' ' ∧ foldLetter c ≠ '\t')
    (r : Text) : IsUnpadded (w ++ r) := by
  obtain ⟨d, u, rfl, hd⟩ := h.exists_cons
  exact isUnpadded_of_foldLetter hd hc (u ++ r)

theorem IsTitle.exists_cons (h : IsTitle t) : ∃ d u, t = d :: u ∧ foldLetter d = 't' := by
  obtain @⟨k, a, hk, -, -, v⟩ := h
  obtain ⟨d, u, rfl, hd⟩ := hk.exists_cons
  exact ⟨d, u ++ (a ++ v), rfl, hd⟩

theorem IsTitle.isUnpadded (h : IsTitle t) (r : Text) : IsUnpadded (t ++ r) := by
  obtain ⟨d, u, rfl, hd⟩ := h.exists_cons
  exact isUnpadded_of_foldLetter hd (by decide) (u ++ r)

theorem accessible?_eq_none {keyword : Text} (hk : keyword = "accTitle" ∨ keyword = "accDescr")
    (h : Scan.startsWith (· = 'a') t = false) : accessible? keyword t = none := by
  have hdrop : dropPrefix? keyword t = none := by
    rw [Option.eq_none_iff_forall_not_mem]
    intro r hr
    rw [dropPrefix?_eq_some_iff.1 hr] at h
    rcases hk with rfl | rfl <;> exact absurd h (by simp [Scan.startsWith])
  rw [accessible?, hdrop]
  rfl

/-! ## Statements are read -/

theorem exists_unpad?_append (ha : a.all isPadding = true) (hne : a ≠ []) (ht : '\n' ∉ t) (r : Text) :
    ∃ u, unpad? (a ++ (t ++ '\n' :: r)) = some (u ++ '\n' :: r) ∧ '\n' ∉ u := by
  obtain ⟨b, hb, hsplit, hstop⟩ := exists_unpad (t ++ '\n' :: r)
  obtain ⟨u, hu, hunpad⟩ := exists_of_append_eq (lineFeed_not_mem_padding hb) hsplit.symm
  rw [hunpad] at hstop
  refine ⟨u, ?_, fun hm => ht (hu ▸ List.mem_append_right b hm)⟩
  have hab : (a ++ b).all isPadding = true := by rw [List.all_append, ha, hb]; rfl
  have hunpad? := unpad?_append hab (by simp [hne]) hstop
  rwa [hu, List.append_assoc, ← List.append_assoc a]

theorem exists_accessible? (keyword : Text) {v : Text} (ha : a.all isPadding = true) (hv : '\n' ∉ v) (r : Text) :
    ∃ u e, accessible? keyword (keyword ++ (a ++ ':' :: (v ++ '\n' :: r))) = some (u, e ++ '\n' :: r) ∧ IsEnding e := by
  obtain ⟨u, e, hremark, he⟩ := exists_remark?_unpad hv r
  refine ⟨u, e, ?_, he⟩
  have hcolon : dropPrefix? ":" (':' :: (v ++ '\n' :: r)) = some (v ++ '\n' :: r) := rfl
  rw [accessible?, dropPrefix?_append, Option.bind_some, unpad_append ha (by rfl), hcolon, Option.bind_some, hremark]

theorem exists_title? {s : Text} (hs : IsTitle s) (hlf : '\n' ∉ s ++ t) (r : Text) :
    ∃ u e, title? (s ++ (t ++ '\n' :: r)) = some (u, e ++ '\n' :: r) ∧ IsEnding e := by
  obtain @⟨k, a, hk, ha, hne, v⟩ := hs
  have hlfv : '\n' ∉ v ++ t := fun hm => hlf (by simp only [List.mem_append] at hm ⊢; tauto)
  obtain ⟨w, hw, hlfw⟩ := exists_unpad?_append ha hne hlfv r
  obtain ⟨u, e, hremark, he⟩ := exists_remark? hlfw r
  refine ⟨u, e, ?_, he⟩
  rw [List.append_assoc v] at hw
  rw [List.append_assoc, List.append_assoc, title?, hk.dropWord?, Option.bind_some, hw, Option.bind_some, hremark]

theorem IsEnding.not_continues (he : IsEnding e) (r : Text) : Scan.startsWith Decimal.continuesNumeral (e ++ '\n' :: r) = false := by
  obtain ⟨c, u, hc, h⟩ := exists_cons_of_startsWith (he.startsWith r)
  rw [hc]
  simp only [isPadding, Bool.or_eq_true, decide_eq_true_eq] at h
  rcases h with ((rfl | rfl) | rfl) | rfl <;> rfl

theorem label?_append {label : Text} (hq : '"' ∉ label) (hlf : '\n' ∉ label) (r : Text) :
    label? ('"' :: (label ++ '"' :: r)) = some ('"' :: (label ++ ['"']), r) := by
  have hquoted : Scan.quoted? ('"' :: (label ++ '"' :: r)) = some ('"' :: (label ++ ['"']), r) := by
    have hspan : span (· ≠ '"') (label ++ '"' :: r) = (label, '"' :: r) := span_append_cons hq
    simp only [Scan.quoted?, hspan, List.cons_append]
  rw [label?, hquoted, Option.filter_some, if_pos (by simpa using hlf)]

theorem exists_slice? {label b n : Text} (hq : '"' ∉ label) (hlf : '\n' ∉ label) (ha : a.all isPadding = true)
    (hb : b.all isPadding = true) (hn : Decimal.IsNumeral n) (he : IsEnding e) (r : Text) :
    ∃ s, slice? ('"' :: (label ++ '"' :: (a ++ ':' :: (b ++ (n ++ (e ++ '\n' :: r)))))) = some (s, e ++ '\n' :: r) := by
  obtain ⟨d, hd⟩ := hn.exists_read?_append
  have hstop : IsUnpadded (n ++ (e ++ '\n' :: r)) := isUnpadded_of_startsWith (startsWith_append _ hn.isTight.first)
  have hcolon : ∀ t : Text, dropPrefix? ":" (':' :: t) = some t := fun t => rfl
  refine ⟨⟨unquote ('"' :: (label ++ ['"'])), d.value⟩, ?_⟩
  rw [slice?, label?_append hq hlf, Option.bind_some]
  dsimp only
  rw [unpad_append ha (by rfl), hcolon, Option.bind_some, unpad_append hb hstop, hd _ (he.not_continues r)]
  rfl

/-- a statement is read, and then its line ends -/
theorem exists_said? {s : Text} (hs : IsStatement s) (he : IsEnding e) (hlf : '\n' ∉ s ++ e) (r : Text) :
    ∃ x e', said? (s ++ (e ++ '\n' :: r)) = some (x, e' ++ '\n' :: r) ∧ IsEnding e' := by
  cases hs with
  | @accessibility keyword a hk ha v =>
    have hv : '\n' ∉ v ++ e := fun hm => hlf (by simp only [List.mem_append, List.mem_cons] at hm ⊢; tauto)
    obtain ⟨u, e', hread, he'⟩ := exists_accessible? keyword ha hv r
    rw [List.append_assoc] at hread
    rw [List.append_assoc, List.append_assoc, List.cons_append]
    rcases hk with rfl | rfl
    · exact ⟨.accessibility (.title u), e', by rw [said?, hread]; rfl, he'⟩
    · have hnone : accessible? "accTitle" ("accDescr" ++ (a ++ ':' :: (v ++ (e ++ '\n' :: r)))) = none := rfl
      exact ⟨.accessibility (.description u), e', by rw [said?, hnone, hread]; rfl, he'⟩
  | title ht =>
    obtain ⟨u, e', hread, he'⟩ := exists_title? ht hlf r
    obtain ⟨d, w, rfl, hd⟩ := ht.exists_cons
    have hstart : Scan.startsWith (· = 'a') (d :: w ++ (e ++ '\n' :: r)) = false := by
      refine decide_eq_false ?_
      rintro rfl
      exact absurd hd (by decide)
    refine ⟨.title u, e', ?_, he'⟩
    rw [said?, accessible?_eq_none (Or.inl rfl) hstart, accessible?_eq_none (Or.inr rfl) hstart, hread]
    rfl
  | @slice label a b n hq ha hb hn =>
    have hlabel : '\n' ∉ label := fun hm => hlf (by simp [hm])
    obtain ⟨s, hread⟩ := exists_slice? hq hlabel ha hb hn he r
    refine ⟨.slice s, e, ?_, he⟩
    simp only [List.cons_append, List.append_assoc]
    rw [said?, accessible?_eq_none (Or.inl rfl) (by rfl), accessible?_eq_none (Or.inr rfl) (by rfl), hread]
    rfl

theorem takesLines_statement? : TakesLines statement? IsStatementLine where
  sound {t r x} hx := by
    obtain ⟨⟨y, t₁⟩, hsaid, hend⟩ := Option.bind_eq_some_iff.1 hx
    obtain ⟨s, hs, hxs⟩ := Option.map_eq_some_iff.1 hend
    obtain ⟨-, rfl⟩ := Prod.mk.inj hxs
    obtain ⟨a, ha, ht, -⟩ := exists_unpad t
    obtain ⟨u, hu, hlfu, hunpad⟩ := exists_of_said? hsaid
    obtain ⟨e, he, hlfe, rfl⟩ := exists_of_lineEnd? hs
    refine ⟨a ++ (u ++ e), .mk ha hu he, ?_, by rw [ht, hunpad]; simp⟩
    simp [lineFeed_not_mem_padding ha, hlfu, hlfe]
  complete {l} hl hlf r := by
    obtain @⟨a, s, e, ha, hs, he⟩ := hl
    obtain ⟨x, e', hsaid, he'⟩ := exists_said? hs he (fun hm => hlf (List.mem_append_right a hm)) r
    have hstop : IsUnpadded (s ++ (e ++ '\n' :: r)) := by
      cases hs with
      | accessibility hk => rcases hk with rfl | rfl <;> rfl
      | title ht => exact ht.isUnpadded _
      | slice => rfl
    refine ⟨x, ?_⟩
    rw [List.append_assoc, List.append_assoc, statement?, unpad_append ha hstop, hsaid, Option.bind_some]
    dsimp only
    rw [lineEnd?_append he' r]
    rfl

theorem takesLines_line? : TakesLines line? fun l => IsBlankLine l ∨ IsStatementLine l :=
  takesLines_blank?.orElse takesLines_statement?

/-! ## The header -/

/-- what may follow the keyword of a header -/
def StopsWord (t : Text) : Prop := Scan.startsWith (fun c => isPadding c || c = ';' || c = '\n') t = true

theorem StopsWord.not_word (h : StopsWord t) : Scan.startsWith isWordOrHyphen t = false := by
  obtain ⟨c, r, rfl, hc⟩ := exists_cons_of_startsWith h
  simp only [isPadding, Bool.or_eq_true, decide_eq_true_eq] at hc
  rcases hc with ((rfl | rfl) | rfl) | rfl <;> rfl

theorem stopsWord_padding (ha : a.all isPadding = true) (hne : a ≠ []) (r : Text) : StopsWord (a ++ r) := by
  obtain ⟨c, a, rfl⟩ := List.exists_cons_of_ne_nil hne
  rw [List.all_cons, Bool.and_eq_true] at ha
  simp [StopsWord, Scan.startsWith, ha.1]

theorem IsData.stopsWord {d : Text} (hd : IsData d) (ht : StopsWord t) : StopsWord (d ++ t) := by
  cases hd with
  | none => exact ht
  | shown ha hne hk =>
    rw [List.append_assoc]
    exact stopsWord_padding ha hne _

theorem IsHeading.stopsWord {h : Text} (hh : IsHeading h) (ht : StopsWord t) : StopsWord (h ++ t) := by
  cases hh with
  | none => exact ht
  | title ha hne htitle =>
    rw [List.append_assoc]
    exact stopsWord_padding ha hne _

/-- where the line ends neither keyword of a header follows -/
theorem IsEnding.unpad? (he : IsEnding e) {u : Text} (h : unpad? (e ++ '\n' :: r) = some u) :
    ∃ c v, u = c :: v ∧ (c = ';' ∨ c = '\n') := by
  have hpad : ∀ {a : Text} {c : Char} (v : Text), a.all isPadding = true → isPadding c = false →
      PieChart.unpad? (a ++ c :: v) = some u → u = c :: v := by
    intro a c v ha hc hu
    cases a with
    | nil => simp [PieChart.unpad?, hc] at hu
    | cons d a =>
      have hstop : IsUnpadded (c :: v) := hc
      rw [unpad?_append ha (List.cons_ne_nil d a) hstop] at hu
      exact (Option.some.inj hu).symm
  cases he with
  | padding ha => exact ⟨_, _, hpad r ha rfl h, Or.inr rfl⟩
  | @semicolon a b ha hb =>
    rw [List.append_assoc, List.cons_append] at h
    exact ⟨_, _, hpad _ ha rfl h, Or.inl rfl⟩

/-- after the keyword: the data, the heading, and the end of the line -/
theorem heading_append {h : Text} (hh : IsHeading h) (he : IsEnding e) (hlf : '\n' ∉ h ++ e) (r : Text) :
    lineEnd? ((((unpad? (h ++ (e ++ '\n' :: r))).bind title?).map Prod.snd).getD (h ++ (e ++ '\n' :: r))) = some r := by
  cases hh with
  | none =>
    have hnone : (unpad? (e ++ '\n' :: r)).bind title? = none := by
      rw [Option.bind_eq_none_iff]
      intro u hu
      obtain ⟨c, v, rfl, hc⟩ := he.unpad? hu
      have hword : dropWord? "title" (c :: v) = none := by
        rcases hc with rfl | rfl <;> exact dropWord?_eq_none (by decide) "itle" v
      rw [title?, hword]
      rfl
    rw [List.nil_append, hnone]
    exact lineEnd?_append he r
  | @title a t ha hne ht =>
    have hlft : '\n' ∉ t ++ e := fun hm => hlf (by simp only [List.mem_append] at hm ⊢; tauto)
    obtain ⟨u, e', hread, he'⟩ := exists_title? ht hlft r
    rw [List.append_assoc, unpad?_append ha hne (ht.isUnpadded _), Option.bind_some, hread]
    exact lineEnd?_append he' r

/-- the data is shown exactly where the keyword says so -/
theorem showData_append {d h : Text} (hd : IsData d) (hh : IsHeading h) (he : IsEnding e) (r : Text) :
    ((unpad? (d ++ (h ++ (e ++ '\n' :: r)))).bind (dropWord? "showData")).getD (d ++ (h ++ (e ++ '\n' :: r)))
      = h ++ (e ++ '\n' :: r) := by
  cases hd with
  | shown ha hne hk =>
    rw [List.append_assoc, unpad?_append ha hne (hk.isUnpadded (by decide) _), Option.bind_some, hk.dropWord?]
    rfl
  | none =>
    have hnone : (unpad? (h ++ (e ++ '\n' :: r))).bind (dropWord? "showData") = none := by
      rw [Option.bind_eq_none_iff]
      intro u hu
      cases hh with
      | none =>
        obtain ⟨c, v, rfl, hc⟩ := he.unpad? hu
        rcases hc with rfl | rfl <;> exact dropWord?_eq_none (by decide) "howData" v
      | title ha hne ht =>
        rw [List.append_assoc, unpad?_append ha hne (ht.isUnpadded _), Option.some.injEq] at hu
        obtain ⟨c, v, rfl, hc⟩ := ht.exists_cons
        rw [← hu]
        exact dropWord?_eq_none (by rw [hc]; decide) "howData" _
    rw [List.nil_append, hnone]
    rfl

/-- the keyword that shows the data is taken where it is -/
theorem exists_of_showData (t : Text) :
    ∃ d, IsData d ∧ '\n' ∉ d ∧ t = d ++ ((unpad? t).bind (dropWord? "showData")).getD t := by
  cases h : (unpad? t).bind (dropWord? "showData") with
  | none => exact ⟨[], .none, by simp, rfl⟩
  | some u =>
    obtain ⟨v, hv, hu⟩ := Option.bind_eq_some_iff.1 h
    obtain ⟨a, ha, hne, rfl⟩ := exists_of_unpad? hv
    obtain ⟨k, rfl, hk⟩ := dropFolded?_eq_some hu
    exact ⟨a ++ k, .shown ha hne hk, by simp [lineFeed_not_mem_padding ha, Spells.lineFeed hk (by decide)], by simp⟩

/-- the title is taken where it is -/
theorem exists_of_heading (t : Text) :
    ∃ h, IsHeading h ∧ '\n' ∉ h ∧ t = h ++ (((unpad? t).bind title?).map Prod.snd).getD t := by
  cases h : (unpad? t).bind title? with
  | none => exact ⟨[], .none, by simp, rfl⟩
  | some x =>
    obtain ⟨v, hv, hx⟩ := Option.bind_eq_some_iff.1 h
    obtain ⟨a, ha, hne, rfl⟩ := exists_of_unpad? hv
    obtain ⟨s, hs, hlf, rfl⟩ := exists_of_title? hx
    exact ⟨a ++ s, .title ha hne hs, by simp [lineFeed_not_mem_padding ha, hlf], by simp⟩

theorem takesLines_header? : TakesLines header? IsHeaderLine where
  sound {t r x} hx := by
    obtain ⟨t₁, hpie, hx⟩ := Option.bind_eq_some_iff.1 hx
    obtain ⟨a, ha, ht, -⟩ := exists_unpad t
    obtain ⟨k, hk, hfold⟩ := dropFolded?_eq_some hpie
    rw [Option.ite_none_left_eq_some] at hx
    obtain ⟨s, hend, hxs⟩ := Option.map_eq_some_iff.1 hx.2
    obtain ⟨-, rfl⟩ := Prod.mk.inj hxs
    obtain ⟨d, hd, hlfd, hdata⟩ := exists_of_showData t₁
    obtain ⟨h, hh, hlfh, hheading⟩ := exists_of_heading (((unpad? t₁).bind (dropWord? "showData")).getD t₁)
    obtain ⟨e, he, hlfe, hsplit⟩ := exists_of_lineEnd? hend
    refine ⟨a ++ (k ++ (d ++ (h ++ e))), .mk ha hfold hd hh he, ?_, ?_⟩
    · simp [lineFeed_not_mem_padding ha, Spells.lineFeed hfold (by decide), hlfd, hlfh, hlfe]
    · calc t = a ++ unpad t := ht
        _ = a ++ (k ++ (d ++ (h ++ (e ++ '\n' :: s)))) := by rw [hk, ← hsplit, ← hheading, ← hdata]
        _ = a ++ (k ++ (d ++ (h ++ e))) ++ '\n' :: s := by simp
  complete {l} hl hlf r := by
    obtain @⟨a, k, d, h, e, ha, hk, hd, hh, he⟩ := hl
    have hlfh : '\n' ∉ h ++ e := fun hm => hlf (by simp only [List.mem_append] at hm ⊢; tauto)
    have hstop : StopsWord (d ++ (h ++ (e ++ '\n' :: r))) := hd.stopsWord (hh.stopsWord (he.startsWith r))
    have hdata := showData_append hd hh he r
    have hheading := heading_append hh he hlfh r
    simp only [List.append_assoc]
    rw [header?, unpad_append ha (hk.isUnpadded (by decide) _), hk.dropWord?, Option.bind_some,
      if_neg (by simp [hstop.not_word])]
    simp only [hdata, hheading]
    exact ⟨_, rfl⟩

end DiagramText.PieChart

/-
Records of delimited fields read back. A field that is written in quotes ends at the first quote that is not doubled
(`quotedField?_append`), a bare one at the first delimiter; `fields_join` puts them together, and `split_join_iff` says which
characters can separate fields. A record that is refused for a character behind a quoted field is refused at that character
(`exists_of_split_afterQuoted`).
-/
import DiagramText.Proofs.Reading
import DiagramText.Proofs.Text.Quoted
import DiagramText.Source.Record

namespace DiagramText.Record

/-! ## What needs quotes -/

theorem holds_singleton (c : Char) (t : Text) : holds [c] t = t.contains c := by
  rw [holds]
  induction t with
  | nil => rfl
  | cons d r ih =>
    by_cases hd : c = d
    · subst hd
      simp [Text.cut?, Text.dropPrefix?]
    · have hd' : ¬ c = d := hd
      simp only [Text.cut?, Text.dropPrefix?, hd, if_false, Option.isSome_map, ih, List.contains_cons]
      simp [hd]

/-- a text that stands for itself in a record -/
structure IsBare (delimiter : Char) (t : Text) : Prop where
  delimiter : delimiter ∉ t
  quote : '"' ∉ t
  lineFeed : '\n' ∉ t
  trim : Text.trim t = t
  comment : Text.dropPrefix? "%%" t = none

theorem formatField_of_isBare {c : Char} {t : Text} (h : IsBare c t) : formatField [c] t = t := by
  rw [formatField, holds_singleton, h.comment]
  simp [h.delimiter, h.quote, h.lineFeed, h.trim]

/-- a doubled quote, any other character as it is -/
def doubleQuote (c : Char) : Text := if c = '"' then "\"\"" else [c]

/-- a field in quotes -/
def inQuotes (t : Text) : Text := '"' :: (t.flatMap doubleQuote ++ ['"'])

theorem mem_of_mem_inQuotes {c : Char} {t : Text} (h : c ∈ inQuotes t) : c = '"' ∨ c ∈ t := by
  simp only [inQuotes, List.mem_cons, List.mem_append, List.not_mem_nil, or_false, List.mem_flatMap] at h
  rcases h with h | ⟨a, ha, hc⟩ | h
  · exact Or.inl h
  · unfold doubleQuote at hc
    split at hc
    · exact Or.inl (by simpa using hc)
    · exact Or.inr (List.mem_singleton.1 hc ▸ ha)
  · exact Or.inl h

theorem formatField_eq_or (c : Char) (t : Text) : formatField [c] t = inQuotes t ∨ (formatField [c] t = t ∧ IsBare c t) := by
  rw [formatField]
  split
  · exact Or.inl (by rw [show ("\"" : Text) = ['"'] from rfl, replace_char]; rfl)
  · rename_i h
    rw [holds_singleton] at h
    simp only [Bool.or_eq_true, List.contains_iff_mem, decide_eq_true_eq, not_or, not_not] at h
    exact Or.inr ⟨rfl, h.1.1.1.1, h.1.1.2, h.1.2, h.2, by simpa using h.1.1.1.2⟩

theorem mem_of_mem_formatField {c d : Char} {t : Text} (h : d ∈ formatField [c] t) : d = '"' ∨ d ∈ t := by
  rcases formatField_eq_or c t with e | ⟨e, -⟩
  · exact mem_of_mem_inQuotes (e ▸ h)
  · exact Or.inr (e ▸ h)

theorem startsWith_formatField (c : Char) {t : Text} (h : t ≠ []) : Scan.startsWith Text.isMark (formatField [c] t) = true := by
  rcases formatField_eq_or c t with e | ⟨e, hbare⟩
  · rw [e]
    rfl
  · rw [e]
    exact ((Text.trim_eq_self_iff.1 hbare.trim).resolve_left h).first

/-- no field is taken for a comment -/
theorem comment_formatField (c : Char) (t : Text) : Text.dropPrefix? "%%" (formatField [c] t) = none := by
  rcases formatField_eq_or c t with e | ⟨e, hbare⟩
  · rw [e]
    rfl
  · rw [e]
    exact hbare.comment

/-! ## One field -/

/-- a character that can separate fields -/
structure IsDelimiter (c : Char) : Prop where
  quote : c ≠ '"'
  padding : isPadding c = false

/-- what may follow a field: nothing, or the delimiter and further fields -/
inductive IsTail (c : Char) : Text → Prop where
  | nil : IsTail c []
  | cons (next : Text) : IsTail c (c :: next)

/-- a field, and the fields of what follows it -/
def fieldThen (c : Char) (size : Nat) (field : Text) : Text → Except Fault (List Text)
  | [] => .ok [field]
  | _ :: next => (fields [c] size next).map (field :: ·)

variable {c : Char} {t tail : Text}

theorem isPadding_of_isMark {d : Char} (h : Text.isMark d = true) : isPadding d = false := by
  by_contra hpad
  simp only [isPadding, Bool.or_eq_true, decide_eq_true_eq, Bool.not_eq_false] at hpad
  rcases hpad with rfl | rfl
  · exact absurd h (by decide)
  · exact absurd h (by decide)

theorem quotedField?_append (t : Text) {rest : Text} (hr : Scan.startsWith (· = '"') rest = false) :
    quotedField? (t.flatMap doubleQuote ++ '"' :: rest) = some (t, rest) := by
  induction t with
  | nil =>
    cases rest with
    | nil => rfl
    | cons c r =>
      have hc : c ≠ '"' := of_decide_eq_false hr
      simp [quotedField?, hc]
  | cons c r ih =>
    rw [List.flatMap_cons, doubleQuote]
    split
    · rename_i hc
      subst hc
      change quotedField? ('"' :: '"' :: (r.flatMap doubleQuote ++ '"' :: rest)) = _
      rw [quotedField?, ih]
      rfl
    · rename_i hc
      simp [quotedField?, hc, ih]

theorem beforeDelimiter_append (h : c ∉ t) (htail : IsTail c tail) : beforeDelimiter [c] (t ++ tail) = (t, tail) := by
  induction t with
  | nil => cases htail <;> simp [beforeDelimiter, Text.dropPrefix?]
  | cons d r ih =>
    obtain ⟨hd, hr⟩ := not_or.1 (List.mem_cons.not.1 h)
    simp [beforeDelimiter, Text.dropPrefix?, hd, ih hr]

theorem IsDelimiter.dropWhile_tail (hc : IsDelimiter c) (htail : IsTail c tail) : tail.dropWhile isPadding = tail := by
  cases htail <;> simp [hc.padding]

/-- a field in quotes, after white space or not -/
theorem fields_inQuotes (hc : IsDelimiter c) {a : Text} (ha : a.all isPadding = true) (htail : IsTail c tail) (size : Nat) :
    fields [c] size (a ++ (inQuotes t ++ tail)) = fieldThen c size t tail := by
  have hread : quotedField? (t.flatMap doubleQuote ++ '"' :: tail) = some (t, tail) :=
    quotedField?_append t (by cases htail <;> simp [Scan.startsWith, hc.quote])
  have htext : (a ++ (inQuotes t ++ tail)).dropWhile isPadding = '"' :: (t.flatMap doubleQuote ++ '"' :: tail) := by
    rw [List.dropWhile_append_of_pos (List.all_eq_true.1 ha), inQuotes, List.cons_append, List.append_assoc]
    rfl
  rw [fields]
  split
  · rename_i r hr
    obtain rfl : r = t.flatMap doubleQuote ++ '"' :: tail := (List.cons.inj (hr.symm.trans htext)).2
    split
    · rename_i hq
      exact absurd (hq.symm.trans hread) (by simp)
    · rename_i field rest hq
      obtain ⟨rfl, rfl⟩ := Prod.mk.inj (Option.some.inj (hq.symm.trans hread))
      have hdrop := hc.dropWhile_tail htail
      split
      · rename_i hrest
        rw [← hdrop, hrest, fieldThen]
      · rename_i d next hrest
        obtain rfl := hdrop.symm.trans hrest
        cases htail
        rw [if_pos rfl, fieldThen]
  · rename_i hr
    exact absurd htext (hr _)

theorem fields_bare (hc : IsDelimiter c) (ht : IsBare c t) (htail : IsTail c tail) (size : Nat) :
    fields [c] size (t ++ tail) = fieldThen c size t tail := by
  have hdrop : (t ++ tail).dropWhile isPadding = t ++ tail := by
    rcases Text.trim_eq_self_iff.1 ht.trim with rfl | htight
    · exact hc.dropWhile_tail htail
    · obtain ⟨d, r, rfl, hd⟩ := Text.exists_cons_of_startsWith htight.first
      exact List.dropWhile_cons_of_neg (by rw [isPadding_of_isMark hd]; decide)
  have hhead : ∀ r, t ++ tail ≠ '"' :: r := by
    intro r hr
    have hquote := ht.quote
    cases t with
    | nil =>
      cases htail with
      | nil => exact absurd hr (by simp)
      | cons next => exact hc.quote (List.cons.inj hr).1
    | cons d t => exact hquote ((List.cons.inj hr).1 ▸ List.mem_cons_self)
  have hbefore := beforeDelimiter_append ht.delimiter htail
  rw [fields]
  split
  · rename_i r hr
    exact absurd (hdrop.symm.trans hr) (hhead r)
  · split
    · rename_i hrest
      simp only [hdrop, hbefore] at hrest ⊢
      rw [hrest, fieldThen, ht.trim]
    · rename_i d next hrest
      simp only [hdrop, hbefore] at hrest ⊢
      rw [hrest, fieldThen, ht.trim]

theorem fields_formatField (hc : IsDelimiter c) (v : Text) (htail : IsTail c tail) (size : Nat) :
    fields [c] size (formatField [c] v ++ tail) = fieldThen c size v tail := by
  rcases formatField_eq_or c v with h | ⟨h, hbare⟩
  · rw [h]
    exact fields_inQuotes hc (a := []) rfl htail size
  · rw [h]
    exact fields_bare hc hbare htail size

/-! ## Records -/

/-- **records read back**: the fields that were written are what is read -/
theorem fields_join (hc : IsDelimiter c) {vs : List Text} (hne : vs ≠ []) (size : Nat) :
    fields [c] size (Text.join [c] (vs.map (formatField [c]))) = .ok vs := by
  induction vs with
  | nil => exact absurd rfl hne
  | cons v vs ih =>
    cases vs with
    | nil =>
      have := fields_formatField hc v .nil size
      rwa [List.append_nil, ← Text.join_singleton [c] (formatField [c] v)] at this
    | cons w ws =>
      have hrest := ih (by simp)
      rw [List.map_cons] at hrest ⊢
      rw [List.map_cons, Text.join_cons_cons, List.append_assoc, List.singleton_append, fields_formatField hc v (.cons _),
        fieldThen, hrest]
      rfl

/-- **the characters that separate fields**: records of any fields read back exactly when the delimiter is neither a quote nor
a space or a tab -/
theorem split_join_iff {c : Char} :
    (∀ (l : SourceLine) (offset : Int) (vs : List Text), vs ≠ [] →
      split [c] l offset (Text.join [c] (vs.map (formatField [c]))) = .ok vs) ↔ c ≠ '"' ∧ c ≠ ' ' ∧ c ≠ '\t' := by
  constructor
  · intro h
    -- two empty fields are written as the delimiter alone
    have hempty := h ⟨1, 1, [], []⟩ 0 [[], []] (List.cons_ne_nil _ _)
    refine ⟨?_, ?_, ?_⟩
    · rintro rfl
      exact absurd hempty (by decide +kernel)
    · rintro rfl
      exact absurd hempty (by decide +kernel)
    · rintro rfl
      exact absurd hempty (by decide +kernel)
  · rintro ⟨hquote, hspace, htab⟩ l offset vs hne
    have hpadding : isPadding c = false := by simp [isPadding, hspace, htab]
    rw [split, fields_join ⟨hquote, hpadding⟩ hne]

/-- fields in quotes read back, with white space after the delimiters as well -/
theorem fields_join_inQuotes (hc : IsDelimiter c) {a b : Text} (ha : a.all isPadding = true) (hb : b.all isPadding = true)
    {vs : List Text} (hne : vs ≠ []) (size : Nat) : fields [c] size (b ++ Text.join (c :: a) (vs.map inQuotes)) = .ok vs := by
  induction vs generalizing b with
  | nil => exact absurd rfl hne
  | cons v vs ih =>
    cases vs with
    | nil =>
      have := fields_inQuotes hc (t := v) hb .nil size
      rwa [List.append_nil, ← Text.join_singleton (c :: a) (inQuotes v)] at this
    | cons w ws =>
      have hrest := ih ha (by simp)
      rw [List.map_cons] at hrest ⊢
      rw [List.map_cons, Text.join_cons_cons, List.append_assoc, List.cons_append, fields_inQuotes hc hb (.cons _),
        fieldThen, hrest]
      rfl

/-! ## What is read -/

theorem quotedField?_subset {t field rest : Text} (h : quotedField? t = some (field, rest)) : field ⊆ t := by
  fun_induction quotedField? t generalizing field with
  | case1 => exact absurd h (by simp)
  | case2 r ih =>
    obtain ⟨⟨f, s⟩, hf, he⟩ := Option.map_eq_some_iff.1 h
    obtain ⟨rfl, rfl⟩ := Prod.mk.inj he
    exact List.cons_subset_cons _ fun c hc => List.mem_cons_of_mem _ (ih hf hc)
  | case3 r =>
    obtain ⟨rfl, rfl⟩ := Prod.mk.inj (Option.some.inj h)
    exact List.nil_subset _
  | case4 c r _ _ ih =>
    obtain ⟨⟨f, s⟩, hf, he⟩ := Option.map_eq_some_iff.1 h
    obtain ⟨rfl, rfl⟩ := Prod.mk.inj he
    exact List.cons_subset_cons _ (ih hf)

theorem quotedField?_suffix {t field rest : Text} (h : quotedField? t = some (field, rest)) : rest <:+ t := by
  fun_induction quotedField? t generalizing field with
  | case1 => exact absurd h (by simp)
  | case2 r ih =>
    obtain ⟨⟨f, s⟩, hf, he⟩ := Option.map_eq_some_iff.1 h
    obtain ⟨rfl, rfl⟩ := Prod.mk.inj he
    exact (ih hf).trans ((List.suffix_cons '"' r).trans (List.suffix_cons '"' _))
  | case3 r =>
    obtain ⟨rfl, rfl⟩ := Prod.mk.inj (Option.some.inj h)
    exact List.suffix_cons '"' r
  | case4 c r _ _ ih =>
    obtain ⟨⟨f, s⟩, hf, he⟩ := Option.map_eq_some_iff.1 h
    obtain ⟨rfl, rfl⟩ := Prod.mk.inj he
    exact (ih hf).trans (List.suffix_cons c r)

theorem beforeDelimiter_append_self (delimiter t : Text) :
    (beforeDelimiter delimiter t).1 ++ (beforeDelimiter delimiter t).2 = t := by
  fun_induction beforeDelimiter delimiter t <;> simp_all

/-- fields hold characters of the record only -/
theorem subset_of_fields {delimiter t : Text} {size : Nat} {vs : List Text} (h : fields delimiter size t = .ok vs) :
    ∀ v ∈ vs, v ⊆ t := by
  have hdrop : ∀ s : Text, s.dropWhile isPadding ⊆ s := fun s => (List.dropWhile_sublist isPadding).subset
  have hbefore : ∀ s : Text, Text.trim (beforeDelimiter delimiter s).1 ⊆ s := fun s c hc => by
    rw [← beforeDelimiter_append_self delimiter s]
    exact List.mem_append_left _ (Text.mem_of_mem_trim hc)
  fun_induction fields delimiter size t generalizing vs with
  | case1 => exact absurd h (by simp)
  | case2 t r hs field rest hq hp =>
    obtain rfl := Except.ok.inj h
    intro v hv c hc
    obtain rfl := List.mem_singleton.1 hv
    exact hdrop t (hs ▸ List.mem_cons_of_mem _ (quotedField?_subset hq hc))
  | case3 t r hs field rest hq c next hp hc ih =>
    obtain ⟨ws, hws, rfl⟩ := exceptMap_eq_ok_iff.1 h
    have hr : r ⊆ t := fun c hc => hdrop t (hs ▸ List.mem_cons_of_mem _ hc)
    have hrest : rest ⊆ r := (quotedField?_suffix hq).subset
    intro v hv c hc
    rcases List.mem_cons.1 hv with rfl | hv
    · exact hr (quotedField?_subset hq hc)
    · exact hr (hrest (hdrop rest (hp ▸ List.mem_cons_of_mem _ (ih hws v hv hc))))
  | case4 => exact absurd h (by simp)
  | case5 t hs hb =>
    obtain rfl := Except.ok.inj h
    intro v hv c hc
    obtain rfl := List.mem_singleton.1 hv
    exact hdrop t (hbefore _ hc)
  | case6 t d next hs hb ih =>
    obtain ⟨ws, hws, rfl⟩ := exceptMap_eq_ok_iff.1 h
    intro v hv c hc
    rcases List.mem_cons.1 hv with rfl | hv
    · exact hdrop t (hbefore _ hc)
    · refine hdrop t (beforeDelimiter_append_self delimiter (t.dropWhile isPadding) ▸ List.mem_append_right _ ?_)
      exact hb ▸ List.mem_cons_of_mem _ (ih hws v hv hc)

theorem subset_of_split {delimiter t : Text} {l : SourceLine} {offset : Int} {vs : List Text}
    (h : split delimiter l offset t = .ok vs) : ∀ v ∈ vs, v ⊆ t := by
  rw [split] at h
  split at h
  · rename_i ws hws
    exact Except.ok.inj h ▸ subset_of_fields hws
  · exact absurd h (by simp)
  · exact absurd h (by simp)

/-! ## What is refused -/

/-- a character that is refused behind a quoted field is one of the record, at the index that is told -/
theorem suffix_of_afterQuoted {delimiter t : Text} {size i : Nat} {c : Char}
    (h : fields delimiter size t = .error (.afterQuoted c i)) : ∃ next, c :: next <:+ t ∧ i = size - (next.length + 1) := by
  have hdrop : ∀ s : Text, s.dropWhile isPadding <:+ s := fun s => List.dropWhile_suffix isPadding
  fun_induction fields delimiter size t with
  | case1 => exact absurd h (by simp)
  | case2 => exact absurd h (by simp)
  | case3 t r hs field rest hq d next hp hd ih =>
    obtain ⟨next', hsuffix, hi⟩ := ih (exceptMap_eq_error_iff.1 h)
    have hr : r <:+ t := (List.suffix_cons '"' r).trans (hs ▸ hdrop t)
    have hnext : next <:+ rest := (List.suffix_cons d next).trans (hp ▸ hdrop rest)
    exact ⟨next', hsuffix.trans (hnext.trans ((quotedField?_suffix hq).trans hr)), hi⟩
  | case4 t r hs field rest hq d next hp hd =>
    simp only [Except.error.injEq, Fault.afterQuoted.injEq] at h
    obtain ⟨rfl, rfl⟩ := h
    have hr : r <:+ t := (List.suffix_cons '"' r).trans (hs ▸ hdrop t)
    have hrest : d :: next <:+ rest := hp ▸ hdrop rest
    exact ⟨next, hrest.trans ((quotedField?_suffix hq).trans hr), rfl⟩
  | case5 => exact absurd h (by simp)
  | case6 t d next hs hb ih =>
    obtain ⟨next', hsuffix, hi⟩ := ih (exceptMap_eq_error_iff.1 h)
    have hbare : d :: next <:+ t.dropWhile isPadding :=
      ⟨(beforeDelimiter delimiter (t.dropWhile isPadding)).1, hb ▸ beforeDelimiter_append_self delimiter (t.dropWhile isPadding)⟩
    exact ⟨next', hsuffix.trans ((List.suffix_cons d next).trans (hbare.trans (hdrop t))), hi⟩

/-- **a record is refused at one of its characters** behind a quoted field -/
theorem exists_of_split_afterQuoted {delimiter t : Text} {l : SourceLine} {offset : Int} {e : ParseError} {c : Char}
    (h : split delimiter l offset t = .error e) (hc : e.cause = .afterQuotedField c) :
    ∃ before next : Text, t = before ++ c :: next ∧ e = l.errorAt (offset + before.length) (.afterQuotedField c) := by
  rw [split] at h
  split at h
  · exact absurd h (by simp)
  · obtain rfl := Except.error.inj h
    change Cause.unterminatedField = Cause.afterQuotedField c at hc
    exact absurd hc (by simp)
  · rename_i d i hfields
    obtain rfl := Except.error.inj h
    obtain rfl : d = c := Cause.afterQuotedField.inj hc
    obtain ⟨next, ⟨before, rfl⟩, hi⟩ := suffix_of_afterQuoted hfields
    refine ⟨before, next, rfl, ?_⟩
    rw [hi, List.length_append, List.length_cons, Nat.add_sub_cancel]

end DiagramText.Record

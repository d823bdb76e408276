/-
Quoting as an escape. Written character by character (`replace_quote`), a quoted text holds no double quote but its
first and its last one, and `unquote_quote` says what comes back: the text with its entities read, so the text itself
when it spells none. `quote_unquote_quote` says that a second round changes nothing.
-/
import DiagramText.Text.Quoted
import DiagramText.Proofs.Text.Lines

namespace DiagramText

/-- a double quote as it stands inside quotes, any other character as it is -/
def escapeQuote (c : Char) : Text := if c = '"' then quoteEntity else [c]

/-- the text with its entities read as double quotes -/
def readEntities (t : Text) : Text := Text.replace quoteEntity "\"" t

/-- a single character is replaced wherever it stands -/
theorem replace_char (c : Char) (new t : Text) : Text.replace [c] new t = t.flatMap fun d => if d = c then new else [d] := by
  unfold Text.replace
  induction t with
  | nil => rfl
  | cons d r ih =>
    by_cases hd : d = c
    · subst hd
      simpa [Text.replaceFrom, Text.dropPrefix?] using ih
    · simpa [Text.replaceFrom, Text.dropPrefix?, hd, Ne.symm hd] using ih

/-- nothing is replaced where the phrase does not occur -/
theorem replace_eq_self {old new t : Text} (h : ¬ old <:+: t) : Text.replace old new t = t := by
  unfold Text.replace
  induction t with
  | nil => rfl
  | cons c r ih =>
    have hd : Text.dropPrefix? old (c :: r) = none := by
      rw [Option.eq_none_iff_forall_not_mem]
      intro s hs
      exact h (Text.dropPrefix?_eq_some_iff.1 hs ▸ (List.prefix_append old s).isInfix)
    simp only [Text.replaceFrom, hd]
    rw [if_neg (by simp), ih fun hi => h (hi.trans (List.suffix_cons c r).isInfix)]

theorem replace_quote (t : Text) : Text.replace "\"" quoteEntity t = t.flatMap escapeQuote := replace_char '"' quoteEntity t

theorem quote_eq (t : Text) : quote t = '"' :: (t.flatMap escapeQuote ++ ['"']) := by
  rw [quote, replace_quote]
  rfl

theorem quote_not_mem_escape (t : Text) : '"' ∉ t.flatMap escapeQuote := by
  intro h
  obtain ⟨c, _, hc⟩ := List.mem_flatMap.1 h
  unfold escapeQuote at hc
  split at hc
  · exact absurd hc (by decide)
  · rename_i hn
    exact hn (List.mem_singleton.1 hc).symm

theorem mem_of_mem_escape {c : Char} {t : Text} (h : c ∈ t.flatMap escapeQuote) : c ∈ t ∨ c ∈ quoteEntity := by
  obtain ⟨d, hd, hc⟩ := List.mem_flatMap.1 h
  unfold escapeQuote at hc
  split at hc
  · exact Or.inr hc
  · exact Or.inl (List.mem_singleton.1 hc ▸ hd)

/-! ## Reading entities -/

theorem readEntities_entity (t : Text) : readEntities (quoteEntity ++ t) = '"' :: readEntities t := by
  rfl

theorem readEntities_cons {c : Char} {r : Text} (h : ¬ quoteEntity <+: c :: r) :
    readEntities (c :: r) = c :: readEntities r := by
  have hd : Text.dropPrefix? quoteEntity (c :: r) = none := by
    rw [Option.eq_none_iff_forall_not_mem]
    intro s hs
    exact h ⟨s, (Text.dropPrefix?_eq_some_iff.1 hs).symm⟩
  simp [readEntities, Text.replace, Text.replaceFrom, hd]

/-- induction along the reading of a text: by the entity at its beginning, or by its first character -/
@[elab_as_elim] theorem entity_induction {motive : Text → Prop} (nil : motive [])
    (entity : ∀ r, motive r → motive (quoteEntity ++ r))
    (cons : ∀ c r, ¬ quoteEntity <+: c :: r → motive r → motive (c :: r)) (t : Text) : motive t := by
  induction h : t.length using Nat.strong_induction_on generalizing t with
  | _ n ih =>
    subst h
    by_cases hp : quoteEntity <+: t
    · obtain ⟨r, rfl⟩ := hp
      have hlt : r.length < (quoteEntity ++ r).length := by
        have : quoteEntity.length = 6 := rfl
        rw [List.length_append]
        omega
      exact entity r (ih r.length hlt r rfl)
    · cases t with
      | nil => exact nil
      | cons c r => exact cons c r hp (ih r.length (by simp) r rfl)

/-- an escaped text begins with a word without quotes and number signs only if the text does -/
theorem prefix_of_prefix_escape {w t : Text} (hq : '"' ∉ w) (hs : '#' ∉ w) (h : w <+: t.flatMap escapeQuote) :
    w <+: t := by
  induction w generalizing t with
  | nil => exact List.nil_prefix
  | cons d w ih =>
    simp only [List.mem_cons, not_or] at hq hs
    cases t with
    | nil => simp at h
    | cons c r =>
      rw [List.flatMap_cons] at h
      by_cases hc : c = '"'
      · subst hc
        obtain ⟨s, e⟩ := h
        simp only [escapeQuote, quoteEntity, if_true, List.cons_append] at e
        exact absurd (List.cons.inj e).1.symm hs.1
      · simp only [escapeQuote, hc, if_false, List.singleton_append] at h
        rw [List.cons_prefix_cons] at h ⊢
        exact ⟨h.1, ih hq.2 hs.2 h.2⟩

/-- reading the entities of an escaped text is reading those of the text -/
theorem readEntities_escape (t : Text) : readEntities (t.flatMap escapeQuote) = readEntities t := by
  induction t using entity_induction with
  | nil => rfl
  | entity r ih =>
    have : (quoteEntity ++ r).flatMap escapeQuote = quoteEntity ++ r.flatMap escapeQuote := by
      rw [List.flatMap_append]
      rfl
    rw [this, readEntities_entity, readEntities_entity, ih]
  | cons c r hn ih =>
    rw [readEntities_cons hn, List.flatMap_cons]
    by_cases hc : c = '"'
    · subst hc
      rw [escapeQuote, if_pos rfl, readEntities_entity, ih]
    · rw [escapeQuote, if_neg hc, List.singleton_append, readEntities_cons, ih]
      intro hp
      refine hn ?_
      change '#' :: ("quot;" : Text) <+: c :: r.flatMap escapeQuote at hp
      change '#' :: ("quot;" : Text) <+: c :: r
      rw [List.cons_prefix_cons] at hp ⊢
      exact ⟨hp.1, prefix_of_prefix_escape (by decide) (by decide) hp.2⟩

/-- a text that spells no entity is its own reading -/
theorem readEntities_eq_self {t : Text} (h : ¬ quoteEntity <:+: t) : readEntities t = t := replace_eq_self h

/-- reading changes a text only by double quotes -/
theorem readEntities_eq_self_or (t : Text) : readEntities t = t ∨ '"' ∈ readEntities t := by
  induction t using entity_induction with
  | nil => exact Or.inl rfl
  | entity r ih => exact Or.inr (by simp [readEntities_entity])
  | cons c r hn ih =>
    rw [readEntities_cons hn]
    rcases ih with h | h
    · exact Or.inl (by rw [h])
    · exact Or.inr (List.mem_cons_of_mem c h)

theorem mem_of_mem_readEntities {c : Char} {t : Text} (h : c ∈ readEntities t) : c = '"' ∨ c ∈ t := by
  induction t using entity_induction with
  | nil => simp [readEntities, Text.replace, Text.replaceFrom] at h
  | entity r ih =>
    rw [readEntities_entity, List.mem_cons] at h
    rcases h with h | h
    · exact Or.inl h
    · exact (ih h).imp_right (List.mem_append_right _)
  | cons d r hn ih =>
    rw [readEntities_cons hn, List.mem_cons] at h
    rcases h with rfl | h
    · exact Or.inr (by simp)
    · exact (ih h).imp_right (List.mem_cons_of_mem d)

/-- a word without quotes begins what a text is read as only if it begins the text -/
theorem prefix_of_prefix_readEntities {w t : Text} (hq : '"' ∉ w) (h : w <+: readEntities t) : w <+: t := by
  induction w generalizing t with
  | nil => exact List.nil_prefix
  | cons d w ih =>
    simp only [List.mem_cons, not_or] at hq
    by_cases hp : quoteEntity <+: t
    · obtain ⟨r, rfl⟩ := hp
      rw [readEntities_entity, List.cons_prefix_cons] at h
      exact absurd h.1.symm hq.1
    · cases t with
      | nil => exact h
      | cons c r =>
        rw [readEntities_cons hp, List.cons_prefix_cons] at h
        rw [List.cons_prefix_cons]
        exact ⟨h.1, ih hq.2 h.2⟩

/-- **no entity is left** where entities have been read: each stood there before, and would have been read -/
theorem not_infix_readEntities (t : Text) : ¬ quoteEntity <:+: readEntities t := by
  induction t using entity_induction with
  | nil => decide
  | entity r ih =>
    rw [readEntities_entity, List.infix_cons_iff, not_or]
    exact ⟨by simp [quoteEntity], ih⟩
  | cons c r hn ih =>
    rw [readEntities_cons hn, List.infix_cons_iff, not_or]
    refine ⟨fun hp => hn ?_, ih⟩
    rw [← readEntities_cons hn] at hp
    exact prefix_of_prefix_readEntities (by decide) hp

/-- writing entities undoes reading them in a text without double quotes -/
theorem escape_readEntities {t : Text} (h : '"' ∉ t) : (readEntities t).flatMap escapeQuote = t := by
  induction t using entity_induction with
  | nil => rfl
  | entity r ih =>
    rw [readEntities_entity, List.flatMap_cons, ih fun hm => h (List.mem_append_right _ hm)]
    rfl
  | cons c r hn ih =>
    simp only [List.mem_cons, not_or] at h
    rw [readEntities_cons hn, List.flatMap_cons, ih h.2, escapeQuote, if_neg fun e => h.1 e.symm]
    rfl

/-! ## Quoted tokens -/

theorem mem_of_mem_quote {c : Char} {t : Text} (h : c ∈ quote t) : c ∈ t ∨ c ∈ quoteEntity ∨ c = '"' := by
  rw [quote_eq, List.mem_cons, List.mem_append, List.mem_singleton] at h
  rcases h with rfl | h | rfl
  · exact Or.inr (Or.inr rfl)
  · exact (mem_of_mem_escape h).imp_right Or.inl
  · exact Or.inr (Or.inr rfl)

theorem lineFeed_not_mem_quote {t : Text} (hl : '\n' ∉ t) : '\n' ∉ quote t := fun h =>
  (mem_of_mem_quote h).elim hl (by decide)

theorem endsWith_quote (t : Text) : Text.endsWith Text.isLineEnd (quote t) = true := by
  rw [quote_eq]
  exact Text.endsWith_append ('"' :: _) (by decide : Text.endsWith Text.isLineEnd ['"'] = true)

theorem isTight_quote (t : Text) : Text.IsTight (quote t) :=
  ⟨by rw [quote_eq]; rfl, Text.endsWith_mono (fun _ hc => (Bool.and_eq_true_iff.1 hc).1) (endsWith_quote t)⟩

theorem isQuoted_quote (t : Text) : isQuoted (quote t) = true := by
  rw [quote_eq]
  simp [isQuoted]

/-- **what a quoted text is read as**: the text with its entities read -/
theorem unquote_quote (t : Text) : unquote (quote t) = readEntities t := by
  rw [unquote, if_pos (isQuoted_quote t), quote_eq, List.tail_cons, List.dropLast_concat, ← readEntities,
    readEntities_escape]

theorem unquote_quote_eq_self {t : Text} (h : ¬ quoteEntity <:+: t) : unquote (quote t) = t := by
  rw [unquote_quote, readEntities_eq_self h]

/-- **quoting is stable after one reading** -/
theorem quote_unquote_quote (t : Text) : quote (unquote (quote t)) = quote t := by
  rw [unquote_quote, quote_eq, quote_eq, ← readEntities_escape, escape_readEntities (quote_not_mem_escape t)]

theorem mem_of_mem_unquote {c : Char} {t : Text} (h : c ∈ unquote t) : c = '"' ∨ c ∈ t := by
  unfold unquote at h
  split at h
  · exact (mem_of_mem_readEntities h).imp_right fun h => List.mem_of_mem_tail (List.mem_of_mem_dropLast h)
  · exact Or.inr h

theorem not_infix_unquote {t : Text} (h : isQuoted t = true) : ¬ quoteEntity <:+: unquote t := by
  rw [unquote, if_pos h]
  exact not_infix_readEntities _

/-- without entities, unquoting only takes away -/
theorem unquote_isInfix {t : Text} (h : ¬ quoteEntity <:+: t) : unquote t <:+: t := by
  have hinner : t.tail.dropLast <:+: t := t.tail.dropLast_prefix.isInfix.trans t.tail_suffix.isInfix
  unfold unquote
  split
  · rw [replace_eq_self fun hentity => h (hentity.trans hinner)]
    exact hinner
  · exact List.infix_refl t

theorem span_of_all {p : Char → Bool} {run rest : Text} (h : run.all p = true) (hr : Scan.startsWith p rest = false) :
    Text.span p (run ++ rest) = (run, rest) := by
  have hall : ∀ c ∈ run, p c = true := List.all_eq_true.1 h
  have htake : rest.takeWhile p = [] := by
    cases rest with
    | nil => rfl
    | cons c r => simp_all [Scan.startsWith]
  have hdrop : rest.dropWhile p = rest := by
    cases rest with
    | nil => rfl
    | cons c r => simp_all [Scan.startsWith]
  rw [Text.span, List.takeWhile_append_of_pos hall, List.dropWhile_append_of_pos hall, htake, hdrop, List.append_nil]

theorem span_append_cons {c : Char} {run rest : Text} (h : c ∉ run) :
    Text.span (· ≠ c) (run ++ c :: rest) = (run, c :: rest) := by
  refine span_of_all (List.all_eq_true.2 fun x hx => ?_) (by simp [Scan.startsWith])
  simp only [decide_eq_true_eq]
  rintro rfl
  exact h hx

theorem span_of_not_mem {c : Char} {t : Text} (h : c ∉ t) : Text.span (· ≠ c) t = (t, []) := by
  have hall : t.all (· ≠ c) = true := by
    refine List.all_eq_true.2 fun x hx => ?_
    simp only [decide_eq_true_eq]
    rintro rfl
    exact h hx
  have hspan := span_of_all hall (rfl : Scan.startsWith (· ≠ c) [] = false)
  rwa [List.append_nil] at hspan

/-- what is read in quotes has no quote inside -/
theorem exists_inner_of_quoted? {t token rest : Text} (h : Scan.quoted? t = some (token, rest)) :
    ∃ inner : Text, token = '"' :: inner ++ ['"'] ∧ '"' ∉ inner := by
  unfold Scan.quoted? at h
  split at h
  · split at h
    · rename_i inner rest' hspan
      refine ⟨inner, (Prod.mk.inj (Option.some.inj h)).1.symm, fun hm => ?_⟩
      rw [← (Prod.mk.inj hspan).1] at hm
      exact absurd (List.all_eq_true.1 List.all_takeWhile _ hm) (by decide)
    · exact absurd h (by simp)
  · exact absurd h (by simp)

theorem isQuoted_of_quoted? {t token rest : Text} (h : Scan.quoted? t = some (token, rest)) : isQuoted token = true := by
  obtain ⟨inner, rfl, -⟩ := exists_inner_of_quoted? h
  simp [isQuoted]

/-- a quoted text is read as one token, whatever follows it -/
theorem quoted?_quote (t rest : Text) : Scan.quoted? (quote t ++ rest) = some (quote t, rest) := by
  have hs : Text.span (· ≠ '"') (t.flatMap escapeQuote ++ '"' :: rest) = (t.flatMap escapeQuote, '"' :: rest) :=
    span_append_cons (quote_not_mem_escape t)
  rw [quote_eq]
  simp only [List.cons_append, List.append_assoc, Scan.quoted?, hs, List.nil_append]

end DiagramText

/-
Hyphenated names. `isName` is their grammar: the pieces between the hyphens are nonempty words of the class.
`name?_eq_some_iff` says that reading takes the longest name and nothing else, and `word?_name` that a keyword is only
found at the beginning of a line that opens with a name when the name is that keyword and white space follows it.
-/
import DiagramText.Proofs.Text.Quoted
import DiagramText.Text.Scan

namespace DiagramText

namespace Scan

/-! ## The grammar of names -/

/-- words of the class, joined by single hyphens -/
def isName (p : Char → Bool) (t : Text) : Bool := (Text.splitOn '-' t).all fun w => w ≠ [] && w.all p

/-- what may follow the first character of a name -/
def isNameTail (p : Char → Bool) : Text → Bool
  | [] => true
  | c :: r => (p c || (c = '-' && startsWith p r)) && isNameTail p r

/-- the first piece may be the end of a word that began earlier -/
theorem isNameTail_eq {p : Char → Bool} (hp : p '-' = false) (t : Text) :
    isNameTail p t = (((Text.splitOn '-' t).head?.all fun w => w.all p)
      && (Text.splitOn '-' t).tail.all fun w => w ≠ [] && w.all p) ∧
    (isName p t = (startsWith p t && isNameTail p t)) := by
  induction t with
  | nil => simp [isNameTail, isName, Text.splitOn, startsWith]
  | cons c r ih =>
    obtain ⟨ih1, ih2⟩ := ih
    by_cases hc : c = '-'
    · subst hc
      have h1 : isNameTail p ('-' :: r) = isName p r := by simp [isNameTail, hp, ih2]
      refine ⟨?_, ?_⟩
      · rw [h1]
        simp [isName, Text.splitOn]
      · simp [isName, Text.splitOn, startsWith, hp]
    · cases hs : Text.splitOn '-' r with
      | nil => exact absurd hs (Text.splitOn_ne_nil '-' r)
      | cons piece pieces =>
        simp only [hs, List.head?_cons, Option.all_some, List.tail_cons] at ih1
        constructor
        · simp [isNameTail, ih1, Text.splitOn, hc, hs, Bool.and_assoc]
        · simp [isName, isNameTail, startsWith, ih1, Text.splitOn, hc, hs, Bool.and_assoc]

theorem isName_eq {p : Char → Bool} (hp : p '-' = false) (t : Text) :
    isName p t = (startsWith p t && isNameTail p t) := (isNameTail_eq hp t).2

theorem all_of_isNameTail {p : Char → Bool} {t : Text} (h : isNameTail p t = true) :
    t.all (fun c => p c || c = '-') = true := by
  induction t with
  | nil => rfl
  | cons c r ih =>
    simp only [isNameTail, Bool.and_eq_true] at h
    rw [List.all_cons, Bool.and_eq_true]
    refine ⟨?_, ih h.2⟩
    rcases Bool.or_eq_true_iff.1 h.1 with hc | hc
    · simp [hc]
    · simp only [Bool.and_eq_true, decide_eq_true_eq] at hc
      simp [hc.1]

/-! ### Parts of names -/

section

variable {p : Char → Bool}

/-- a name goes on after a hyphen, so the part before it is the beginning of a name as well -/
theorem isNameTail_of_append_hyphen (hp : p '-' = false) {u v : Text} (h : isNameTail p (u ++ '-' :: v) = true) :
    isNameTail p u = true := by
  induction u with
  | nil => rfl
  | cons c u ih =>
    rw [List.cons_append, isNameTail, Bool.and_eq_true] at h
    rw [isNameTail, ih h.2, Bool.and_true]
    cases u with
    | nil => simpa [startsWith, hp] using h.1
    | cons d u => exact h.1

theorem isNameTail_cons_eq_false {c : Char} {t : Text} (hc : p c = false) (h : c ≠ '-') : isNameTail p (c :: t) = false := by
  simp [isNameTail, hc, h]

theorem isNameTail_of_append_right {u v : Text} (h : isNameTail p (u ++ v) = true) : isNameTail p v = true := by
  induction u with
  | nil => exact h
  | cons c u ih =>
    rw [List.cons_append, isNameTail, Bool.and_eq_true] at h
    exact ih h.2

theorem isNameTail_append {u v : Text} (hu : isNameTail p u = true) (hv : isNameTail p v = true) :
    isNameTail p (u ++ v) = true := by
  induction u with
  | nil => exact hv
  | cons c u ih =>
    rw [isNameTail, Bool.and_eq_true] at hu
    rw [List.cons_append, isNameTail, ih hu.2, Bool.and_true]
    rcases Bool.or_eq_true_iff.1 hu.1 with hc | hc
    · simp [hc]
    · simp only [Bool.and_eq_true, decide_eq_true_eq] at hc
      simp [hc.1, Text.startsWith_append v hc.2]

theorem isName_append (hp : p '-' = false) {name more : Text} (hn : isName p name = true) (hm : isNameTail p more = true) :
    isName p (name ++ more) = true := by
  rw [isName_eq hp, Bool.and_eq_true] at hn ⊢
  exact ⟨Text.startsWith_append more hn.1, isNameTail_append hn.2 hm⟩

end

/-! ## Reading names -/

/-- a name that ends here is not continued by what follows -/
def Stops (p : Char → Bool) (rest : Text) : Prop := nameTail p rest = ([], rest)

theorem stops_nil (p : Char → Bool) : Stops p [] := rfl

theorem stops_cons {p : Char → Bool} {c : Char} (r : Text) (hc : p c = false) (h : c ≠ '-') : Stops p (c :: r) := by
  simp [Stops, nameTail, hc, h]

theorem startsWith_false_of_stops {p : Char → Bool} {rest : Text} (h : Stops p rest) : startsWith p rest = false := by
  cases rest with
  | nil => rfl
  | cons c r =>
    cases hc : p c with
    | false => exact hc
    | true => simp [Stops, nameTail, hc] at h

theorem eq_nil_of_stops {p : Char → Bool} {name rest : Text} (h : Stops p (name ++ rest)) (hn : isNameTail p name = true) : name = [] := by
  cases name with
  | nil => rfl
  | cons c name =>
    have hread := congrArg Prod.fst h
    rw [isNameTail, Bool.and_eq_true, Bool.or_eq_true] at hn
    obtain ⟨hc | hc, -⟩ := hn
    · simp [nameTail, hc] at hread
    · simp only [Bool.and_eq_true, decide_eq_true_eq] at hc
      simp [nameTail, hc.1, Text.startsWith_append rest hc.2] at hread

theorem nameTail_of_isNameTail {p : Char → Bool} {name rest : Text} (h : isNameTail p name = true)
    (hr : Stops p rest) : nameTail p (name ++ rest) = (name, rest) := by
  induction name with
  | nil => exact hr
  | cons c r ih =>
    simp only [isNameTail, Bool.and_eq_true] at h
    have hc : (p c || (c = '-' && startsWith p (r ++ rest))) = true := by
      rcases Bool.or_eq_true_iff.1 h.1 with hc | hc
      · simp [hc]
      · simp only [Bool.and_eq_true, decide_eq_true_eq] at hc
        simp [hc.1, Text.startsWith_append rest hc.2]
    rw [List.cons_append, nameTail, if_pos hc, ih h.2]

theorem isNameTail_of_nameTail {p : Char → Bool} {t name rest : Text} (h : nameTail p t = (name, rest)) :
    isNameTail p name = true ∧ Stops p rest := by
  induction t generalizing name with
  | nil =>
    simp only [nameTail, Prod.mk.injEq] at h
    obtain ⟨rfl, rfl⟩ := h
    exact ⟨rfl, rfl⟩
  | cons c r ih =>
    rw [nameTail] at h
    split at h
    · rename_i hc
      obtain ⟨e1, e2⟩ := Prod.mk.inj h
      obtain ⟨h1, h2⟩ := ih (Prod.ext rfl e2 : nameTail p r = ((nameTail p r).1, rest))
      refine ⟨?_, h2⟩
      rw [← e1, isNameTail, Bool.and_eq_true]
      refine ⟨?_, h1⟩
      rcases Bool.or_eq_true_iff.1 hc with hc | hc
      · simp [hc]
      · -- a hyphen is only taken before a word character, which is taken with it
        simp only [Bool.and_eq_true, decide_eq_true_eq] at hc
        obtain ⟨d, s, rfl, hd⟩ := Text.exists_cons_of_startsWith hc.2
        simp [hc.1, nameTail, hd, startsWith]
    · rename_i hc
      obtain ⟨rfl, rfl⟩ := Prod.mk.inj h
      exact ⟨rfl, by simp only [Stops, nameTail, if_neg hc]⟩

/-- **Reading a name.** It takes exactly the longest name at the beginning. -/
theorem name?_eq_some_iff {p : Char → Bool} (hp : p '-' = false) {t name rest : Text} :
    name? p t = some (name, rest) ↔ t = name ++ rest ∧ isName p name = true ∧ Stops p rest := by
  rw [isName_eq hp, Bool.and_eq_true]
  constructor
  · intro h
    have ht := name?_append h
    have hne := name?_ne_nil h
    rw [name?, Option.ite_none_right_eq_some, Option.some.injEq] at h
    obtain ⟨h1, h2⟩ := isNameTail_of_nameTail h.2
    refine ⟨ht, ⟨?_, h1⟩, h2⟩
    cases name with
    | nil => exact absurd rfl hne
    | cons c r => rw [ht] at h; exact h.1
  · rintro ⟨rfl, ⟨h1, h2⟩, h3⟩
    rw [name?, if_pos (Text.startsWith_append rest h1), nameTail_of_isNameTail h2 h3]

/-! ## White space -/

theorem blanks_of_startsWith {t : Text} (h : startsWith Text.isMark t = true) : blanks t = t :=
  Text.trimLeft_of_startsWith h

theorem blanks_space (t : Text) : blanks (' ' :: t) = blanks t := by
  have : isBlank ' ' = true := by decide
  simp [blanks, this]

theorem blanks?_space {t : Text} (h : startsWith Text.isMark t = true) : blanks? (' ' :: t) = some t := by
  have : isBlank ' ' = true := by decide
  rw [blanks?, if_pos this, blanks_of_startsWith h]

theorem blanks?_eq_none {t : Text} (h : startsWith isBlank t = false) : blanks? t = none := by
  cases t with
  | nil => rfl
  | cons c r =>
    have hc : isBlank c = false := h
    simp [blanks?, hc]

theorem blanks?_of_startsWith {t : Text} (h : startsWith isBlank t = true) : blanks? t = some (blanks t) := by
  obtain ⟨c, r, rfl, hc⟩ := Text.exists_cons_of_startsWith h
  simp [blanks?, blanks, hc]

theorem blanks?_eq_some {t u : Text} (h : blanks? t = some u) : startsWith isBlank t = true ∧ u = blanks t := by
  cases t with
  | nil => simp [blanks?] at h
  | cons c r =>
    rw [blanks?, Option.ite_none_right_eq_some, Option.some.injEq] at h
    exact ⟨h.1, by rw [← h.2]; simp [blanks, h.1]⟩

/-- what ends with a mark is not all white space -/
theorem exists_blanks_append {t : Text} (h : Text.endsWith Text.isMark t = true) (s : Text) :
    ∃ c r, blanks (t ++ s) = c :: r ∧ c ∈ t := by
  induction t with
  | nil => exact absurd h (by simp [Text.endsWith])
  | cons d t ih =>
    by_cases hd : isBlank d = true
    · have ht : t ≠ [] := by
        rintro rfl
        simp [Text.endsWith, Text.isMark, hd] at h
      obtain ⟨c, r, hr, hc⟩ := ih (Text.endsWith_of_endsWith_append (s := [d]) h ht)
      exact ⟨c, r, by rw [← hr]; simp [blanks, hd], List.mem_cons_of_mem d hc⟩
    · exact ⟨d, t ++ s, by simp [blanks, hd], List.mem_cons_self⟩

/-- white space before a text that is not all white space ends in it -/
theorem blanks_append {t : Text} (h : Text.endsWith Text.isMark t = true) (s : Text) : blanks (t ++ s) = blanks t ++ s := by
  obtain ⟨c, r, hc, -⟩ := exists_blanks_append h []
  rw [List.append_nil] at hc
  have hne : (List.dropWhile isBlank t).isEmpty = false := by
    change (blanks t).isEmpty = false
    rw [hc]
    rfl
  rw [blanks, List.dropWhile_append, hne]
  rfl

/-! ## Keywords before names -/

/-- a keyword is found at the beginning of a name only if the name begins with it -/
theorem dropPrefix?_name {p : Char → Bool} {keyword name s r : Text} (hk : keyword.all p = true)
    (hs : startsWith p s = false) (h : Text.dropPrefix? keyword (name ++ s) = some r) :
    ∃ n, name = keyword ++ n ∧ r = n ++ s := by
  have h := Text.dropPrefix?_eq_some_iff.1 h
  rcases List.append_eq_append_iff.1 h with ⟨m, rfl, rfl⟩ | ⟨n, rfl, rfl⟩
  · cases m with
    | nil => exact ⟨[], by simp, by simp⟩
    | cons c m =>
      simp only [List.all_append, List.all_cons, Bool.and_eq_true] at hk
      simp [startsWith, hk.2.1] at hs
  · exact ⟨n, rfl, rfl⟩

/-- a keyword and white space after it are found before a name only if the name is the keyword -/
theorem word?_name {p : Char → Bool} {keyword name s u : Text} (hk : keyword.all p = true)
    (hn : name.all Text.isMark = true) (hs : startsWith p s = false) (h : word? keyword (name ++ s) = some u) :
    name = keyword ∧ blanks? s = some u := by
  obtain ⟨r, hr, hb⟩ := Option.bind_eq_some_iff.1 h
  obtain ⟨n, rfl, rfl⟩ := dropPrefix?_name hk hs hr
  cases n with
  | nil => exact ⟨by simp, hb⟩
  | cons c n =>
    simp only [List.all_append, List.all_cons, Bool.and_eq_true] at hn
    have hc : isBlank c = false := by simpa [Text.isMark] using hn.2.1
    simp [blanks?, hc] at hb

end Scan

/-! ## Choices -/

theorem Scan.orElse_eq_none_iff {α : Type} {a b : Option α} : (a <|> b) = none ↔ a = none ∧ b = none := by
  cases a <;> simp

/-- the first choice that stands, when those before it fail -/
theorem findSome?_eq_some_of_takeWhile {α β : Type} [DecidableEq α] {f : α → Option β} {l : List α} {x : α} {y : β}
    (hx : x ∈ l) (h : ∀ t ∈ l.takeWhile (· ≠ x), f t = none) (hy : f x = some y) : l.findSome? f = some y := by
  induction l with
  | nil => simp at hx
  | cons t ts ih =>
    by_cases ht : t = x
    · rw [List.findSome?_cons, ht, hy]
    · rw [List.takeWhile_cons_of_pos (by simpa using ht)] at h
      rw [List.findSome?_cons, h t (by simp)]
      exact ih ((List.mem_cons.1 hx).resolve_left (Ne.symm ht)) fun u hu => h u (List.mem_cons_of_mem t hu)

/-! ## Keywords in any letter case -/

theorem dropFolded?_eq_some {fold : Char → Char} {k t r : Text} (h : dropFolded? fold k t = some r) :
    ∃ pre, t = pre ++ r ∧ pre.map fold = k.map fold := by
  induction k generalizing t with
  | nil =>
    rw [dropFolded?, Option.some.injEq] at h
    exact ⟨[], h, rfl⟩
  | cons d k ih =>
    cases t with
    | nil => simp [dropFolded?] at h
    | cons c t =>
      rw [dropFolded?, Option.ite_none_right_eq_some] at h
      obtain ⟨pre, rfl, e⟩ := ih h.2
      exact ⟨c :: pre, rfl, by simp [e, h.1]⟩

/-! ## Pieces of a line -/

/-- what follows a character that no keyword holds is left as it is -/
theorem dropFolded?_append_of_stop {fold : Char → Char} {k : Text} {c : Char} (hc : fold c ∉ k.map fold) (t r : Text) :
    dropFolded? fold k (t ++ c :: r) = (dropFolded? fold k t).map (· ++ c :: r) := by
  induction k generalizing t with
  | nil =>
    rw [dropFolded?, dropFolded?]
    rfl
  | cons d k ih =>
    rw [List.map_cons, List.mem_cons, not_or] at hc
    cases t with
    | nil => exact if_neg (Ne.symm hc.1)
    | cons e t =>
      rw [List.cons_append, dropFolded?, dropFolded?, ih hc.2]
      split <;> rfl

/-- what follows a character that a known beginning does not hold is left as it is -/
theorem dropPrefix?_append_of_stop {w : Text} {c : Char} (hc : c ∉ w) (t r : Text) :
    Text.dropPrefix? w (t ++ c :: r) = (Text.dropPrefix? w t).map (· ++ c :: r) := by
  induction w generalizing t with
  | nil =>
    rw [Text.dropPrefix?, Text.dropPrefix?]
    rfl
  | cons d w ih =>
    rw [List.mem_cons, not_or] at hc
    cases t with
    | nil => exact if_neg (Ne.symm hc.1)
    | cons e t =>
      rw [List.cons_append, Text.dropPrefix?, Text.dropPrefix?, ih hc.2]
      split <;> rfl

theorem dropPrefix?_append (w t : Text) : Text.dropPrefix? w (w ++ t) = some t := Text.dropPrefix?_eq_some_iff.2 rfl

theorem dropPrefix?_eq_none_iff {w t : Text} : Text.dropPrefix? w t = none ↔ ¬ w <+: t := by
  rw [Option.eq_none_iff_forall_not_mem]
  constructor
  · rintro h ⟨r, hr⟩
    exact h r (Text.dropPrefix?_eq_some_iff.2 hr.symm)
  · intro h r hr
    exact h ⟨r, (Text.dropPrefix?_eq_some_iff.1 hr).symm⟩

/-- a phrase that does not occur cuts nothing -/
theorem cut?_eq_none_iff_not_infix {w t : Text} : Text.cut? w t = none ↔ ¬ w <:+: t := by
  induction t with
  | nil => simp [Text.cut?, List.infix_nil]
  | cons c r ih =>
    rw [Text.cut?, List.infix_cons_iff, not_or, ← dropPrefix?_eq_none_iff, ← ih]
    cases Text.dropPrefix? w (c :: r) <;> simp

/-- a phrase cuts where it occurs for the first time -/
theorem exists_of_cut? {w t before rest : Text} (hw : w ≠ []) (h : Text.cut? w t = some (before, rest)) :
    t = before ++ (w ++ rest) ∧ ¬ w <:+: before := by
  induction t generalizing before with
  | nil => exact absurd h (by simp [Text.cut?, hw])
  | cons c r ih =>
    rw [Text.cut?] at h
    split at h
    · rename_i hd
      obtain ⟨rfl, rfl⟩ := Prod.mk.inj (Option.some.inj h)
      rw [Text.dropPrefix?_eq_some_iff.1 hd]
      exact ⟨rfl, fun hi => hw (List.infix_nil.1 hi)⟩
    · rename_i hd
      obtain ⟨⟨b, rest'⟩, hcut, he⟩ := Option.map_eq_some_iff.1 h
      obtain ⟨rfl, rfl⟩ := Prod.mk.inj he
      obtain ⟨rfl, hwithin⟩ := ih hcut
      refine ⟨rfl, fun hi => (List.infix_cons_iff.1 hi).elim (fun hfront => ?_) hwithin⟩
      exact dropPrefix?_eq_none_iff.1 hd (hfront.trans ⟨w ++ rest', rfl⟩)

/-- a text in which the phrase does not occur is cut off, up to a character that the phrase does not hold -/
theorem cut?_append {w before : Text} {c : Char} (hw : w ≠ []) (hc : c ∉ w) (h : ¬ w <:+: before) (rest : Text) :
    Text.cut? w (before ++ c :: (w ++ rest)) = some (before ++ [c], rest) := by
  have hfront : ∀ {t u : Text}, ¬ w <:+: t → ¬ w <+: t ++ c :: u := by
    rintro t u ht ⟨v, hv⟩
    rcases List.append_eq_append_iff.1 hv with ⟨m, rfl, -⟩ | ⟨m, rfl, hm⟩
    · exact ht (List.prefix_append w m).isInfix
    · cases m with
      | nil => exact ht (by rw [List.append_nil])
      | cons d m => exact hc ((List.cons.inj hm).1 ▸ by simp)
  induction before with
  | nil =>
    have hhere : Text.cut? w (w ++ rest) = some ([], rest) := by
      obtain ⟨d, v, rfl⟩ := List.exists_cons_of_ne_nil hw
      have hd : Text.dropPrefix? (d :: v) (d :: (v ++ rest)) = some rest := dropPrefix?_append (d :: v) rest
      rw [List.cons_append, Text.cut?, hd]
    have hd : Text.dropPrefix? w (c :: (w ++ rest)) = none := dropPrefix?_eq_none_iff.2 (hfront (t := []) h)
    rw [List.nil_append, Text.cut?, hd, hhere]
    rfl
  | cons d before ih =>
    have hd : Text.dropPrefix? w (d :: (before ++ c :: (w ++ rest))) = none := dropPrefix?_eq_none_iff.2 (hfront (t := d :: before) h)
    rw [List.cons_append, Text.cut?, hd, ih fun hi => h (hi.trans (List.suffix_cons d before).isInfix)]
    rfl

theorem word?_append {w u : Text} (h : Scan.startsWith Text.isMark u = true) : Scan.word? w (w ++ ' ' :: u) = some u := by
  rw [Scan.word?, dropPrefix?_append, Option.bind_some, Scan.blanks?_space h]

theorem line?_of_not_mem {v : Text} (h : '\n' ∉ v) : Scan.line? v = some v := by
  have hs : Text.span Scan.notLineFeed (v ++ []) = (v, []) := by
    refine span_of_all (List.all_eq_true.2 fun c hc => ?_) rfl
    rw [Scan.notLineFeed, decide_eq_true_eq]
    rintro rfl
    exact h hc
  rw [List.append_nil] at hs
  rw [Scan.line?, hs]

/-- a run that nothing continues is read whole -/
theorem run?_append {p : Char → Bool} {run rest : Text} (hne : run ≠ []) (h : run.all p = true)
    (hr : Scan.startsWith p rest = false) : Scan.run? p (run ++ rest) = some (run, rest) := by
  have hspan : Text.span p (run ++ rest) = (run, rest) := span_of_all h hr
  cases run with
  | nil => exact absurd rfl hne
  | cons c r => rw [Scan.run?, hspan]

/-- a run ends before what cannot continue it -/
theorem span_append_of_stop {p : Char → Bool} {c : Char} (hc : p c = false) (t r : Text) :
    Text.span p (t ++ c :: r) = ((Text.span p t).1, (Text.span p t).2 ++ c :: r) := by
  induction t with
  | nil => simp [Text.span, hc]
  | cons d t ih =>
    obtain ⟨htake, hdrop⟩ := Prod.mk.inj ih
    by_cases hd : p d = true
    · simp [Text.span, hd, htake, hdrop]
    · simp [Text.span, hd]

theorem run?_append_of_stop {p : Char → Bool} {c : Char} (hc : p c = false) (t r : Text) :
    Scan.run? p (t ++ c :: r) = (Scan.run? p t).map fun found => (found.1, found.2 ++ c :: r) := by
  rw [Scan.run?, Scan.run?, span_append_of_stop hc]
  obtain ⟨run, rest⟩ := Text.span p t
  cases run <;> rfl

theorem run?_eq_none {p : Char → Bool} {t : Text} (h : Scan.startsWith p t = false) : Scan.run? p t = none := by
  have hspan : Text.span p ([] ++ t) = ([], t) := span_of_all rfl h
  rw [List.nil_append] at hspan
  rw [Scan.run?, hspan]

/-- a run of digits before white space is read whole -/
theorem run?_digits {key rest : Text} (hne : key ≠ []) (hk : key.all isDigit = true)
    (hr : Scan.startsWith isDigit rest = false) : Scan.run? isDigit (key ++ rest) = some (key, rest) :=
  run?_append hne hk hr

/-! ## Word characters -/

theorem isWord_hyphen : isWord '-' = false := by decide

theorem mem_of_inRanges {ranges : List (Nat × Nat)} {n : Nat} (h : inRanges ranges n = true) :
    n ∈ ranges.flatMap fun r => List.range' r.1 (r.2 + 1 - r.1) := by
  obtain ⟨r, hr, h⟩ := List.any_eq_true.1 h
  simp only [Bool.and_eq_true, decide_eq_true_eq] at h
  exact List.mem_flatMap.2 ⟨r, hr, List.mem_range'_1.2 (by omega)⟩

theorem not_isWord_of_isBlank {c : Char} (h : isBlank c = true) : isWord c = false ∧ isDigit c = false := by
  have h := mem_of_inRanges h
  rw [← Char.ofNat_toNat c]
  generalize c.toNat = n at h
  revert n h
  decide +kernel

theorem isMark_of_isWord {c : Char} (h : isWord c = true) : Text.isMark c = true := by
  rw [Text.isMark, Bool.not_eq_true']
  by_contra hb
  rw [(not_isWord_of_isBlank (by simpa using hb)).1] at h
  exact absurd h (by decide)

theorem isMark_of_isDigit {c : Char} (h : isDigit c = true) : Text.isMark c = true := by
  rw [Text.isMark, Bool.not_eq_true']
  by_contra hb
  rw [(not_isWord_of_isBlank (by simpa using hb)).2] at h
  exact absurd h (by decide)

theorem isLineEnd_of_isDigit {c : Char} (h : isDigit c = true) : Text.isLineEnd c = true := by
  rw [Text.isLineEnd, isMark_of_isDigit h, Bool.true_and, decide_eq_true_eq]
  rintro rfl
  exact absurd h (by decide)

theorem isMark_of_isWordOrHyphen {c : Char} (h : isWordOrHyphen c = true) : Text.isMark c = true := by
  rcases Bool.or_eq_true_iff.1 h with h | h
  · exact isMark_of_isWord h
  · rw [decide_eq_true_eq] at h
    subst h
    decide

theorem isLineEnd_of_isWordOrHyphen {c : Char} (h : isWordOrHyphen c = true) : Text.isLineEnd c = true := by
  rw [Text.isLineEnd, isMark_of_isWordOrHyphen h, Bool.true_and, decide_eq_true_eq]
  rintro rfl
  exact absurd h (by decide)

theorem isLineStart_of_isWordOrHyphen {c : Char} (h : isWordOrHyphen c = true) : Text.isLineStart c = true := by
  rw [Text.isLineStart, isMark_of_isWordOrHyphen h, Bool.true_and, decide_eq_true_eq]
  rintro rfl
  exact absurd h (by decide)

theorem lineFeed_not_mem_of_all {t : Text} (h : t.all isWordOrHyphen = true) : '\n' ∉ t :=
  fun hm => absurd (List.all_eq_true.1 h _ hm) (by decide)

/-- a character that a keyword comparison takes for a letter is a word character -/
theorem isWord_of_foldCase {c : Char} (h : isLetter (foldCase c) = true) : isWord c = true := by
  unfold foldCase at h
  split at h
  · rename_i hc
    have : isLetter c = true := by simp [isLetter, hc.1, hc.2]
    simp [isWord, this]
  · split at h
    · rename_i hc
      subst hc
      decide
    · split at h
      · rename_i hc
        have : c = Char.ofNat 0x212a := by rw [← hc, Char.ofNat_toNat]
        subst this
        decide +kernel
      · split at h
        · rename_i hc
          rcases hc with rfl | rfl <;> decide
        · simp [isWord, h]

/-! ## Names of words -/

namespace Scan

theorem all_of_isName {t : Text} (h : isName isWord t = true) : t.all isWordOrHyphen = true := by
  rw [isName_eq isWord_hyphen, Bool.and_eq_true] at h
  exact all_of_isNameTail h.2

theorem startsWith_of_isName {t : Text} (h : isName isWord t = true) : startsWith isWord t = true := by
  rw [isName_eq isWord_hyphen, Bool.and_eq_true] at h
  exact h.1

theorem isTight_of_isName {t : Text} (h : isName isWord t = true) : Text.IsTight t := by
  obtain ⟨c, r, rfl, hc⟩ := Text.exists_cons_of_startsWith (startsWith_of_isName h)
  exact Text.IsTight.of_all (fun _ => isMark_of_isWordOrHyphen) (by simp) (all_of_isName h)

/-- what stands after a name is not part of it when it starts with neither a word character nor a hyphen -/
theorem stops_of_startsWith {rest : Text} (h : startsWith isWordOrHyphen rest = false) : Stops isWord rest := by
  cases rest with
  | nil => exact stops_nil isWord
  | cons c r =>
    have hc : isWordOrHyphen c = false := h
    rw [isWordOrHyphen, Bool.or_eq_false_iff, decide_eq_false_iff_not] at hc
    exact stops_cons r hc.1 hc.2

theorem name?_isName {name rest : Text} (h : isName isWord name = true) (hr : startsWith isWordOrHyphen rest = false) :
    name? isWord (name ++ rest) = some (name, rest) :=
  (name?_eq_some_iff isWord_hyphen).2 ⟨rfl, h, stops_of_startsWith hr⟩

/-- a keyword in any letter case and white space after it are found before a name only if nothing of the name is left
over -/
theorem keyword?_name {keyword name s u : Text} (hk : (keyword.map foldCase).all isLetter = true)
    (hn : name.all isWordOrHyphen = true) (hs : startsWith isWordOrHyphen s = false)
    (h : keyword? keyword (name ++ s) = some u) : blanks? s = some u := by
  obtain ⟨r, hr, hb⟩ := Option.bind_eq_some_iff.1 h
  obtain ⟨pre, e, hfold⟩ := dropFolded?_eq_some hr
  rcases List.append_eq_append_iff.1 e with ⟨m, rfl, rfl⟩ | ⟨m, rfl, rfl⟩
  · cases m with
    | nil => exact hb
    | cons c m =>
      -- a letter of the keyword would stand outside the name
      have hletter : isLetter (foldCase c) = true :=
        List.all_eq_true.1 hk _ (by rw [← hfold]; exact List.mem_map_of_mem (by simp))
      have hc : isWordOrHyphen c = false := hs
      rw [isWordOrHyphen, isWord_of_foldCase hletter] at hc
      exact absurd hc (by simp)
  · cases m with
    | nil => exact hb
    | cons c m =>
      rw [List.all_append, List.all_cons, Bool.and_eq_true, Bool.and_eq_true] at hn
      have hc := isMark_of_isWordOrHyphen hn.2.1
      rw [List.cons_append, blanks?_eq_none (by simpa [startsWith, Text.isMark] using hc)] at hb
      exact absurd hb (by simp)

/-! ## The longest run -/

/-- of all runs at the beginning the longest is tried first, so a continuation that takes it decides -/
theorem longest_append {α : Type} {p : Char → Bool} {run rest : Text} {x : α} (h : run.all p = true)
    (hr : startsWith p rest = false) {k : Text → Text → Option α} (hk : k run rest = some x) :
    longest p k (run ++ rest) = some x := by
  induction run generalizing k with
  | nil =>
    cases rest with
    | nil => exact hk
    | cons c r =>
      have hc : p c = false := hr
      rw [List.nil_append, longest, if_neg (by simp [hc]), hk]
      rfl
  | cons c run ih =>
    rw [List.all_cons, Bool.and_eq_true] at h
    rw [List.cons_append, longest, if_pos h.1, ih h.2 hk]
    rfl

/-- where some run goes on, one is chosen -/
theorem longest_isSome {α : Type} {p : Char → Bool} {run rest : Text} (h : run.all p = true) {k : Text → Text → Option α}
    (hk : (k run rest).isSome = true) : (longest p k (run ++ rest)).isSome = true := by
  induction run generalizing k with
  | nil =>
    obtain ⟨x, hx⟩ := Option.isSome_iff_exists.1 hk
    cases rest with
    | nil => exact hk
    | cons c r =>
      rw [List.nil_append, longest, hx]
      cases (if p c then longest p (fun run rest => k (c :: run) rest) r else none) <;> rfl
  | cons c run ih =>
    rw [List.all_cons, Bool.and_eq_true] at h
    have hsome : (longest p (fun run rest => k (c :: run) rest) (run ++ rest)).isSome = true := ih h.2 hk
    obtain ⟨x, hx⟩ := Option.isSome_iff_exists.1 hsome
    rw [List.cons_append, longest, if_pos h.1, hx]
    rfl

/-- a choice that stands is a run of the class, and the rest -/
theorem exists_of_longest_all {α : Type} {p : Char → Bool} {k : Text → Text → Option α} {t : Text} {x : α}
    (h : longest p k t = some x) : ∃ run rest, t = run ++ rest ∧ run.all p = true ∧ k run rest = some x := by
  induction t generalizing k with
  | nil => exact ⟨[], [], rfl, rfl, h⟩
  | cons c r ih =>
    rw [longest, orElse_eq_some_iff, Option.ite_none_right_eq_some] at h
    rcases h with ⟨hc, h⟩ | ⟨_, h⟩
    · obtain ⟨run, rest, e, hall, hk⟩ := ih h
      exact ⟨c :: run, rest, by rw [e]; rfl, by rw [List.all_cons, hc, hall]; rfl, hk⟩
    · exact ⟨[], c :: r, rfl, rfl, h⟩

/-! ## The shortest run -/

/-- the shortest run is found when no shorter one fits -/
theorem shortest_append {α : Type} {p : Char → Bool} {k : Text → Text → Option α} {run : Text} (rest : Text) {x : α}
    (hp : run.all p = true) (hk : ∀ a c b, run = a ++ c :: b → k a (c :: b ++ rest) = none)
    (h : k run rest = some x) : shortest p k (run ++ rest) = some x := by
  induction run generalizing k with
  | nil =>
    cases rest with
    | nil => exact h
    | cons c r => simp [shortest, h]
  | cons c r ih =>
    simp only [List.all_cons, Bool.and_eq_true] at hp
    have h0 : k [] (c :: (r ++ rest)) = none := hk [] c r rfl
    rw [List.cons_append, shortest, h0, if_pos hp.1]
    exact ih (k := fun run rest => k (c :: run) rest) hp.2 (fun a d b e => hk (c :: a) d b (by rw [e]; rfl)) h

theorem shortest_eq_none {α : Type} {p : Char → Bool} {k : Text → Text → Option α} {t : Text}
    (h : ∀ run rest, t = run ++ rest → run.all p = true → k run rest = none) : shortest p k t = none := by
  induction t generalizing k with
  | nil => exact h [] [] rfl rfl
  | cons c r ih =>
    rw [shortest, h [] (c :: r) rfl rfl]
    by_cases hc : p c = true
    · rw [if_pos hc, ih fun run rest e hr => h (c :: run) rest (by rw [e]; rfl) (by simp [hc, hr])]
      rfl
    · rw [if_neg hc]
      rfl

/-- where some run goes on, one is chosen -/
theorem shortest_isSome {α : Type} {p : Char → Bool} {run rest : Text} (h : run.all p = true) {k : Text → Text → Option α}
    (hk : (k run rest).isSome = true) : (shortest p k (run ++ rest)).isSome = true := by
  induction run generalizing k with
  | nil =>
    obtain ⟨x, hx⟩ := Option.isSome_iff_exists.1 hk
    cases rest with
    | nil => exact hk
    | cons c r =>
      rw [List.nil_append, shortest, hx]
      rfl
  | cons c run ih =>
    rw [List.all_cons, Bool.and_eq_true] at h
    have hsome : (shortest p (fun run rest => k (c :: run) rest) (run ++ rest)).isSome = true := ih h.2 hk
    rw [List.cons_append, shortest, if_pos h.1]
    cases k [] (c :: (run ++ rest)) with
    | none => exact hsome
    | some x => rfl

/-- a choice that stands is the first: what is taken of it alone leaves no choice -/
theorem exists_of_shortest_first {α : Type} {p : Char → Bool} {k : Text → Text → Option α} {t : Text} {x : α}
    (h : shortest p k t = some x) :
    ∃ run rest, t = run ++ rest ∧ k run rest = some x ∧ ∀ a b, run = a ++ b → b ≠ [] → k a (b ++ rest) = none := by
  induction t generalizing k with
  | nil => exact ⟨[], [], rfl, h, fun a b he hb => absurd (List.append_eq_nil_iff.1 he.symm).2 hb⟩
  | cons c r ih =>
    rw [shortest, orElse_eq_some_iff, Option.ite_none_right_eq_some] at h
    rcases h with h | ⟨hnone, _, h⟩
    · exact ⟨[], c :: r, rfl, h, fun a b he hb => absurd (List.append_eq_nil_iff.1 he.symm).2 hb⟩
    · obtain ⟨run, rest, rfl, hk, hfirst⟩ := ih h
      refine ⟨c :: run, rest, rfl, hk, ?_⟩
      intro a b he hb
      cases a with
      | nil =>
        rw [List.nil_append] at he
        exact he ▸ hnone
      | cons d a =>
        obtain ⟨rfl, hrun⟩ := List.cons.inj he
        exact hfirst a b hrun hb

/-- a choice that stands is a run of the class, and the rest -/
theorem exists_of_shortest_all {α : Type} {p : Char → Bool} {k : Text → Text → Option α} {t : Text} {x : α}
    (h : shortest p k t = some x) : ∃ run rest, t = run ++ rest ∧ run.all p = true ∧ k run rest = some x := by
  induction t generalizing k with
  | nil => exact ⟨[], [], rfl, rfl, h⟩
  | cons c r ih =>
    rw [shortest, orElse_eq_some_iff, Option.ite_none_right_eq_some] at h
    rcases h with h | ⟨_, hc, h⟩
    · exact ⟨[], c :: r, rfl, rfl, h⟩
    · obtain ⟨run, rest, e, hall, hk⟩ := ih h
      exact ⟨c :: run, rest, by rw [e]; rfl, by rw [List.all_cons, hc, hall]; rfl, hk⟩

/-! ## Repetition -/

theorem many_of_none {α : Type} {item? : Text → Option (α × Text)} {t : Text} (h : item? t = none) : many item? t = ([], t) := by
  rw [many, h]

/-- an item that takes something, and then the others -/
theorem many_cons {α : Type} {item? : Text → Option (α × Text)} {t rest rest' : Text} {x : α} {xs : List α}
    (h : item? t = some (x, rest)) (hlt : rest.length < t.length) (hrest : many item? rest = (xs, rest')) :
    many item? t = (x :: xs, rest') := by
  rw [many, h]
  simp only
  rw [if_pos hlt, hrest]

/-- items are read one after the other, up to a text that holds none at its beginning -/
theorem many_append {α : Type} {item? : Text → Option (α × Text)} {items : List (Text × α)} {rest : Text}
    (h : ∀ i ∈ items, i.1 ≠ [] ∧ ∀ r, item? (i.1 ++ r) = some (i.2, r)) (hrest : item? rest = none) :
    many item? ((items.map Prod.fst).flatten ++ rest) = (items.map Prod.snd, rest) := by
  induction items with
  | nil => exact many_of_none hrest
  | cons i items ih =>
    obtain ⟨hne, hi⟩ := h i List.mem_cons_self
    rw [List.map_cons, List.flatten_cons, List.append_assoc]
    refine many_cons (hi _) ?_ (ih fun j hj => h j (List.mem_cons_of_mem i hj))
    exact (Nat.lt_add_of_pos_left (List.length_pos_iff.2 hne)).trans_eq List.length_append.symm

end Scan

end DiagramText

/-
Lines of a quadrant chart read back. A name ends where a place begins: a colon and two numbers in brackets, however they are
spelled (`isSome_pointTail?_iff`). A printed name without colons is found at once; one in quotes is, unless a place stands at
its beginning (`opensPlace_nameText`), since what is behind its first character was read as part of the name before. The other
rules are tried first, and a name without quotes is theirs when it starts with one of their keywords (`opensLine`).
-/
import DiagramText.Proofs.Accessibility
import DiagramText.Proofs.Number.Format
import DiagramText.Proofs.Number.Numeral
import DiagramText.Proofs.Text.Statement
import DiagramText.Proofs.Text.Words
import DiagramText.QuadrantChart

namespace DiagramText.QuadrantChart

open DiagramText.Text

variable {t u v r name m n : Text} {b : Fin 6 → Text} {x y : Decimal} {className : Option Text} {p : Point}

/-! ## Places -/

theorem afterMark?_append {c : Char} {b : Text} (hb : b.all isBlank = true) (hc : isMark c = true) (r : Text) :
    afterMark? c (b ++ c :: r) = some (Scan.blanks r) := by
  have hblanks : Scan.blanks (b ++ c :: r) = c :: r := (trimLeft_append hb).trans (trimLeft_of_startsWith hc)
  rw [afterMark?, hblanks]
  exact if_pos rfl

theorem exists_blanks_eq (t : Text) : ∃ b : Text, b.all isBlank = true ∧ t = b ++ Scan.blanks t :=
  ⟨t.takeWhile isBlank, List.all_takeWhile, List.takeWhile_append_dropWhile.symm⟩

theorem exists_of_afterMark? {c : Char} (h : afterMark? c t = some r) :
    ∃ b b' : Text, b.all isBlank = true ∧ b'.all isBlank = true ∧ t = b ++ c :: (b' ++ r) := by
  obtain ⟨b, hb, ht⟩ := exists_blanks_eq t
  rw [afterMark?] at h
  split at h
  · rename_i d s hs
    obtain ⟨rfl, hr⟩ := Option.ite_none_right_eq_some.1 h
    obtain ⟨b', hb', hrest⟩ := exists_blanks_eq s
    obtain rfl := Option.some.inj hr
    exact ⟨b, b', hb, hb', by rw [← hrest, ← hs, ← ht]⟩
  · exact absurd h (by simp)

/-- a colon and two numerals in brackets, with some texts around every part, and what follows -/
def placeText (b : Fin 6 → Text) (m n v : Text) : Text :=
  b 0 ++ ':' :: (b 1 ++ '[' :: (b 2 ++ (m ++ (b 3 ++ ',' :: (b 4 ++ (n ++ (b 5 ++ ']' :: v)))))))

theorem placeText_eq_append (b : Fin 6 → Text) (m n v : Text) : placeText b m n v = placeText b m n [] ++ v := by
  simp [placeText]

theorem startsWith_blank_append {p : Char → Bool} {b : Text} {c : Char} (hb : b.all isBlank = true)
    (hp : ∀ d, isBlank d = true → p d = false) (hc : p c = false) (r : Text) : Scan.startsWith p (b ++ c :: r) = false := by
  cases b with
  | nil => exact hc
  | cons d b =>
    rw [List.all_cons, Bool.and_eq_true] at hb
    exact hp d hb.1

theorem continuesNumeral_of_isBlank {c : Char} (h : isBlank c = true) : Decimal.continuesNumeral c = false := by
  have hdigit := (not_isWord_of_isBlank h).2
  simp only [Decimal.continuesNumeral, hdigit, Bool.false_or, Bool.or_eq_false_iff, decide_eq_false_iff_not]
  refine ⟨⟨?_, ?_⟩, ?_⟩ <;> rintro rfl <;> exact absurd h (by decide)

/-- **a place is read, however it is spelled** -/
theorem place?_placeText (hb : ∀ i, (b i).all isBlank = true) (hm : Decimal.ofText? m = some x) (hn : Decimal.ofText? n = some y)
    (v : Text) : place? (placeText b m n v) = some (x.value, y.value, items ',' (Scan.blanks v)) := by
  have hnumeral : ∀ {b n : Text} {x : Decimal}, b.all isBlank = true → Decimal.ofText? n = some x → ∀ r,
      Scan.blanks (b ++ (n ++ r)) = n ++ r := by
    intro b n x hb hn r
    have hfirst := (Decimal.isNumeral_iff.2 ⟨x, hn⟩).isTight.first
    exact (trimLeft_append hb).trans (trimLeft_of_startsWith (startsWith_append r hfirst))
  have hread : ∀ {b n : Text} {c : Char} {x : Decimal}, b.all isBlank = true → Decimal.continuesNumeral c = false →
      Decimal.ofText? n = some x → ∀ r, Decimal.read? (n ++ (b ++ c :: r)) = some (x, b ++ c :: r) := by
    intro b n c x hb hc hn r
    exact Decimal.read?_append hn (startsWith_blank_append hb (fun d => continuesNumeral_of_isBlank) hc r)
  have hcolon : ∀ r, afterMark? ':' (b 0 ++ ':' :: (b 1 ++ '[' :: r)) = some ('[' :: r) := by
    intro r
    have hblanks : Scan.blanks (b 1 ++ '[' :: r) = '[' :: r := (trimLeft_append (hb 1)).trans (trimLeft_of_startsWith rfl)
    rw [afterMark?_append (hb 0) rfl, hblanks]
  have hbracket : ∀ r, afterMark? '[' ('[' :: r) = some (Scan.blanks r) := fun r => afterMark?_append (b := []) rfl rfl r
  rw [place?, placeText, hcolon, Option.bind_some, hbracket, Option.bind_some, hnumeral (hb 2) hm,
    hread (hb 3) (by decide) hm, Option.bind_some]
  dsimp only
  rw [afterMark?_append (hb 3) rfl, Option.bind_some, hnumeral (hb 4) hn, hread (hb 5) (by decide) hn, Option.bind_some]
  dsimp only
  rw [afterMark?_append (hb 5) rfl]
  rfl

/-- **what is read as a place is one** -/
theorem exists_of_place? {place : Binary64 × Binary64 × List Text} (h : place? t = some place) :
    ∃ (b : Fin 6 → Text) (m n v : Text), (∀ i, (b i).all isBlank = true) ∧ Decimal.IsNumeral m ∧ Decimal.IsNumeral n ∧
      t = placeText b m n v ∧ place.2.2 = items ',' v := by
  obtain ⟨⟨x, t₁⟩, hfirst, h⟩ := Option.bind_eq_some_iff.1 h
  obtain ⟨t₂, hcolon, hfirst⟩ := Option.bind_eq_some_iff.1 hfirst
  obtain ⟨t₃, hbracket, hx⟩ := Option.bind_eq_some_iff.1 hfirst
  obtain ⟨⟨y, t₄⟩, hsecond, h⟩ := Option.bind_eq_some_iff.1 h
  obtain ⟨t₅, hcomma, hy⟩ := Option.bind_eq_some_iff.1 hsecond
  obtain ⟨styles, hclose, rfl⟩ := Option.map_eq_some_iff.1 h
  obtain ⟨m, ht₃, hm⟩ := Decimal.exists_of_read? hx
  obtain ⟨n, ht₅, hn⟩ := Decimal.exists_of_read? hy
  obtain ⟨b₀, b₁, hb₀, hb₁, rfl⟩ := exists_of_afterMark? hcolon
  obtain ⟨b₁', b₂, hb₁', hb₂, rfl⟩ := exists_of_afterMark? hbracket
  obtain ⟨b₃, b₄, hb₃, hb₄, rfl⟩ := exists_of_afterMark? hcomma
  obtain ⟨b₅, b₆, hb₅, hb₆, rfl⟩ := exists_of_afterMark? hclose
  have hcommaBlank : ',' ∉ b₆ := fun hmem => absurd (List.all_eq_true.1 hb₆ _ hmem) (by decide)
  refine ⟨![b₀, b₁ ++ b₁', b₂, b₃, b₄, b₅], m, n, b₆ ++ styles, ?_, hm, hn, ?_, (items_blank_append hb₆ hcommaBlank styles).symm⟩
  · intro i
    fin_cases i <;> simp_all
  · simp [placeText, ht₃, ht₅]

/-! ## What may follow a name -/

/-- a style class, if there is one, and a place -/
def tailText (className : Option Text) (place : Text) : Text :=
  match className with
  | some c => ":::" ++ (c ++ place)
  | none => place

theorem tailText_eq_append (className : Option Text) (b : Fin 6 → Text) (m n v : Text) :
    tailText className (placeText b m n v) = tailText className (placeText b m n []) ++ v := by
  cases className <;> simp [tailText, placeText]

theorem startsWith_placeText (hb : ∀ i, (b i).all isBlank = true) (m n v : Text) :
    Scan.startsWith isWordOrHyphen (placeText b m n v) = false :=
  startsWith_blank_append (hb 0) (fun d hd => by
    rw [isWordOrHyphen, (not_isWord_of_isBlank hd).1, Bool.false_or, decide_eq_false_iff_not]
    rintro rfl
    exact absurd hd (by decide)) (by decide) _

/-- no style class is written with the colon of a place -/
theorem dropPrefix?_placeText (hb : ∀ i, (b i).all isBlank = true) (m n v : Text) :
    dropPrefix? ":::" (placeText b m n v) = none := by
  rw [Option.eq_none_iff_forall_not_mem]
  intro r hr
  have hcolons : placeText b m n v = ':' :: ':' :: ':' :: r := dropPrefix?_eq_some_iff.1 hr
  have hblank : ∀ d, isBlank d = true → decide (d = ':') = false := by
    intro d hd
    rw [decide_eq_false_iff_not]
    rintro rfl
    exact absurd hd (by decide)
  rw [placeText] at hcolons
  cases h₀ : b 0 with
  | nil =>
    rw [h₀] at hcolons
    have hnext := startsWith_blank_append (hb 1) hblank (by decide : decide ('[' = ':') = false)
      (b 2 ++ (m ++ (b 3 ++ ',' :: (b 4 ++ (n ++ (b 5 ++ ']' :: v))))))
    rw [(List.cons.inj hcolons).2] at hnext
    exact absurd hnext (by simp [Scan.startsWith])
  | cons d ds =>
    rw [h₀] at hcolons
    have hd := hb 0
    rw [h₀, (List.cons.inj hcolons).1, List.all_cons, Bool.and_eq_true] at hd
    exact absurd hd.1 (by decide)

/-- **what may follow a name is read, however it is spelled** -/
theorem pointTail?_tailText (hclass : ∀ c, className = some c → IsId c) (hb : ∀ i, (b i).all isBlank = true)
    (hm : Decimal.ofText? m = some x) (hn : Decimal.ofText? n = some y) (name v : Text) :
    pointTail? name (tailText className (placeText b m n v)) = some ⟨name, x.value, y.value, className, items ',' (Scan.blanks v)⟩ := by
  have hplace := place?_placeText hb hm hn v
  cases className with
  | none =>
    rw [tailText, pointTail?, dropPrefix?_placeText hb, hplace]
    rfl
  | some c =>
    have hrun : Scan.run? isWordOrHyphen (c ++ placeText b m n v) = some (c, placeText b m n v) :=
      (hclass c rfl).run?_append (startsWith_placeText hb m n v)
    rw [tailText, pointTail?, dropPrefix?_append, Option.bind_some, hrun, Option.bind_some]
    dsimp only
    rw [hplace]
    rfl

/-- **what is read behind a name is a style class and a place** -/
theorem exists_of_pointTail? (h : pointTail? name t = some p) :
    ∃ (b : Fin 6 → Text) (m n v : Text), (∀ c, p.className = some c → IsId c) ∧ (∀ i, (b i).all isBlank = true) ∧
      Decimal.IsNumeral m ∧ Decimal.IsNumeral n ∧ t = tailText p.className (placeText b m n v) ∧ p.name = name ∧
      p.styles = items ',' v := by
  rcases Scan.orElse_eq_some_iff.1 h with h | ⟨-, h⟩
  · obtain ⟨⟨c, rest⟩, hclass, h⟩ := Option.bind_eq_some_iff.1 h
    obtain ⟨place, hplace, rfl⟩ := Option.map_eq_some_iff.1 h
    obtain ⟨r, hr, hclass⟩ := Option.bind_eq_some_iff.1 hclass
    obtain ⟨hne, hall, -⟩ := Scan.run?_eq_some hclass
    obtain ⟨b, m, n, v, hb, hm, hn, hrest, hstyles⟩ := exists_of_place? hplace
    refine ⟨b, m, n, v, ?_, hb, hm, hn, ?_, rfl, hstyles⟩
    · intro c' hc'
      exact Option.some.inj hc' ▸ ⟨hne, hall⟩
    · rw [dropPrefix?_eq_some_iff.1 hr, Scan.run?_eq_append hclass, hrest]
      rfl
  · obtain ⟨place, hplace, rfl⟩ := Option.map_eq_some_iff.1 h
    obtain ⟨b, m, n, v, hb, hm, hn, rfl, hstyles⟩ := exists_of_place? hplace
    exact ⟨b, m, n, v, by simp, hb, hm, hn, rfl, rfl, hstyles⟩

/-- something may follow a name, whatever the name, where a style class and a place stand -/
theorem isSome_pointTail?_iff (name : Text) : (pointTail? name t).isSome = true ↔
    ∃ (className : Option Text) (b : Fin 6 → Text) (m n v : Text), (∀ c, className = some c → IsId c) ∧
      (∀ i, (b i).all isBlank = true) ∧ Decimal.IsNumeral m ∧ Decimal.IsNumeral n ∧ t = tailText className (placeText b m n v) := by
  rw [Option.isSome_iff_exists]
  constructor
  · rintro ⟨p, hp⟩
    obtain ⟨b, m, n, v, hclass, hb, hm, hn, ht, -⟩ := exists_of_pointTail? hp
    exact ⟨p.className, b, m, n, v, hclass, hb, hm, hn, ht⟩
  · rintro ⟨className, b, m, n, v, hclass, hb, hm, hn, rfl⟩
    obtain ⟨x, hx⟩ := Decimal.isNumeral_iff.1 hm
    obtain ⟨y, hy⟩ := Decimal.isNumeral_iff.1 hn
    exact ⟨_, pointTail?_tailText hclass hb hx hy name v⟩

/-- whether a text starts like what may follow a name -/
def opensPlace (t : Text) : Bool := (pointTail? [] t).isSome

/-- whether something may follow does not depend on the name -/
theorem pointTail?_eq_none_iff (name : Text) : pointTail? name t = none ↔ opensPlace t = false := by
  rw [← Option.not_isSome_iff_eq_none, isSome_pointTail?_iff, ← isSome_pointTail?_iff [], opensPlace, Bool.not_eq_true]

/-- the beginning decides -/
theorem opensPlace_append (h : opensPlace t = true) (u : Text) : opensPlace (t ++ u) = true := by
  obtain ⟨className, b, m, n, v, hclass, hb, hm, hn, rfl⟩ := (isSome_pointTail?_iff []).1 h
  refine (isSome_pointTail?_iff []).2 ⟨className, b, m, n, v ++ u, hclass, hb, hm, hn, ?_⟩
  rw [tailText_eq_append, tailText_eq_append className b m n (v ++ u), List.append_assoc]

/-- a place begins with a colon, white space aside -/
theorem exists_blanks_of_opensPlace (h : opensPlace t = true) : ∃ r, Scan.blanks t = ':' :: r := by
  obtain ⟨className, b, m, n, v, hclass, hb, hm, hn, rfl⟩ := (isSome_pointTail?_iff []).1 h
  cases className with
  | none => exact ⟨_, (trimLeft_append (hb 0)).trans (trimLeft_of_startsWith rfl)⟩
  | some c => exact ⟨_, rfl⟩

/-- a place holds neither quotes nor number signs -/
theorem not_mem_tailText {c : Char} (hc : c = '"' ∨ c = '#') (hclass : ∀ c, className = some c → IsId c)
    (hb : ∀ i, (b i).all isBlank = true) (hm : Decimal.IsNumeral m) (hn : Decimal.IsNumeral n) :
    c ∉ tailText className (placeText b m n []) := by
  have hblank : ∀ i, c ∉ b i := by
    intro i hmem
    have := List.all_eq_true.1 (hb i) c hmem
    rcases hc with rfl | rfl <;> exact absurd this (by decide)
  have hnumeral : ∀ {n : Text}, Decimal.IsNumeral n → c ∉ n := by
    intro n hn hmem
    have hall : n.all (fun d => d ≠ '"' && d ≠ '#') = true := hn.all
      (fun d hd => by
        simp only [Bool.and_eq_true, decide_eq_true_eq]
        constructor <;> rintro rfl <;> exact absurd hd (by decide))
      (fun d hd => by
        simp only [Bool.and_eq_true, decide_eq_true_eq]
        constructor <;> rintro rfl <;> exact absurd hd (by decide))
    have := List.all_eq_true.1 hall c hmem
    rcases hc with rfl | rfl <;> exact absurd this (by decide)
  have hplace : c ∉ placeText b m n [] := by
    simp only [placeText, List.mem_append, List.mem_cons, List.not_mem_nil, hblank, hnumeral hm, hnumeral hn, false_or, or_false,
      not_or]
    rcases hc with rfl | rfl <;> decide
  cases className with
  | none => exact hplace
  | some name =>
    have hname : c ∉ name := by
      intro hmem
      have := List.all_eq_true.1 (hclass name rfl).all c hmem
      rcases hc with rfl | rfl <;> exact absurd this (by decide)
    simp only [tailText, List.mem_append, hname, hplace, or_false]
    rcases hc with rfl | rfl <;> decide

/-- **a place in an escaped text, up to the quote that ends it, is a place in the text** -/
theorem opensPlace_of_escape {r : Text} (h : opensPlace (t.flatMap escapeQuote ++ '"' :: r) = true) : opensPlace t = true := by
  obtain ⟨className, b, m, n, v, hclass, hb, hm, hn, ht⟩ := (isSome_pointTail?_iff []).1 h
  rw [tailText_eq_append] at ht
  have hquote := not_mem_tailText (Or.inl rfl) hclass hb hm hn
  have hsign := not_mem_tailText (Or.inr rfl) hclass hb hm hn
  -- the place ends before the quote
  have hfront : tailText className (placeText b m n []) <+: t.flatMap escapeQuote := by
    rcases List.append_eq_append_iff.1 ht with ⟨a, ha, hrest⟩ | ⟨a, ha, -⟩
    · cases a with
      | nil => exact ⟨[], by rw [List.append_nil, ha, List.append_nil]⟩
      | cons d a =>
        obtain ⟨rfl, -⟩ := List.cons.inj hrest
        exact absurd (ha ▸ by simp) hquote
    · exact ⟨a, ha.symm⟩
  obtain ⟨u, hu⟩ := prefix_of_prefix_escape hquote hsign hfront
  exact (isSome_pointTail?_iff []).2 ⟨className, b, m, n, u, hclass, hb, hm, hn, by rw [tailText_eq_append, hu]⟩

theorem opensPlace_eq_false {c : Char} (hc : isMark c = true) (hcolon : c ≠ ':') (t : Text) : opensPlace (c :: t) = false := by
  rw [← Bool.not_eq_true]
  intro h
  obtain ⟨r, hr⟩ := exists_blanks_of_opensPlace h
  rw [Scan.blanks_of_startsWith (t := c :: t) hc] at hr
  exact hcolon (List.cons.inj hr).1

/-- the end of an escaped text is an escaped text, or begins within an entity -/
theorem suffix_escape (h : u <:+ t.flatMap escapeQuote) :
    (∃ v, v <:+ t ∧ v.flatMap escapeQuote = u) ∨ ∃ d v, u = d :: v ∧ d ∈ quoteEntity := by
  induction t with
  | nil => exact Or.inl ⟨[], List.suffix_refl [], (List.suffix_nil.1 h).symm⟩
  | cons c t ih =>
    obtain ⟨a, ha⟩ := h
    rw [List.flatMap_cons] at ha
    rcases List.append_eq_append_iff.1 ha with ⟨m, hm, hu⟩ | ⟨m, -, hu⟩
    · cases m with
      | nil => exact Or.inl ⟨t, List.suffix_cons c t, hu.symm⟩
      | cons d m =>
        by_cases hc : c = '"'
        · have hd : d ∈ quoteEntity := by
            rw [escapeQuote, if_pos hc] at hm
            simp [hm]
          exact Or.inr ⟨d, _, hu, hd⟩
        · refine Or.inl ⟨c :: t, List.suffix_refl _, ?_⟩
          have hone : [c] = a ++ d :: m := by rwa [escapeQuote, if_neg hc] at hm
          obtain ⟨rfl, hnil⟩ : d = c ∧ m = [] := by
            cases a with
            | nil => exact ⟨(List.cons.inj hone).1.symm, (List.cons.inj hone).2.symm⟩
            | cons e a => exact absurd (List.cons.inj hone).2 (by simp)
          rw [hu, hnil, List.flatMap_cons, escapeQuote, if_neg hc]
    · rcases ih ⟨m, hu.symm⟩ with ⟨v, hv, hvu⟩ | hright
      · exact Or.inl ⟨v, hv.trans (List.suffix_cons c t), hvu⟩
      · exact Or.inr hright

/-! ## Names -/

/-- the name of a point as it is written -/
def nameText (name : Text) : Text := if needsQuotes name then quote name else name

/-- the styles of a point as they are written behind its place -/
def stylesText (styles : List Text) : Text := if styles = [] then [] else ' ' :: join ", " styles

theorem Point.toText_eq (p : Point) : p.toText = nameText p.name ++ tailText (present p.className)
    (placeText ![[], [' '], [], [], [' '], []] p.x.format p.y.format (stylesText p.styles)) := by
  have hplace : placeText ![[], [' '], [], [], [' '], []] p.x.format p.y.format (stylesText p.styles)
      = ": [" ++ p.x.format ++ ", " ++ p.y.format ++ "]" ++ stylesText p.styles := by simp [placeText]
  rw [hplace, Point.toText, nameText, stylesText]
  cases present p.className <;> simp [tailText]

/-- a name of a point that can be written: a place stands at most at its beginning -/
structure IsName (name : Text) : Prop where
  lineFeed : '\n' ∉ name
  semicolon : ';' ∉ name
  place : ∀ a b, name = a ++ b → a ≠ [] → opensPlace b = false

theorem needsQuotes_eq_false_iff : needsQuotes name = false ↔ ':' ∉ name ∧ '"' ∉ name ∧ trim name = name := by
  simp [needsQuotes, and_assoc]

/-- the rules that come before the rule for points, by the names that they claim -/
def opensLine (name : Text) : Bool :=
  (dropPrefix? "%%" name).isSome || name = "accTitle" || name = "accDescr"
    || (["title", "x-axis", "y-axis"] : List Text).any (fun w => (Scan.keyword? w name).isSome)
    || (["1", "2", "3", "4"] : List Text).any (fun w => ((dropKeyword? "quadrant-" name).bind (Scan.keyword? w)).isSome)
    || ((Scan.word? "classDef" name).bind (Scan.run? isWordOrHyphen)).any (fun found => Scan.startsWith isBlank found.2)

/-- a name that is told from the place behind it and from the beginnings of other lines -/
def IsUnmistakable (name : Text) : Prop :=
  if needsQuotes name then opensPlace name = false else name ≠ [] ∧ opensLine name = false

instance (name : Text) : Decidable (IsUnmistakable name) := inferInstanceAs (Decidable (ite _ _ _))

/-! ## Points read back -/

theorem trim_nameText (name : Text) : trim (nameText name) = nameText name := by
  rw [nameText]
  split
  · exact trim_of_isTight (isTight_quote name)
  · rename_i h
    exact (needsQuotes_eq_false_iff.1 (by simpa using h)).2.2

theorem unquote_nameText (h : ';' ∉ name) : unquote (nameText name) = name := by
  rw [nameText]
  split
  · exact unquote_quote_eq_self fun hwithin => h (hwithin.subset (by decide))
  · rename_i hbare
    have hquote := (needsQuotes_eq_false_iff.1 (by simpa using hbare)).2.1
    have hunquoted : isQuoted name = false := by
      cases name with
      | nil => rfl
      | cons c r =>
        rw [isQuoted]
        rintro r' hr
        exact hquote (by simp [(List.cons.inj hr).1])
    rw [unquote, hunquoted]
    rfl

/-- **nothing may follow a part of a printed name**: neither part of one in quotes nor part of one without colons -/
theorem opensPlace_nameText (hname : IsName name) (h : IsUnmistakable name) {a d : Text} {c : Char}
    (hsplit : nameText name = a ++ c :: d) (ha : a ≠ []) (tail : Text) : opensPlace (c :: d ++ tail) = false := by
  rw [IsUnmistakable] at h
  rw [nameText] at hsplit
  split at hsplit
  · -- behind the opening quote stands an escaped text, with a place neither in it nor at its beginning
    rename_i hquotes
    rw [if_pos hquotes] at h
    obtain ⟨e, a, rfl⟩ := List.exists_cons_of_ne_nil ha
    rw [quote_eq, List.cons_append] at hsplit
    obtain ⟨s, hs, hd⟩ : ∃ s, name.flatMap escapeQuote = a ++ s ∧ c :: d = s ++ ['"'] := by
      rcases List.append_eq_append_iff.1 (List.cons.inj hsplit).2 with ⟨s, rfl, hs⟩ | ⟨s, hs, hd⟩
      · cases s with
        | nil => exact ⟨[], by simp, hs.symm⟩
        | cons e s => exact absurd hs (by simp)
      · exact ⟨s, hs, hd⟩
    have hrest : c :: d ++ tail = s ++ '"' :: tail := by
      rw [hd, List.append_assoc]
      rfl
    rw [hrest]
    rcases suffix_escape ⟨a, hs.symm⟩ with ⟨v, ⟨w, hw⟩, rfl⟩ | ⟨e, v, rfl, he⟩
    · have hplace : opensPlace v = false := by
        cases w with
        | nil => rwa [← List.nil_append v, hw]
        | cons e w => exact hname.place (e :: w) v hw.symm (List.cons_ne_nil e w)
      rw [← Bool.not_eq_true] at hplace ⊢
      exact fun hopens => hplace (opensPlace_of_escape hopens)
    · have hentity : quoteEntity.all (fun e => isMark e && e ≠ ':') = true := by decide
      obtain ⟨hmark, hcolon⟩ := Bool.and_eq_true_iff.1 (List.all_eq_true.1 hentity e he)
      exact opensPlace_eq_false hmark (of_decide_eq_true hcolon) _
  · -- the part that is left starts with a mark of the name, which is no colon
    rename_i hbare
    obtain ⟨hcolon, -, htrim⟩ := needsQuotes_eq_false_iff.1 (by simpa using hbare)
    have hne : name ≠ [] := by
      rw [hsplit]
      simp
    have hlast := ((trim_eq_self_iff.1 htrim).resolve_left hne).last
    rw [hsplit] at hlast
    obtain ⟨e, r, hblanks, he⟩ := Scan.exists_blanks_append (endsWith_of_endsWith_append hlast (List.cons_ne_nil c d)) tail
    rw [← Bool.not_eq_true]
    intro hopens
    obtain ⟨r', hr'⟩ := exists_blanks_of_opensPlace hopens
    obtain rfl : e = ':' := (List.cons.inj (hblanks.symm.trans hr')).1
    exact hcolon (hsplit ▸ List.mem_append_right a he)

theorem nameText_ne_nil (h : IsUnmistakable name) : nameText name ≠ [] := by
  rw [nameText]
  split
  · exact (isTight_quote name).ne_nil
  · rename_i hbare
    rw [IsUnmistakable, if_neg hbare] at h
    exact h.1

/-- **a point is found behind its name** -/
theorem point?_nameText (hname : IsName name) (h : IsUnmistakable name) {tail : Text} (htail : pointTail? name tail = some p) :
    point? (nameText name ++ tail) = some p := by
  refine Scan.shortest_append tail (by simp) ?_ ?_
  · intro a c d hsplit
    by_cases ha : a = []
    · exact if_pos ha
    · rw [if_neg ha]
      exact (pointTail?_eq_none_iff _).2 (opensPlace_nameText hname h hsplit ha tail)
  · rw [if_neg (nameText_ne_nil h), trim_nameText, unquote_nameText hname.semicolon, htail]

/-- the rule for style classes needs white space behind the name of a class -/
theorem classDef?_eq_none (htight : IsTight name)
    (h : ((Scan.word? "classDef" name).bind (Scan.run? isWordOrHyphen)).any (fun found => Scan.startsWith isBlank found.2) = false)
    (r : Text) : classDef? (name ++ ':' :: r) = none := by
  rw [classDef?, Option.bind_eq_none_iff]
  rintro ⟨c, rest⟩ hfound
  obtain ⟨v, hv, hrun⟩ := Option.bind_eq_some_iff.1 hfound
  obtain ⟨u, hu, hblanks⟩ := Option.bind_eq_some_iff.1 hv
  rw [dropPrefix?_append_of_stop (by decide)] at hu
  obtain ⟨m, hm, rfl⟩ := Option.map_eq_some_iff.1 hu
  obtain ⟨hblank, rfl⟩ := Scan.blanks?_eq_some hblanks
  -- the keyword is found in the name, and what stands behind it there
  have hne : m ≠ [] := by
    rintro rfl
    exact Bool.false_ne_true hblank
  have hlast : endsWith isMark m = true := by
    have hend := htight.last
    rw [dropPrefix?_eq_some_iff.1 hm] at hend
    exact endsWith_of_endsWith_append hend hne
  have hword : Scan.word? "classDef" name = some (Scan.blanks m) := by
    have hfirst : Scan.startsWith isBlank m = true := by
      obtain ⟨d, m, rfl⟩ := List.exists_cons_of_ne_nil hne
      exact hblank
    rw [Scan.word?, hm, Option.bind_some, Scan.blanks?_of_startsWith hfirst]
  rw [Scan.blanks_append hlast, run?_append_of_stop (by decide)] at hrun
  obtain ⟨⟨c', rest'⟩, hrun', he⟩ := Option.map_eq_some_iff.1 hrun
  obtain ⟨rfl, rfl⟩ := Prod.mk.inj he
  rw [hword, Option.bind_some, hrun', Option.any_some] at h
  have hstop : Scan.startsWith isBlank (rest' ++ ':' :: r) = false := by
    cases rest' with
    | nil => rfl
    | cons d s => exact h
  dsimp only
  rw [Scan.optionalRest?, if_neg (by simp), Scan.blanks?_eq_none hstop]
  rfl

/-- the rule for quarters is found before a colon only in what stands there -/
theorem quarter?_eq_none
    (h : (["1", "2", "3", "4"] : List Text).any (fun w => ((dropKeyword? "quadrant-" name).bind (Scan.keyword? w)).isSome) = false)
    (r : Text) : quarter? (name ++ ':' :: r) = none := by
  have hcolon : ∀ w ∈ (["1", "2", "3", "4"] : List Text), ':' ∉ w.map foldCase := by decide
  have hdigit : ∀ w ∈ (["1", "2", "3", "4"] : List Text), ∀ q, ((dropKeyword? "quadrant-" (name ++ ':' :: r)).bind fun rest =>
      (Scan.keywordText? w rest).map fun text => Line.quarter q (unquote text)) = none := by
    intro w hw q
    have hname := (List.any_eq_false.1 h) w hw
    rw [Bool.not_eq_true, Option.isSome_eq_false_iff, Option.isNone_iff_eq_none, Option.bind_eq_none_iff] at hname
    rw [Option.bind_eq_none_iff]
    intro u hu
    rw [dropKeyword?, dropFolded?_append_of_stop (by decide)] at hu
    obtain ⟨m, hm, rfl⟩ := Option.map_eq_some_iff.1 hu
    rw [keywordText?_eq_none_of_colon (hcolon w hw) (hname m hm)]
    rfl
  rw [quarter?, List.findSome?_eq_none_iff]
  rintro ⟨w, q⟩ hwq
  refine hdigit w ?_ q
  simp only [List.mem_cons, Prod.mk.injEq, List.not_mem_nil, or_false] at hwq ⊢
  rcases hwq with ⟨rfl, -⟩ | ⟨rfl, -⟩ | ⟨rfl, -⟩ | ⟨rfl, -⟩ <;> simp

/-- the rules before the rule for points leave a line to it whose name is unmistakable -/
theorem read?_eq_point (h : IsUnmistakable name) (hr : '\n' ∉ r) :
    Line.read? (nameText name ++ ':' :: r) = (point? (nameText name ++ ':' :: r)).map .point := by
  rw [IsUnmistakable] at h
  rw [nameText]
  split
  · rw [quote_eq]
    rfl
  · rename_i hbare
    rw [if_neg hbare] at h
    obtain ⟨hcolon, -, htrim⟩ := needsQuotes_eq_false_iff.1 (by simpa using hbare)
    have htight := (trim_eq_self_iff.1 htrim).resolve_left h.1
    have hopens := h.2
    simp only [opensLine, Bool.or_eq_false_iff, decide_eq_false_iff_not] at hopens
    obtain ⟨⟨⟨⟨⟨-, htitle⟩, hdescription⟩, hkeywords⟩, hquarter⟩, hclass⟩ := hopens
    have haccessibility : Accessibility.line? (name ++ ':' :: r) = none :=
      (line?_eq_none_iff htight hcolon (b := []) rfl hr).2 ⟨htitle, hdescription⟩
    have hkeyword : ∀ w ∈ (["title", "x-axis", "y-axis"] : List Text), Scan.keywordText? w (name ++ ':' :: r) = none := by
      have hcolons : ∀ w ∈ (["title", "x-axis", "y-axis"] : List Text), ':' ∉ w.map foldCase := by decide
      intro w hw
      have hnone := List.any_eq_false.1 hkeywords w hw
      rw [Bool.not_eq_true, Option.isSome_eq_false_iff, Option.isNone_iff_eq_none] at hnone
      exact keywordText?_eq_none_of_colon (hcolons w hw) hnone r
    rw [Line.read?, haccessibility, hkeyword "title" (by decide), hkeyword "x-axis" (by decide), hkeyword "y-axis" (by decide),
      quarter?_eq_none hquarter, classDef?_eq_none htight hclass]
    rfl

/-- a point that can be written -/
structure Point.IsPlain (p : Point) : Prop where
  name : IsName p.name
  className : ∀ c, p.className = some c → IsId c
  styles : ∀ s ∈ p.styles, IsItem ',' s ∧ '\n' ∉ s ∧ ';' ∉ s

/-- a point whose coordinates are finite -/
def Point.IsFinite (p : Point) : Prop := p.x.isFinite = true ∧ p.y.isFinite = true

instance (p : Point) : Decidable p.IsFinite := inferInstanceAs (Decidable (_ ∧ _))

/-- a point with plus zero for minus zero -/
def Point.withoutMinusZero (p : Point) : Point := { p with x := p.x.withoutMinusZero, y := p.y.withoutMinusZero }

/-- styles behind a keyword or a place -/
theorem items_stylesText {styles : List Text} (h : ∀ s ∈ styles, IsItem ',' s) :
    items ',' (Scan.blanks (stylesText styles)) = styles := by
  rw [stylesText]
  split
  · rename_i hnil
    rw [hnil]
    rfl
  · rename_i hne
    have hfirst : Scan.startsWith isMark (join ", " styles) = true := startsWith_join hne fun s hs => (h s hs).tight.first
    have hspace : List.all [' '] isBlank = true := by decide
    rw [Scan.blanks_space, Scan.blanks_of_startsWith hfirst]
    exact items_join (b := []) rfl List.not_mem_nil hspace (by decide) h

theorem not_mem_stylesText {styles : List Text} {c : Char} (hspace : c ≠ ' ') (hcomma : c ≠ ',') (h : ∀ s ∈ styles, c ∉ s) :
    c ∉ stylesText styles := by
  rw [stylesText]
  split
  · exact List.not_mem_nil
  · intro hm
    rcases mem_of_mem_join (List.mem_of_ne_of_mem hspace hm) with hm | ⟨s, hs, hm⟩
    · rcases List.mem_cons.1 hm with rfl | hm
      · exact hcomma rfl
      · exact hspace (List.mem_singleton.1 hm)
    · exact h s hs hm

theorem endsWith_stylesText {styles : List Text} (h : ∀ s ∈ styles, IsItem ',' s ∧ ';' ∉ s) {t : Text}
    (ht : endsWith isLineEnd t = true) : endsWith isLineEnd (t ++ stylesText styles) = true := by
  rw [stylesText]
  split
  · rwa [List.append_nil]
  · rename_i hne
    refine endsWith_append t (endsWith_cons ' ' (endsWith_join hne fun s hs => ?_))
    obtain ⟨hitem, hsemicolon⟩ := h s hs
    exact endsWith_isLineEnd hitem.tight.last (not_endsWith_of_not_mem hsemicolon)

/-- the place of a point that is printed -/
def Point.placeText (p : Point) : Text :=
  QuadrantChart.placeText ![[], [' '], [], [], [' '], []] p.x.format p.y.format (stylesText p.styles)

theorem pointTail?_placeText (h : p.IsPlain) (hfinite : p.IsFinite) :
    pointTail? p.name (tailText p.className p.placeText) = some p.withoutMinusZero := by
  obtain ⟨x, hx, hxvalue⟩ := Binary64.exists_ofText?_format hfinite.1
  obtain ⟨y, hy, hyvalue⟩ := Binary64.exists_ofText?_format hfinite.2
  have hblank : ∀ i : Fin 6, List.all ((![[], [' '], [], [], [' '], []] : Fin 6 → Text) i) isBlank = true := by decide
  rw [Point.placeText, pointTail?_tailText h.className hblank hx hy, hxvalue, hyvalue,
    items_stylesText fun s hs => (h.styles s hs).1]
  rfl

theorem not_mem_tailText_placeText (h : p.IsPlain) (hfinite : p.IsFinite) {c : Char} (hword : isWordOrHyphen c = false)
    (hnumeral : isNumeralChar c = false) (hmark : c ∉ (": [],"  : Text)) (hstyles : ∀ s ∈ p.styles, c ∉ s) :
    c ∉ tailText p.className p.placeText := by
  have hmarks : c ≠ ':' ∧ c ≠ ' ' ∧ c ≠ '[' ∧ c ≠ ']' ∧ c ≠ ',' := by
    refine ⟨?_, ?_, ?_, ?_, ?_⟩ <;> rintro rfl <;> exact hmark (by decide)
  obtain ⟨hcolon, hspace, hopen, hclose, hcomma⟩ := hmarks
  have hplace : c ∉ p.placeText := by
    simp [Point.placeText, placeText, hcolon, hspace, hopen, hclose, hcomma, Binary64.not_mem_format hfinite.1 hnumeral,
      Binary64.not_mem_format hfinite.2 hnumeral, not_mem_stylesText hspace hcomma hstyles]
  cases hclass : p.className with
  | none => exact hplace
  | some name =>
    have hname : c ∉ name := fun hm => absurd (List.all_eq_true.1 (h.className name hclass).all c hm) (by rw [hword]; decide)
    simp [tailText, hcolon, hname, hplace]

/-- what stands behind the name of a point starts with a colon -/
theorem exists_tailText (h : p.IsPlain) (hfinite : p.IsFinite) :
    ∃ r, tailText p.className p.placeText = ':' :: r ∧ '\n' ∉ r := by
  have hlf := not_mem_tailText_placeText h hfinite (by decide) (by decide) (by decide) fun s hs => (h.styles s hs).2.1
  cases hclass : p.className with
  | none =>
    rw [hclass] at hlf
    exact ⟨_, rfl, fun hm => hlf (List.mem_cons_of_mem ':' hm)⟩
  | some name =>
    rw [hclass] at hlf
    exact ⟨_, rfl, fun hm => hlf (List.mem_cons_of_mem ':' hm)⟩

theorem Point.toText_eq_append (h : p.IsPlain) : p.toText = nameText p.name ++ tailText p.className p.placeText := by
  have hclass : present p.className = p.className := present_eq_self fun c hc => (h.className c hc).ne_nil
  rw [Point.toText_eq, hclass]
  rfl

/-- **a printed point is read as that point**, minus zero without its sign -/
theorem read?_toText (h : p.IsPlain) (hfinite : p.IsFinite) (hname : IsUnmistakable p.name) :
    Line.read? p.toText = some (.point p.withoutMinusZero) := by
  obtain ⟨r, hr, hlf⟩ := exists_tailText h hfinite
  have hpoint := point?_nameText h.name hname (pointTail?_placeText h hfinite)
  rw [Point.toText_eq_append h]
  rw [hr] at hpoint ⊢
  rw [read?_eq_point hname hlf, hpoint]
  rfl

/-- a point is a line of its own -/
theorem isContent_toText (h : p.IsPlain) (hfinite : p.IsFinite) (hname : IsUnmistakable p.name) :
    SourceLine.IsContent p.toText := by
  have hlast : endsWith isLineEnd (tailText p.className p.placeText) = true := by
    have hplace : ∀ t : Text, endsWith isLineEnd (t ++ p.placeText) = true := by
      intro t
      have hbracket : endsWith isLineEnd (t ++ placeText ![[], [' '], [], [], [' '], []] p.x.format p.y.format []) = true := by
        refine endsWith_append t (endsWith_append _ (endsWith_cons _ (endsWith_append _ (endsWith_cons _ (endsWith_append _ ?_)))))
        exact endsWith_append _ (endsWith_append _ (endsWith_cons _ (endsWith_append _ (endsWith_append _ (by decide)))))
      rw [Point.placeText, placeText_eq_append, ← List.append_assoc]
      exact endsWith_stylesText (fun s hs => ⟨(h.styles s hs).1, (h.styles s hs).2.2⟩) hbracket
    cases p.className with
    | none => exact hplace []
    | some c =>
      rw [tailText, ← List.append_assoc]
      exact hplace _
  have hlf : '\n' ∉ nameText p.name := by
    rw [nameText]
    split
    · exact lineFeed_not_mem_quote h.name.lineFeed
    · exact h.name.lineFeed
  obtain ⟨r, hr, hlfTail⟩ := exists_tailText h hfinite
  rw [Point.toText_eq_append h]
  refine ⟨?_, ?_, ?_, ?_⟩
  · have htight : IsTight (nameText p.name) := (trim_eq_self_iff.1 (trim_nameText p.name)).resolve_left (nameText_ne_nil hname)
    exact .append htight.first (endsWith_mono (fun _ hc => (Bool.and_eq_true_iff.1 hc).1) hlast)
  · rw [hr]
    simp [hlf, hlfTail]
  · exact endsWith_append _ (endsWith_mono (fun _ hc => (Bool.and_eq_true_iff.1 hc).2) hlast)
  · rw [hr]
    refine SourceLine.comment_append (nameText_ne_nil hname) ?_ (by decide) r
    rw [nameText]
    split
    · rw [quote_eq]
      rfl
    · rename_i hbare
      rw [IsUnmistakable, if_neg hbare] at hname
      have hopens := hname.2
      simp only [opensLine, Bool.or_eq_false_iff, Option.isSome_eq_false_iff, Option.isNone_iff_eq_none] at hopens
      exact hopens.1.1.1.1.1

/-! ## The other lines read back -/

theorem read?_accessibilityText {line : AccessibilityLine} (h : line.IsPlain) :
    Line.read? (accessibilityText line) = some (.accessibility line) := by
  rw [Line.read?, line?_accessibilityText h]
  rfl

theorem read?_title (h : IsTight t) : Line.read? ("title " ++ t) = some (.title t) := by
  have hnone : Accessibility.line? ("title " ++ t) = none := line?_eq_none rfl
  have htitle : Scan.keywordText? "title" ("title " ++ t) = some t := keywordText?_append h
  rw [Line.read?, hnone, htitle]
  rfl

/-- a label of an axis that can be written in quotes: the arrow between two labels is no part of the first one -/
structure Axis.IsPlain (a : Axis) : Prop where
  low : ∀ t, a.low = some t → t ≠ [] ∧ '\n' ∉ t ∧ ';' ∉ t ∧ ¬ ("-->" : Text) <:+: t
  high : ∀ t, a.high = some t → t ≠ [] ∧ '\n' ∉ t ∧ ';' ∉ t

theorem label?_quote (hne : t ≠ []) (hs : ';' ∉ t) {b : Text} (hb : b.all isBlank = true) : label? (quote t ++ b) = some t := by
  have htrim : trim (quote t ++ b) = quote t := by
    rw [trim, trimLeft_of_startsWith (startsWith_append b (isTight_quote t).first), trimRight_append hb,
      trimRight_of_endsWith (isTight_quote t).last]
  rw [label?, htrim, unquote_quote_eq_self fun hwithin => hs (hwithin.subset (by decide)), present_eq_some_iff]
  exact ⟨rfl, hne⟩

/-- an arrow is no part of a quoted text that does not hold it -/
theorem not_arrow_infix_quote (h : ¬ ("-->" : Text) <:+: t) : ¬ ("-->" : Text) <:+: quote t := by
  rintro ⟨a, r, hwithin⟩
  have hquote : '"' ∉ ("-->" : Text) := by decide
  have hsign : '#' ∉ ("-->" : Text) := by decide
  rw [quote_eq] at hwithin
  cases a with
  | nil => exact absurd hwithin (by simp)
  | cons d a =>
    rw [List.cons_append, List.cons_append] at hwithin
    -- the arrow stands before the quote at the end
    obtain ⟨u, hu⟩ : ∃ u, t.flatMap escapeQuote = a ++ ("-->" ++ u) := by
      rcases List.append_eq_append_iff.1 (List.cons.inj hwithin).2 with ⟨m, hm, -⟩ | ⟨m, hm, hrest⟩
      · exact ⟨m, by rw [hm, List.append_assoc]⟩
      · cases m with
        | nil => exact ⟨[], by rw [List.append_nil, hm, List.append_nil]⟩
        | cons e m =>
          obtain ⟨rfl, hnil⟩ := List.cons.inj hrest
          have hlast := congrArg List.getLast? hm
          rw [(List.append_eq_nil_iff.1 hnil.symm).1] at hlast
          simp at hlast
    rcases suffix_escape ⟨a, hu.symm⟩ with ⟨v, hv, hvu⟩ | ⟨d, v, hd, he⟩
    · exact h ((prefix_of_prefix_escape hquote hsign ⟨u, hvu.symm⟩).isInfix.trans hv.isInfix)
    · obtain rfl := (List.cons.inj hd).1
      exact absurd he (by decide)

/-- the labels of an axis as they are written behind its keyword -/
def Axis.labelsText? (a : Axis) : Option Text :=
  match a.low, a.high with
  | none, none => none
  | some low, none => some (quote low)
  | low, some high => some (quote (low.getD []) ++ ' ' :: ("-->" ++ ' ' :: quote high))

theorem Axis.toText?_eq (name : Text) (a : Axis) : a.toText? name = a.labelsText?.map fun labels => name ++ ' ' :: labels := by
  obtain ⟨low, high⟩ := a
  cases low <;> cases high <;> simp [Axis.toText?, Axis.labelsText?]

/-- **the labels of an axis are read back** -/
theorem ofText_labelsText {a : Axis} (h : a.IsPlain) {labels : Text} (hlabels : a.labelsText? = some labels) :
    Axis.ofText labels = a := by
  obtain ⟨low, high⟩ := a
  have hspace : List.all [' '] isBlank = true := by decide
  have harrow : ∀ t : Text, ¬ ("-->" : Text) <:+: t → ∀ r, cut? "-->" (quote t ++ ' ' :: ("-->" ++ r)) = some (quote t ++ [' '], r) :=
    fun t ht r => cut?_append (by decide) (by decide) (not_arrow_infix_quote ht) r
  cases high with
  | none =>
    cases low with
    | none => exact absurd hlabels (by simp [Axis.labelsText?])
    | some low =>
      obtain ⟨hne, -, hs, hwithin⟩ := h.low low rfl
      obtain rfl := Option.some.inj hlabels
      have hlow := label?_quote hne hs (List.all_nil : List.all [] isBlank = true)
      rw [List.append_nil] at hlow
      rw [Axis.ofText, cut?_eq_none_iff_not_infix.2 (not_arrow_infix_quote hwithin)]
      simp only [hlow]
  | some high =>
    obtain ⟨hne, -, hs⟩ := h.high high rfl
    have hhigh : label? (' ' :: quote high) = some high := by
      have htrim : label? (' ' :: quote high) = label? (quote high ++ []) := by
        rw [label?, label?, trim_space (isTight_quote high), List.append_nil, trim_of_isTight (isTight_quote high)]
      rw [htrim, label?_quote hne hs rfl]
    cases low with
    | none =>
      obtain rfl := Option.some.inj hlabels
      have hempty : label? (quote [] ++ [' ']) = none := by decide
      rw [Axis.ofText, Option.getD_none, harrow [] (by decide)]
      simp only [hempty, hhigh]
    | some low =>
      obtain ⟨hneLow, -, hsLow, hwithin⟩ := h.low low rfl
      obtain rfl := Option.some.inj hlabels
      rw [Axis.ofText, Option.getD_some, harrow low hwithin]
      simp only [label?_quote hneLow hsLow hspace, hhigh]

theorem isTight_labelsText {a : Axis} {labels : Text} (hlabels : a.labelsText? = some labels) :
    Scan.startsWith isMark labels = true ∧ endsWith isLineEnd labels = true := by
  obtain ⟨low, high⟩ := a
  cases high with
  | none =>
    cases low with
    | none => exact absurd hlabels (by simp [Axis.labelsText?])
    | some low => exact Option.some.inj hlabels ▸ ⟨(isTight_quote low).first, endsWith_quote low⟩
  | some high =>
    have htext : quote (low.getD []) ++ ' ' :: ("-->" ++ ' ' :: quote high) = labels := by
      cases low <;> exact Option.some.inj hlabels
    rw [← htext]
    exact ⟨startsWith_append _ (isTight_quote _).first,
      endsWith_append _ (endsWith_cons ' ' (endsWith_append _ (endsWith_cons ' ' (endsWith_quote high))))⟩

theorem lineFeed_not_mem_labelsText {a : Axis} (h : a.IsPlain) {labels : Text} (hlabels : a.labelsText? = some labels) :
    '\n' ∉ labels := by
  obtain ⟨low, high⟩ := a
  cases high with
  | none =>
    cases low with
    | none => exact absurd hlabels (by simp [Axis.labelsText?])
    | some low => exact Option.some.inj hlabels ▸ lineFeed_not_mem_quote (h.low low rfl).2.1
  | some high =>
    have htext : quote (low.getD []) ++ ' ' :: ("-->" ++ ' ' :: quote high) = labels := by
      cases low <;> exact Option.some.inj hlabels
    have hlow : '\n' ∉ quote (low.getD []) := by
      cases low with
      | none => decide
      | some low => exact lineFeed_not_mem_quote (h.low low rfl).2.1
    rw [← htext]
    simp [hlow, lineFeed_not_mem_quote (h.high high rfl).2.1]

/-- **an axis is read back**, by the rule of its keyword -/
theorem read?_axis {a : Axis} (h : a.IsPlain) {labels : Text} (hlabels : a.labelsText? = some labels) :
    Line.read? ("x-axis" ++ ' ' :: labels) = some (.xAxis a) ∧ Line.read? ("y-axis" ++ ' ' :: labels) = some (.yAxis a) := by
  obtain ⟨hfirst, hlast⟩ := isTight_labelsText hlabels
  have htight : IsTight labels := ⟨hfirst, endsWith_mono (fun _ hc => (Bool.and_eq_true_iff.1 hc).1) hlast⟩
  have hx : Scan.keywordText? "x-axis" ("x-axis" ++ ' ' :: labels) = some labels := keywordText?_append htight
  have hy : Scan.keywordText? "y-axis" ("y-axis" ++ ' ' :: labels) = some labels := keywordText?_append htight
  have haccessibility : ∀ w : Text, dropPrefix? "acc" w = none → Accessibility.line? w = none := fun w => line?_eq_none
  have hnone : Scan.keywordText? "title" ("x-axis" ++ ' ' :: labels) = none ∧
      Scan.keywordText? "title" ("y-axis" ++ ' ' :: labels) = none ∧
      Scan.keywordText? "x-axis" ("y-axis" ++ ' ' :: labels) = none := ⟨rfl, rfl, rfl⟩
  constructor
  · rw [Line.read?, haccessibility _ rfl, hnone.1, hx, Option.map_some, ofText_labelsText h hlabels]
    rfl
  · rw [Line.read?, haccessibility _ rfl, hnone.2.1, hnone.2.2, hy, Option.map_some, ofText_labelsText h hlabels]
    rfl

theorem isContent_axis {name : Text} (hname : Scan.startsWith isLineStart name = true) (hlf : '\n' ∉ name) {a : Axis}
    (h : a.IsPlain) {labels : Text} (hlabels : a.labelsText? = some labels) : SourceLine.IsContent (name ++ ' ' :: labels) := by
  refine .keyword hname hlf (endsWith_append _ (endsWith_cons ' ' (isTight_labelsText hlabels).2)) ?_
  simp [lineFeed_not_mem_labelsText h hlabels]

/-- the number of a quarter -/
def Quarter.number : Quarter → Text
  | .first => "1"
  | .second => "2"
  | .third => "3"
  | .fourth => "4"

/-- the label of a quarter on its line -/
def Quarter.toText (q : Quarter) (label : Text) : Text := "quadrant-" ++ (q.number ++ ' ' :: label)

/-- **a label without quotes around it is read back** -/
theorem read?_quarter (q : Quarter) (ht : IsTight t) (hquoted : isQuoted t = false) :
    Line.read? (q.toText t) = some (.quarter q t) := by
  have hunquote : unquote t = t := by
    rw [unquote, hquoted]
    rfl
  have hnumber : Scan.keywordText? q.number (q.number ++ ' ' :: t) = some t := keywordText?_append ht
  have hother : ∀ q' : Quarter, q' ≠ q → Scan.keywordText? q'.number (q.number ++ ' ' :: t) = none := by
    intro q' hne
    cases q <;> cases q' <;> first | exact absurd rfl hne | rfl
  have hquarter : quarter? (q.toText t) = some (.quarter q t) := by
    have hdrop : dropKeyword? "quadrant-" (q.toText t) = some (q.number ++ ' ' :: t) := dropKeyword?_append _ _
    have hfind : ∀ qs : List Quarter, q ∈ qs → (qs.map fun q' => (q'.number, q')).findSome? (fun x =>
        (Scan.keywordText? x.1 (q.number ++ ' ' :: t)).map fun text => Line.quarter x.2 (unquote text)) = some (.quarter q t) := by
      intro qs hq
      induction qs with
      | nil => exact absurd hq List.not_mem_nil
      | cons q' qs ih =>
        rw [List.map_cons, List.findSome?_cons]
        by_cases hq' : q' = q
        · simp only [hq', hnumber, Option.map_some, hunquote]
        · simp only [hother q' hq', Option.map_none]
          exact ih ((List.mem_cons.1 hq).resolve_left (Ne.symm hq'))
    rw [quarter?]
    simp only [hdrop, Option.bind_some]
    exact hfind [.first, .second, .third, .fourth] (by cases q <;> decide)
  have haccessibility : Accessibility.line? (q.toText t) = none := line?_eq_none rfl
  have hkeywords : Scan.keywordText? "title" (q.toText t) = none ∧ Scan.keywordText? "x-axis" (q.toText t) = none ∧
      Scan.keywordText? "y-axis" (q.toText t) = none := ⟨rfl, rfl, rfl⟩
  rw [Line.read?, haccessibility, hkeywords.1, hkeywords.2.1, hkeywords.2.2, hquarter]
  rfl

theorem isContent_quarter (q : Quarter) (ht : endsWith isLineEnd t = true) (hlf : '\n' ∉ t) : SourceLine.IsContent (q.toText t) := by
  have hnumber : '\n' ∉ q.number := by cases q <;> decide
  refine .keyword (by decide) (by decide) (endsWith_append _ (endsWith_append _ (endsWith_cons ' ' ht))) ?_
  simp [hnumber, hlf]

/-- the definition of a style class on a line -/
def classDefText (name : Text) (styles : List Text) : Text := "classDef" ++ ' ' :: (name ++ stylesText styles)

/-- **the definition of a style class is read back** -/
theorem read?_classDef (h : IsId name) {styles : List Text} (hs : ∀ s ∈ styles, IsItem ',' s) :
    Line.read? (classDefText name styles) = some (.classDef name styles) := by
  have hword : Scan.word? "classDef" (classDefText name styles) = some (name ++ stylesText styles) :=
    word?_append (startsWith_append _ h.isTight.first)
  have hstop : Scan.startsWith isWordOrHyphen (stylesText styles) = false := by
    rw [stylesText]
    split <;> rfl
  have hrest : ∃ rest, Scan.optionalRest? (stylesText styles) = some rest ∧ items ',' rest = styles := by
    have hitems := items_stylesText hs
    rw [Scan.optionalRest?]
    split
    · rename_i hnil
      rw [hnil] at hitems
      exact ⟨[], rfl, hitems⟩
    · rename_i hne
      have hblank : Scan.startsWith isBlank (stylesText styles) = true := by
        rw [stylesText] at hne ⊢
        split at hne
        · exact absurd rfl hne
        · rename_i hstyles
          rw [if_neg hstyles]
          rfl
      exact ⟨_, Scan.blanks?_of_startsWith hblank, hitems⟩
  obtain ⟨rest, hrest, hitems⟩ := hrest
  have hclass : classDef? (classDefText name styles) = some (.classDef name styles) := by
    rw [classDef?, hword, Option.bind_some, h.run?_append hstop, Option.bind_some]
    dsimp only
    rw [hrest, Option.map_some, hitems]
  have haccessibility : Accessibility.line? (classDefText name styles) = none := line?_eq_none rfl
  have hkeywords : Scan.keywordText? "title" (classDefText name styles) = none ∧
      Scan.keywordText? "x-axis" (classDefText name styles) = none ∧
      Scan.keywordText? "y-axis" (classDefText name styles) = none := ⟨rfl, rfl, rfl⟩
  have hquarter : quarter? (classDefText name styles) = none := rfl
  rw [Line.read?, haccessibility, hkeywords.1, hkeywords.2.1, hkeywords.2.2, hquarter, hclass]
  rfl

theorem isContent_classDef (h : IsId name) {styles : List Text} (hs : ∀ s ∈ styles, IsItem ',' s ∧ '\n' ∉ s ∧ ';' ∉ s) :
    SourceLine.IsContent (classDefText name styles) := by
  have hlf := not_mem_stylesText (by decide : '\n' ≠ ' ') (by decide) fun s hmem => (hs s hmem).2.1
  have hlast : endsWith isLineEnd ("classDef" ++ ' ' :: name) = true := endsWith_append _ (endsWith_cons ' ' h.endsWith)
  have hend := endsWith_stylesText (fun s hmem => ⟨(hs s hmem).1, (hs s hmem).2.2⟩) hlast
  refine .keyword (by decide) (by decide) ?_ ?_
  · rwa [List.append_assoc] at hend
  · simp [h.lineFeed, hlf]

/-- the space before styles that there are none of would be trimmed away -/
theorem trimRight_classDef {margin : Text} (h : IsId name) {styles : List Text} (hs : ∀ s ∈ styles, IsItem ',' s) :
    trimRight (margin ++ "classDef " ++ name ++ " " ++ join ", " styles) = margin ++ classDefText name styles := by
  have hline : margin ++ "classDef " ++ name ++ " " ++ join ", " styles
      = margin ++ ("classDef" ++ ' ' :: name) ++ ([' '] ++ join ", " styles) := by simp
  have hlast : endsWith isMark (margin ++ ("classDef" ++ ' ' :: name)) = true :=
    endsWith_append _ (endsWith_append _ (endsWith_cons ' ' h.isTight.last))
  have htext : margin ++ classDefText name styles = margin ++ ("classDef" ++ ' ' :: name) ++ stylesText styles :=
    (List.append_assoc margin ("classDef" ++ ' ' :: name) (stylesText styles)).symm
  rw [hline, htext, stylesText]
  split
  · rename_i hnil
    have hblank : List.all ([' '] ++ join ", " styles) isBlank = true := by
      rw [hnil]
      decide
    rw [trimRight_append hblank, trimRight_of_endsWith hlast, List.append_nil]
  · rename_i hne
    have hstyles : endsWith isMark (join ", " styles) = true := endsWith_join hne fun s hmem => (hs s hmem).tight.last
    exact trimRight_of_endsWith (endsWith_append _ (endsWith_cons ' ' hstyles))

end DiagramText.QuadrantChart

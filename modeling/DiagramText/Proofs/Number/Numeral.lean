/-
Numerals as a grammar: a sign, digits of any script around a point, and an exponent, where only the digits are needed. The
reader finds exactly the numerals: what it takes is one (`exists_of_read?`), and one is taken whole wherever no character
that could continue it follows (`exists_read?_append`).
-/
import DiagramText.Proofs.Number.Decimal

namespace DiagramText.Decimal

/-! ## The grammar -/

/-- one of the two signs, or none -/
inductive IsSign : Text → Prop where
  | none : IsSign []
  | plus : IsSign ['+']
  | minus : IsSign ['-']

/-- at least one digit, of any script -/
structure IsDigits (t : Text) : Prop where
  ne_nil : t ≠ []
  all : t.all isDigit = true

/-- digits with a point or without, of which one side may have none -/
inductive IsSignificand : Text → Prop where
  | whole {w : Text} (hw : IsDigits w) : IsSignificand w
  | pointed {w f : Text} (hw : IsDigits w) (hf : f.all isDigit = true) : IsSignificand (w ++ '.' :: f)
  | fraction {f : Text} (hf : IsDigits f) : IsSignificand ('.' :: f)

/-- a mark, a sign and digits, or nothing -/
inductive IsExponent : Text → Prop where
  | none : IsExponent []
  | marked {mark : Char} {s ds : Text} (hmark : mark = 'e' ∨ mark = 'E') (hs : IsSign s) (hds : IsDigits ds) :
    IsExponent (mark :: (s ++ ds))

/-- a sign, digits and an exponent -/
inductive IsNumeral : Text → Prop where
  | mk {s m x : Text} (hs : IsSign s) (hm : IsSignificand m) (hx : IsExponent x) : IsNumeral (s ++ (m ++ x))

/-- a character that may be part of a numeral after its first digit -/
def continuesNumeral (c : Char) : Bool := isDigit c || c = '.' || c = 'e' || c = 'E'

/-- a sign, a point or the mark of an exponent -/
def isNumeralSign (c : Char) : Bool := c = '+' || c = '-' || c = '.' || c = 'e' || c = 'E'

/-- a numeral is made of digits and signs -/
theorem IsNumeral.all {p : Char → Bool} (hdigit : ∀ c, isDigit c = true → p c = true)
    (hsign : ∀ c, isNumeralSign c = true → p c = true) {n : Text} (h : IsNumeral n) : n.all p = true := by
  have hall : ∀ {t : Text}, t.all isDigit = true → t.all p = true := fun ht =>
    List.all_eq_true.2 fun c hc => hdigit c (List.all_eq_true.1 ht c hc)
  have hone : ∀ {t : Text}, IsSign t → t.all p = true := by
    intro t ht
    cases ht with
    | none => rfl
    | plus => simpa using hsign '+' rfl
    | minus => simpa using hsign '-' rfl
  obtain @⟨s, m, x, hs, hm, hx⟩ := h
  rw [List.all_append, List.all_append, hone hs, Bool.true_and, Bool.and_eq_true]
  constructor
  · cases hm with
    | whole hw => exact hall hw.all
    | pointed hw hf => rw [List.all_append, List.all_cons, hall hw.all, hall hf, hsign '.' rfl]; rfl
    | fraction hf => rw [List.all_cons, hall hf.all, hsign '.' rfl]; rfl
  · cases hx with
    | none => rfl
    | marked hmark hs' hds =>
      rw [List.all_cons, List.all_append, hone hs', hall hds.all]
      rcases hmark with rfl | rfl
      · simpa using hsign 'e' rfl
      · simpa using hsign 'E' rfl

theorem IsNumeral.ne_nil {n : Text} (h : IsNumeral n) : n ≠ [] := by
  obtain @⟨s, m, x, -, hm, -⟩ := h
  have hne : m ≠ [] := by
    cases hm with
    | whole hw => exact hw.ne_nil
    | pointed hw hf => simp
    | fraction hf => simp
  simp [hne]

theorem isMark_of_isNumeralSign (c : Char) (h : isNumeralSign c = true) : Text.isMark c = true := by
  simp only [isNumeralSign, Bool.or_eq_true, decide_eq_true_eq] at h
  rcases h with (((rfl | rfl) | rfl) | rfl) | rfl <;> decide

theorem IsNumeral.isTight {n : Text} (h : IsNumeral n) : Text.IsTight n :=
  .of_all (fun _ hc => hc) h.ne_nil (h.all (fun _ => isMark_of_isDigit) isMark_of_isNumeralSign)

theorem IsNumeral.lineFeed {n : Text} (h : IsNumeral n) : '\n' ∉ n := by
  have hall : n.all Text.isMark = true := h.all (fun _ => isMark_of_isDigit) isMark_of_isNumeralSign
  exact fun hm => absurd (List.all_eq_true.1 hall _ hm) (by decide)

/-! ## What is read is a numeral -/

variable {t rest : Text}

theorem exists_of_sign (t : Text) : ∃ s, IsSign s ∧ t = s ++ (sign t).2 := by
  unfold sign
  split
  · exact ⟨['-'], .minus, rfl⟩
  · exact ⟨['+'], .plus, rfl⟩
  · exact ⟨[], .none, rfl⟩

theorem digitValues_eq_nil_iff (h : t.all isDigit = true) : digitValues t = [] ↔ t = [] := by
  constructor
  · intro hnil
    cases t with
    | nil => rfl
    | cons c r =>
      rw [List.all_cons, Bool.and_eq_true] at h
      obtain ⟨d, hd⟩ := Option.isSome_iff_exists.1 h.1
      exact absurd hnil (by simp [digitValues, hd])
  · rintro rfl
    rfl

theorem exists_of_digitRun {ds : List Nat} (h : digitRun t = (ds, rest)) :
    ∃ run, t = run ++ rest ∧ run.all isDigit = true ∧ ds = digitValues run := by
  obtain ⟨rfl, rfl⟩ := Prod.mk.inj h
  exact ⟨t.takeWhile isDigit, (Text.span_append isDigit t).symm, List.all_takeWhile, rfl⟩

/-- digits of which there is at least one -/
theorem exists_of_digitRun_cons {d : Nat} {ds : List Nat} (h : digitRun t = (d :: ds, rest)) :
    ∃ run, t = run ++ rest ∧ IsDigits run := by
  obtain ⟨run, rfl, hall, hds⟩ := exists_of_digitRun h
  refine ⟨run, rfl, fun e => ?_, hall⟩
  rw [e] at hds
  exact absurd hds (List.cons_ne_nil d ds)

theorem exists_of_significand? {ds : List Nat} {places : Nat} (h : significand? t = some (ds, places, rest)) :
    ∃ m, t = m ++ rest ∧ IsSignificand m := by
  unfold significand? at h
  split at h
  · -- a point without digits before it
    rename_i r hrun
    obtain ⟨run, rfl, hall, hnil⟩ := exists_of_digitRun hrun
    obtain rfl := (digitValues_eq_nil_iff hall).1 hnil.symm
    split at h
    · exact absurd h (by simp)
    · rename_i fraction rest' hne hfraction
      obtain ⟨-, -, rfl⟩ : fraction = ds ∧ fraction.length = places ∧ rest' = rest := by simpa using h
      obtain ⟨d, fs, rfl⟩ := List.exists_cons_of_ne_nil hne
      obtain ⟨f, rfl, hf⟩ := exists_of_digitRun_cons hfraction
      exact ⟨'.' :: f, rfl, .fraction hf⟩
  · exact absurd h (by simp)
  · rename_i whole r hne hrun
    obtain ⟨d, ds', rfl⟩ := List.exists_cons_of_ne_nil hne
    obtain ⟨w, rfl, hw⟩ := exists_of_digitRun_cons hrun
    cases hfraction : digitRun r with
    | mk fraction rest' =>
      rw [hfraction] at h
      obtain ⟨-, -, rfl⟩ : _ ∧ _ ∧ rest' = rest := by simpa using h
      obtain ⟨f, rfl, hf, -⟩ := exists_of_digitRun hfraction
      exact ⟨w ++ '.' :: f, by rw [List.append_assoc]; rfl, .pointed hw hf⟩
  · rename_i whole rest' _ hnil _ hrun
    obtain ⟨-, -, rfl⟩ : whole = ds ∧ 0 = places ∧ rest' = rest := by simpa using h
    obtain ⟨d, ds', rfl⟩ := List.exists_cons_of_ne_nil hnil
    obtain ⟨w, rfl, hw⟩ := exists_of_digitRun_cons hrun
    exact ⟨w, rfl, .whole hw⟩

theorem exists_of_exponentPart (t : Text) : ∃ x, t = x ++ (exponentPart t).2 ∧ IsExponent x := by
  unfold exponentPart
  split
  · exact ⟨[], rfl, .none⟩
  · rename_i c r
    split
    · rename_i hmark
      obtain ⟨s, hs, hr⟩ := exists_of_sign r
      dsimp only
      split
      · exact ⟨[], rfl, .none⟩
      · rename_i ds rest' hne hrun
        obtain ⟨d, ds', rfl⟩ := List.exists_cons_of_ne_nil hne
        obtain ⟨run, hrun', hdigits⟩ := exists_of_digitRun_cons hrun
        exact ⟨c :: (s ++ run), by rw [hr, hrun', List.cons_append, List.append_assoc], .marked hmark hs hdigits⟩
    · exact ⟨[], rfl, .none⟩

/-- **what is read is a numeral** -/
theorem exists_of_read? {d : Decimal} (h : read? t = some (d, rest)) : ∃ n, t = n ++ rest ∧ IsNumeral n := by
  obtain ⟨s, hs, ht⟩ := exists_of_sign t
  change (significand? (sign t).2).map (fun found =>
    (Decimal.mk (sign t).1 found.1 ((exponentPart found.2.2).1 - found.2.1), (exponentPart found.2.2).2)) = some (d, rest) at h
  obtain ⟨⟨ds, places, afterSignificand⟩, hm, hd⟩ := Option.map_eq_some_iff.1 h
  obtain ⟨m, hsplit, hm⟩ := exists_of_significand? hm
  obtain ⟨x, hx, hexponent⟩ := exists_of_exponentPart afterSignificand
  rw [← (Prod.mk.inj hd).2]
  exact ⟨s ++ (m ++ x), by rw [List.append_assoc, List.append_assoc, ← hx, ← hsplit, ← ht], .mk hs hm hexponent⟩

theorem lt_of_mem_digitRun {ds : List Nat} (h : digitRun t = (ds, rest)) : ∀ k ∈ ds, k < 10 := by
  obtain ⟨run, -, -, rfl⟩ := exists_of_digitRun h
  exact fun _ => lt_of_mem_digitValues

theorem lt_of_mem_significand? {ds : List Nat} {places : Nat} (h : significand? t = some (ds, places, rest)) :
    ∀ k ∈ ds, k < 10 := by
  unfold significand? at h
  split at h
  · split at h
    · exact absurd h nofun
    · rename_i hfraction
      obtain ⟨rfl, -⟩ := Prod.mk.inj (Option.some.inj h)
      exact lt_of_mem_digitRun hfraction
  · exact absurd h nofun
  · rename_i whole r _ hwhole
    obtain ⟨rfl, -⟩ := Prod.mk.inj (Option.some.inj h)
    intro k hk
    rcases List.mem_append.1 hk with hk | hk
    · exact lt_of_mem_digitRun hwhole k hk
    · exact lt_of_mem_digitRun (t := r) rfl k hk
  · rename_i hwhole
    obtain ⟨rfl, -⟩ := Prod.mk.inj (Option.some.inj h)
    exact lt_of_mem_digitRun hwhole

/-- what is read as digits are digits -/
theorem lt_of_mem_digits {d : Decimal} (h : read? t = some (d, rest)) : ∀ k ∈ d.digits, k < 10 := by
  obtain ⟨⟨ds, places, afterSignificand⟩, hm, hd⟩ := Option.map_eq_some_iff.1 h
  obtain ⟨rfl, -⟩ := Prod.mk.inj hd
  exact lt_of_mem_significand? hm

/-! ## Numerals are read -/

theorem exists_digitValues_of_isDigits (h : IsDigits t) : ∃ d ds, digitValues t = d :: ds :=
  List.exists_cons_of_ne_nil fun e => h.ne_nil ((digitValues_eq_nil_iff h.all).1 e)

theorem digitRun_of_all (h : t.all isDigit = true) (hr : Scan.startsWith isDigit rest = false) :
    digitRun (t ++ rest) = (digitValues t, rest) := by
  rw [digitRun, span_of_all h hr]
  rfl

/-- a sign before a text without one -/
theorem IsSign.exists_sign {s : Text} (h : IsSign s) :
    ∃ negative, ∀ t, Scan.startsWith (fun c => c = '-' || c = '+') t = false → sign (s ++ t) = (negative, t) := by
  cases h with
  | plus => exact ⟨false, fun t _ => rfl⟩
  | minus => exact ⟨true, fun t _ => rfl⟩
  | none =>
    refine ⟨false, fun t ht => ?_⟩
    cases t with
    | nil => rfl
    | cons c r =>
      obtain ⟨hminus, hplus⟩ := Bool.or_eq_false_iff.1 ht
      simp [sign, of_decide_eq_false hminus, of_decide_eq_false hplus]

theorem isSign_ne_of_isDigit {c : Char} (h : isDigit c = true) : (c = '-' || c = '+') = false := by
  rw [Bool.or_eq_false_iff, decide_eq_false_iff_not, decide_eq_false_iff_not]
  constructor <;> rintro rfl <;> exact absurd h (by decide)

theorem IsDigits.startsWith (h : IsDigits t) (rest : Text) :
    Scan.startsWith (fun c => c = '-' || c = '+') (t ++ rest) = false := by
  obtain ⟨c, r, rfl, hc⟩ := Text.exists_cons_of_startsWith (Text.startsWith_of_all h.ne_nil h.all)
  exact isSign_ne_of_isDigit hc

theorem IsSignificand.startsWith (h : IsSignificand t) (rest : Text) :
    Scan.startsWith (fun c => c = '-' || c = '+') (t ++ rest) = false := by
  cases h with
  | whole hw => exact hw.startsWith rest
  | pointed hw hf =>
    rw [List.append_assoc]
    exact hw.startsWith _
  | fraction hf => rfl

theorem startsWith_of_imp {p q : Char → Bool} (h : ∀ c, q c = true → p c = true) (hp : Scan.startsWith p t = false) :
    Scan.startsWith q t = false := by
  cases t with
  | nil => rfl
  | cons c r =>
    cases hq : q c with
    | false => exact hq
    | true => exact absurd (h c hq) (by simpa [Scan.startsWith] using hp)

theorem IsSignificand.exists_significand? {m : Text} (h : IsSignificand m) :
    ∃ ds places, ∀ rest, Scan.startsWith (fun c => isDigit c || c = '.') rest = false →
      significand? (m ++ rest) = some (ds, places, rest) := by
  have hdigit : ∀ {rest}, Scan.startsWith (fun c => isDigit c || c = '.') rest = false → Scan.startsWith isDigit rest = false :=
    startsWith_of_imp fun c hc => by rw [hc, Bool.true_or]
  cases h with
  | @whole w hw =>
    obtain ⟨d, ds, hds⟩ := exists_digitValues_of_isDigits hw
    refine ⟨d :: ds, 0, fun rest hr => ?_⟩
    rw [significand?, digitRun_of_all hw.all (hdigit hr), hds]
    cases rest with
    | nil => rfl
    | cons c r =>
      have hpoint : c ≠ '.' := of_decide_eq_false (Bool.or_eq_false_iff.1 hr).2
      simp [hpoint]
  | @pointed w f hw hf =>
    obtain ⟨d, ds, hds⟩ := exists_digitValues_of_isDigits hw
    refine ⟨d :: ds ++ digitValues f, (digitValues f).length, fun rest hr => ?_⟩
    rw [List.append_assoc, List.cons_append, significand?, digitRun_of_all hw.all (by rfl), hds]
    simp only [digitRun_of_all hf (hdigit hr)]
  | @fraction f hf =>
    obtain ⟨d, ds, hds⟩ := exists_digitValues_of_isDigits hf
    refine ⟨d :: ds, (d :: ds).length, fun rest hr => ?_⟩
    have hnone : digitRun ('.' :: (f ++ rest)) = ([], '.' :: (f ++ rest)) := rfl
    rw [List.cons_append, significand?, hnone]
    simp only [digitRun_of_all hf.all (hdigit hr), hds]

theorem IsExponent.exists_exponentPart {x : Text} (h : IsExponent x) :
    ∃ e, ∀ rest, Scan.startsWith continuesNumeral rest = false → exponentPart (x ++ rest) = (e, rest) := by
  cases h with
  | none =>
    refine ⟨0, fun rest hr => ?_⟩
    cases rest with
    | nil => rfl
    | cons c r =>
      have hmark : ¬ (c = 'e' ∨ c = 'E') := by
        rintro (rfl | rfl) <;> simp [Scan.startsWith, continuesNumeral] at hr
      simp [exponentPart, hmark]
  | @marked mark s ds hmark hs hds =>
    obtain ⟨negative, hsign⟩ := hs.exists_sign
    obtain ⟨d, es, hvalues⟩ := exists_digitValues_of_isDigits hds
    refine ⟨if negative then -(ofDigits (digitValues ds) : Int) else ofDigits (digitValues ds), fun rest hr => ?_⟩
    have hrun := digitRun_of_all hds.all (startsWith_of_imp (fun c hc => by simp [continuesNumeral, hc]) hr)
    rw [List.cons_append, List.append_assoc, exponentPart, if_pos hmark, hsign _ (hds.startsWith rest), hvalues]
    simp only [hrun, hvalues]

/-- **a numeral is read whole** where no character that could continue it follows -/
theorem IsNumeral.exists_read?_append {n : Text} (h : IsNumeral n) :
    ∃ d, ∀ rest, Scan.startsWith continuesNumeral rest = false → read? (n ++ rest) = some (d, rest) := by
  obtain @⟨s, m, x, hs, hm, hx⟩ := h
  obtain ⟨negative, hsign⟩ := hs.exists_sign
  obtain ⟨ds, places, hsignificand⟩ := hm.exists_significand?
  obtain ⟨e, hexponent⟩ := hx.exists_exponentPart
  refine ⟨⟨negative, ds, e - places⟩, fun rest hr => ?_⟩
  have hstop : Scan.startsWith (fun c => isDigit c || c = '.') (x ++ rest) = false := by
    cases hx with
    | none => exact startsWith_of_imp (fun c hc => by simp only [continuesNumeral, hc, Bool.true_or]) hr
    | marked hmark => rcases hmark with rfl | rfl <;> rfl
  rw [List.append_assoc, List.append_assoc, read?, hsign _ (hm.startsWith _)]
  simp only [hsignificand _ hstop, Option.map_some, hexponent _ hr]

theorem ofText?_eq_some_iff {n : Text} {d : Decimal} : ofText? n = some d ↔ read? n = some (d, []) := by
  rw [ofText?]
  split
  · rename_i d' hd
    rw [hd, Option.some.injEq, Option.some.injEq, Prod.mk.injEq]
    exact ⟨fun h => ⟨h, rfl⟩, And.left⟩
  · rename_i h
    exact ⟨fun hnone => absurd hnone (by simp), fun hd => absurd hd (h d)⟩

/-- **the texts that are read as a number are the numerals** -/
theorem isNumeral_iff {n : Text} : IsNumeral n ↔ ∃ d, ofText? n = some d := by
  constructor
  · intro h
    obtain ⟨d, hd⟩ := h.exists_read?_append
    have hwhole := hd [] rfl
    rw [List.append_nil] at hwhole
    exact ⟨d, ofText?_eq_some_iff.2 hwhole⟩
  · rintro ⟨d, hd⟩
    obtain ⟨n', hn, hnumeral⟩ := exists_of_read? (ofText?_eq_some_iff.1 hd)
    rwa [hn, List.append_nil]

/-- a numeral that is a text of its own is the same numeral before other text -/
theorem read?_append {n : Text} {d : Decimal} (h : ofText? n = some d) (hr : Scan.startsWith continuesNumeral rest = false) :
    read? (n ++ rest) = some (d, rest) := by
  obtain ⟨d', hd'⟩ := (isNumeral_iff.2 ⟨d, h⟩).exists_read?_append
  have hwhole := hd' [] rfl
  rw [List.append_nil, ofText?_eq_some_iff.1 h, Option.some.injEq, Prod.mk.injEq] at hwhole
  rw [hd' rest hr, hwhole.1]

/-! ## What a numeral leaves -/

section

variable {c : Char}

theorem digitRun_append_of_stop (hdigit : isDigit c = false) (t r : Text) :
    digitRun (t ++ c :: r) = ((digitRun t).1, (digitRun t).2 ++ c :: r) := by
  rw [digitRun, digitRun, span_append_of_stop hdigit]

theorem sign_append_of_stop (hsign : isNumeralSign c = false) (t r : Text) :
    sign (t ++ c :: r) = ((sign t).1, (sign t).2 ++ c :: r) := by
  simp only [isNumeralSign, Bool.or_eq_false_iff, decide_eq_false_iff_not] at hsign
  obtain ⟨⟨⟨⟨hplus, hminus⟩, -⟩, -⟩, -⟩ := hsign
  cases t with
  | nil =>
    rw [List.nil_append, sign.eq_3 (c :: r) (by simp [hminus]) (by simp [hplus])]
    rfl
  | cons d t =>
    by_cases hd : d = '-'
    · rw [hd]
      rfl
    · by_cases hd' : d = '+'
      · rw [hd']
        rfl
      · rw [List.cons_append, sign.eq_3 (d :: (t ++ c :: r)) (by simp [hd]) (by simp [hd']),
          sign.eq_3 (d :: t) (by simp [hd]) (by simp [hd'])]
        rfl

variable (hdigit : isDigit c = false) (hsign : isNumeralSign c = false)
include hdigit hsign

theorem significand?_append_of_stop (t r : Text) :
    significand? (t ++ c :: r) = (significand? t).map fun x => (x.1, x.2.1, x.2.2 ++ c :: r) := by
  simp only [isNumeralSign, Bool.or_eq_false_iff, decide_eq_false_iff_not] at hsign
  obtain ⟨⟨⟨-, hpoint⟩, -⟩, -⟩ := hsign
  rw [significand?, significand?, digitRun_append_of_stop hdigit]
  obtain ⟨ds, rest⟩ := digitRun t
  cases rest with
  | nil => cases ds <;> simp [hpoint]
  | cons d rest =>
    by_cases hd : d = '.'
    · subst hd
      have hrest := digitRun_append_of_stop hdigit rest r
      cases ds with
      | nil =>
        simp only [List.cons_append, hrest]
        obtain ⟨fs, left⟩ := digitRun rest
        cases fs <;> rfl
      | cons n ds => simp only [List.cons_append, hrest, Option.map_some]
    · cases ds <;> simp [hd]

theorem exponentPart_append_of_stop (t r : Text) :
    exponentPart (t ++ c :: r) = ((exponentPart t).1, (exponentPart t).2 ++ c :: r) := by
  have hmark : ¬ (c = 'e' ∨ c = 'E') := by
    simp only [isNumeralSign, Bool.or_eq_false_iff, decide_eq_false_iff_not] at hsign
    exact not_or.2 ⟨hsign.1.2, hsign.2⟩
  cases t with
  | nil =>
    rw [List.nil_append, exponentPart.eq_2, if_neg hmark]
    rfl
  | cons d t =>
    rw [List.cons_append, exponentPart, exponentPart]
    split
    · rw [sign_append_of_stop hsign]
      dsimp only
      rw [digitRun_append_of_stop hdigit]
      obtain ⟨ds, left⟩ := digitRun (sign t).2
      cases ds <;> rfl
    · rfl

/-- **a numeral ends before what cannot continue it** -/
theorem read?_append_of_stop (t r : Text) : read? (t ++ c :: r) = (read? t).map fun x => (x.1, x.2 ++ c :: r) := by
  rw [read?, read?, sign_append_of_stop hsign]
  dsimp only
  rw [significand?_append_of_stop hdigit hsign, Option.map_map, Option.map_map]
  refine Option.map_congr fun x _ => ?_
  simp only [Function.comp_apply, exponentPart_append_of_stop hdigit hsign]

end

end DiagramText.Decimal

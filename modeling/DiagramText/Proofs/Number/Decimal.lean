/-
What a numeral denotes. Its rank depends on neither zeros at the beginning nor zeros at the end (`rank_eq`). The parts of a
numeral are read up to the first character that cannot belong to them (`significand?_append`, `exponentPart_append`).
-/
import DiagramText.Number.Decimal
import DiagramText.Proofs.Number.Shortest
import DiagramText.Proofs.Text.Names
import DiagramText.Proofs.Text.Quoted

namespace DiagramText.Decimal

/-! ## Digits -/

theorem ofDigits_eq (ds : List Nat) : ofDigits ds = Nat.ofDigits 10 ds.reverse := by
  rw [Nat.ofDigits_eq_foldr, List.foldr_reverse, ofDigits]
  congr 1
  funext n d
  exact Nat.add_comm _ _

theorem ofDigits_append (ds es : List Nat) : ofDigits (ds ++ es) = ofDigits ds * 10 ^ es.length + ofDigits es := by
  rw [ofDigits_eq, List.reverse_append, Nat.ofDigits_append, List.length_reverse, ← ofDigits_eq, ← ofDigits_eq, Nat.add_comm,
    Nat.mul_comm]

theorem ofDigits_lt {ds : List Nat} (h : ∀ d ∈ ds, d < 10) : ofDigits ds < 10 ^ ds.length := by
  rw [ofDigits_eq, ← List.length_reverse]
  exact Nat.ofDigits_lt_base_pow_length (by decide) fun d hd => h d (List.mem_reverse.1 hd)

theorem le_ofDigits_cons {d : Nat} (hd : d ≠ 0) (ds : List Nat) : 10 ^ ds.length ≤ ofDigits (d :: ds) := by
  have hhead : ofDigits [d] = d := by simp [ofDigits]
  rw [← List.singleton_append, ofDigits_append, hhead]
  exact (Nat.le_mul_of_pos_left _ (Nat.pos_of_ne_zero hd)).trans (Nat.le_add_right _ _)

theorem ofDigits_dropWhile (ds : List Nat) : ofDigits (ds.dropWhile (· = 0)) = ofDigits ds := by
  induction ds with
  | nil => rfl
  | cons d ds ih =>
    rw [List.dropWhile_cons]
    split
    · rename_i hd
      rw [ih, of_decide_eq_true hd, ofDigits, ofDigits, List.foldl_cons]
    · rfl

/-- without zeros at the beginning there are as many digits as the number has -/
theorem length_dropWhile {ds : List Nat} (h : ∀ d ∈ ds, d < 10) {k : Nat} (hle : 10 ^ k ≤ ofDigits ds)
    (hlt : ofDigits ds < 10 ^ (k + 1)) : (ds.dropWhile (· = 0)).length = k + 1 := by
  rw [← ofDigits_dropWhile] at hle hlt
  have hdigits : ∀ d ∈ ds.dropWhile (· = 0), d < 10 := fun d hd => h d ((List.dropWhile_sublist _).subset hd)
  have hhead := List.head?_dropWhile_not (fun d : Nat => decide (d = 0)) ds
  generalize ds.dropWhile (· = 0) = es at *
  cases es with
  | nil =>
    have := Nat.pow_pos (n := k) (by decide : 0 < 10)
    exact absurd hle (by simp only [ofDigits, List.foldl_nil]; omega)
  | cons e es =>
    have he : e ≠ 0 := by simpa using hhead
    have h1 := (Nat.pow_lt_pow_iff_right (by decide : 1 < 10)).1 ((le_ofDigits_cons he es).trans_lt hlt)
    have h2 := (Nat.pow_lt_pow_iff_right (by decide : 1 < 10)).1 (hle.trans_lt (ofDigits_lt hdigits))
    rw [List.length_cons] at h2 ⊢
    omega

/-- **the rank of a numeral** whose digits are those of a coefficient with zeros around them -/
theorem rank_eq {d : Decimal} {coefficient count zeros : Nat} {place : Int} (hdigits : ∀ n ∈ d.digits, n < 10)
    (hvalue : ofDigits d.digits = coefficient * 10 ^ zeros) (hexponent : d.exponent = place - zeros) (hcount : 0 < count)
    (hle : 10 ^ (count - 1) ≤ coefficient) (hlt : coefficient < 10 ^ count) (hlow : -330 ≤ place + count)
    (hhigh : place + count ≤ 310) : d.rank = Shortest.rankAt coefficient place := by
  have hpos : 0 < 10 ^ zeros := Nat.pow_pos (by decide)
  have hlength : (d.digits.dropWhile (· = 0)).length = count - 1 + zeros + 1 := by
    refine length_dropWhile hdigits ?_ ?_
    · rw [hvalue, pow_add]
      exact Nat.mul_le_mul_right _ hle
    · rw [hvalue, show count - 1 + zeros + 1 = count + zeros from by omega, pow_add]
      exact (Nat.mul_lt_mul_right hpos).2 hlt
  have hne : d.digits.dropWhile (· = 0) ≠ [] := List.ne_nil_of_length_eq_add_one hlength
  have hplace : place - zeros + (zeros : Int) = place := by omega
  have hrank := Shortest.rankAt_mul_pow coefficient (place - zeros) zeros
  rw [hplace, Shortest.rankAt] at hrank
  unfold rank
  simp only [hlength, hexponent, ofDigits_dropWhile, hvalue]
  rw [if_neg (not_or.2 ⟨hne, by omega⟩), if_neg (by omega), hrank]

/-! ## Parts of a numeral -/

/-- the values of digits -/
def digitValues (t : Text) : List Nat := t.filterMap digitValue?

variable {t rest whole fraction : Text}

theorem isDigit_of_ascii {c : Char} (h : c.isDigit = true) : isDigit c = true := by
  rw [isDigit, Text.digitValue?_of_isDigit h]
  rfl

theorem digitValues_eq (h : t.all Char.isDigit = true) : digitValues t = t.map fun c => c.toNat - '0'.toNat := by
  rw [digitValues, ← List.filterMap_eq_map]
  exact List.filterMap_congr fun c hc => Text.digitValue?_of_isDigit (List.all_eq_true.1 h c hc)

theorem length_digitValues (h : t.all Char.isDigit = true) : (digitValues t).length = t.length := by
  rw [digitValues_eq h, List.length_map]

theorem exists_digitValues_eq_cons (hne : t ≠ []) (h : t.all Char.isDigit = true) : ∃ d ds, digitValues t = d :: ds :=
  List.exists_cons_of_length_pos (by rw [length_digitValues h]; exact List.length_pos_iff.2 hne)

/-- digits of any script have values below ten -/
theorem lt_of_mem_digitValues {d : Nat} (hd : d ∈ digitValues t) : d < 10 := by
  obtain ⟨c, -, hc⟩ := List.mem_filterMap.1 hd
  rw [digitValue?] at hc
  split at hc
  · rename_i hascii
    have hle : c.toNat ≤ 57 := hascii.2
    obtain rfl := Option.some.inj hc
    omega
  · split at hc
    · cases hc
    · obtain ⟨z, hz, rfl⟩ := Option.map_eq_some_iff.1 hc
      have hrange := List.find?_some hz
      simp only [Bool.and_eq_true, decide_eq_true_eq] at hrange
      omega

theorem all_isDigit_ofNat (n : Nat) : (Text.ofNat n).all Char.isDigit = true :=
  List.all_eq_true.2 fun _ hc => Text.isDigit_of_mem_ofNat hc

theorem all_isDigit_zeros (n : Nat) : (List.replicate n '0').all Char.isDigit = true :=
  List.all_eq_true.2 fun _ hc => List.eq_of_mem_replicate hc ▸ rfl

theorem ofDigits_ofNat (n : Nat) : ofDigits (digitValues (Text.ofNat n)) = n := Integer.ofDigits_ofNat n

theorem ofDigits_zeros (n : Nat) : ofDigits (digitValues (List.replicate n '0')) = 0 := by
  induction n with
  | zero => rfl
  | succ n ih => exact ih

theorem ofDigits_zeros_append (n : Nat) (t : Text) :
    ofDigits (digitValues (List.replicate n '0' ++ t)) = ofDigits (digitValues t) := by
  rw [digitValues, List.filterMap_append, ofDigits_append, ← digitValues, ofDigits_zeros, Nat.zero_mul, Nat.zero_add, digitValues]

theorem ofDigits_append_zeros (t : Text) (n : Nat) :
    ofDigits (digitValues (t ++ List.replicate n '0')) = ofDigits (digitValues t) * 10 ^ n := by
  rw [digitValues, List.filterMap_append, ofDigits_append, ← digitValues, ← digitValues, ofDigits_zeros,
    length_digitValues (all_isDigit_zeros n), List.length_replicate, Nat.add_zero]

theorem digitRun_append (h : t.all Char.isDigit = true) (hr : Scan.startsWith isDigit rest = false) :
    digitRun (t ++ rest) = (digitValues t, rest) := by
  have hall : t.all isDigit = true := List.all_eq_true.2 fun c hc => isDigit_of_ascii (List.all_eq_true.1 h c hc)
  rw [digitRun, span_of_all hall hr]
  rfl

theorem sign_cons {c : Char} (r : Text) (h : c.isDigit = true) : sign (c :: r) = (false, c :: r) := by
  have hminus : c ≠ '-' := fun he => absurd (he ▸ h) (by decide)
  have hplus : c ≠ '+' := fun he => absurd (he ▸ h) (by decide)
  simp [sign, hminus, hplus]

/-- digits, with a point before the fraction unless that is empty -/
def significandText (whole fraction : Text) : Text := whole ++ if fraction = [] then [] else '.' :: fraction

theorem significand?_append (hne : whole ≠ []) (hw : whole.all Char.isDigit = true) (hf : fraction.all Char.isDigit = true)
    (hr : Scan.startsWith (fun c => isDigit c || c = '.') rest = false) :
    significand? (significandText whole fraction ++ rest) = some (digitValues (whole ++ fraction), fraction.length, rest) := by
  obtain ⟨d, ds, hds⟩ := exists_digitValues_eq_cons hne hw
  have hrest : Scan.startsWith isDigit rest = false := by
    cases rest with
    | nil => rfl
    | cons c r => exact (Bool.or_eq_false_iff.1 hr).1
  by_cases hfraction : fraction = []
  · subst hfraction
    rw [significandText, if_pos rfl, List.append_nil, significand?, digitRun_append hw hrest, hds]
    cases rest with
    | nil => rfl
    | cons c r =>
      have hpoint : c ≠ '.' := of_decide_eq_false (Bool.or_eq_false_iff.1 hr).2
      simp [hpoint]
  · have hvalues : digitValues (whole ++ fraction) = d :: ds ++ digitValues fraction := by
      rw [digitValues, List.filterMap_append, ← digitValues, hds, digitValues]
    rw [significandText, if_neg hfraction, List.append_assoc, List.cons_append, significand?, digitRun_append hw (by rfl), hds]
    simp only [digitRun_append hf hrest, hvalues, length_digitValues hf]

theorem exponentPart_append {negative : Bool} (hne : t ≠ []) (h : t.all Char.isDigit = true) :
    exponentPart (['e', if negative then '-' else '+'] ++ t)
      = (if negative then -(ofDigits (digitValues t) : Int) else ofDigits (digitValues t), []) := by
  obtain ⟨d, ds, hds⟩ := exists_digitValues_eq_cons hne h
  have hrun : digitRun t = (d :: ds, []) := by
    have hstop : Scan.startsWith isDigit [] = false := rfl
    have := digitRun_append h hstop
    rwa [List.append_nil, hds] at this
  rw [hds]
  cases negative <;> simp [exponentPart, sign, hrun]

end DiagramText.Decimal

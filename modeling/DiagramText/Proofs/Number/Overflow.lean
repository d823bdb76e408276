/-
Which numerals have a finite value, and so which formatted numbers can be read. Rounding gives infinity from halfway between
the largest double and the next power of two on (`nearestRank_lt_infinityRank_iff`), and a numeral is finite exactly below that
threshold (`Decimal.isFinite_value_iff`). A number that was read is written as a numeral when it is finite, and reads back as
itself; infinity is written by name, which is no numeral (`SourceLine.number?_format_iff`, `number?_format_overflow`).
-/
import DiagramText.Proofs.Number.Format
import DiagramText.Proofs.Number.Numeral

namespace DiagramText

namespace Binary64

/-- halfway between the largest double and 2^1024 -/
@[irreducible] def overflowThreshold : Nat := Nat.pow 2 1024 - Nat.pow 2 970

theorem overflowThreshold_eq : overflowThreshold * unitsInOne = (4 * octave - 1) * 2 ^ 2044 := by
  unfold overflowThreshold unitsInOne
  decide +kernel

theorem overflowThreshold_pos : 0 < overflowThreshold := by
  unfold overflowThreshold
  decide +kernel

theorem overflowThreshold_le : overflowThreshold ≤ 10 ^ 310 := by
  unfold overflowThreshold
  decide +kernel

/-- half a step below an even number is rounded up to it, and nothing less is -/
theorem roundQuotient_lt_iff {num den m : Nat} (hden : 0 < den) (hm : 0 < m) :
    roundQuotient num den < 2 * m ↔ 2 * num < (4 * m - 1) * den := by
  have hsum := Nat.div_add_mod' num den
  have hmod := Nat.mod_lt num hden
  unfold roundQuotient
  dsimp only
  generalize num / den = q at *
  generalize num % den = r at *
  obtain ⟨k, rfl⟩ : ∃ k, m = k + 1 := ⟨m - 1, by omega⟩
  have hthreshold : (4 * (k + 1) - 1) * den = 4 * (k * den) + 3 * den := by
    rw [show 4 * (k + 1) - 1 = 4 * k + 3 from by omega]
    ring
  rw [hthreshold, ← hsum]
  rcases lt_trichotomy q (2 * k + 1) with hq | rfl | hq
  · have hle := Nat.mul_le_mul_right den (show q ≤ 2 * k from by omega)
    rw [Nat.mul_assoc] at hle
    refine ⟨fun _ => by omega, fun _ => ?_⟩
    split <;> omega
  · have hodd : (2 * k + 1) % 2 = 1 := by omega
    have hexpand : (2 * k + 1) * den = 2 * (k * den) + den := by ring
    rw [hexpand]
    split
    · rename_i hup
      omega
    · rename_i hdown
      simp only [hodd, and_true, not_or] at hdown
      omega
  · have hle := Nat.mul_le_mul_right den (show 2 * k + 2 ≤ q from hq)
    have hexpand : (2 * k + 2) * den = 2 * (k * den) + 2 * den := by ring
    rw [hexpand] at hle
    refine ⟨fun h => ?_, fun h => by omega⟩
    split at h <;> omega

/-- rounded on the steps of its own power of two, a quotient stays below the next power of two but one exactly when it is less
than half of its last step away from it -/
theorem steps_lt_iff {n den k top : Nat} (hden : 0 < den) (hlog : (n / den).log2 = top) :
    (top - 52) * octave + roundQuotient n (den * 2 ^ (top - 52)) < (k + 3) * octave ↔ n < (4 * octave - 1) * 2 ^ k * den := by
  have hoctave : octave = 2 ^ 52 := rfl
  have hround := Shortest.roundQuotient_eq_or n (den * 2 ^ (top - 52))
  rcases lt_trichotomy (top - 52) (k + 1) with hs | hs | hs
  · -- the quotient is far below: both sides hold
    have htop : n / den < 2 ^ (top - 52) * (2 * octave) := by
      refine Nat.lt_of_lt_of_le (hlog ▸ Nat.lt_log2_self) ?_
      calc 2 ^ (top + 1) ≤ 2 ^ (top - 52 + 53) := Nat.pow_le_pow_right (by decide) (by omega)
        _ = 2 ^ (top - 52) * (2 * octave) := by rw [pow_add]; rfl
    have hquotient : n / (den * 2 ^ (top - 52)) < 2 * octave := by
      rw [← Nat.div_div_eq_div_mul, Nat.div_lt_iff_lt_mul (Nat.two_pow_pos _), Nat.mul_comm]
      exact htop
    have hsum := Nat.mul_le_mul_right octave (show top - 52 + 3 ≤ k + 3 from by omega)
    rw [Nat.add_mul] at hsum
    refine iff_of_true (by have := octave_pos; omega) ?_
    rw [← Nat.div_lt_iff_lt_mul hden]
    calc n / den < 2 ^ (top - 52) * (2 * octave) := htop
      _ ≤ 2 ^ k * (4 * octave - 1) :=
        Nat.mul_le_mul (Nat.pow_le_pow_right (by decide) (by omega)) (by have := octave_pos; omega)
      _ = (4 * octave - 1) * 2 ^ k := Nat.mul_comm _ _
  · -- the quotient is on the last steps
    have hlast : roundQuotient n (den * 2 ^ (top - 52)) < 2 * octave ↔ _ :=
      roundQuotient_lt_iff (Nat.mul_pos hden (Nat.two_pow_pos (top - 52))) octave_pos
    have hdouble : (4 * octave - 1) * (den * 2 ^ (top - 52)) = 2 * ((4 * octave - 1) * 2 ^ k * den) := by
      rw [hs, pow_succ]
      ring
    rw [hdouble] at hlast
    have hsum : (k + 3) * octave = (top - 52) * octave + 2 * octave := by
      rw [hs]
      ring
    omega
  · -- the quotient is beyond: neither side holds
    have hne : n / den ≠ 0 := by
      intro hzero
      rw [hzero, Nat.log2_zero] at hlog
      omega
    have htop : 2 ^ (top - 52) * octave ≤ n / den := by
      have hle := Nat.log2_self_le hne
      rw [hlog, show top = top - 52 + 52 from by omega, pow_add] at hle
      exact hle
    have hquotient : octave ≤ n / (den * 2 ^ (top - 52)) := by
      rw [← Nat.div_div_eq_div_mul, Nat.le_div_iff_mul_le (Nat.two_pow_pos _), Nat.mul_comm]
      exact htop
    have hsum := Nat.mul_le_mul_right octave (show k + 3 ≤ top - 52 + 1 from by omega)
    rw [Nat.add_mul (top - 52)] at hsum
    refine iff_of_false (by omega) ?_
    rw [← Nat.div_lt_iff_lt_mul hden, not_lt]
    calc (4 * octave - 1) * 2 ^ k ≤ 4 * octave * 2 ^ k := Nat.mul_le_mul_right _ (Nat.sub_le _ _)
      _ = 2 ^ (k + 2) * octave := by ring
      _ ≤ 2 ^ (top - 52) * octave := Nat.mul_le_mul_right _ (Nat.pow_le_pow_right (by decide) hs)
      _ ≤ n / den := htop

/-- **rounding overflows from the threshold on** -/
theorem nearestRank_lt_infinityRank_iff {num den : Nat} (hden : 0 < den) :
    nearestRank num den < infinityRank ↔ num < overflowThreshold * den := by
  have hsteps := steps_lt_iff (n := num * unitsInOne) (k := 2044) hden rfl
  have hunits : num < overflowThreshold * den ↔ num * unitsInOne < overflowThreshold * unitsInOne * den := by
    rw [Nat.mul_right_comm, Nat.mul_lt_mul_right unitsInOne_pos]
  rw [hunits, overflowThreshold_eq, ← hsteps, nearestRank, min_lt_iff]
  exact or_iff_left (lt_irrefl infinityRank)

end Binary64

namespace Decimal

open Binary64

/-- the magnitude is below the threshold from which on it is taken for infinite -/
def IsInRange (d : Decimal) : Prop :=
  ofDigits d.digits * 10 ^ d.exponent.toNat < overflowThreshold * 10 ^ (-d.exponent).toNat

variable {d d' : Decimal} {n : Text}

/-- **a numeral is rounded to a finite value exactly when it is in range**, however many digits it has -/
theorem rank_lt_infinityRank_iff (hdigits : ∀ k ∈ d.digits, k < 10) : d.rank < infinityRank ↔ d.IsInRange := by
  have hpos : ∀ k, 0 < 10 ^ k := fun k => Nat.pow_pos (by decide)
  have hvalue := ofDigits_dropWhile d.digits
  have hlt := ofDigits_lt fun k hk => hdigits k ((List.dropWhile_sublist (· = 0)).subset hk)
  have hhead := List.head?_dropWhile_not (fun k : Nat => decide (k = 0)) d.digits
  unfold rank IsInRange
  rw [← hvalue]
  generalize d.digits.dropWhile (· = 0) = ds at *
  dsimp only
  split
  · -- no digits, or a number too small to have a rank
    rename_i hsmall
    refine iff_of_true (by decide) ?_
    rcases hsmall with rfl | hsmall
    · have hzero : ofDigits [] = 0 := rfl
      rw [hzero, Nat.zero_mul]
      exact Nat.mul_pos overflowThreshold_pos (hpos _)
    · have hexponent : d.exponent.toNat = 0 := by omega
      rw [hexponent, pow_zero, Nat.mul_one]
      calc ofDigits ds < 10 ^ ds.length := hlt
        _ ≤ 10 ^ (-d.exponent).toNat := Nat.pow_le_pow_right (by decide) (by omega)
        _ ≤ overflowThreshold * 10 ^ (-d.exponent).toNat := Nat.le_mul_of_pos_left _ overflowThreshold_pos
  · rename_i hsmall
    split
    · -- a first digit too far to the left
      rename_i hlarge
      refine iff_of_false (lt_irrefl infinityRank) (not_lt.2 ?_)
      cases ds with
      | nil => exact absurd (Or.inl rfl) hsmall
      | cons k ks =>
        have hk : k ≠ 0 := by simpa using hhead
        rw [List.length_cons] at hlarge
        calc overflowThreshold * 10 ^ (-d.exponent).toNat ≤ 10 ^ 310 * 10 ^ (-d.exponent).toNat :=
              Nat.mul_le_mul_right _ overflowThreshold_le
          _ = 10 ^ (310 + (-d.exponent).toNat) := (pow_add _ _ _).symm
          _ ≤ 10 ^ (ks.length + d.exponent.toNat) := Nat.pow_le_pow_right (by decide) (by omega)
          _ = 10 ^ ks.length * 10 ^ d.exponent.toNat := pow_add _ _ _
          _ ≤ ofDigits (k :: ks) * 10 ^ d.exponent.toNat := Nat.mul_le_mul_right _ (le_ofDigits_cons hk ks)
    · exact nearestRank_lt_infinityRank_iff (hpos _)

theorem isFinite_value_iff (h : ofText? n = some d) : d.value.isFinite = true ↔ d.IsInRange := by
  rw [isFinite, decide_eq_true_iff]
  exact rank_lt_infinityRank_iff (lt_of_mem_digits (ofText?_eq_some_iff.1 h))

/-- no numeral denotes what is not a number -/
theorem isNaN_value (d : Decimal) : d.value.isNaN = false := by
  refine decide_eq_false (not_lt.2 ?_)
  unfold value rank
  dsimp only
  split
  · exact Nat.zero_le _
  · split
    · exact le_rfl
    · exact Nat.min_le_right _ _

/-- infinity is written by its name -/
theorem format_of_not_isFinite (h : d.value.isFinite = false) : d.value.format = "inf" ∨ d.value.format = "-inf" := by
  have hwhole : d.value.isWhole = false := by rw [isWhole, h, Bool.false_and]
  rw [format, if_neg (by simp [hwhole]), toText, isNaN_value, h]
  cases d.value.negative with
  | false => exact Or.inl rfl
  | true => exact Or.inr rfl

end Decimal

namespace SourceLine

open Binary64

/-- **formatted numbers are readable numbers** when they are finite, and only then: they read back as the value, without the
sign of minus zero -/
theorem number?_format_iff {l l' : SourceLine} {offset offset' : Int} {token : Text} {v w : Binary64}
    (h : l.number? offset token = .ok v) :
    l'.number? offset' v.format = .ok w ↔ v.isFinite = true ∧ w = v.withoutMinusZero := by
  cases hfinite : v.isFinite with
  | true =>
    have hread : l'.number? offset' v.format = .ok v.withoutMinusZero := l'.number?_format offset' hfinite (b := []) rfl
    rw [hread, Except.ok.injEq, eq_comm]
    exact (and_iff_right rfl).symm
  | false =>
    refine iff_of_false (fun hw => ?_) fun hw => absurd hw.1 (by decide)
    rw [number?] at h
    split at h
    · rename_i d _
      obtain rfl := Except.ok.inj h
      rcases Decimal.format_of_not_isFinite hfinite with hname | hname
      · rw [hname] at hw
        cases hw
      · rw [hname] at hw
        cases hw
    · cases h

/-- a number is finite exactly when its numeral is in range -/
theorem isFinite_of_number?_iff {l : SourceLine} {offset : Int} {token : Text} {v : Binary64} (h : l.number? offset token = .ok v) :
    v.isFinite = true ↔ ∃ d, Decimal.ofText? (Text.trim token) = some d ∧ d.IsInRange := by
  rw [number?] at h
  split at h
  · rename_i d hd
    obtain rfl := Except.ok.inj h
    rw [Decimal.isFinite_value_iff hd, hd]
    simp
  · cases h

/-- a numeral out of range is accepted, and what its value is written as is not -/
theorem number?_format_overflow :
    SourceLine.number? ⟨3, 1, "A,B,1e400", []⟩ 0 "1e400" = .ok ⟨false, infinityRank⟩ ∧
      Binary64.format ⟨false, infinityRank⟩ = "inf" ∧
      SourceLine.number? ⟨3, 1, "A,B,inf", []⟩ 0 "inf" = .error ⟨3, 1, .expectedNumber "inf"⟩ :=
  ⟨rfl, by decide, by decide⟩

end SourceLine

end DiagramText

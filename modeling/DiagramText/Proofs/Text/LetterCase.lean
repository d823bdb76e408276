/-
Keywords in any letter case. A text that is read as a keyword consists of letters that are taken for those of the keyword;
in small letters it is still read as that keyword, and small letters change no more (`findSome?_lower`). The dotted
capital i is the exception: its small form is two characters. What is read as one of some keywords begins like it and holds no
line feed.
-/
import DiagramText.Proofs.Text.Names

namespace DiagramText.Text

/-- taken for a letter of a keyword, or the space between two of them, with one character for its small form -/
structure IsKeywordChar (c : Char) : Prop where
  letter : isLetter (foldCase c) = true ∨ foldCase c = ' '
  dotted : c ≠ 'İ'

/-- besides the letters of ASCII, three are taken for one of them -/
theorem IsKeywordChar.toNat_lt_or {c : Char} (h : IsKeywordChar c) : c.toNat < 128 ∨ c = 'ſ' ∨ c.toNat = 0x212a ∨ c = 'ı' := by
  obtain ⟨hletter, hdotted⟩ := h
  by_contra hc
  simp only [not_or, not_lt] at hc
  obtain ⟨hlarge, hs, hk, hi⟩ := hc
  have hcapital : ¬ ('A' ≤ c ∧ c ≤ 'Z') := by
    rintro ⟨-, hle⟩
    have hle : c.toNat ≤ ('Z' : Char).toNat := hle
    exact absurd (hlarge.trans hle) (by decide)
  have hfold : foldCase c = c := by
    rw [foldCase, if_neg hcapital, if_neg hs, if_neg hk, if_neg (not_or.2 ⟨hi, hdotted⟩)]
  have hsmall : ∀ d ∈ (['z', 'Z'] : List Char), ¬ c ≤ d := by
    intro d hd hle
    have hle : c.toNat ≤ d.toNat := hle
    have hd : d.toNat < 128 := by
      simp only [List.mem_cons, List.not_mem_nil, or_false] at hd
      rcases hd with rfl | rfl <;> decide
    omega
  rw [hfold] at hletter
  rcases hletter with h | rfl
  · simp only [isLetter, Bool.or_eq_true, Bool.and_eq_true, decide_eq_true_eq] at h
    rcases h with ⟨-, h⟩ | ⟨-, h⟩
    · exact hsmall 'z' (by simp) h
    · exact hsmall 'Z' (by simp) h
  · exact absurd hlarge (by decide)

/-- the small form of a letter is taken for the same letter, and has itself for its small form -/
theorem IsKeywordChar.lowerChar {c : Char} (h : IsKeywordChar c) :
    foldCase (lowerChar c) = foldCase c ∧ DiagramText.lowerChar (DiagramText.lowerChar c) = DiagramText.lowerChar c ∧
      DiagramText.lowerChar c ≠ 'İ' := by
  have hascii : ∀ n < 128, foldCase (DiagramText.lowerChar (Char.ofNat n)) = foldCase (Char.ofNat n) ∧
      DiagramText.lowerChar (DiagramText.lowerChar (Char.ofNat n)) = DiagramText.lowerChar (Char.ofNat n) ∧
      DiagramText.lowerChar (Char.ofNat n) ≠ 'İ' := by decide +kernel
  rcases h.toNat_lt_or with h | rfl | h | rfl
  · have hc := hascii c.toNat h
    rwa [Char.ofNat_toNat] at hc
  · decide +kernel
  · have hc : c = Char.ofNat 0x212a := by rw [← h, Char.ofNat_toNat]
    subst hc
    decide +kernel
  · decide +kernel

/-! ## Texts -/

/-- made of characters that can stand in a keyword -/
def IsKeywordText (t : Text) : Prop := ∀ c ∈ t, IsKeywordChar c

theorem isKeywordText_of_map_eq {t k : Text} (hk : (k.map foldCase).all (fun c => isLetter c || c = ' ') = true)
    (h : t.map foldCase = k.map foldCase) (hdotted : 'İ' ∉ t) : IsKeywordText t := by
  intro c hc
  have hmem : foldCase c ∈ k.map foldCase := h ▸ List.mem_map_of_mem hc
  exact ⟨by simpa using List.all_eq_true.1 hk _ hmem, fun e => hdotted (e ▸ hc)⟩

/-- without a sigma and a dotted i every character has its own small form -/
theorem lowerFrom_eq_map {t : Text} (h : IsKeywordText t) (before : Text) : lowerFrom before t = t.map DiagramText.lowerChar := by
  induction t generalizing before with
  | nil => rfl
  | cons c r ih =>
    have hc := h c (by simp)
    have hsigma : c ≠ 'Σ' := by
      rintro rfl
      exact absurd hc.letter (by decide)
    rw [lowerFrom, if_neg hsigma, if_neg hc.dotted, ih fun d hd => h d (by simp [hd])]
    rfl

theorem lower_eq_map {t : Text} (h : IsKeywordText t) : lower t = t.map DiagramText.lowerChar := lowerFrom_eq_map h []

theorem map_foldCase_lower {t : Text} (h : IsKeywordText t) : (lower t).map foldCase = t.map foldCase := by
  rw [lower_eq_map h, List.map_map]
  exact List.map_congr_left fun c hc => (h c hc).lowerChar.1

theorem lower_lower {t : Text} (h : IsKeywordText t) : lower (lower t) = lower t := by
  have hlower : IsKeywordText (lower t) := by
    intro c hc
    rw [lower_eq_map h] at hc
    obtain ⟨d, hd, rfl⟩ := List.mem_map.1 hc
    have hfold := (h d hd).lowerChar
    exact ⟨hfold.1.symm ▸ (h d hd).letter, hfold.2.2⟩
  rw [lower_eq_map hlower, lower_eq_map h, List.map_map]
  exact List.map_congr_left fun c hc => (h c hc).lowerChar.2.1

/-! ## Keywords -/

theorem dropFolded?_append {fold : Char → Char} {k t : Text} (h : t.map fold = k.map fold) (rest : Text) :
    dropFolded? fold k (t ++ rest) = some rest := by
  induction k generalizing t with
  | nil =>
    obtain rfl := List.map_eq_nil_iff.1 h
    rfl
  | cons d k ih =>
    cases t with
    | nil => exact absurd h (by simp)
    | cons c t =>
      obtain ⟨hc, ht⟩ := List.cons.inj h
      exact (if_pos hc.symm).trans (ih ht)

/-- keywords of letters and spaces, no two with one first letter -/
structure AreKeywords (ks : List Text) : Prop where
  letter : ks.all (fun k => (k.map foldCase).all fun c => isLetter c || c = ' ') = true
  first : ∀ k ∈ ks, ∀ k' ∈ ks, k ≠ k' → (k.map foldCase).head? ≠ (k'.map foldCase).head?
  ne_nil : [] ∉ ks

/-- **a keyword in small letters is read as it stands** -/
theorem findSome?_lower {ks : List Text} (hks : AreKeywords ks) {t word rest : Text} (hdotted : 'İ' ∉ t)
    (h : ks.findSome? (fun k => (dropKeyword? k t).map fun r => (lower (t.take k.length), r)) = some (word, rest)) (s : Text) :
    ks.findSome? (fun k => (dropKeyword? k (word ++ s)).map fun r => (lower ((word ++ s).take k.length), r)) = some (word, s) := by
  obtain ⟨k, hk, h⟩ := List.exists_of_findSome?_eq_some h
  obtain ⟨r, hr, e⟩ := Option.map_eq_some_iff.1 h
  obtain ⟨pre, rfl, hpre⟩ := dropFolded?_eq_some hr
  have hlength : pre.length = k.length := by simpa using congrArg List.length hpre
  have htake : (pre ++ r).take k.length = pre := by rw [← hlength, List.take_left]
  obtain ⟨hword, -⟩ := Prod.mk.inj e
  have hchars : IsKeywordText pre :=
    isKeywordText_of_map_eq (List.all_eq_true.1 hks.letter k hk) hpre fun hm => hdotted (List.mem_append_left r hm)
  rw [htake] at hword
  subst hword
  have hfold : (lower pre).map foldCase = k.map foldCase := (map_foldCase_lower hchars).trans hpre
  have hlower : (lower pre).length = k.length := by simpa using congrArg List.length hfold
  refine findSome?_eq_some_of_takeWhile hk (fun k' hk' => ?_) ?_
  · have hne : k' ≠ k := by simpa using List.all_eq_true.1 List.all_takeWhile _ hk'
    rw [Option.map_eq_none_iff, Option.eq_none_iff_forall_not_mem]
    intro r' hr'
    obtain ⟨pre', e, hpre'⟩ := dropFolded?_eq_some hr'
    have hmem := (List.takeWhile_prefix _).subset hk'
    have hfirst := hks.first k' hmem k hk hne
    have hstart : ((lower pre).map foldCase).head? = (pre'.map foldCase).head? := by
      have hne₁ : (lower pre).map foldCase ≠ [] := by
        rw [hfold]
        exact fun e => hks.ne_nil (List.map_eq_nil_iff.1 e ▸ hk)
      have hne₂ : pre'.map foldCase ≠ [] := by
        rw [hpre']
        exact fun e => hks.ne_nil (List.map_eq_nil_iff.1 e ▸ hmem)
      have hmap := congrArg (fun t => (t.map foldCase).head?) e
      simp only [List.map_append, List.head?_append_of_ne_nil _ hne₁, List.head?_append_of_ne_nil _ hne₂] at hmap
      exact hmap
    rw [hfold, hpre'] at hstart
    exact hfirst hstart.symm
  · have htake' : (lower pre ++ s).take k.length = lower pre := by rw [← hlower, List.take_left]
    rw [dropKeyword?, dropFolded?_append hfold, Option.map_some, htake', lower_lower hchars]

/-- a text that is read as one of some keywords differs from it in letter case only -/
theorem exists_keyword {ks : List Text} {t : Text}
    (h : ks.findSome? (fun k => (dropKeyword? k t).map fun rest => (lower (t.take k.length), rest)) = some (t, [])) :
    ∃ k ∈ ks, t.map foldCase = k.map foldCase := by
  obtain ⟨k, hk, h⟩ := List.exists_of_findSome?_eq_some h
  obtain ⟨rest, hrest, e⟩ := Option.map_eq_some_iff.1 h
  obtain ⟨pre, e', hfold⟩ := dropFolded?_eq_some hrest
  obtain rfl : rest = [] := (Prod.mk.inj e).2
  rw [List.append_nil] at e'
  exact ⟨k, hk, by rw [e', hfold]⟩

theorem lineFeed_not_mem_keyword {ks : List Text} (hks : ks.all (fun k => '\n' ∉ k.map foldCase) = true) {t : Text}
    (h : ∃ k ∈ ks, t.map foldCase = k.map foldCase) : '\n' ∉ t := by
  obtain ⟨k, hk, e⟩ := h
  intro hm
  have hmem : foldCase '\n' ∈ t.map foldCase := List.mem_map_of_mem hm
  rw [e] at hmem
  exact of_decide_eq_true (List.all_eq_true.1 hks k hk) hmem

theorem startsWith_keyword {ks : List Text} (hks : ks.all (fun k => Scan.startsWith isLetter (k.map foldCase)) = true)
    {t : Text} (h : ∃ k ∈ ks, t.map foldCase = k.map foldCase) : Scan.startsWith isMark t = true := by
  obtain ⟨k, hk, e⟩ := h
  have hstart := List.all_eq_true.1 hks k hk
  rw [← e] at hstart
  cases t with
  | nil => exact absurd hstart (by simp [Scan.startsWith])
  | cons c r => exact isMark_of_isWord (isWord_of_foldCase hstart)

end DiagramText.Text

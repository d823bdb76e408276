/-
The words of a text. Words are runs of marks (`mem_words`), what stands at the beginning is the first of them
(`words_append`), and words written with one separator between two are read back (`words_join`). Together they hold the
marks of the text in their order (`flatten_words`).
-/
import DiagramText.Proofs.Text.Lines

namespace DiagramText.Text

variable {p : Char → Bool} {t : Text}

/-- a nonempty run of characters outside the class -/
structure IsWordOf (p : Char → Bool) (w : Text) : Prop where
  ne_nil : w ≠ []
  all : ∀ c ∈ w, p c = false

theorem words_cons_of_pos {c : Char} (hc : p c = true) (r : Text) : words p (c :: r) = words p r := if_pos hc

theorem words_cons_of_stop {c : Char} (hc : p c = false) {r : Text} (hr : Scan.startsWith (!p ·) r = false) :
    words p (c :: r) = [c] :: words p r := by
  rw [words.eq_def]
  dsimp only
  rw [if_neg (by simp [hc])]
  cases r with
  | nil => rfl
  | cons d r =>
    have hd : p d = true := by simpa [Scan.startsWith] using hr
    cases words p (d :: r) with
    | nil => rfl
    | cons v vs => exact if_pos hd

theorem words_cons_cons {c d : Char} (hc : p c = false) (hd : p d = false) {r w : Text} {ws : List Text}
    (h : words p (d :: r) = w :: ws) : words p (c :: d :: r) = (c :: w) :: ws := by
  rw [words.eq_def]
  dsimp only
  rw [if_neg (by simp [hc]), h]
  exact if_neg (by simp [hd])

/-- a word at the beginning, where nothing continues it -/
theorem words_append {w rest : Text} (hw : IsWordOf p w) (hr : Scan.startsWith (!p ·) rest = false) :
    words p (w ++ rest) = w :: words p rest := by
  obtain ⟨hne, hall⟩ := hw
  induction w with
  | nil => exact absurd rfl hne
  | cons c w ih =>
    cases w with
    | nil => exact words_cons_of_stop (hall c (by simp)) hr
    | cons d w =>
      exact words_cons_cons (hall c (by simp)) (hall d (by simp)) (ih (by simp) fun x hx => hall x (List.mem_cons_of_mem c hx))

/-- a text is words with characters of the class before, between and after them -/
theorem words_induction {motive : Text → Prop} (nil : motive []) (skip : ∀ c r, p c = true → motive r → motive (c :: r))
    (word : ∀ w r, IsWordOf p w → Scan.startsWith (!p ·) r = false → motive r → motive (w ++ r)) (t : Text) : motive t := by
  induction hlen : t.length using Nat.strong_induction_on generalizing t with
  | _ n ih =>
    cases t with
    | nil => exact nil
    | cons c r =>
      by_cases hc : p c = true
      · exact skip c r hc (ih r.length (by simp [← hlen]) r rfl)
      · have hne : (c :: r).takeWhile (!p ·) ≠ [] := by simp [hc]
        have hstart : Scan.startsWith (!p ·) ((c :: r).dropWhile (!p ·)) = false := by
          cases h : (c :: r).dropWhile (!p ·) with
          | nil => rfl
          | cons d s =>
            have hd := List.head?_dropWhile_not (!p ·) (c :: r)
            rw [h] at hd
            exact hd
        have hword : IsWordOf p ((c :: r).takeWhile (!p ·)) :=
          ⟨hne, fun x hx => by simpa using List.all_eq_true.1 List.all_takeWhile x hx⟩
        have hshort : ((c :: r).dropWhile (!p ·)).length < n := by
          have hsum := congrArg List.length (List.takeWhile_append_dropWhile (p := (!p ·)) (l := c :: r))
          have hpos := List.length_pos_iff.2 hne
          rw [List.length_append, hlen] at hsum
          omega
        have h := word _ _ hword hstart (ih _ hshort _ rfl)
        rwa [List.takeWhile_append_dropWhile] at h

theorem mem_words {w : Text} (h : w ∈ words p t) : IsWordOf p w := by
  induction t using words_induction (p := p) with
  | nil => exact absurd h (by simp [words])
  | skip c r hc ih =>
    rw [words_cons_of_pos hc] at h
    exact ih h
  | word v r hv hr ih =>
    rw [words_append hv hr] at h
    rcases List.mem_cons.1 h with rfl | h
    · exact hv
    · exact ih h

/-- words written with a separator between two are read back, whatever separators follow the last -/
theorem words_join_append {sep b : Text} (hne : sep ≠ []) (hsep : sep.all p = true) (hb : b.all p = true) {ws : List Text}
    (h : ∀ w ∈ ws, IsWordOf p w) : words p (join sep ws ++ b) = ws := by
  have hskip : ∀ {s : Text} (t : Text), s.all p = true → words p (s ++ t) = words p t := by
    intro s t hs
    induction s with
    | nil => rfl
    | cons c s ih =>
      rw [List.all_cons, Bool.and_eq_true] at hs
      rw [List.cons_append, words_cons_of_pos hs.1, ih hs.2]
  have hstop : ∀ {s : Text} (t : Text), s ≠ [] → s.all p = true → Scan.startsWith (!p ·) (s ++ t) = false := by
    intro s t hs hall
    obtain ⟨c, s, rfl⟩ := List.exists_cons_of_ne_nil hs
    rw [List.all_cons, Bool.and_eq_true] at hall
    simp [Scan.startsWith, hall.1]
  have hend : words p b = [] := by simpa [words] using hskip [] hb
  induction ws with
  | nil => exact hend
  | cons w ws ih =>
    have hw := h w List.mem_cons_self
    cases ws with
    | nil =>
      have hstop : Scan.startsWith (!p ·) b = false := by
        cases b with
        | nil => rfl
        | cons c b => simpa using hstop [] (List.cons_ne_nil c b) hb
      rw [join_singleton, words_append hw hstop, hend]
    | cons v ws =>
      have ih := ih fun x hx => h x (List.mem_cons_of_mem w hx)
      rw [join_cons_cons, List.append_assoc, List.append_assoc, words_append hw (hstop _ hne hsep), hskip _ hsep, ih]

/-- words written with one separator between two are read back -/
theorem words_join {sep : Char} (hsep : p sep = true) {ws : List Text} (h : ∀ w ∈ ws, IsWordOf p w) :
    words p (join [sep] ws) = ws := by
  have hjoin := words_join_append (List.cons_ne_nil sep []) (by simp [hsep]) (List.all_nil : List.all [] p = true) h
  rwa [List.append_nil] at hjoin

/-- joined texts start as the first of them does -/
theorem startsWith_join {sep : Text} {ws : List Text} (hne : ws ≠ []) (h : ∀ w ∈ ws, Scan.startsWith p w = true) :
    Scan.startsWith p (join sep ws) = true := by
  obtain ⟨w, ws, rfl⟩ := List.exists_cons_of_ne_nil hne
  cases ws with
  | nil => exact (join_singleton sep w).symm ▸ h w List.mem_cons_self
  | cons v ws =>
    rw [join_cons_cons, List.append_assoc]
    exact startsWith_append _ (h w List.mem_cons_self)

/-- joined texts end as the last of them does -/
theorem endsWith_join {sep : Text} {ws : List Text} (hne : ws ≠ []) (h : ∀ w ∈ ws, endsWith p w = true) :
    endsWith p (join sep ws) = true := by
  induction ws with
  | nil => exact absurd rfl hne
  | cons w ws ih =>
    cases ws with
    | nil => exact (join_singleton sep w).symm ▸ h w List.mem_cons_self
    | cons v ws =>
      rw [join_cons_cons]
      exact endsWith_append _ (ih (List.cons_ne_nil v ws) fun x hx => h x (List.mem_cons_of_mem w hx))

/-- words hold what is not of the class, in order -/
theorem flatten_words (p : Char → Bool) (t : Text) : (words p t).flatten = t.filter (!p ·) := by
  induction t using words_induction (p := p) with
  | nil => rfl
  | skip c r hc ih => rw [words_cons_of_pos hc, ih, List.filter_cons_of_neg (by simp [hc])]
  | word w r hw hr ih =>
    have hkeep : w.filter (!p ·) = w := List.filter_eq_self.2 fun c hc => by simp [hw.all c hc]
    rw [words_append hw hr, List.flatten_cons, ih, List.filter_append, hkeep]

end DiagramText.Text

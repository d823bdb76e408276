/-
What scanners return is taken from their text. Each lemma says so of one scanner, so a text without a line feed is read
into parts without one.
-/
import DiagramText.Proofs.Text.Names
import DiagramText.Proofs.Text.Quoted

namespace DiagramText

namespace Text

theorem trim_subset (t : Text) : trim t ⊆ t := fun _ h => mem_of_mem_trim h

theorem dropPrefix?_subset {w t r : Text} (h : dropPrefix? w t = some r) : r ⊆ t := by
  rw [dropPrefix?_eq_some_iff.1 h]
  exact List.subset_append_right w r

theorem span_subset (p : Char → Bool) (t : Text) : (span p t).1 ⊆ t ∧ (span p t).2 ⊆ t :=
  ⟨(List.takeWhile_sublist p).subset, (List.dropWhile_sublist p).subset⟩

theorem span_eq_subset {p : Char → Bool} {t run rest : Text} (h : span p t = (run, rest)) : run ⊆ t ∧ rest ⊆ t := by
  have := span_subset p t
  rwa [h] at this

theorem all_of_span_eq {p : Char → Bool} {t run rest : Text} (h : span p t = (run, rest)) : run.all p = true := by
  rw [← (Prod.mk.inj h).1]
  exact List.all_takeWhile

/-- quotes may add double quotes, and nothing else -/
theorem lineFeed_not_mem_unquote {t : Text} (h : '\n' ∉ t) : '\n' ∉ unquote t := fun hm =>
  (mem_of_mem_unquote hm).elim (by decide) h

end Text

namespace Scan

open DiagramText.Text

variable {t rest : Text}

theorem blanks_subset (t : Text) : blanks t ⊆ t := (List.dropWhile_sublist isBlank).subset

theorem blanks?_subset (h : blanks? t = some rest) : rest ⊆ t := (blanks?_suffix h).subset

theorem word?_subset {w : Text} (h : word? w t = some rest) : rest ⊆ t := by
  obtain ⟨r, hr, hb⟩ := Option.bind_eq_some_iff.1 h
  exact List.Subset.trans (blanks?_subset hb) (dropPrefix?_subset hr)

theorem optionalRest?_subset (h : optionalRest? t = some rest) : rest ⊆ t := by
  unfold optionalRest? at h
  split at h
  · rw [← Option.some.inj h]
    exact List.nil_subset t
  · exact blanks?_subset h

theorem line?_subset (h : line? t = some rest) : rest ⊆ t := by
  unfold line? at h
  split at h
  · rename_i hs
    exact Option.some.inj h ▸ (span_eq_subset hs).1
  · rename_i hs
    exact Option.some.inj h ▸ (span_eq_subset hs).1
  · exact absurd h (by simp)

theorem run?_eq_some {p : Char → Bool} {run : Text} (h : run? p t = some (run, rest)) :
    run ≠ [] ∧ run.all p = true ∧ rest ⊆ t := by
  unfold run? at h
  split at h
  · exact absurd h (by simp)
  · rename_i c run' rest' hs
    obtain ⟨rfl, rfl⟩ := Prod.mk.inj (Option.some.inj h)
    exact ⟨by simp, all_of_span_eq hs, (span_eq_subset hs).2⟩

theorem run?_eq_append {p : Char → Bool} {run : Text} (h : run? p t = some (run, rest)) : t = run ++ rest := by
  unfold run? at h
  split at h
  · exact absurd h (by simp)
  · rename_i e
    obtain ⟨rfl, rfl⟩ := Prod.mk.inj (Option.some.inj h)
    exact eq_append_of_span_eq e

theorem quoted?_subset {token : Text} (h : quoted? t = some (token, rest)) : token ⊆ t ∧ rest ⊆ t := by
  rw [quoted?_append h]
  exact ⟨List.subset_append_left token rest, List.subset_append_right token rest⟩

theorem name?_subset {p : Char → Bool} {name : Text} (h : name? p t = some (name, rest)) : rest ⊆ t := by
  rw [name?_append h]
  exact List.subset_append_right name rest

theorem comma?_subset (h : comma? t = some rest) : rest ⊆ t := by
  unfold comma? at h
  split at h
  · rename_i r hr
    rw [← Option.some.inj h]
    have hsub := blanks_subset t
    rw [hr] at hsub
    exact List.Subset.trans (blanks_subset r) fun c hc => hsub (List.mem_cons_of_mem _ hc)
  · exact absurd h (by simp)

theorem dropKeyword?_subset {w : Text} (h : dropKeyword? w t = some rest) : rest ⊆ t := by
  obtain ⟨pre, rfl, -⟩ := dropFolded?_eq_some h
  exact List.subset_append_right pre rest

theorem keyword?_subset {w : Text} (h : keyword? w t = some rest) : rest ⊆ t := by
  obtain ⟨r, hr, hb⟩ := Option.bind_eq_some_iff.1 h
  exact List.Subset.trans (blanks?_subset hb) (dropKeyword?_subset hr)

theorem keywordText?_subset {w : Text} (h : keywordText? w t = some rest) : rest ⊆ t := by
  obtain ⟨r, hr, h⟩ := Option.bind_eq_some_iff.1 h
  obtain ⟨h, -⟩ := Option.filter_eq_some_iff.1 h
  obtain rfl := Option.some.inj h
  exact fun c hc => keyword?_subset hr (mem_of_mem_trim hc)

theorem afterColon?_subset (h : afterColon? t = some rest) : rest ⊆ t := by
  unfold afterColon? at h
  split at h
  · rename_i r hr
    have hsub := blanks_subset t
    rw [hr] at hsub
    rw [← Option.some.inj h]
    exact List.Subset.trans (blanks_subset r) fun c hc => hsub (List.mem_cons_of_mem _ hc)
  · exact absurd h (by simp)

theorem optionalLabel?_subset {label : Option Text} (h : optionalLabel? t = some label) {v : Text} (hv : label = some v) :
    v ⊆ t := by
  unfold optionalLabel? at h
  split at h
  · rw [← Option.some.inj h] at hv
    exact absurd hv (by simp)
  · obtain ⟨r, hr, rfl⟩ := Option.map_eq_some_iff.1 h
    exact Option.some.inj hv ▸ afterColon?_subset hr

/-- lists hold what their items are -/
theorem mem_lists {P : Text → Prop} {item? : Text → Option (Text × Text)}
    (hitem : ∀ {t i r}, item? t = some (i, r) → P i ∧ r ⊆ t) {is : List Text} (h : (is, rest) ∈ lists item? t) :
    (∀ i ∈ is, P i) ∧ rest ⊆ t := by
  have hone : ∀ {t i r is rest}, item? t = some (i, r) → (is, rest) ∈ [([i], r)] → (∀ i ∈ is, P i) ∧ rest ⊆ t := by
    intro t i r is rest hi he
    obtain ⟨rfl, rfl⟩ := Prod.mk.inj (List.mem_singleton.1 he)
    exact ⟨by simpa using (hitem hi).1, (hitem hi).2⟩
  fun_induction lists item? t generalizing is rest with
  | case1 => exact absurd h (by simp)
  | case2 t i r hi hcomma => exact hone hi h
  | case3 t i r hi next hcomma hlt ih =>
    rcases List.mem_append.1 h with h | h
    · obtain ⟨⟨js, r'⟩, hj, he⟩ := List.mem_map.1 h
      obtain ⟨rfl, rfl⟩ := Prod.mk.inj he
      obtain ⟨hall, hsub⟩ := ih hj
      refine ⟨List.forall_mem_cons.2 ⟨(hitem hi).1, hall⟩, ?_⟩
      exact List.Subset.trans hsub (List.Subset.trans (comma?_subset hcomma) (hitem hi).2)
    · exact hone hi h
  | case4 t i r hi next hcomma hlt => exact hone hi h

end Scan

end DiagramText

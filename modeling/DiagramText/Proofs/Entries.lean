/-
Items in the order of their keys, and maps as functions and as lists. `get?_insert` and `keys_insert` say what writing a key
does to the values and to the order of the keys; `ext_of_keys` and `perm_of_get?` turn equal values back into equal maps, in
order or up to order.
`toList_update` is the map that fresh pairs write, `keys_ofList` and `get?_ofList_eq_some_iff` are the order and the values that
any pairs write, and `pick` is the map in which the keys of a map come again in another order.
-/
import DiagramText.Entries
import Mathlib.Tactic

namespace DiagramText

/-! ## Items in the order of their keys -/

namespace Text

theorem le_iff {s t : Text} : le s t = true ↔ ¬ t < s := by
  simp [le]

theorem le_trans {s t u : Text} (h : le s t = true) (h' : le t u = true) : le s u = true :=
  le_iff.2 (List.le_trans (le_iff.1 h) (le_iff.1 h'))

theorem le_total (s t : Text) : (le s t || le t s) = true := by
  rw [Bool.or_eq_true, le_iff, le_iff]
  exact List.le_total s t

theorem le_antisymm {s t : Text} (h : le s t = true) (h' : le t s = true) : s = t :=
  List.le_antisymm (le_iff.1 h) (le_iff.1 h')

theorem pairwise_mergeSort {α : Type} (key : α → Text) (xs : List α) :
    (xs.mergeSort fun a b => le (key a) (key b)).Pairwise fun a b => le (key a) (key b) = true := by
  refine List.pairwise_mergeSort ?_ ?_ xs
  · exact fun _ _ _ => le_trans
  · exact fun a b => le_total (key a) (key b)

/-- items that their keys tell apart are sorted in one way only -/
theorem mergeSort_of_perm {α : Type} {key : α → Text} {xs ys : List α} (h : xs.Perm ys)
    (hkey : ∀ a ∈ xs, ∀ b ∈ xs, key a = key b → a = b) :
    xs.mergeSort (fun a b => le (key a) (key b)) = ys.mergeSort (fun a b => le (key a) (key b)) := by
  refine List.Perm.eq_of_pairwise (fun a b ha hb hab hba => ?_) (pairwise_mergeSort key xs) (pairwise_mergeSort key ys)
    ((List.mergeSort_perm xs _).trans (h.trans (List.mergeSort_perm ys _).symm))
  exact hkey a (List.mem_mergeSort.1 ha) b (h.mem_iff.2 (List.mem_mergeSort.1 hb)) (le_antisymm hab hba)

/-- sorted or not, the items are the same -/
theorem perm_ite_mergeSort {α : Type} (c : Prop) [Decidable c] (le : α → α → Bool) (xs : List α) :
    (if c then xs.mergeSort le else xs).Perm xs := by
  split
  · exact List.mergeSort_perm xs le
  · exact .refl xs

/-- sorting is stable: items of one key keep their order -/
theorem filter_mergeSort {α : Type} (key : α → Text) (xs : List α) (k : Text) :
    (xs.mergeSort fun a b => le (key a) (key b)).filter (fun a => key a = k) = xs.filter fun a => key a = k := by
  have hle : (xs.filter fun a => key a = k).Pairwise fun a b => le (key a) (key b) = true := by
    refine List.pairwise_of_forall_mem_list fun a ha b hb => ?_
    simp only [List.mem_filter, decide_eq_true_eq] at ha hb
    rw [ha.2, hb.2, le_iff]
    exact List.lt_irrefl k
  have hsublist : (xs.filter fun a => key a = k).Sublist (xs.mergeSort fun a b => le (key a) (key b)) := by
    refine List.sublist_mergeSort ?_ ?_ hle List.filter_sublist
    · exact fun _ _ _ => le_trans
    · exact fun a b => le_total (key a) (key b)
  have hfilter := hsublist.filter fun a => decide (key a = k)
  rw [List.filter_filter, funext fun a => Bool.and_self (decide (key a = k))] at hfilter
  exact (hfilter.eq_of_length (((List.mergeSort_perm xs _).filter _).length_eq.symm)).symm

end Text

namespace Entries

variable {α β : Type}

/-! ## Values -/

theorem lookup_put (k k' : Text) (v : α) (l : List (Text × α)) :
    lookup k' (put k v l) = if k = k' then some v else lookup k' l := by
  induction l with
  | nil => rfl
  | cons p r ih =>
    obtain ⟨k₁, v₁⟩ := p
    by_cases h : k₁ = k
    · subst h
      simp only [put, if_true, lookup]
      split <;> rfl
    · simp only [put, h, if_false, lookup, ih]
      by_cases h' : k₁ = k'
      · subst h'
        simp [Ne.symm h]
      · simp [h']

@[simp] theorem get?_empty (k : Text) : (empty : Entries α).get? k = none := rfl

@[simp] theorem keys_empty : (empty : Entries α).keys = [] := rfl

theorem get?_insert (e : Entries α) (k k' : Text) (v : α) :
    (e.insert k v).get? k' = if k = k' then some v else e.get? k' := lookup_put k k' v e.toList

theorem get?_insertNew (e : Entries α) (k k' : Text) (v : α) :
    (e.insertNew k v).get? k' = if k = k' then some ((e.get? k).getD v) else e.get? k' := by
  unfold insertNew contains
  cases h : e.get? k with
  | none => simp [get?_insert]
  | some w =>
    simp only [Option.isSome_some, if_true, Option.getD_some]
    split
    · rename_i hk
      rw [← hk, h]
    · rfl

/-- what is found after a write was written there, or was there before -/
theorem get?_insert_cases {e : Entries α} {k k' : Text} {v w : α} (h : (e.insert k v).get? k' = some w) :
    (k' = k ∧ w = v) ∨ e.get? k' = some w := by
  rw [get?_insert] at h
  split at h
  · rename_i hk
    exact Or.inl ⟨hk.symm, (Option.some.inj h).symm⟩
  · exact Or.inr h

theorem get?_insertNew_cases {e : Entries α} {k k' : Text} {v w : α} (h : (e.insertNew k v).get? k' = some w) :
    (k' = k ∧ w = v) ∨ e.get? k' = some w := by
  unfold insertNew at h
  split at h
  · exact Or.inr h
  · exact get?_insert_cases h

theorem get?_alter (e : Entries α) (k k' : Text) (start : α) (f : α → α) :
    (e.alter k start f).get? k' = if k = k' then some (f ((e.get? k).getD start)) else e.get? k' :=
  get?_insert e k k' _

/-! ## Keys -/

theorem lookup_isSome (k : Text) (l : List (Text × α)) : (lookup k l).isSome = true ↔ k ∈ l.map Prod.fst := by
  induction l with
  | nil => simp [lookup]
  | cons p r ih =>
    obtain ⟨k', v⟩ := p
    by_cases h : k' = k
    · simp [lookup, h]
    · simp [lookup, h, ih, Ne.symm h]

theorem contains_iff {e : Entries α} {k : Text} : e.contains k = true ↔ k ∈ e.keys := lookup_isSome k e.toList

theorem get?_eq_none_iff {e : Entries α} {k : Text} : e.get? k = none ↔ k ∉ e.keys := by
  rw [← contains_iff, contains]
  simp

theorem mem_keys_of_get? {e : Entries α} {k : Text} {v : α} (h : e.get? k = some v) : k ∈ e.keys := by
  rw [← contains_iff, contains, h]
  rfl

theorem exists_of_mem_keys {e : Entries α} {k : Text} (h : k ∈ e.keys) : ∃ v, e.get? k = some v :=
  Option.isSome_iff_exists.1 (contains_iff.2 h)

theorem keys_insert (e : Entries α) (k : Text) (v : α) :
    (e.insert k v).keys = if k ∈ e.keys then e.keys else e.keys ++ [k] := map_fst_put k v e.toList

theorem mem_keys_insert {e : Entries α} {k k' : Text} {v : α} : k' ∈ (e.insert k v).keys ↔ k' ∈ e.keys ∨ k' = k := by
  rw [keys_insert]
  split
  · exact ⟨Or.inl, fun h => h.elim id fun hk => hk ▸ ‹_›⟩
  · rw [List.mem_append, List.mem_singleton]

theorem keys_insertNew (e : Entries α) (k : Text) (v : α) :
    (e.insertNew k v).keys = if k ∈ e.keys then e.keys else e.keys ++ [k] := by
  unfold insertNew
  by_cases h : k ∈ e.keys
  · rw [if_pos (contains_iff.2 h), if_pos h]
  · rw [if_neg (fun hc => h (contains_iff.1 hc)), keys_insert]

theorem mem_keys_insertNew {e : Entries α} {k k' : Text} {v : α} : k' ∈ (e.insertNew k v).keys ↔ k' ∈ e.keys ∨ k' = k := by
  rw [keys_insertNew, ← keys_insert e k v, mem_keys_insert]

theorem keys_alter (e : Entries α) (k : Text) (start : α) (f : α → α) :
    (e.alter k start f).keys = if k ∈ e.keys then e.keys else e.keys ++ [k] := keys_insert e k _

theorem nodup_keys (e : Entries α) : e.keys.Nodup := e.nodup

/-! ## Pairs -/

theorem lookup_eq_some_iff {k : Text} {v : α} {l : List (Text × α)} (h : (l.map Prod.fst).Nodup) :
    lookup k l = some v ↔ (k, v) ∈ l := by
  induction l with
  | nil => simp [lookup]
  | cons p r ih =>
    obtain ⟨k', v'⟩ := p
    simp only [List.map_cons, List.nodup_cons] at h
    by_cases hk : k' = k
    · subst hk
      have hn : (k', v) ∉ r := fun hm => h.1 (List.mem_map_of_mem hm)
      simp [lookup, hn, eq_comm]
    · simp [lookup, hk, ih h.2, Ne.symm hk]

theorem mem_toList_iff {e : Entries α} {k : Text} {v : α} : (k, v) ∈ e.toList ↔ e.get? k = some v :=
  (lookup_eq_some_iff e.nodup).symm

theorem mem_values_iff {e : Entries α} {v : α} : v ∈ e.values ↔ ∃ k, e.get? k = some v := by
  simp only [values, List.mem_map, Prod.exists, exists_eq_right]
  exact exists_congr fun k => mem_toList_iff

/-- values that know their keys are found under them -/
theorem mem_values_iff_of_byId {e : Entries α} {id : α → Text} (h : ∀ {k v}, e.get? k = some v → id v = k) {v : α} :
    v ∈ e.values ↔ e.get? (id v) = some v := by
  rw [mem_values_iff]
  exact ⟨fun ⟨k, hk⟩ => by rw [h hk, hk], fun hv => ⟨id v, hv⟩⟩

/-- values that know their keys have them in the same order -/
theorem map_values {e : Entries α} {id : α → Text} (h : ∀ {k v}, e.get? k = some v → id v = k) : e.values.map id = e.keys := by
  rw [values, keys, List.map_map]
  exact List.map_congr_left fun x hx => h (mem_toList_iff.1 hx)

theorem nodup_toList (e : Entries α) : e.toList.Nodup := e.nodup.of_map Prod.fst

theorem lookup_map (f : Text → α → β) (k : Text) (l : List (Text × α)) :
    lookup k (l.map fun p => (p.1, f p.1 p.2)) = (lookup k l).map (f k) := by
  induction l with
  | nil => rfl
  | cons p r ih =>
    obtain ⟨k', v⟩ := p
    by_cases h : k' = k
    · simp [lookup, h]
    · simp [lookup, h, ih]

@[simp] theorem get?_map (f : α → β) (e : Entries α) (k : Text) : (e.map f).get? k = (e.get? k).map f :=
  lookup_map (fun _ v => f v) k e.toList

@[simp] theorem keys_map (f : α → β) (e : Entries α) : (e.map f).keys = e.keys := by
  simp [keys, map, Function.comp_def]

/-- a map is its keys in order and their values -/
theorem toList_eq_keys (e : Entries α) : e.toList = e.keys.filterMap fun k => (e.get? k).map (k, ·) := by
  have : ∀ l : List (Text × α), (∀ p ∈ l, e.get? p.1 = some p.2) →
      l = (l.map Prod.fst).filterMap fun k => (e.get? k).map (k, ·) := by
    intro l h
    induction l with
    | nil => rfl
    | cons p r ih =>
      rw [List.map_cons, List.filterMap_cons, h p (by simp), ← ih fun q hq => h q (by simp [hq])]
      rfl
  exact this e.toList fun p hp => mem_toList_iff.1 hp

/-- the values of some of the keys, in the order of the map -/
theorem filter_values {e : Entries α} {id : α → Text} (h : ∀ {k v}, e.get? k = some v → id v = k) (ks : List Text) :
    (e.values.filter fun v => id v ∈ ks) = (e.keys.filter (· ∈ ks)).filterMap e.get? := by
  have hvalues : e.values = e.keys.filterMap e.get? := by
    rw [values, toList_eq_keys, List.map_filterMap]
    refine List.filterMap_congr fun k _ => ?_
    rw [Option.map_map]
    exact Option.map_id'
  rw [hvalues, List.filter_filterMap, List.filterMap_filter]
  refine List.filterMap_congr fun k _ => ?_
  cases hget : e.get? k with
  | none => simp
  | some v =>
    rw [Option.filter_some, h hget]

/-- the entries of some of the keys, in the order of the map -/
theorem filter_toList (e : Entries α) (P : Text → Bool) :
    (e.toList.filter fun x => P x.1) = (e.keys.filter P).filterMap fun k => (e.get? k).map (k, ·) := by
  conv_lhs => rw [toList_eq_keys e]
  rw [List.filter_filterMap, List.filterMap_filter]
  refine List.filterMap_congr fun k _ => ?_
  cases e.get? k with
  | none => simp
  | some v => rw [Option.map_some, Option.filter_some]

theorem ext_toList {e e' : Entries α} (h : e.toList = e'.toList) : e = e' := by
  cases e
  cases e'
  simpa using h

/-- maps with the same keys in the same order and the same values are equal -/
theorem ext_of_keys {e e' : Entries α} (hk : e.keys = e'.keys) (hv : ∀ k, e.get? k = e'.get? k) : e = e' := by
  apply ext_toList
  rw [toList_eq_keys e, toList_eq_keys e', hk]
  simp only [hv]

/-- **maps with the same values are equal up to order** -/
theorem perm_of_get? {e e' : Entries α} (h : ∀ k, e.get? k = e'.get? k) : e.toList.Perm e'.toList := by
  rw [List.perm_ext_iff_of_nodup (nodup_toList e) (nodup_toList e')]
  rintro ⟨k, v⟩
  rw [mem_toList_iff, mem_toList_iff, h]

theorem get?_erase (e : Entries α) (k k' : Text) : (e.erase k).get? k' = if k = k' then none else e.get? k' := by
  apply Option.ext
  intro v
  rw [← mem_toList_iff]
  split
  · rename_i h
    subst h
    simp [erase]
  · rename_i h
    rw [← mem_toList_iff, erase, List.mem_filter]
    simp [Ne.symm h]

theorem keys_erase (e : Entries α) (k : Text) : (e.erase k).keys = e.keys.filter (· ≠ k) := by
  rw [keys, keys, erase, List.filter_map]
  rfl

/-- a key that is taken out comes back at the end -/
theorem keys_insert_erase (e : Entries α) (k : Text) (v : α) :
    ((e.erase k).insert k v).keys = e.keys.filter (· ≠ k) ++ [k] := by
  rw [keys_insert, keys_erase, if_neg (by simp)]

theorem get?_insert_erase (e : Entries α) (k k' : Text) (v : α) :
    ((e.erase k).insert k v).get? k' = if k = k' then some v else e.get? k' := by
  rw [get?_insert, get?_erase]
  split <;> rfl

/-- what is found once a key has been moved to the end was written there, or was under another key before -/
theorem get?_insert_erase_cases {e : Entries α} {k k' : Text} {v w : α} (h : ((e.erase k).insert k v).get? k' = some w) :
    (k' = k ∧ w = v) ∨ (k' ≠ k ∧ e.get? k' = some w) := by
  rw [get?_insert_erase] at h
  split at h
  · rename_i hk
    exact Or.inl ⟨hk.symm, (Option.some.inj h).symm⟩
  · rename_i hk
    exact Or.inr ⟨Ne.symm hk, h⟩

/-! ## A key written again -/

theorem put_put (k : Text) (v w : α) (l : List (Text × α)) : put k w (put k v l) = put k w l := by
  induction l with
  | nil => simp [put]
  | cons x r ih =>
    by_cases h : x.1 = k
    · simp [put, h]
    · simp [put, h, ih]

theorem insert_insert (e : Entries α) (k : Text) (v w : α) : (e.insert k v).insert k w = e.insert k w :=
  ext_toList (put_put k v w e.toList)

/-- a key that is written as it was -/
theorem insert_of_get? {e : Entries α} {k : Text} {v : α} (h : e.get? k = some v) : e.insert k v = e := by
  refine ext_of_keys ?_ fun k' => ?_
  · rw [keys_insert, if_pos (mem_keys_of_get? h)]
  · rw [get?_insert]
    split
    · rename_i hk
      rw [← hk, h]
    · rfl

theorem map_put {g : Text × α → β} {k : Text} {v w : α} (hg : g (k, w) = g (k, v)) {l : List (Text × α)} (h : lookup k l = some v) :
    (put k w l).map g = l.map g := by
  induction l with
  | nil => cases h
  | cons x r ih =>
    obtain ⟨k', v'⟩ := x
    by_cases e : k' = k
    · rw [lookup, if_pos e, Option.some.injEq] at h
      rw [put, if_pos e, List.map_cons, List.map_cons, hg, e, h]
    · rw [lookup, if_neg e] at h
      rw [put, if_neg e, List.map_cons, List.map_cons, ih h]

/-- a key that is written again, seen by something that its new value does not change -/
theorem map_toList_insert {e : Entries α} {g : Text × α → β} {k : Text} {v w : α} (h : e.get? k = some v)
    (hg : g (k, w) = g (k, v)) : (e.insert k w).toList.map g = e.toList.map g := map_put hg h

theorem insertNew_of_get? {e : Entries α} {k : Text} {v : α} (h : e.get? k = some v) (start : α) : e.insertNew k start = e := by
  rw [insertNew, if_pos (contains_iff.2 (mem_keys_of_get? h))]

theorem insertNew_of_get?_eq_none {e : Entries α} {k : Text} (h : e.get? k = none) (start : α) :
    e.insertNew k start = e.insert k start := by
  rw [insertNew, if_neg fun hc => get?_eq_none_iff.1 h (contains_iff.1 hc)]

/-! ## Pairs written one after another -/

/-- writing adds one pair, and takes the others from before -/
theorem mem_put {k : Text} {v : α} {l : List (Text × α)} {x : Text × α} (h : x ∈ put k v l) : x = (k, v) ∨ x ∈ l := by
  induction l with
  | nil => simpa [put] using h
  | cons y r ih =>
    rw [put] at h
    split at h
    · exact (List.mem_cons.1 h).imp_right (List.mem_cons_of_mem y)
    · rcases List.mem_cons.1 h with rfl | h
      · simp
      · exact (ih h).imp_right (List.mem_cons_of_mem y)

theorem mem_update {e : Entries α} {pairs : List (Text × α)} {x : Text × α} (h : x ∈ (e.update pairs).toList) :
    x ∈ e.toList ∨ x ∈ pairs := by
  induction pairs generalizing e with
  | nil => exact Or.inl h
  | cons p r ih =>
    rcases ih (e := e.insert p.1 p.2) h with h | h
    · exact (mem_put h).symm.imp_right fun e => by simp [e]
    · exact Or.inr (List.mem_cons_of_mem p h)

theorem put_of_notMem {k : Text} (v : α) {l : List (Text × α)} (h : k ∉ l.map Prod.fst) : put k v l = l ++ [(k, v)] := by
  induction l with
  | nil => rfl
  | cons p r ih =>
    obtain ⟨k', v'⟩ := p
    simp only [List.map_cons, List.mem_cons, not_or] at h
    simp [put, Ne.symm h.1, ih h.2]

theorem toList_insert_of_notMem {e : Entries α} {k : Text} (v : α) (h : k ∉ e.keys) :
    (e.insert k v).toList = e.toList ++ [(k, v)] := put_of_notMem v h

/-- the keys among some that are not known yet, each where it first comes -/
def fresh (known ks : List Text) : List Text := (ks.filter (· ∉ known)).eraseDups

theorem fresh_nil (ks : List Text) : fresh [] ks = ks.eraseDups := by simp [fresh]

/-- one more thing is new unless it came before -/
theorem eraseDups_concat [BEq β] [LawfulBEq β] (xs : List β) (x : β) :
    (xs ++ [x]).eraseDups = if x ∈ xs then xs.eraseDups else xs.eraseDups ++ [x] := by
  rw [List.eraseDups_append]
  split
  · simp [List.removeAll, *]
  · simp [List.removeAll, List.eraseDups_cons, *]

/-- a further key is fresh unless it is known or came before -/
theorem fresh_concat (known ks : List Text) (k : Text) :
    fresh known (ks ++ [k]) = if k ∈ known ++ fresh known ks then fresh known ks else fresh known ks ++ [k] := by
  by_cases hknown : k ∈ known
  · simp [fresh, List.filter_append, hknown]
  · simp [fresh, List.filter_append, hknown, eraseDups_concat]

/-- things that are written under their own keys when they come first stand after what there was, in the order in which they come -/
theorem toList_foldl_insertNew_of_injOn [BEq β] [LawfulBEq β] (key : β → Text) (value : β → α) (e : Entries α) {xs : List β}
    (hkey : ∀ x ∈ xs, ∀ y ∈ xs, key x = key y → x = y) :
    (xs.foldl (fun e x => e.insertNew (key x) (value x)) e).toList
      = e.toList ++ (xs.filter fun x => key x ∉ e.keys).eraseDups.map fun x => (key x, value x) := by
  induction xs using List.reverseRecOn with
  | nil => simp
  | append_singleton xs x ih =>
    simp only [List.forall_mem_append, List.forall_mem_singleton] at hkey
    have ih := ih fun y hy => (hkey.1 y hy).1
    rw [List.foldl_concat]
    generalize xs.foldl (fun e x => e.insertNew (key x) (value x)) e = after at ih ⊢
    have hkeys : after.keys = e.keys ++ (xs.filter fun x => key x ∉ e.keys).eraseDups.map key := by
      simp [keys, ih, Function.comp_def]
    -- the key of `x` is taken when it was known before, or when `x` itself has come before
    have htaken : key x ∈ after.keys ↔ key x ∈ e.keys ∨ x ∈ xs := by
      rw [hkeys, List.mem_append, List.mem_map]
      refine ⟨fun h => h.imp_right ?_, fun h => ?_⟩
      · rintro ⟨y, hy, hsame⟩
        have hy := List.mem_of_mem_filter (List.mem_eraseDups.1 hy)
        exact (hkey.1 y hy).2 hsame ▸ hy
      · by_cases hknown : key x ∈ e.keys
        · exact Or.inl hknown
        · have hx : x ∈ xs.filter fun x => key x ∉ e.keys := List.mem_filter.2 ⟨h.resolve_left hknown, by simpa using hknown⟩
          exact Or.inr ⟨x, List.mem_eraseDups.2 hx, rfl⟩
    by_cases hx : key x ∈ after.keys
    · obtain ⟨v, hv⟩ := exists_of_mem_keys hx
      rw [insertNew_of_get? hv, ih, List.filter_append]
      by_cases hknown : key x ∈ e.keys
      · simp [hknown]
      · simp [hknown, eraseDups_concat, (htaken.1 hx).resolve_left hknown]
    · obtain ⟨hknown, hnew⟩ := not_or.1 (htaken.not.1 hx)
      rw [insertNew_of_get?_eq_none (get?_eq_none_iff.2 hx), toList_insert_of_notMem _ hx, ih, List.filter_append]
      simp [hknown, eraseDups_concat, hnew]

/-- keys that are written when they come first stand after those there were, in the order in which they come -/
theorem toList_foldl_insertNew (value : Text → α) (e : Entries α) (ks : List Text) :
    (ks.foldl (fun (e : Entries α) k => e.insertNew k (value k)) e).toList
      = e.toList ++ (fresh e.keys ks).map fun k => (k, value k) :=
  toList_foldl_insertNew_of_injOn (fun k => k) value e fun _ _ _ _ hsame => hsame

theorem keys_foldl_insertNew (value : Text → α) (ks : List Text) :
    (ks.foldl (fun (e : Entries α) k => e.insertNew k (value k)) .empty).keys = ks.eraseDups := by
  have hempty : (empty : Entries α).keys = [] := rfl
  rw [keys, toList_foldl_insertNew, hempty, fresh_nil]
  simp [empty, Function.comp_def]

/-- pairs with fresh keys stand after what there was -/
theorem toList_update {e : Entries α} {pairs : List (Text × α)} (h : (e.keys ++ pairs.map Prod.fst).Nodup) :
    (e.update pairs).toList = e.toList ++ pairs := by
  induction pairs generalizing e with
  | nil => simp [update]
  | cons p r ih =>
    obtain ⟨k, v⟩ := p
    have hk : k ∉ e.keys := by
      rw [List.nodup_append] at h
      exact fun hm => h.2.2 k hm k (by simp) rfl
    have hkeys : (e.insert k v).keys = e.keys ++ [k] := by rw [keys_insert, if_neg hk]
    have := ih (e := e.insert k v) (by rw [hkeys]; simpa using h)
    rw [toList_insert_of_notMem v hk] at this
    simpa [update] using this

theorem update_toList (e : Entries α) : empty.update e.toList = e := by
  apply ext_toList
  rw [toList_update (by simpa using e.nodup)]
  rfl

theorem ofList_toList (e : Entries α) : ofList e.toList = e := update_toList e

theorem ofList_concat (pairs : List (Text × α)) (x : Text × α) :
    ofList (pairs ++ [x]) = (ofList pairs).insert x.1 x.2 := by
  rw [ofList, update, List.foldl_concat]
  rfl

/-- **a key stands where it first comes**, however often it is written -/
theorem keys_ofList (pairs : List (Text × α)) : (ofList pairs).keys = (pairs.map Prod.fst).eraseDups := by
  induction pairs using List.reverseRecOn with
  | nil => rfl
  | append_singleton pairs x ih =>
    rw [ofList_concat, keys_insert, ih, List.map_append, List.map_singleton, eraseDups_concat]
    simp only [List.mem_eraseDups]

/-- the value of a key stands in the first pair that has the key -/
theorem lookup_eq_some_iff_first {k : Text} {v : α} {l : List (Text × α)} :
    lookup k l = some v ↔ ∃ before after, l = before ++ (k, v) :: after ∧ k ∉ before.map Prod.fst := by
  induction l with
  | nil => simp [lookup]
  | cons p r ih =>
    obtain ⟨k', w⟩ := p
    rw [lookup]
    by_cases hk : k' = k
    · subst hk
      rw [if_pos rfl, Option.some.injEq]
      constructor
      · rintro rfl
        exact ⟨[], r, rfl, by simp⟩
      · rintro ⟨before, after, e, hbefore⟩
        rcases List.cons_eq_append_iff.1 e with ⟨rfl, e⟩ | ⟨before, rfl, -⟩
        · cases e
          rfl
        · exact absurd (by simp) hbefore
    · rw [if_neg hk, ih]
      constructor
      · rintro ⟨before, after, rfl, hbefore⟩
        exact ⟨(k', w) :: before, after, rfl, by simpa [Ne.symm hk] using hbefore⟩
      · rintro ⟨before, after, e, hbefore⟩
        rcases List.cons_eq_append_iff.1 e with ⟨rfl, e⟩ | ⟨before, rfl, rfl⟩
        · cases e
          exact absurd rfl hk
        · exact ⟨before, after, rfl, fun hm => hbefore (List.mem_cons_of_mem k' hm)⟩

/-- writing pairs one after another finds what a search from the end finds -/
theorem get?_ofList (pairs : List (Text × α)) (k : Text) : (ofList pairs).get? k = lookup k pairs.reverse := by
  induction pairs using List.reverseRecOn with
  | nil => rfl
  | append_singleton pairs x ih =>
    rw [ofList_concat, get?_insert, ih, List.reverse_append]
    rfl

/-- **a key has the value that was written last** -/
theorem get?_ofList_eq_some_iff {pairs : List (Text × α)} {k : Text} {v : α} :
    (ofList pairs).get? k = some v ↔ ∃ earlier later, pairs = earlier ++ (k, v) :: later ∧ k ∉ later.map Prod.fst := by
  rw [get?_ofList, lookup_eq_some_iff_first]
  constructor
  · rintro ⟨before, after, e, hbefore⟩
    refine ⟨after.reverse, before.reverse, ?_, by simpa using hbefore⟩
    rw [← List.reverse_reverse pairs, e]
    simp
  · rintro ⟨earlier, later, rfl, hlater⟩
    exact ⟨later.reverse, earlier.reverse, by simp, by simpa using hlater⟩

/-! ## Keys that come in another order -/

/-- what is known once the value of a key has come, if there is one -/
def bring (e known : Entries α) (k : Text) : Entries α := ((e.get? k).map (known.insertNew k)).getD known

/-- the values of some keys, in the order in which the keys come -/
def pick (e : Entries α) (ks : List Text) : Entries α := ks.foldl (bring e) empty

section

variable {e : Entries α} {ks : List Text} {k : Text} {v : α}

theorem pick_concat (e : Entries α) (ks : List Text) (k : Text) : e.pick (ks ++ [k]) = bring e (e.pick ks) k := by
  rw [pick, List.foldl_append]
  rfl

/-- **the values that have come** are those of the map -/
theorem get?_pick (e : Entries α) (ks : List Text) (k : Text) : (e.pick ks).get? k = if k ∈ ks then e.get? k else none := by
  induction ks using List.reverseRecOn with
  | nil => rfl
  | append_singleton ks last ih =>
    rw [pick_concat, bring]
    cases hv : e.get? last with
    | none =>
      rw [Option.map_none, Option.getD_none, ih]
      by_cases hk : k = last
      · subst hk
        simp [hv]
      · simp [hk]
    | some v =>
      rw [Option.map_some, Option.getD_some, get?_insertNew, ih]
      by_cases hk : k = last
      · subst hk
        rw [if_pos rfl, if_pos (by simp), ih]
        split <;> simp [hv]
      · simp [hk, Ne.symm hk]

theorem pick_of_mem (h : k ∈ ks) : e.pick (ks ++ [k]) = e.pick ks := by
  rw [pick_concat, bring]
  cases hv : e.get? k with
  | none => rfl
  | some v =>
    rw [Option.map_some, Option.getD_some]
    exact insertNew_of_get? (by rw [get?_pick, if_pos h, hv]) v

theorem get?_pick_of_not_mem (h : k ∉ ks) : (e.pick ks).get? k = none := by
  rw [get?_pick, if_neg h]

theorem pick_of_not_mem (h : k ∉ ks) (hv : e.get? k = some v) : e.pick (ks ++ [k]) = (e.pick ks).insert k v := by
  rw [pick_concat, bring, hv, Option.map_some, Option.getD_some]
  exact insertNew_of_get?_eq_none (get?_pick_of_not_mem h) v

/-- a key that is only named brings its value, if that is what a named key starts with -/
theorem insertNew_pick (hk : k ∈ e.keys) (h : k ∉ ks → e.get? k = some v) : (e.pick ks).insertNew k v = e.pick (ks ++ [k]) := by
  by_cases hmem : k ∈ ks
  · obtain ⟨w, hw⟩ := exists_of_mem_keys hk
    rw [pick_of_mem hmem]
    exact insertNew_of_get? (by rw [get?_pick, if_pos hmem, hw]) _
  · rw [pick_of_not_mem hmem (h hmem)]
    exact insertNew_of_get?_eq_none (get?_pick_of_not_mem hmem) _

/-- keys that have not come yet stand at the end -/
theorem exists_toList_pick_append (e : Entries α) (ks ks' : List Text) :
    ∃ pairs, (e.pick (ks ++ ks')).toList = (e.pick ks).toList ++ pairs ∧
      ∀ x ∈ pairs, x.1 ∉ ks ∧ e.get? x.1 = some x.2 := by
  induction ks' using List.reverseRecOn with
  | nil => exact ⟨[], by simp, by simp⟩
  | append_singleton ks' k ih =>
    obtain ⟨pairs, hpairs, hnew⟩ := ih
    by_cases hmem : k ∈ ks ++ ks'
    · exact ⟨pairs, by rw [← List.append_assoc, pick_of_mem hmem, hpairs], hnew⟩
    · cases hv : e.get? k with
      | none =>
        refine ⟨pairs, ?_, hnew⟩
        rw [← List.append_assoc, pick_concat, bring, hv, Option.map_none, Option.getD_none, hpairs]
      | some v =>
        refine ⟨pairs ++ [(k, v)], ?_, List.forall_mem_append.2 ⟨hnew, ?_⟩⟩
        · have hnone : k ∉ (e.pick (ks ++ ks')).keys := get?_eq_none_iff.1 (get?_pick_of_not_mem hmem)
          rw [← List.append_assoc, pick_of_not_mem hmem hv, toList_insert_of_notMem v hnone, hpairs, List.append_assoc]
        · rw [List.forall_mem_singleton]
          exact ⟨fun hk => hmem (List.mem_append_left _ hk), hv⟩

/-- keys that come once keep their order, behind those that have come -/
theorem toList_pick_append {pairs : List (Text × α)} (hnodup : (pairs.map Prod.fst).Nodup) (hfree : ∀ x ∈ pairs, x.1 ∉ ks)
    (h : ∀ x ∈ pairs, e.get? x.1 = some x.2) : (e.pick (ks ++ pairs.map Prod.fst)).toList = (e.pick ks).toList ++ pairs := by
  induction pairs using List.reverseRecOn with
  | nil => simp
  | append_singleton pairs x ih =>
    rw [List.map_append, List.map_singleton, List.nodup_append] at hnodup
    have hx : x.1 ∉ ks ++ pairs.map Prod.fst := by
      rw [List.mem_append, not_or]
      exact ⟨hfree x (by simp), fun hm => hnodup.2.2 x.1 hm x.1 (by simp) rfl⟩
    have hnone : x.1 ∉ (e.pick (ks ++ pairs.map Prod.fst)).keys := get?_eq_none_iff.1 (get?_pick_of_not_mem hx)
    rw [List.map_append, List.map_singleton, ← List.append_assoc, pick_of_not_mem hx (h x (by simp)),
      toList_insert_of_notMem _ hnone, ih hnodup.1 (fun y hy => hfree y (List.mem_append_left _ hy)) fun y hy =>
        h y (List.mem_append_left _ hy), List.append_assoc]

/-- keys that come once keep their order -/
theorem toList_pick {pairs : List (Text × α)} (hnodup : (pairs.map Prod.fst).Nodup) (h : ∀ x ∈ pairs, e.get? x.1 = some x.2) :
    (e.pick (pairs.map Prod.fst)).toList = pairs := by
  have happend : (e.pick ([] ++ pairs.map Prod.fst)).toList = (e.pick []).toList ++ pairs :=
    toList_pick_append hnodup (fun _ _ => List.not_mem_nil) h
  exact happend

end

/-! ## Lists under keys -/

/-- adds a member to a list, unless it is in it -/
def addTo (ms : List Text) (m : Text) : List Text := if ms.contains m then ms else ms ++ [m]

theorem mem_addTo {ms : List Text} {m n : Text} : n ∈ addTo ms m ↔ n ∈ ms ∨ n = m := by
  unfold addTo
  split
  · rw [or_iff_left_of_imp]
    rintro rfl
    exact List.contains_iff_mem.1 ‹_›
  · rw [List.mem_append, List.mem_singleton]

theorem mem_foldl_addTo {ms ns : List Text} {n : Text} : n ∈ ns.foldl addTo ms ↔ n ∈ ms ∨ n ∈ ns := by
  induction ns generalizing ms with
  | nil => simp
  | cons m ns ih => rw [List.foldl_cons, ih, mem_addTo, List.mem_cons, or_assoc]

/-- members that are added when they come first stand after those there were, in the order in which they come -/
theorem foldl_addTo (ms ns : List Text) : ns.foldl addTo ms = ms ++ fresh ms ns := by
  induction ns using List.reverseRecOn with
  | nil => simp [fresh]
  | append_singleton ns n ih =>
    rw [List.foldl_concat, fresh_concat, ih, addTo, List.contains_eq_mem]
    split <;> simp_all

/-- adding members commutes with leaving some of them out -/
theorem filter_foldl_addTo (P : Text → Bool) (ms ns : List Text) :
    (ns.foldl addTo ms).filter P = (ns.filter P).foldl addTo (ms.filter P) := by
  have hstep : ∀ (ms : List Text) (n : Text), (addTo ms n).filter P = if P n then addTo (ms.filter P) n else ms.filter P := by
    intro ms n
    by_cases hmem : n ∈ ms <;> cases hP : P n <;> simp [addTo, hmem, hP]
  induction ns generalizing ms with
  | nil => rfl
  | cons n ns ih =>
    rw [List.foldl_cons, ih, hstep]
    cases hP : P n <;> simp [hP]

/-- the members that pairs give to a key -/
def membersOf (k : Text) (pairs : List (Text × Text)) : List Text := (pairs.filter fun x => x.1 == k).map Prod.snd

theorem get?_assign (e : Entries (List Text)) (k k' m : Text) :
    (e.assign k m).get? k' = if k = k' then some (addTo ((e.get? k).getD []) m) else e.get? k' :=
  get?_alter e k k' [] _

/-- a key that pairs are given to collects their members in order -/
theorem get?_foldl_assign (e : Entries (List Text)) (pairs : List (Text × Text)) (k : Text) :
    (pairs.foldl (fun e x => e.assign x.1 x.2) e).get? k
      = if membersOf k pairs = [] then e.get? k else some ((membersOf k pairs).foldl addTo ((e.get? k).getD [])) := by
  induction pairs generalizing e with
  | nil => simp [membersOf]
  | cons x pairs ih =>
    obtain ⟨k', m⟩ := x
    rw [List.foldl_cons, ih, get?_assign]
    by_cases h : k' = k
    · subst h
      have hcons : membersOf k' ((k', m) :: pairs) = m :: membersOf k' pairs := by simp [membersOf]
      simp only [hcons, if_true, List.cons_ne_nil, if_false, Option.getD_some, List.foldl_cons]
      split
      · rename_i hnil
        rw [hnil]
        rfl
      · rfl
    · have hcons : membersOf k ((k', m) :: pairs) = membersOf k pairs := by simp [membersOf, h]
      rw [hcons, if_neg h]

theorem foldl_addTo_of_nodup {ms ns : List Text} (h : (ms ++ ns).Nodup) : ns.foldl addTo ms = ms ++ ns := by
  induction ns generalizing ms with
  | nil => simp
  | cons n ns ih =>
    have hn : n ∉ ms := fun hm => (List.nodup_append.1 h).2.2 n hm n (by simp) rfl
    have hadd : addTo ms n = ms ++ [n] := by simp [addTo, hn]
    rw [List.foldl_cons, hadd, ih (by simpa using h)]
    simp

theorem foldl_addTo_of_mem {ms ns : List Text} (h : ∀ n ∈ ns, n ∈ ms) : ns.foldl addTo ms = ms := by
  have hnone : ns.filter (· ∉ ms) = [] := List.filter_eq_nil_iff.2 (by simpa using h)
  rw [foldl_addTo, fresh, hnone]
  simp

theorem membersOf_append (k : Text) (xs ys : List (Text × Text)) :
    membersOf k (xs ++ ys) = membersOf k xs ++ membersOf k ys := by
  simp [membersOf]

/-- pairs that are given key by key -/
theorem membersOf_flatMap {l : List (Text × List Text)} (hl : (l.map Prod.fst).Nodup) {f : Text × List Text → List Text}
    (k : Text) : membersOf k (l.flatMap fun x => (f x).map (x.1, ·)) = ((lookup k l).map fun ms => f (k, ms)).getD [] := by
  induction l with
  | nil => rfl
  | cons x l ih =>
    obtain ⟨k', ms⟩ := x
    rw [List.map_cons, List.nodup_cons] at hl
    rw [List.flatMap_cons, membersOf_append, ih hl.2]
    by_cases h : k' = k
    · subst h
      have hnone : lookup k' l = none := by
        rw [← Option.not_isSome_iff_eq_none, lookup_isSome]
        exact hl.1
      simp [membersOf, lookup, hnone, List.filter_map, Function.comp_def]
    · simp [membersOf, lookup, h, List.filter_map, Function.comp_def]

/-- a key with its list: members in it, each once -/
structure IsAssigned (P Q : Text → Prop) (x : Text × List Text) : Prop where
  key : P x.1
  member : ∀ m ∈ x.2, Q m
  ne_nil : x.2 ≠ []
  distinct : x.2.Nodup

theorem IsAssigned.mono {P Q P' Q' : Text → Prop} {x : Text × List Text} (h : IsAssigned P Q x) (hP : ∀ k, P k → P' k)
    (hQ : ∀ m, Q m → Q' m) : IsAssigned P' Q' x :=
  ⟨hP _ h.key, fun m hm => hQ m (h.member m hm), h.ne_nil, h.distinct⟩

theorem isAssigned_assign {P Q : Text → Prop} {e : Entries (List Text)} (h : ∀ x ∈ e.toList, IsAssigned P Q x) {k m : Text}
    (hk : P k) (hm : Q m) : ∀ x ∈ (e.assign k m).toList, IsAssigned P Q x := by
  intro x hx
  rcases mem_put hx with rfl | hx
  · have hold : (∀ m ∈ (e.get? k).getD [], Q m) ∧ ((e.get? k).getD []).Nodup := by
      cases hget : e.get? k with
      | none => simp
      | some ms =>
        have hx := h _ (mem_toList_iff.2 hget)
        exact ⟨hx.member, hx.distinct⟩
    dsimp only
    split
    · rename_i hmem
      exact ⟨hk, hold.1, List.ne_nil_of_mem (List.contains_iff_mem.1 hmem), hold.2⟩
    · rename_i hnew
      refine ⟨hk, List.forall_mem_append.2 ⟨hold.1, by simpa using hm⟩, by simp, ?_⟩
      refine List.nodup_append.2 ⟨hold.2, by simp, ?_⟩
      rintro a ha b hb rfl
      obtain rfl := List.mem_singleton.1 hb
      exact hnew (List.contains_iff_mem.2 ha)
  · exact h x hx

theorem keys_foldl_assign (e : Entries (List Text)) (pairs : List (Text × Text)) :
    (pairs.foldl (fun e x => e.assign x.1 x.2) e).keys = (pairs.map Prod.fst).foldl addTo e.keys := by
  induction pairs generalizing e with
  | nil => rfl
  | cons x pairs ih =>
    have hkeys : (e.assign x.1 x.2).keys = addTo e.keys x.1 := by
      rw [assign, keys_alter, addTo, List.contains_eq_mem]
      simp
    rw [List.foldl_cons, ih, hkeys]
    rfl

/-- keys that are given one after the other, each with its members -/
theorem foldl_addTo_flatMap {l : List (Text × List Text)} {ks : List Text} (hnodup : (ks ++ l.map Prod.fst).Nodup)
    (hne : ∀ x ∈ l, x.2 ≠ []) :
    ((l.flatMap fun x => x.2.map (x.1, ·)).map Prod.fst).foldl addTo ks = ks ++ l.map Prod.fst := by
  induction l generalizing ks with
  | nil => exact (List.append_nil ks).symm
  | cons x l ih =>
    obtain ⟨k, ms⟩ := x
    obtain ⟨m, ms, rfl⟩ := List.exists_cons_of_ne_nil (hne (k, ms) (by simp))
    have hk : k ∉ ks := fun hm => (List.nodup_append.1 hnodup).2.2 k hm k (by simp) rfl
    have hfirst : addTo ks k = ks ++ [k] := by simp [addTo, hk]
    have hrest : (ms.map fun _ => k).foldl addTo (ks ++ [k]) = ks ++ [k] :=
      foldl_addTo_of_mem fun n hn => by simp [(List.mem_map.1 hn).choose_spec.2.symm]
    rw [List.flatMap_cons, List.map_append, List.foldl_append, List.map_map]
    change ((l.flatMap fun x => x.2.map (x.1, ·)).map Prod.fst).foldl addTo ((ms.map fun _ => k).foldl addTo (addTo ks k)) = _
    rw [hfirst, hrest, ih (by simpa using hnodup) fun y hy => hne y (List.mem_cons_of_mem _ hy), List.append_assoc]
    rfl

/-- **assignments that are written one by one** give back the map they are taken from -/
theorem foldl_assign_toList {e : Entries (List Text)} (h : ∀ x ∈ e.toList, x.2 ≠ [] ∧ x.2.Nodup) :
    (e.toList.flatMap fun x => x.2.map (x.1, ·)).foldl (fun e x => e.assign x.1 x.2) empty = e := by
  refine ext_of_keys ?_ fun k => ?_
  · rw [keys_foldl_assign]
    exact foldl_addTo_flatMap e.nodup fun x hx => (h x hx).1
  · have hmembers : membersOf k (e.toList.flatMap fun x => x.2.map (x.1, ·)) = (e.get? k).getD [] := by
      rw [membersOf_flatMap e.nodup]
      exact congrArg (Option.getD · []) Option.map_id'
    rw [get?_foldl_assign, hmembers]
    cases hget : e.get? k with
    | none => rfl
    | some ms =>
      obtain ⟨hne, hnodup⟩ := h _ (mem_toList_iff.2 hget)
      rw [Option.getD_some, if_neg hne]
      exact congrArg some (foldl_addTo_of_nodup (by simpa using hnodup))

end Entries

end DiagramText

/-
Styles as text. `IsPair` says which pairs a property list gives back, and `ofText_toText_eq_self_iff` that the styles that
read back as they were are those with no other pairs. Where a list stands in a line its pairs have no line feed either:
`IsProperty` are those, and `isPlain_ofText` says that a line yields no others.
-/
import DiagramText.Proofs.Entries
import DiagramText.Proofs.Text.Lines
import DiagramText.Style

namespace DiagramText

namespace Text

theorem cut?_of_not_mem {c : Char} {before : Text} (h : c ∉ before) (rest : Text) :
    cut? [c] (before ++ c :: rest) = some (before, rest) := by
  induction before with
  | nil => simp [cut?, dropPrefix?]
  | cons d r ih =>
    simp only [List.mem_cons, not_or] at h
    simp [cut?, dropPrefix?, h.1, ih h.2]

theorem cut?_eq_some {c : Char} {t before rest : Text} (h : cut? [c] t = some (before, rest)) :
    c ∉ before ∧ t = before ++ c :: rest := by
  induction t generalizing before with
  | nil => simp [cut?] at h
  | cons d r ih =>
    by_cases hd : c = d
    · subst hd
      simp only [cut?, dropPrefix?, if_true, Option.some.injEq, Prod.mk.injEq] at h
      obtain ⟨rfl, rfl⟩ := h
      simp
    · simp only [cut?, dropPrefix?, hd, if_false, Option.map_eq_some_iff, Prod.mk.injEq, Prod.exists] at h
      obtain ⟨b, r', hc, rfl, rfl⟩ := h
      obtain ⟨hb, rfl⟩ := ih hc
      simp [hb, hd]

theorem cut?_eq_none_iff {c : Char} {t : Text} : cut? [c] t = none ↔ c ∉ t := by
  constructor
  · intro h hm
    obtain ⟨before, rest, rfl, hc⟩ := List.eq_append_cons_of_mem hm
    rw [cut?_of_not_mem hc] at h
    exact absurd h (by simp)
  · intro h
    rw [Option.eq_none_iff_forall_not_mem]
    rintro ⟨before, rest⟩ hcut
    obtain ⟨-, rfl⟩ := cut?_eq_some hcut
    exact h (by simp)

end Text

namespace Style

/-- a name and a value that a list of properties gives back: no end of them is trimmed, and nothing in them is taken for
the colon between them or for a comma -/
structure IsPair (p : Text × Text) : Prop where
  name : Text.IsTight p.1
  value : Text.IsTight p.2
  colon : ':' ∉ p.1
  comma : ',' ∉ p.1 ∧ ',' ∉ p.2

/-- a name and a value that can stand in a list of properties -/
structure IsProperty (p : Text × Text) : Prop where
  name : Text.IsTight p.1
  value : Text.IsTight p.2
  colon : ':' ∉ p.1
  comma : ',' ∉ p.1 ∧ ',' ∉ p.2
  lineFeed : '\n' ∉ p.1 ∧ '\n' ∉ p.2

/-- every property can stand in a list -/
def IsPlain (s : Style) : Prop := ∀ p ∈ s.toList, IsProperty p

/-- a property as it is written -/
def pairText (p : Text × Text) : Text := p.1 ++ ":" ++ p.2

theorem IsProperty.isPair {p : Text × Text} (h : IsProperty p) : IsPair p := ⟨h.name, h.value, h.colon, h.comma⟩

/-- a pair is cut at its first colon and trimmed on both sides, and both sides must be left -/
theorem property?_append {before : Text} (h : ':' ∉ before) (after : Text) :
    property? (before ++ ':' :: after) =
      if Text.trim before = [] ∨ Text.trim after = [] then none else some (Text.trim before, Text.trim after) := by
  have hcut : Text.cut? ":" (before ++ ':' :: after) = some (before, after) := Text.cut?_of_not_mem h after
  rw [property?, hcut]

theorem property?_of_not_mem {pair : Text} (h : ':' ∉ pair) : property? pair = none := by
  have hcut : Text.cut? ":" pair = none := Text.cut?_eq_none_iff.2 h
  rw [property?, hcut]

theorem property?_eq_some_iff {pair : Text} {p : Text × Text} :
    property? pair = some p ↔ ∃ before after, pair = before ++ ':' :: after ∧ ':' ∉ before ∧
      Text.trim before ≠ [] ∧ Text.trim after ≠ [] ∧ (Text.trim before, Text.trim after) = p := by
  constructor
  · intro h
    by_cases hc : ':' ∈ pair
    · obtain ⟨before, after, rfl, hb⟩ := List.eq_append_cons_of_mem hc
      rw [property?_append hb, Option.ite_none_left_eq_some, not_or, Option.some.injEq] at h
      exact ⟨before, after, rfl, hb, h.1.1, h.1.2, h.2⟩
    · rw [property?_of_not_mem hc] at h
      cases h
  · rintro ⟨before, after, rfl, hb, hn, hv, rfl⟩
    rw [property?_append hb, if_neg (not_or.2 ⟨hn, hv⟩)]

theorem property?_pairText {p : Text × Text} (h : IsPair p) : property? (pairText p) = some p := by
  refine property?_eq_some_iff.2 ⟨p.1, p.2, by simp [pairText], h.colon, ?_⟩
  rw [Text.trim_of_isTight h.name, Text.trim_of_isTight h.value]
  exact ⟨h.name.ne_nil, h.value.ne_nil, rfl⟩

/-- a property has no characters that its text does not have -/
theorem subset_of_property? {pair : Text} {p : Text × Text} (h : property? pair = some p) : p.1 ⊆ pair ∧ p.2 ⊆ pair := by
  obtain ⟨before, after, rfl, -, -, -, rfl⟩ := property?_eq_some_iff.1 h
  exact ⟨fun c hc => List.mem_append_left _ (Text.mem_of_mem_trim hc),
    fun c hc => List.mem_append_right _ (List.mem_cons_of_mem _ (Text.mem_of_mem_trim hc))⟩

theorem isPair_of_property? {pair : Text} {p : Text × Text} (h : property? pair = some p) (hc : ',' ∉ pair) : IsPair p := by
  obtain ⟨hname, hvalue⟩ := subset_of_property? h
  obtain ⟨before, after, -, hb, hn, hv, rfl⟩ := property?_eq_some_iff.1 h
  exact ⟨Text.isTight_trim hn, Text.isTight_trim hv, fun hm => hb (Text.mem_of_mem_trim hm),
    fun hm => hc (hname hm), fun hm => hc (hvalue hm)⟩

theorem isProperty_of_property? {pair : Text} {p : Text × Text} (h : property? pair = some p) (hc : ',' ∉ pair)
    (hl : '\n' ∉ pair) : IsProperty p := by
  obtain ⟨hname, hvalue⟩ := subset_of_property? h
  have hp : IsPair p := isPair_of_property? h hc
  exact ⟨hp.name, hp.value, hp.colon, hp.comma, fun hm => hl (hname hm), fun hm => hl (hvalue hm)⟩

/-- what stands in a style that is read was spelled by a piece of its text -/
theorem exists_of_mem_ofText {t : Text} {p : Text × Text} (h : p ∈ (ofText t).toList) :
    ∃ pair ∈ Text.splitOn ',' t, property? pair = some p :=
  List.mem_filterMap.1 ((Entries.mem_update h).resolve_left (by simp [Entries.empty]))

theorem isPlain_empty : IsPlain .empty := by simp [IsPlain, Entries.empty]

theorem isPlain_update {s : Style} {pairs : List (Text × Text)} (hs : IsPlain s) (h : ∀ p ∈ pairs, IsProperty p) :
    IsPlain (s.update pairs) := fun p hp => (Entries.mem_update hp).elim (hs p) (h p)

theorem isPair_of_mem_ofText {t : Text} {p : Text × Text} (h : p ∈ (ofText t).toList) : IsPair p := by
  obtain ⟨pair, hpair, hp⟩ := exists_of_mem_ofText h
  exact isPair_of_property? hp (Text.not_mem_of_mem_splitOn hpair)

/-- **what is read can be written** -/
theorem isPlain_ofText {t : Text} (h : '\n' ∉ t) : IsPlain (ofText t) := by
  intro p hp
  obtain ⟨pair, hpair, hp⟩ := exists_of_mem_ofText hp
  exact isProperty_of_property? hp (Text.not_mem_of_mem_splitOn hpair)
    fun hm => h (Text.mem_of_mem_splitOn hpair hm)

theorem toText_eq (s : Style) : s.toText = Text.join "," (s.toList.map pairText) := rfl

/-- the pieces of a written style are read as its pairs -/
theorem filterMap_property?_toText {s : Style} (h : ∀ p ∈ s.toList, IsPair p) :
    (Text.splitOn ',' s.toText).filterMap property? = s.toList := by
  rw [toText_eq]
  cases hs : s.toList with
  | nil => rfl
  | cons p r =>
    rw [hs.symm]
    change (Text.splitOn ',' (Text.join [','] (s.toList.map pairText))).filterMap property? = s.toList
    rw [Text.splitOn_join (by simp [hs])]
    · rw [List.filterMap_map]
      conv_rhs => rw [← List.filterMap_some (l := s.toList)]
      exact List.filterMap_congr fun q hq => property?_pairText (h q hq)
    · intro t ht
      obtain ⟨q, hq, rfl⟩ := List.mem_map.1 ht
      have := (h q hq).comma
      simp [pairText, this.1, this.2]

/-- **a style reads back as it was exactly when each of its pairs does**, as every style does that was read -/
theorem ofText_toText_eq_self_iff {s : Style} : ofText s.toText = s ↔ ∀ p ∈ s.toList, IsPair p := by
  constructor
  · intro h p hp
    rw [← h] at hp
    exact isPair_of_mem_ofText hp
  · intro h
    rw [ofText, filterMap_property?_toText h, Entries.ofList_toList]

/-- **styles read back as they were** where they stand in a line -/
theorem ofText_toText {s : Style} (h : IsPlain s) : ofText s.toText = s :=
  ofText_toText_eq_self_iff.2 fun p hp => (h p hp).isPair

theorem not_mem_toText {s : Style} (h : IsPlain s) : '\n' ∉ s.toText := by
  have hjoin : ∀ l : List (Text × Text), (∀ p ∈ l, IsProperty p) → '\n' ∉ Text.join "," (l.map pairText) := by
    intro l hl
    induction l with
    | nil => simp [Text.join]
    | cons p r ih =>
      have hp := (hl p (by simp)).lineFeed
      have hr := ih fun q hq => hl q (by simp [hq])
      cases r with
      | nil => simp [pairText, hp.1, hp.2]
      | cons q r =>
        rw [List.map_cons, List.map_cons, Text.join_cons_cons, ← List.map_cons]
        simp only [List.mem_append, not_or]
        refine ⟨⟨by simp [pairText, hp.1, hp.2], by decide⟩, hr⟩
  exact hjoin s.toList h

theorem isTight_toText {s : Style} (h : IsPlain s) (hn : s.toList ≠ []) : Text.IsTight s.toText := by
  have hpair : ∀ p, IsProperty p → Text.IsTight (pairText p) := by
    intro p hp
    have := hp.name.between ":" hp.value
    simpa [pairText] using this
  have hjoin : ∀ l : List (Text × Text), l ≠ [] → (∀ p ∈ l, IsProperty p) →
      Text.IsTight (Text.join "," (l.map pairText)) := by
    intro l hl hp
    induction l with
    | nil => exact absurd rfl hl
    | cons p r ih =>
      cases r with
      | nil => simpa using hpair p (hp p (by simp))
      | cons q r =>
        rw [List.map_cons, List.map_cons, Text.join_cons_cons, ← List.map_cons, List.append_assoc]
        exact (hpair p (hp p (by simp))).between "," (ih (by simp) fun x hx => hp x (by simp [hx]))
  exact hjoin s.toList hn h

theorem toText_eq_nil_iff {s : Style} (h : IsPlain s) : s.toText = [] ↔ s.toList = [] := by
  constructor
  · intro ht
    by_contra hn
    exact (isTight_toText h hn).ne_nil ht
  · intro hs
    simp [toText, hs, Text.join]

/-! ## Length -/

/-- the room that properties take, each with a comma -/
def room (pairs : List (Text × Text)) : Nat := (pairs.map fun p => (pairText p).length + 1).sum

theorem length_pairText_le {pair : Text} {p : Text × Text} (h : property? pair = some p) :
    (pairText p).length ≤ pair.length := by
  obtain ⟨before, after, rfl, -, -, -, rfl⟩ := property?_eq_some_iff.1 h
  have h1 := Text.length_trim_le before
  have h2 := Text.length_trim_le after
  simp only [pairText, List.length_append, List.length_cons]
  change _ + 1 + _ ≤ _
  omega

theorem room_put_le (k v : Text) (l : List (Text × Text)) : room (Entries.put k v l) ≤ room l + ((pairText (k, v)).length + 1) := by
  induction l with
  | nil => simp [room, Entries.put]
  | cons q r ih =>
    obtain ⟨k', w⟩ := q
    rw [Entries.put]
    split
    · simp only [room, List.map_cons, List.sum_cons]
      omega
    · simp only [room, List.map_cons, List.sum_cons] at ih ⊢
      omega

theorem room_update_le (s : Style) (pairs : List (Text × Text)) : room (s.update pairs).toList ≤ room s.toList + room pairs := by
  induction pairs generalizing s with
  | nil => exact Nat.le_refl _
  | cons p r ih =>
    obtain ⟨k, v⟩ := p
    have h1 := ih (s.insert k v)
    have h2 := room_put_le k v s.toList
    have h3 : room ((k, v) :: r) = (pairText (k, v)).length + 1 + room r := by simp [room]
    change room ((s.insert k v).update r).toList ≤ _
    change room (s.insert k v).toList ≤ _ at h2
    rw [h3]
    omega

theorem room_filterMap_le (pieces : List Text) :
    room (pieces.filterMap property?) ≤ (pieces.map fun t => t.length + 1).sum := by
  induction pieces with
  | nil => exact Nat.le_refl _
  | cons t r ih =>
    rw [List.filterMap_cons]
    split
    · simp only [List.map_cons, List.sum_cons]
      omega
    · rename_i p hp
      have hlen := length_pairText_le hp
      have hroom : room (p :: r.filterMap property?) = (pairText p).length + 1 + room (r.filterMap property?) := by simp [room]
      simp only [List.map_cons, List.sum_cons]
      omega

/-- **reading never makes properties longer** -/
theorem length_toText_ofText_le (t : Text) : (ofText t).toText.length ≤ t.length := by
  have h1 : (ofText t).toText.length ≤ room (ofText t).toList - 1 := by
    have hjoin := Text.length_join ',' ((ofText t).toList.map pairText)
    rw [List.map_map] at hjoin
    exact Nat.le_of_eq hjoin
  have h2 := room_update_le .empty ((Text.splitOn ',' t).filterMap property?)
  have h3 := room_filterMap_le (Text.splitOn ',' t)
  rw [Text.sum_splitOn] at h3
  have h4 : room (Entries.empty : Style).toList = 0 := rfl
  change room (ofText t).toList ≤ _ at h2
  omega

end Style

end DiagramText

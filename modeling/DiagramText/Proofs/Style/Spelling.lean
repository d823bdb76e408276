/-
What a list of style properties says. Its pieces stand between commas: `Spells` says how a piece spells a property,
`IsMalformed` which pieces spell none, and `Reads` what pieces say one after the other; none of them mentions how a list is
read. Reading finds what the pieces say (`reads_iff`), keeps every name at its first place with its last value, and what it
keeps is written and read again as it is (`ofText_toText_ofText`).
-/
import DiagramText.Proofs.Style

namespace DiagramText

namespace Text

/-- a text and white space around it, or none -/
def IsPadded (u t : Text) : Prop := ∃ a b : Text, t = a ++ (u ++ b) ∧ a.all isBlank = true ∧ b.all isBlank = true

variable {u t : Text}

/-- trimming finds a tight text exactly where white space stands around it -/
theorem trim_eq_iff_isPadded (hu : IsTight u) : trim t = u ↔ IsPadded u t := by
  constructor
  · rintro rfl
    exact exists_trim_append t
  · rintro ⟨a, b, rfl, ha, hb⟩
    rw [trim_blank_append ha, trim_append_blank hb, trim_of_isTight hu]

theorem trim_eq_nil_iff : trim t = [] ↔ t.all isBlank = true := by
  constructor
  · intro h
    obtain ⟨a, b, e, ha, hb⟩ := exists_trim_append t
    rw [h] at e
    simp [e, ha, hb]
  · intro h
    exact trim_append_blank h []

end Text

namespace Style

/-! ## Pieces -/

/-- how a piece spells a property: the name stands before its first colon and the value after it, white space around either -/
structure Spells (piece : Text) (p : Text × Text) : Prop where
  name : Text.IsTight p.1
  value : Text.IsTight p.2
  sides : ∃ before after, piece = before ++ ':' :: after ∧ ':' ∉ before ∧
    Text.IsPadded p.1 before ∧ Text.IsPadded p.2 after

/-- a piece that spells no property: it has no colon, or nothing but white space before its first colon or after it -/
def IsMalformed (piece : Text) : Prop :=
  ':' ∉ piece ∨ ∃ before after, piece = before ++ ':' :: after ∧ ':' ∉ before ∧
    (before.all isBlank = true ∨ after.all isBlank = true)

theorem property?_eq_some_iff_spells {piece : Text} {p : Text × Text} : property? piece = some p ↔ Spells piece p := by
  rw [property?_eq_some_iff]
  constructor
  · rintro ⟨before, after, rfl, hcolon, hname, hvalue, rfl⟩
    exact ⟨Text.isTight_trim hname, Text.isTight_trim hvalue, before, after, rfl, hcolon,
      Text.exists_trim_append before, Text.exists_trim_append after⟩
  · rintro ⟨hname, hvalue, before, after, rfl, hcolon, hbefore, hafter⟩
    rw [← Text.trim_eq_iff_isPadded hname] at hbefore
    rw [← Text.trim_eq_iff_isPadded hvalue] at hafter
    exact ⟨before, after, rfl, hcolon, hbefore ▸ hname.ne_nil, hafter ▸ hvalue.ne_nil, Prod.ext hbefore hafter⟩

theorem property?_eq_none_iff_isMalformed {piece : Text} : property? piece = none ↔ IsMalformed piece := by
  constructor
  · intro h
    by_cases hc : ':' ∈ piece
    · obtain ⟨before, after, rfl, hcolon⟩ := List.eq_append_cons_of_mem hc
      refine Or.inr ⟨before, after, rfl, hcolon, ?_⟩
      rw [← Text.trim_eq_nil_iff, ← Text.trim_eq_nil_iff]
      by_contra hsides
      rw [property?_append hcolon, if_neg hsides] at h
      cases h
    · exact Or.inl hc
  · rintro (hc | ⟨before, after, rfl, hcolon, hblank⟩)
    · exact property?_of_not_mem hc
    · rw [← Text.trim_eq_nil_iff, ← Text.trim_eq_nil_iff] at hblank
      rw [property?_append hcolon, if_pos hblank]

/-! ## Lists -/

/-- what pieces say: the properties that they spell, in their order; malformed pieces are passed over -/
inductive Reads : List Text → List (Text × Text) → Prop
  | nil : Reads [] []
  | spelled {piece : Text} {p : Text × Text} {pieces : List Text} {pairs : List (Text × Text)} (h : Spells piece p)
      (hrest : Reads pieces pairs) : Reads (piece :: pieces) (p :: pairs)
  | malformed {piece : Text} {pieces : List Text} {pairs : List (Text × Text)} (h : IsMalformed piece)
      (hrest : Reads pieces pairs) : Reads (piece :: pieces) pairs

/-- pieces say one thing only, and reading finds it -/
theorem reads_iff {pieces : List Text} {pairs : List (Text × Text)} : Reads pieces pairs ↔ pieces.filterMap property? = pairs := by
  constructor
  · intro h
    induction h with
    | nil => rfl
    | spelled h _ ih => rw [List.filterMap_cons_some (property?_eq_some_iff_spells.2 h), ih]
    | malformed h _ ih => rw [List.filterMap_cons_none (property?_eq_none_iff_isMalformed.2 h), ih]
  · rintro rfl
    induction pieces with
    | nil => exact .nil
    | cons piece pieces ih =>
      cases h : property? piece with
      | none =>
        rw [List.filterMap_cons_none h]
        exact .malformed (property?_eq_none_iff_isMalformed.1 h) ih
      | some p =>
        rw [List.filterMap_cons_some h]
        exact .spelled (property?_eq_some_iff_spells.1 h) ih

/-- **style properties are stable after one reading.** Written again they read back as the same pairs in the same order. They
are what the pieces of the text say, the malformed ones passed over: a name stands where it first comes among them, and has
the value with which it comes last. -/
theorem ofText_toText_ofText (t : Text) :
    ofText (ofText t).toText = ofText t ∧
    ∃ pieces pairs, t = Text.join "," pieces ∧ pieces ≠ [] ∧ (∀ piece ∈ pieces, ',' ∉ piece) ∧ Reads pieces pairs ∧
      (ofText t).keys = (pairs.map Prod.fst).eraseDups ∧
      ∀ name value, (ofText t).get? name = some value ↔
        ∃ earlier later, pairs = earlier ++ (name, value) :: later ∧ name ∉ later.map Prod.fst := by
  have hstable : ofText (ofText t).toText = ofText t := ofText_toText_eq_self_iff.2 fun p hp => isPair_of_mem_ofText hp
  have hreads : Reads (Text.splitOn ',' t) ((Text.splitOn ',' t).filterMap property?) := reads_iff.2 rfl
  exact ⟨hstable, Text.splitOn ',' t, _, (Text.join_splitOn ',' t).symm, Text.splitOn_ne_nil ',' t,
    fun _ => Text.not_mem_of_mem_splitOn, hreads, Entries.keys_ofList _, fun _ _ => Entries.get?_ofList_eq_some_iff⟩

/-- empty, unnamed and valueless pairs, a value with a colon and inner white space, and a name that comes again -/
example : (ofText "fill:#f00,, :x, src : a: b ,color:,fill:#0f0").toList
      = ([("fill", "#0f0"), ("src", "a: b")] : List (Text × Text)) ∧
    (ofText "fill:#f00,, :x, src : a: b ,color:,fill:#0f0").toText = "fill:#0f0,src:a: b" := by decide

end Style

end DiagramText

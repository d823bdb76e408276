/-
Accessibility texts read back from their lines, in every dialect that takes them. The texts that are written
(`Accessibility.written`) are those that are not empty, and writing them anew leaves the empty ones out
(`foldl_put_written`).
-/
import DiagramText.Proofs.Text.Scan
import DiagramText.Proofs.Text.Statement

namespace DiagramText

open DiagramText.Text

/-- an accessibility text as it is written -/
def accessibilityText : AccessibilityLine → Text
  | .title v => "accTitle: " ++ v
  | .description v => "accDescr: " ++ v

/-- the text that a line sets -/
def AccessibilityLine.value : AccessibilityLine → Text
  | .title v | .description v => v

/-- the keyword of the text that a line sets -/
def AccessibilityLine.keyword : AccessibilityLine → Text
  | .title _ => "accTitle"
  | .description _ => "accDescr"

theorem accessibilityText_eq (line : AccessibilityLine) : accessibilityText line = line.keyword ++ ':' :: ' ' :: line.value := by
  cases line <;> rfl

theorem accessibilityText_append (line : AccessibilityLine) (r : Text) :
    accessibilityText line ++ r = line.keyword ++ ':' :: ' ' :: (line.value ++ r) := by
  rw [accessibilityText_eq]
  exact List.append_assoc line.keyword (':' :: ' ' :: line.value) r

/-- an accessibility text that can be written -/
def AccessibilityLine.IsPlain : AccessibilityLine → Prop
  | .title v | .description v => IsTight v ∧ '\n' ∉ v

theorem AccessibilityLine.isPlain_of_isLineText {line : AccessibilityLine} (hne : line.value ≠ [])
    (h : Sequence.IsLineText line.value) : line.IsPlain := by
  cases line <;> exact ⟨h.isTight hne, h.lineFeed⟩

/-- the value of an accessibility text, after its keyword and a colon -/
theorem accessibilityValue? (keyword : Text) {v : Text} (hv : IsTight v) (hl : '\n' ∉ v) :
    Accessibility.value? keyword (keyword ++ ':' :: ' ' :: v) = some v := by
  have hcolon : Scan.blanks (':' :: ' ' :: v) = ':' :: ' ' :: v := Scan.blanks_of_startsWith (by decide : isMark ':' = true)
  rw [Accessibility.value?, dropPrefix?_append, Option.bind_some, hcolon]
  simp only [Scan.blanks_space, Scan.blanks_of_startsWith hv.first, line?_of_not_mem hl, Option.map_some,
    trim_of_isTight hv]

/-- **accessibility texts read back** -/
theorem line?_accessibilityText {line : AccessibilityLine} (h : line.IsPlain) :
    Accessibility.line? (accessibilityText line) = some line := by
  rw [accessibilityText_eq]
  cases line with
  | title v =>
    change Accessibility.line? ("accTitle" ++ ':' :: ' ' :: v) = _
    rw [Accessibility.line?, accessibilityValue? "accTitle" h.1 h.2]
    rfl
  | description v =>
    have hnone : Accessibility.value? "accTitle" ("accDescr" ++ ':' :: ' ' :: v) = none := rfl
    change Accessibility.line? ("accDescr" ++ ':' :: ' ' :: v) = _
    rw [Accessibility.line?, hnone, accessibilityValue? "accDescr" h.1 h.2]
    rfl

/-- a line that starts with neither keyword sets no accessibility text -/
theorem line?_eq_none {t : Text} (h : dropPrefix? "acc" t = none) : Accessibility.line? t = none := by
  have hvalue : ∀ w : Text, Accessibility.value? ("acc" ++ w) t = none := by
    intro w
    have hd : dropPrefix? ("acc" ++ w) t = none := by
      rw [Option.eq_none_iff_forall_not_mem]
      intro r hr
      rw [dropPrefix?_eq_some_iff.1 hr, List.append_assoc, dropPrefix?_append] at h
      exact absurd h (by simp)
    rw [Accessibility.value?, hd]
    rfl
  have h1 := hvalue "Title"
  have h2 := hvalue "Descr"
  rw [Accessibility.line?, show ("accTitle" : Text) = "acc" ++ "Title" from rfl, h1,
    show ("accDescr" : Text) = "acc" ++ "Descr" from rfl, h2]
  rfl

/-- a line without a colon sets no accessibility text -/
theorem line?_eq_none_of_colon {t : Text} (h : ':' ∉ t) : Accessibility.line? t = none := by
  have hvalue : ∀ keyword, Accessibility.value? keyword t = none := by
    intro keyword
    rw [Accessibility.value?, Option.bind_eq_none_iff]
    intro rest hrest
    split
    · rename_i r hr
      exact absurd (dropPrefix?_subset hrest (Scan.blanks_subset rest (hr ▸ List.mem_cons_self))) h
    · rfl
  rw [Accessibility.line?, hvalue, hvalue]
  rfl

/-- what stands before the first colon is the keyword, white space aside, or the text is not one -/
theorem value?_eq_none_iff {keyword name b r : Text} (hkeyword : keyword.all (fun c => isMark c && c ≠ ':') = true)
    (hname : IsTight name) (hcolon : ':' ∉ name) (hb : b.all isBlank = true) (hr : '\n' ∉ r) :
    Accessibility.value? keyword (name ++ (b ++ ':' :: r)) = none ↔ name ≠ keyword := by
  refine ⟨?_, fun hne => ?_⟩
  · rintro hnone rfl
    have hblanks : Scan.blanks (b ++ ':' :: r) = ':' :: r := (trimLeft_append hb).trans (trimLeft_of_startsWith rfl)
    have hlf : '\n' ∉ Scan.blanks r := fun hm => hr (Scan.blanks_subset r hm)
    rw [Accessibility.value?, dropPrefix?_append, Option.bind_some, hblanks] at hnone
    simp only [line?_of_not_mem hlf, Option.map_some] at hnone
    exact absurd hnone (by simp)
  · rw [Accessibility.value?, Option.bind_eq_none_iff]
    intro rest hrest
    have hstop : Scan.startsWith (fun c => isMark c && c ≠ ':') (b ++ ':' :: r) = false := by
      cases b with
      | nil => rfl
      | cons d b =>
        rw [List.all_cons, Bool.and_eq_true] at hb
        simp [Scan.startsWith, isMark, hb.1]
    obtain ⟨m, rfl, rfl⟩ := Scan.dropPrefix?_name hkeyword hstop hrest
    -- the name goes on behind the keyword, with something that is neither white space nor a colon
    have hm : m ≠ [] := fun hnil => hne (by rw [hnil, List.append_nil])
    obtain ⟨c, v, hblanks, hc⟩ := Scan.exists_blanks_append (endsWith_of_endsWith_append hname.last hm) (b ++ ':' :: r)
    rw [hblanks]
    split
    · rename_i e
      exact absurd (List.mem_append_right keyword ((List.cons.inj e).1 ▸ hc)) hcolon
    · rfl

/-- no line sets a text whose first colon follows another name -/
theorem line?_eq_none_iff {name b r : Text} (hname : IsTight name) (hcolon : ':' ∉ name) (hb : b.all isBlank = true)
    (hr : '\n' ∉ r) : Accessibility.line? (name ++ (b ++ ':' :: r)) = none ↔ name ≠ "accTitle" ∧ name ≠ "accDescr" := by
  have htitle := value?_eq_none_iff (by decide : List.all "accTitle" _ = true) hname hcolon hb hr
  have hdescription := value?_eq_none_iff (by decide : List.all "accDescr" _ = true) hname hcolon hb hr
  rw [Accessibility.line?, Scan.orElse_eq_none_iff, Option.map_eq_none_iff, Option.map_eq_none_iff, htitle, hdescription]

theorem isLine_accessibilityText {line : AccessibilityLine} (h : line.IsPlain) : SourceLine.IsLine (accessibilityText line) := by
  cases line with
  | title v => exact .keyword (t := v) (by decide) (by decide) h.1 h.2
  | description v => exact .keyword (t := v) (by decide) (by decide) h.1 h.2

/-- what is printed on a line is what the line holds -/
theorem isContent_accessibilityText {line : AccessibilityLine} (h : line.IsPlain) (hs : ¬ endsWith (· = ';') line.value = true) :
    SourceLine.IsContent (accessibilityText line) := by
  cases line with
  | title v => exact .keyword (t := v) (by decide) (by decide) (endsWith_append _ (endsWith_isLineEnd h.1.last hs)) h.2
  | description v => exact .keyword (t := v) (by decide) (by decide) (endsWith_append _ (endsWith_isLineEnd h.1.last hs)) h.2

namespace Accessibility

/-- a text that is read is trimmed, and a part of its line -/
theorem value_of_line? {t : Text} {line : AccessibilityLine} (h : line? t = some line) :
    trim line.value = line.value ∧ line.value ⊆ t := by
  have hvalue : ∀ {keyword v : Text}, value? keyword t = some v → trim v = v ∧ v ⊆ t := by
    intro keyword v hv
    obtain ⟨rest, hrest, hv⟩ := Option.bind_eq_some_iff.1 hv
    split at hv
    · rename_i r hr
      obtain ⟨run, hrun, rfl⟩ := Option.map_eq_some_iff.1 hv
      have hsub : r ⊆ t := fun c hc => Text.dropPrefix?_subset hrest (Scan.blanks_subset rest (hr ▸ List.mem_cons_of_mem _ hc))
      exact ⟨trim_trim run, fun c hc => hsub (Scan.blanks_subset r (Scan.line?_subset hrun (mem_of_mem_trim hc)))⟩
    · exact absurd hv (by simp)
  rw [line?, Scan.orElse_eq_some_iff] at h
  rcases h with h | ⟨-, h⟩ <;>
    · obtain ⟨v, hv, rfl⟩ := Option.map_eq_some_iff.1 h
      exact hvalue hv

/-- a text that is read and is not empty can be written -/
theorem isPlain_of_line? {t : Text} {line : AccessibilityLine} (ht : '\n' ∉ t) (h : line? t = some line)
    (hne : line.value ≠ []) : line.IsPlain := by
  obtain ⟨htrim, hsub⟩ := value_of_line? h
  have hvalue : IsTight line.value ∧ '\n' ∉ line.value :=
    ⟨(trim_eq_self_iff.1 htrim).resolve_left hne, fun hm => ht (hsub hm)⟩
  cases line <;> exact hvalue

/-- the lines that are written: those of the texts that are not empty -/
def written (a : Accessibility) : List AccessibilityLine :=
  ((present a.title).map .title).toList ++ ((present a.description).map .description).toList

theorem value_ne_nil_of_mem_written {a : Accessibility} {line : AccessibilityLine} (h : line ∈ a.written) : line.value ≠ [] := by
  simp only [written, List.mem_append, Option.mem_toList, Option.map_eq_some_iff] at h
  rcases h with ⟨t, ht, rfl⟩ | ⟨t, ht, rfl⟩ <;> exact (present_eq_some_iff.1 ht).2

/-- the texts that are not empty -/
def settled (a : Accessibility) : Accessibility := ⟨present a.title, present a.description⟩

theorem lines_eq (margin : Text) (a : Accessibility) : a.lines margin = a.written.map (margin ++ accessibilityText ·) := by
  have htext : ∀ (t : Option Text) (w : Text) (line : Text → AccessibilityLine), (∀ v, accessibilityText (line v) = w ++ v) →
      (t.map (margin ++ w ++ ·)).toList = (t.map line).toList.map (margin ++ accessibilityText ·) := by
    intro t w line hline
    cases t with
    | none => rfl
    | some v => rw [Option.map_some, Option.map_some, Option.toList_some, Option.toList_some, List.map_singleton, hline,
        List.append_assoc]
  rw [lines, written, List.map_append, htext _ _ .title fun v => rfl, htext _ _ .description fun v => rfl]

/-- texts that are never empty are all written -/
theorem settled_eq_self {a : Accessibility} (ht : ∀ t, a.title = some t → t ≠ []) (hd : ∀ t, a.description = some t → t ≠ []) :
    a.settled = a := by
  rw [settled, present_eq_self ht, present_eq_self hd]

theorem lines_settled (margin : Text) (a : Accessibility) : a.settled.lines margin = a.lines margin := by
  rw [lines, lines, settled, present_present, present_present]

/-- what is written is read as the texts that are not empty -/
theorem foldl_put_written (a : Accessibility) : a.written.foldl put {} = a.settled := by
  rw [written, settled]
  cases present a.title <;> cases present a.description <;> rfl

/-- what is made of accessibility texts, line by line, is made of those that are not empty -/
theorem foldl_written {σ : Type} {act : σ → AccessibilityLine → σ} (make : Accessibility → σ)
    (h : ∀ a line, act (make a) line = make (a.put line)) (a : Accessibility) : a.written.foldl act (make {}) = make a.settled := by
  rw [← foldl_put_written]
  refine List.foldl_hom make ?_
  exact h

/-- a line adds no text but its own -/
theorem mem_written_put {a : Accessibility} {line x : AccessibilityLine} (h : x ∈ (a.put line).written) :
    (x = line ∧ x.value ≠ []) ∨ x ∈ a.written := by
  have hpresent : ∀ {t u : Text}, present (some t) = some u → u = t ∧ u ≠ [] := fun hu =>
    ⟨(Option.some.inj (present_eq_some_iff.1 hu).1).symm, (present_eq_some_iff.1 hu).2⟩
  simp only [written, List.mem_append, Option.mem_toList, Option.map_eq_some_iff] at h ⊢
  cases line with
  | title v =>
    rcases h with ⟨u, hu, rfl⟩ | h
    · obtain ⟨rfl, hne⟩ := hpresent hu
      exact Or.inl ⟨rfl, hne⟩
    · exact Or.inr (Or.inr h)
  | description v =>
    rcases h with h | ⟨u, hu, rfl⟩
    · exact Or.inr (Or.inl h)
    · obtain ⟨rfl, hne⟩ := hpresent hu
      exact Or.inl ⟨rfl, hne⟩

end Accessibility

/-- what is said about a diagram as a whole: its title and its accessibility texts -/
structure Captions where
  title : Option Text := none
  accessibility : Accessibility := {}

/-- captions without empty texts -/
def Captions.settled (c : Captions) : Captions := ⟨present c.title, c.accessibility.settled⟩

/-- captions without empty texts stay as they are -/
theorem Captions.settled_eq_self {c : Captions} (htitle : ∀ t, c.title = some t → t ≠ [])
    (haccTitle : ∀ t, c.accessibility.title = some t → t ≠ [])
    (haccDescription : ∀ t, c.accessibility.description = some t → t ≠ []) : c.settled = c := by
  rw [settled, present_eq_self htitle, Accessibility.settled_eq_self haccTitle haccDescription]

end DiagramText

/-
What several line dialects print below their header: a title, accessibility texts, and items in sections with headings.
`reads_preamble` and `Headed.reads_lines` say that a reader takes both over, whatever it makes of an item, and `IsOutline` says
which sections can be written: only the first may be without a heading, and then it is not empty.
-/
import DiagramText.Proofs.Accessibility
import DiagramText.Proofs.Reading
import DiagramText.Proofs.Text.Contents

namespace DiagramText

open DiagramText.Text

variable {σ : Type} {step : σ → SourceLine → Except ParseError σ} {o : RenderOptions}

/-- **a title and accessibility texts are read back** below the header; empty ones are left out -/
theorem reads_preamble {strip : Bool} (make : Option Text → Accessibility → σ) {title : Option Text} {a : Accessibility}
    (ho : '\n' ∉ o.unit) (htitle : ∀ t, title = some t → IsTight t ∧ '\n' ∉ t) (ha : ∀ line ∈ a.written, line.IsPlain)
    (hs : strip = true → (∀ t, title = some t → endsWith (· ≠ ';') t = true) ∧
      ∀ line ∈ a.written, endsWith (· ≠ ';') line.value = true)
    (hreadTitle : ∀ t, IsTight t → ∀ l : SourceLine, l.text = "title " ++ t → step (make none {}) l = .ok (make (some t) {}))
    (hreadText : ∀ t b, ∀ line : AccessibilityLine, line.IsPlain → ∀ l : SourceLine, l.text = accessibilityText line →
      step (make t b) l = .ok (make t (b.put line))) :
    Reads step (make none {}) (((present title).map (o.unit ++ "title " ++ ·)).toList ++ a.lines o.unit)
      (make (present title) a.settled) strip := by
  have hmargin : IsMargin o.unit := o.levels_one ▸ isMargin_levels ho 1
  have hfirst : Reads step (make none {}) ((present title).map (o.unit ++ "title " ++ ·)).toList
      (make (present title) {}) strip := by
    cases hpresent : present title with
    | none => exact .nil
    | some t =>
      have ht := (present_eq_some_iff.1 hpresent).1
      obtain ⟨htight, hlf⟩ := htitle t ht
      have hline : SourceLine.IsLine ("title " ++ t) := .keyword (by decide) (by decide) htight hlf
      have hsemicolon : strip = true → endsWith (· ≠ ';') ("title " ++ t) = true := fun h => endsWith_append _ ((hs h).1 t ht)
      rw [Option.map_some, Option.toList_some, List.append_assoc]
      exact .consLine hmargin hline hsemicolon fun l hl => ⟨_, hreadTitle t htight l hl, .nil⟩
  have htexts : Reads step (make (present title) {}) (a.written.map (o.unit ++ accessibilityText ·))
      (make (present title) (a.written.foldl Accessibility.put {})) strip := by
    refine .foldl_make (make (present title)) hmargin ?_ {}
    intro line hline
    have hplain := ha line hline
    refine ⟨isLine_accessibilityText hplain, ?_, fun b l hl => hreadText _ b line hplain l hl⟩
    intro h
    rw [accessibilityText_eq]
    exact endsWith_append _ (endsWith_cons ':' (endsWith_cons ' ' ((hs h).2 line hline)))
  rw [Accessibility.lines_eq, ← Accessibility.foldl_put_written]
  exact hfirst.append htexts

/-- a title and accessibility texts as they are written -/
def preambleTexts (title : Option Text) (a : Accessibility) : List Text :=
  ((present title).map fun t : Text => "title " ++ t).toList ++ a.written.map accessibilityText

theorem flatMap_contents_preamble (strip : Bool) (o : RenderOptions) (title : Option Text) (a : Accessibility) :
    (((present title).map (o.unit ++ "title " ++ ·)).toList ++ a.lines o.unit).flatMap (contents strip)
      = (preambleTexts title a).flatMap (contents strip) := by
  have hblank : o.unit.all isBlank = true := o.levels_one ▸ o.all_isBlank_levels 1
  have htitle : ((present title).map (o.unit ++ "title " ++ ·)).toList
      = ((present title).toList.map fun t : Text => o.unit ++ ("title " ++ t)) := by
    cases present title <;> simp
  have htitleText : ((present title).map fun t : Text => "title " ++ t).toList
      = (present title).toList.map fun t : Text => "title " ++ t := by
    cases present title <;> rfl
  rw [Accessibility.lines_eq, preambleTexts, List.flatMap_append, List.flatMap_append, htitle, htitleText,
    flatMap_contents_margin hblank, flatMap_contents_margin hblank]

theorem mem_preambleTexts {title : Option Text} {a : Accessibility} {t : Text} :
    t ∈ preambleTexts title a ↔
      (∃ u : Text, present title = some u ∧ "title " ++ u = t) ∨ ∃ line ∈ a.written, accessibilityText line = t := by
  rw [preambleTexts, List.mem_append, Option.mem_toList, Option.map_eq_some_iff, List.mem_map]

theorem isLine_of_mem_preambleTexts {title : Option Text} {a : Accessibility}
    (htitle : ∀ t, title = some t → IsTight t ∧ '\n' ∉ t) (ha : ∀ line ∈ a.written, line.IsPlain) :
    ∀ t ∈ preambleTexts title a, SourceLine.IsLine t := by
  intro t ht
  rcases mem_preambleTexts.1 ht with ⟨u, hu, rfl⟩ | ⟨line, hline, rfl⟩
  · obtain ⟨htight, hlf⟩ := htitle u (present_eq_some_iff.1 hu).1
    exact .keyword (by decide) (by decide) htight hlf
  · exact isLine_accessibilityText (ha line hline)

/-! ## Sections -/

/-- items under a heading, or before the first one -/
structure Headed (α : Type) where
  heading : Option Text
  items : List α

namespace Headed

variable {α : Type} {P : α → Prop} {x : α} {n : Text} {s : Headed α} {ss : List (Headed α)}

/-- adds an item to the last section, which is one without a heading when there is none -/
def add : List (Headed α) → α → List (Headed α)
  | [], x => [⟨none, [x]⟩]
  | [s], x => [{ s with items := s.items ++ [x] }]
  | s :: rest, x => s :: add rest x

theorem add_concat (ss : List (Headed α)) (s : Headed α) (x : α) :
    add (ss ++ [s]) x = ss ++ [{ s with items := s.items ++ [x] }] := by
  induction ss with
  | nil => rfl
  | cons s' ss ih =>
    have hne : ss ++ [s] ≠ [] := by simp
    rw [List.cons_append, add, ih]
    · rfl
    · exact hne

/-- items are added to the last section one after the other -/
theorem foldl_add (xs : List α) (ss : List (Headed α)) (s : Headed α) :
    xs.foldl add (ss ++ [s]) = ss ++ [{ s with items := s.items ++ xs }] := by
  induction xs generalizing s with
  | nil => simp
  | cons x xs ih => rw [List.foldl_cons, add_concat, ih, List.append_assoc, List.singleton_append]

/-- a function that adds to the last of its sections adds as `add` does -/
theorem map_add {β : Type} (f : Headed α → β) (put : List β → List β) (hnil : put [] = [f ⟨none, [x]⟩])
    (hone : ∀ s, put [f s] = [f { s with items := s.items ++ [x] }]) (hcons : ∀ b b' bs, put (b :: b' :: bs) = b :: put (b' :: bs))
    (ss : List (Headed α)) : put (ss.map f) = (add ss x).map f := by
  induction ss with
  | nil => exact hnil
  | cons s ss ih =>
    cases ss with
    | nil => exact hone s
    | cons s' ss => exact (hcons (f s) (f s') (ss.map f)).trans (congrArg (f s :: ·) ih)

/-- a section on its lines; only the items under a heading are indented further -/
def lines (o : RenderOptions) (text : α → Text) (s : Headed α) : List Text :=
  match s.heading with
  | some n => (o.unit ++ "section " ++ n) :: s.items.map (o.levels 2 ++ text ·)
  | none => s.items.map (o.levels 1 ++ text ·)

theorem lines_some (o : RenderOptions) (text : α → Text) (n : Text) (xs : List α) :
    lines o text ⟨some n, xs⟩ = (o.unit ++ ("section " ++ n)) :: xs.map (o.levels 2 ++ text ·) := by
  rw [← List.append_assoc]
  rfl

/-- the heading of a section and its items as they are written -/
def texts (text : α → Text) (s : Headed α) : List Text := (s.heading.map fun n : Text => "section " ++ n).toList ++ s.items.map text

theorem mem_texts {text : α → Text} {t : Text} :
    t ∈ s.texts text ↔ (∃ n : Text, s.heading = some n ∧ "section " ++ n = t) ∨ ∃ x ∈ s.items, text x = t := by
  rw [texts, List.mem_append, Option.mem_toList, Option.map_eq_some_iff, List.mem_map]

theorem flatMap_contents_lines (strip : Bool) (o : RenderOptions) (text : α → Text) (s : Headed α) :
    (s.lines o text).flatMap (contents strip) = (s.texts text).flatMap (contents strip) := by
  obtain ⟨heading, items⟩ := s
  cases heading with
  | some n =>
    rw [lines_some, texts, List.flatMap_cons, contents_blank_append (o.levels_one ▸ o.all_isBlank_levels 1),
      flatMap_contents_margin (o.all_isBlank_levels 2)]
    rfl
  | none => exact flatMap_contents_margin (o.all_isBlank_levels 1) text items

/-- sections that can be written -/
structure IsOutline (P : α → Prop) (ss : List (Headed α)) : Prop where
  headings : ∀ s ∈ ss, ∀ n, s.heading = some n → IsTight n ∧ '\n' ∉ n
  items : ∀ s ∈ ss, ∀ x ∈ s.items, P x
  ne_nil : ∀ s ∈ ss, s.heading = none → s.items ≠ []
  named : none ∉ (ss.map heading).tail

theorem isOutline_nil : IsOutline P [] := ⟨by simp, by simp, by simp, by simp⟩

/-- the last section may be another, under the same heading -/
theorem isOutline_concat (h : IsOutline P (ss ++ [s])) {xs : List α} (hxs : ∀ x ∈ xs, P x) (hne : s.items ≠ [] → xs ≠ []) :
    IsOutline P (ss ++ [{ s with items := xs }]) := by
  have hlast : s ∈ ss ++ [s] := by simp
  have hcases : ∀ s' ∈ ss ++ [{ s with items := xs }], s' ∈ ss ++ [s] ∨ s' = { s with items := xs } := by
    intro s' hs'
    exact (List.mem_append.1 hs').imp (List.mem_append_left _) List.mem_singleton.1
  refine ⟨?_, ?_, ?_, by simpa using h.named⟩ <;> intro s' hs'
  · rcases hcases s' hs' with hs' | rfl
    · exact h.headings s' hs'
    · exact h.headings s hlast
  · rcases hcases s' hs' with hs' | rfl
    · exact h.items s' hs'
    · exact hxs
  · rcases hcases s' hs' with hs' | rfl
    · exact h.ne_nil s' hs'
    · exact fun hnone => hne (h.ne_nil s hlast hnone)

/-- an item is added to a section that is there, or is the first of one -/
theorem isOutline_add (h : IsOutline P ss) (hx : P x) : IsOutline P (add ss x) := by
  rcases List.eq_nil_or_concat ss with rfl | ⟨ss, s, rfl⟩
  · exact ⟨by simp [add], by simpa [add] using hx, by simp [add], by simp [add]⟩
  · rw [List.concat_eq_append] at h ⊢
    rw [add_concat]
    refine isOutline_concat h ?_ (by simp)
    intro y hy
    rcases List.mem_append.1 hy with hy | hy
    · exact h.items s (by simp) y hy
    · exact List.mem_singleton.1 hy ▸ hx

/-- a section with a heading may stand anywhere -/
theorem isOutline_addHeading (h : IsOutline P ss) (hn : IsTight n ∧ '\n' ∉ n) : IsOutline P (ss ++ [⟨some n, []⟩]) := by
  refine ⟨?_, ?_, ?_, ?_⟩
  · intro s hs
    rcases List.mem_append.1 hs with hs | hs
    · exact h.headings s hs
    · obtain rfl := List.mem_singleton.1 hs
      exact fun m hm => Option.some.inj hm ▸ hn
  · intro s hs
    rcases List.mem_append.1 hs with hs | hs
    · exact h.items s hs
    · obtain rfl := List.mem_singleton.1 hs
      simp
  · intro s hs
    rcases List.mem_append.1 hs with hs | hs
    · exact h.ne_nil s hs
    · obtain rfl := List.mem_singleton.1 hs
      simp
  · intro hm
    rw [List.map_append, List.tail_append] at hm
    split at hm
    · exact absurd hm List.not_mem_nil
    · exact (List.mem_append.1 hm).elim h.named (by simp)

theorem isLine_of_mem_texts {text : α → Text} (h : IsOutline P ss) (hitem : ∀ x, P x → SourceLine.IsLine (text x))
    (hs : s ∈ ss) : ∀ t ∈ s.texts text, SourceLine.IsLine t := by
  intro t ht
  rcases mem_texts.1 ht with ⟨n, hn, rfl⟩ | ⟨x, hx, rfl⟩
  · obtain ⟨htight, hlf⟩ := h.headings s hs n hn
    exact .keyword (by decide) (by decide) htight hlf
  · exact hitem x (h.items s hs x hx)

section

variable (text : α → Text) (make : List (Headed α) → σ) (ho : '\n' ∉ o.unit)
  (hitem : ∀ x, P x → SourceLine.IsLine (text x) ∧
    ∀ ss, ∀ l : SourceLine, l.text = text x → step (make ss) l = .ok (make (add ss x)))
  (hheading : ∀ n, IsTight n → ∀ ss, ∀ l : SourceLine, l.text = "section " ++ n →
    step (make ss) l = .ok (make (ss ++ [⟨some n, []⟩])))
include ho hitem

theorem reads_items (depth : Nat) {xs : List α} (h : ∀ x ∈ xs, P x) (ss : List (Headed α)) :
    Reads step (make ss) (xs.map (o.levels depth ++ text ·)) (make (xs.foldl add ss)) false := by
  refine .foldl_make make (isMargin_levels ho depth) ?_ ss
  intro x hx
  obtain ⟨hline, hread⟩ := hitem x (h x hx)
  exact ⟨hline, by simp, hread⟩

include hheading

/-- **a section is read back**, one without a heading where no section stands before it -/
theorem reads_section (hheaded : ∀ n, s.heading = some n → IsTight n ∧ '\n' ∉ n) (hitems : ∀ x ∈ s.items, P x)
    (hfirst : s.heading = none → s.items ≠ [] ∧ ss = []) :
    Reads step (make ss) (s.lines o text) (make (ss ++ [s])) false := by
  obtain ⟨heading, items⟩ := s
  cases heading with
  | some n =>
    obtain ⟨htight, hlf⟩ := hheaded n rfl
    have hline : SourceLine.IsLine ("section " ++ n) := .keyword (by decide) (by decide) htight hlf
    have hrest := reads_items text make ho hitem 2 hitems (ss ++ [⟨some n, []⟩])
    rw [foldl_add] at hrest
    rw [lines_some]
    exact .consLine (o.levels_one ▸ isMargin_levels ho 1) hline (by simp) fun l hl => ⟨_, hheading n htight ss l hl, hrest⟩
  | none =>
    obtain ⟨hne, rfl⟩ := hfirst rfl
    have hfold : items.foldl add [] = [] ++ [⟨none, items⟩] := by
      obtain ⟨x, xs, rfl⟩ := List.exists_cons_of_ne_nil hne
      exact foldl_add xs [] ⟨none, [x]⟩
    rw [← hfold]
    exact reads_items text make ho hitem 1 hitems []

/-- **sections are read back**, the first of them with or without a heading -/
theorem reads_lines (h : IsOutline P ss) : Reads step (make []) (ss.flatMap (lines o text)) (make ss) false := by
  induction ss using List.reverseRecOn with
  | nil => exact .nil
  | append_singleton ss s ih =>
    have hs : s ∈ ss ++ [s] := by simp
    -- no section but the first is without a heading
    have hfirst : s.heading = none → s.items ≠ [] ∧ ss = [] := by
      intro hnone
      refine ⟨h.ne_nil s hs hnone, by_contra fun hne => h.named ?_⟩
      rw [List.map_append, List.tail_append_of_ne_nil (by simpa using hne)]
      simp [hnone]
    have hbefore : IsOutline P ss := by
      refine ⟨fun s' hs' => h.headings s' (by simp [hs']), fun s' hs' => h.items s' (by simp [hs']),
        fun s' hs' => h.ne_nil s' (by simp [hs']), fun hm => h.named ?_⟩
      cases ss with
      | nil => exact absurd hm List.not_mem_nil
      | cons s' ss =>
        rw [List.cons_append, List.map_cons, List.tail_cons, List.map_append]
        exact List.mem_append_left _ hm
    rw [List.flatMap_append, List.flatMap_singleton]
    exact (ih hbefore).append (reads_section text make ho hitem hheading (h.headings s hs) (h.items s hs) hfirst)

end

end Headed

end DiagramText

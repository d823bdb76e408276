/-
Reading printed lines. `Reads` says that lines, as they are printed, lead a reader from one of its states to another,
wherever in a text they stand; such steps compose. `Reads.run_ofLines` starts a reader on a whole text. `Refuses` says that
lines stop a reader, and such a line stops it after any lines that are read.
-/
import DiagramText.Proofs.Options
import DiagramText.Proofs.Text.Lines
import DiagramText.Source.Header

namespace DiagramText

/-- a text of a header and lines is read as the header and what the lines say -/
theorem splitHeader_ofLines {dialect : Dialect} {strip : Bool} {header rest : Text} {raws : List Text} (hf : '\n' ∉ header)
    (hcontent : SourceLine.content? strip header = some header) (hheader : dialect.header? header = some rest)
    (hraws : ∀ raw ∈ raws, '\n' ∉ raw) :
    ∃ head, splitHeader dialect (sourceLines strip (Text.ofLines (header :: raws)))
      = (some (head, rest), SourceLine.ofRaws strip 2 raws) := by
  have hsplit : Text.splitOn '\n' (Text.ofLines (header :: raws)) = header :: raws := by
    refine Text.splitOn_ofLines (by simp) fun l hl => ?_
    rcases List.mem_cons.1 hl with rfl | hl
    · exact hf
    · exact hraws l hl
  obtain ⟨head, hhead, htext⟩ := Option.map_eq_some_iff.1 ((SourceLine.map_text_ofRaw? strip 1 header).trans hcontent)
  refine ⟨head, ?_⟩
  rw [sourceLines, hsplit, SourceLine.ofRaws, hhead, splitHeader, htext, hheader]

/-- printed lines lead a reader from one state to another; `strip` says whether a line may end with a semicolon that is not
part of it -/
structure Reads {σ : Type} (step : σ → SourceLine → Except ParseError σ) (p : σ) (raws : List Text) (q : σ)
    (strip : Bool := true) : Prop where
  lineFeed : ∀ raw ∈ raws, '\n' ∉ raw
  run : ∀ ls : List SourceLine, ls.map SourceLine.text = raws.filterMap (SourceLine.content? strip) → ls.foldlM step p = .ok q

namespace Reads

variable {σ : Type} {step : σ → SourceLine → Except ParseError σ} {p q r : σ} {raw t : Text} {raws raws' : List Text} {strip : Bool}

theorem nil : Reads step p [] p strip where
  lineFeed := by simp
  run ls hls := by
    rw [List.map_eq_nil_iff.1 hls]
    rfl

/-- a line after which some state leads on; the state may hold the line itself -/
theorem cons (hraw : '\n' ∉ raw) (hcontent : SourceLine.content? strip raw = some t)
    (h : ∀ l : SourceLine, l.text = t → ∃ p', step p l = .ok p' ∧ Reads step p' raws q strip) :
    Reads step p (raw :: raws) q strip where
  lineFeed x hx := by
    rcases List.mem_cons.1 hx with rfl | hx
    · exact hraw
    · obtain ⟨p', -, hrest⟩ := h ⟨0, 0, t, []⟩ rfl
      exact hrest.lineFeed x hx
  run ls hls := by
    rw [List.filterMap_cons, hcontent] at hls
    cases ls with
    | nil => exact absurd hls (by simp)
    | cons l ls =>
      obtain ⟨hl, hls⟩ := List.cons.inj hls
      obtain ⟨p', hp', hrest⟩ := h l hl
      rw [List.foldlM_cons, hp']
      exact hrest.run ls hls

theorem append (h : Reads step p raws q strip) (h' : Reads step q raws' r strip) : Reads step p (raws ++ raws') r strip where
  lineFeed x hx := (List.mem_append.1 hx).elim (h.lineFeed x) (h'.lineFeed x)
  run ls hls := by
    rw [List.filterMap_append] at hls
    obtain ⟨as, bs, rfl, ha, hb⟩ := List.map_eq_append_iff.1 hls
    rw [List.foldlM_append, h.run as ha]
    exact h'.run bs hb

/-- a text of a header and printed lines is read as the lines say -/
theorem run_ofLines {dialect : Dialect} {header rest : Text} (hf : '\n' ∉ header)
    (hcontent : SourceLine.content? strip header = some header) (hheader : dialect.header? header = some rest)
    (h : Reads step p raws q strip) :
    ∃ head body, splitHeader dialect (sourceLines strip (Text.ofLines (header :: raws))) = (some (head, rest), body) ∧
      body.foldlM step p = .ok q := by
  obtain ⟨head, hsplit⟩ := splitHeader_ofLines hf hcontent hheader h.lineFeed
  exact ⟨head, _, hsplit, h.run _ (SourceLine.map_text_ofRaws strip 2 raws)⟩

end Reads

theorem exceptMap_eq_ok_iff {ε α β : Type} {f : α → β} {x : Except ε α} {y : β} :
    x.map f = .ok y ↔ ∃ a, x = .ok a ∧ f a = y := by
  cases x <;> simp [Except.map]

theorem exceptBind_eq_ok_iff {ε α β : Type} {f : α → Except ε β} {x : Except ε α} {y : β} :
    x.bind f = .ok y ↔ ∃ a, x = .ok a ∧ f a = .ok y := by
  cases x <;> simp [Except.bind]

theorem exceptBind_eq_error_iff {ε α β : Type} {f : α → Except ε β} {x : Except ε α} {e : ε} :
    x.bind f = .error e ↔ x = .error e ∨ ∃ a, x = .ok a ∧ f a = .error e := by
  cases x <;> simp [Except.bind]

theorem exceptMapError_eq_ok_iff {ε ε' α : Type} {f : ε → ε'} {x : Except ε α} {a : α} : x.mapError f = .ok a ↔ x = .ok a := by
  cases x <;> simp [Except.mapError]

theorem exceptMap_eq_error_iff {ε α β : Type} {f : α → β} {x : Except ε α} {e : ε} : x.map f = .error e ↔ x = .error e := by
  cases x <;> simp [Except.map]

/-- an error can be told from every other result, whatever the results are -/
instance decidableEqError {ε α : Type} [DecidableEq ε] (x : Except ε α) (e : ε) : Decidable (x = .error e) :=
  match x with
  | .ok _ => isFalse nofun
  | .error e' => decidable_of_iff (e' = e) (by rw [Except.error.injEq])

theorem malformed_of_mapError {α : Type} {x : Except ParseError α} {e : ReadError} (h : x.mapError .malformed = .error e) :
    ∃ p, e = .malformed p := by
  cases x with
  | error p => exact ⟨p, (Except.error.inj h).symm⟩
  | ok a => exact absurd h nofun

/-- printed lines stop a reader -/
def Refuses {σ : Type} (step : σ → SourceLine → Except ParseError σ) (p : σ) (raws : List Text) : Prop :=
  ∀ ls : List SourceLine, ls.map SourceLine.text = raws.filterMap (SourceLine.content? true) → ∀ q, ls.foldlM step p ≠ .ok q

namespace Refuses

variable {σ : Type} {step : σ → SourceLine → Except ParseError σ} {p q : σ} {raw t : Text} {raws raws' : List Text}

/-- a line that is refused, whatever lines follow it -/
theorem cons (hcontent : SourceLine.content? true raw = some t) (h : ∀ l : SourceLine, l.text = t → ∀ q, step p l ≠ .ok q) :
    Refuses step p (raw :: raws) := by
  intro ls hls q hq
  rw [List.filterMap_cons, hcontent] at hls
  cases ls with
  | nil => exact absurd hls (by simp)
  | cons l ls =>
    rw [List.foldlM_cons] at hq
    obtain ⟨p', hp', -⟩ := exceptBind_eq_ok_iff.1 hq
    exact h l (List.cons.inj hls).1 p' hp'

/-- lines that lead to where others are refused -/
theorem append (h : Reads step p raws q) (h' : Refuses step q raws') : Refuses step p (raws ++ raws') := by
  intro ls hls r hr
  rw [List.filterMap_append] at hls
  obtain ⟨as, bs, rfl, ha, hb⟩ := List.map_eq_append_iff.1 hls
  rw [List.foldlM_append, h.run as ha] at hr
  exact h' bs hb r hr

/-- a text of a header and lines that are refused -/
theorem run_ofLines {dialect : Dialect} {header : Text} (hf : '\n' ∉ header)
    (hcontent : SourceLine.content? true header = some header) (hheader : dialect.header? header = some [])
    (hraws : ∀ raw ∈ raws, '\n' ∉ raw) (h : Refuses step p raws) (q : σ) :
    (splitHeader dialect (sourceLines true (Text.ofLines (header :: raws)))).2.foldlM step p ≠ .ok q := by
  obtain ⟨head, hsplit⟩ := splitHeader_ofLines hf hcontent hheader hraws
  rw [hsplit]
  exact h _ (SourceLine.map_text_ofRaws true 2 raws) q

end Refuses

/-! ## Runs of a reader -/

/-- what every line preserves, a run of lines preserves -/
theorem invariant_of_foldlM {σ ε ι : Type} {step : σ → ι → Except ε σ} {P : σ → Prop} {ls : List ι}
    (hstep : ∀ l ∈ ls, ∀ p q, P p → step p l = .ok q → P q) {p q : σ} (hp : P p) (h : ls.foldlM step p = .ok q) : P q := by
  induction ls generalizing p with
  | nil => exact Except.ok.inj h ▸ hp
  | cons l ls ih =>
    rw [List.foldlM_cons] at h
    cases hl : step p l with
    | error e =>
      rw [hl] at h
      exact absurd h (by simp [bind, Except.bind])
    | ok p' =>
      rw [hl] at h
      exact ih (fun l' hl' => hstep l' (List.mem_cons_of_mem l hl')) (hstep l (by simp) p p' hp hl) h

/-- lines that are taken over in any state are taken over one after the other -/
theorem exists_of_foldlM {σ ε ι : Type} {step : σ → ι → Except ε σ} {ls : List ι} (h : ∀ l ∈ ls, ∀ p, ∃ q, step p l = .ok q)
    (p : σ) : ∃ q, ls.foldlM step p = .ok q := by
  induction ls generalizing p with
  | nil => exact ⟨p, rfl⟩
  | cons l ls ih =>
    obtain ⟨q, hq⟩ := h l List.mem_cons_self p
    rw [List.foldlM_cons, hq]
    exact ih (fun l' hl' => h l' (List.mem_cons_of_mem l hl')) q

/-- a run of lines is refused at one of them -/
theorem exists_error_of_foldlM {σ ε ι : Type} {step : σ → ι → Except ε σ} {ls : List ι} {p : σ} {e : ε}
    (h : ls.foldlM step p = .error e) : ∃ l ∈ ls, ∃ q, step q l = .error e := by
  induction ls generalizing p with
  | nil => exact absurd h nofun
  | cons l ls ih =>
    rw [List.foldlM_cons] at h
    cases hl : step p l with
    | error e' =>
      rw [hl] at h
      exact ⟨l, List.mem_cons_self, p, Except.error.inj h ▸ hl⟩
    | ok q =>
      rw [hl] at h
      obtain ⟨l', hl', hstep⟩ := ih h
      exact ⟨l', List.mem_cons_of_mem l hl', hstep⟩

/-- what every line adds to a count, a run of lines adds up -/
theorem count_of_foldlM {σ ε ι : Type} {step : σ → ι → Except ε σ} {count : σ → Nat} {counts : ι → Bool}
    (h : ∀ {p q l}, step p l = .ok q → count q = count p + if counts l then 1 else 0) {ls : List ι} {p q : σ}
    (hrun : ls.foldlM step p = .ok q) : count q = count p + ls.countP counts := by
  induction ls generalizing p with
  | nil =>
    obtain rfl := Except.ok.inj hrun
    rfl
  | cons l ls ih =>
    rw [List.foldlM_cons] at hrun
    obtain ⟨p', hp', hrest⟩ := exceptBind_eq_ok_iff.1 hrun
    rw [ih hrest, h hp', List.countP_cons]
    omega

/-- the lines after the header are lines of the text -/
theorem body_subset (dialect : Dialect) (ls : List SourceLine) : (splitHeader dialect ls).2 ⊆ ls := by
  cases ls with
  | nil => exact List.Subset.refl _
  | cons l ls =>
    rw [splitHeader]
    split
    · exact List.subset_cons_self l ls
    · exact List.Subset.refl _

/-- a header is refused only for what follows its keyword -/
theorem cause_of_checkHeader {dialect : Dialect} {header : Option (SourceLine × Text)} {e : ParseError}
    (h : checkHeader dialect header = .error e) : e.cause = .textAfterHeader dialect := by
  rw [checkHeader.eq_def] at h
  split at h
  · exact absurd h (by simp)
  · split at h
    · exact absurd h (by simp)
    · exact Except.error.inj h ▸ rfl

/-- what a fallible step makes of each item -/
theorem forall₂_of_mapM {ε α β : Type} {f : α → Except ε β} {xs : List α} {ys : List β} (h : xs.mapM f = .ok ys) :
    List.Forall₂ (fun x y => f x = .ok y) xs ys := by
  induction xs generalizing ys with
  | nil =>
    obtain rfl : [] = ys := Except.ok.inj h
    exact .nil
  | cons x xs ih =>
    rw [List.mapM_cons] at h
    cases hx : f x with
    | error e => rw [hx] at h; exact absurd h (by simp [bind, Except.bind])
    | ok y =>
      cases hxs : xs.mapM f with
      | error e => rw [hx, hxs] at h; exact absurd h (by simp [bind, Except.bind])
      | ok zs =>
        rw [hx, hxs] at h
        obtain rfl : y :: zs = ys := Except.ok.inj h
        exact .cons hx (ih hxs)

/-- fallible steps all succeed when each does -/
theorem exists_mapM_iff {ε α β : Type} {f : α → Except ε β} {xs : List α} :
    (∃ ys, xs.mapM f = .ok ys) ↔ ∀ x ∈ xs, ∃ y, f x = .ok y := by
  induction xs with
  | nil => simp [pure, Except.pure]
  | cons x xs ih =>
    rw [List.forall_mem_cons, ← ih, List.mapM_cons]
    cases f x with
    | error e => simp [bind, Except.bind]
    | ok y => cases xs.mapM f <;> simp [bind, Except.bind, pure, Except.pure]

/-- steps that give back what they take -/
theorem mapM_eq_self {ε α : Type} {f : α → Except ε α} {xs : List α} (h : ∀ x ∈ xs, f x = .ok x) : xs.mapM f = .ok xs := by
  induction xs with
  | nil => rfl
  | cons x xs ih =>
    rw [List.forall_mem_cons] at h
    rw [List.mapM_cons, h.1, ih h.2]
    rfl

/-- fallible steps fail at one of them -/
theorem exists_error_of_mapM {ε α β : Type} {f : α → Except ε β} {xs : List α} {e : ε} (h : xs.mapM f = .error e) :
    ∃ x ∈ xs, f x = .error e := by
  induction xs with
  | nil => exact absurd h nofun
  | cons x xs ih =>
    rw [List.mapM_cons] at h
    cases hx : f x with
    | error e' =>
      rw [hx] at h
      exact ⟨x, List.mem_cons_self, Except.error.inj h ▸ hx⟩
    | ok y =>
      cases hxs : xs.mapM f with
      | error e' =>
        rw [hx, hxs] at h
        obtain ⟨x', hx', hf⟩ := ih (hxs.trans (congrArg Except.error (Except.error.inj h)))
        exact ⟨x', List.mem_cons_of_mem x hx', hf⟩
      | ok ys =>
        rw [hx, hxs] at h
        exact absurd h nofun

theorem exists_of_forall₂ {α β : Type} {r : α → β → Prop} {xs : List α} {ys : List β} (h : List.Forall₂ r xs ys) {y : β}
    (hy : y ∈ ys) : ∃ x ∈ xs, r x y := by
  induction h with
  | nil => simp at hy
  | @cons x _ xs ys hxy _ ih =>
    rcases List.mem_cons.1 hy with rfl | hy
    · exact ⟨x, by simp, hxy⟩
    · obtain ⟨x', hx', h⟩ := ih hy
      exact ⟨x', by simp [hx'], h⟩

/-! ## Margins -/

/-- white space that can stand before a line -/
structure IsMargin (margin : Text) : Prop where
  blank : margin.all isBlank = true
  lineFeed : '\n' ∉ margin

theorem isMargin_levels {o : RenderOptions} (ho : '\n' ∉ o.unit) (depth : Nat) : IsMargin (o.levels depth) :=
  ⟨o.all_isBlank_levels depth, RenderOptions.lineFeed_not_mem_levels ho depth⟩

theorem IsMargin.unit {o : RenderOptions} {margin : Text} (h : IsMargin margin) (ho : '\n' ∉ o.unit) :
    IsMargin (margin ++ o.unit) := by
  have hunit := o.levels_one ▸ isMargin_levels ho 1
  exact ⟨by rw [List.all_append, h.blank, hunit.blank]; rfl, by simp [h.lineFeed, hunit.lineFeed]⟩

section

variable {σ : Type} {step : σ → SourceLine → Except ParseError σ} {p p' q : σ} {margin t : Text} {raws : List Text}

/-- a line in its margin that can hold a text as it is, after which some state leads on -/
theorem Reads.consLine {strip : Bool} (hm : IsMargin margin) (ht : SourceLine.IsLine t)
    (hs : strip = true → Text.endsWith (· ≠ ';') t = true)
    (h : ∀ l : SourceLine, l.text = t → ∃ p', step p l = .ok p' ∧ Reads step p' raws q strip) :
    Reads step p ((margin ++ t) :: raws) q strip :=
  .cons (by simp [hm.lineFeed, ht.lineFeed]) (SourceLine.content?_of_isLine hm.blank ht hs) h

/-- a line in its margin, after which some state leads on -/
theorem Reads.line (hm : IsMargin margin) (ht : SourceLine.IsContent t)
    (h : ∀ l : SourceLine, l.text = t → ∃ p', step p l = .ok p' ∧ Reads step p' raws q) : Reads step p ((margin ++ t) :: raws) q :=
  .consLine hm ht.isLine (fun _ => ht.semicolon) h

/-- lines in their margins, of which a line can hold each as it is; `make` says which state has read what -/
theorem Reads.foldl_make {strip : Bool} {α β : Type} {text : α → Text} {act : β → α → β} (make : β → σ) (hm : IsMargin margin)
    {xs : List α} (h : ∀ x ∈ xs, SourceLine.IsLine (text x) ∧ (strip = true → Text.endsWith (· ≠ ';') (text x) = true) ∧
      ∀ (b : β) (l : SourceLine), l.text = text x → step (make b) l = .ok (make (act b x))) (b : β) :
    Reads step (make b) (xs.map (margin ++ text ·)) (make (xs.foldl act b)) strip := by
  induction xs generalizing b with
  | nil => exact .nil
  | cons x xs ih =>
    obtain ⟨hline, hsemicolon, hstep⟩ := h x List.mem_cons_self
    exact .consLine hm hline hsemicolon fun l hl =>
      ⟨_, hstep b l hl, ih (fun y hy => h y (List.mem_cons_of_mem x hy)) _⟩

/-- lines in their margins, of which a line can hold each as it is -/
theorem Reads.foldl {strip : Bool} {α : Type} {text : α → Text} {act : σ → α → σ} (hm : IsMargin margin) {xs : List α}
    (h : ∀ x ∈ xs, SourceLine.IsLine (text x) ∧ (strip = true → Text.endsWith (· ≠ ';') (text x) = true) ∧
      ∀ (p : σ) (l : SourceLine), l.text = text x → step p l = .ok (act p x)) (p : σ) :
    Reads step p (xs.map (margin ++ text ·)) (xs.foldl act p) strip := Reads.foldl_make id hm h p

end

end DiagramText

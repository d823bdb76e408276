/-
A mind map is read from the margins of its lines, but only from which of them are longer than which. Lines with as many levels
before them, of one width or another (`SameDepth`), are read as the same topics in the same order (`rel_foldlM_readLine`),
and topics that stand as deep are planted as the same trees (`forall₂_forest`). All lines of a map that was read begin where
their margin ends, so the map is read back the same whatever the indentation, as long as a level is not a new line
(`toOption_read_render_congr`).
-/
import DiagramText.Proofs.Indentation.Reading
import DiagramText.Proofs.MindMap.RoundTrip

namespace DiagramText.MindMap

open DiagramText.Text
open SourceLine (IsLine)

variable {k k' : Nat} {width width' : Nat} {i i' : Item} {items items' : List Item} {forest forest' : List Rooted}

/-! ## Trees -/

/-- as many levels of one width as of another -/
def SameDepth (k k' width width' : Nat) : Prop := ∃ depth, width = depth * k ∧ width' = depth * k'

theorem SameDepth.lt_iff_lt {other other' : Nat} (hk : 0 < k) (hk' : 0 < k') (h : SameDepth k k' width width')
    (hother : SameDepth k k' other other') : width < other ↔ width' < other' := by
  obtain ⟨depth, rfl, rfl⟩ := h
  obtain ⟨depth', rfl, rfl⟩ := hother
  rw [Nat.mul_lt_mul_right hk, Nat.mul_lt_mul_right hk']

/-- the same topic at the same depth -/
def Item.IsMoved (k k' : Nat) (i i' : Item) : Prop := i.topic = i'.topic ∧ SameDepth k k' i.width i'.width

/-- the same tree at the same depth -/
def Rooted.IsMoved (k k' : Nat) (r r' : Rooted) : Prop := r.item.IsMoved k k' r'.item ∧ r.node = r'.node

/-- related lists are cut at the same place by conditions that agree -/
theorem forall₂_span {α β : Type} {R : α → β → Prop} {p : α → Bool} {p' : β → Bool} {xs : List α} {ys : List β}
    (hp : ∀ x y, R x y → p x = p' y) (h : List.Forall₂ R xs ys) :
    List.Forall₂ R (xs.takeWhile p) (ys.takeWhile p') ∧ List.Forall₂ R (xs.dropWhile p) (ys.dropWhile p') := by
  induction h with
  | nil => exact ⟨.nil, .nil⟩
  | @cons x y xs ys hxy hrest ih =>
    rw [List.takeWhile_cons, List.takeWhile_cons, List.dropWhile_cons, List.dropWhile_cons, hp x y hxy]
    split
    · exact ⟨.cons hxy ih.1, ih.2⟩
    · exact ⟨.nil, .cons hxy hrest⟩

theorem map_node_eq (h : List.Forall₂ (Rooted.IsMoved k k') forest forest') : forest.map Rooted.node = forest'.map Rooted.node := by
  induction h with
  | nil => rfl
  | cons hr _ ih => rw [List.map_cons, List.map_cons, hr.2, ih]

section

variable (hk : 0 < k) (hk' : 0 < k')
include hk hk'

theorem forall₂_plant (hi : i.IsMoved k k' i') (h : List.Forall₂ (Rooted.IsMoved k k') forest forest') :
    List.Forall₂ (Rooted.IsMoved k k') (plant i forest) (plant i' forest') := by
  have hcut : ∀ r r' : Rooted, r.IsMoved k k' r' → decide (i.width < r.item.width) = decide (i'.width < r'.item.width) :=
    fun r r' hr => decide_eq_decide.2 (hi.2.lt_iff_lt hk hk' hr.1.2)
  obtain ⟨hbelow, hbeside⟩ := forall₂_span hcut h
  refine .cons ⟨hi, ?_⟩ hbeside
  dsimp only
  rw [hi.1, map_node_eq hbelow]

/-- **topics that stand as deep are planted as the same trees** -/
theorem forall₂_forest (h : List.Forall₂ (Item.IsMoved k k') items items') :
    List.Forall₂ (Rooted.IsMoved k k') (MindMap.forest items) (MindMap.forest items') := by
  induction h with
  | nil => exact .nil
  | cons hi _ ih => exact forall₂_plant hk hk' hi ih

theorem toOption_ofForest_congr (h : List.Forall₂ (Item.IsMoved k k') items items') :
    (ofForest (MindMap.forest items)).toOption = (ofForest (MindMap.forest items')).toOption := by
  have hforest := forall₂_forest hk hk' h
  generalize MindMap.forest items = trees, MindMap.forest items' = trees' at hforest
  cases hforest with
  | nil => rfl
  | cons hr hrest =>
    cases hrest with
    | nil => exact congrArg (fun n => some (MindMap.mk (some n))) hr.2
    | cons _ _ => rfl

end

/-! ## Lines -/

/-- the same text at the same depth -/
def IsMovedLine (k k' : Nat) (l l' : SourceLine) : Prop := l.text = l'.text ∧ SameDepth k k' l.indent.length l'.indent.length

theorem rel_decorate {l l' : SourceLine} (cause : Cause) (f : Topic → Topic) (h : List.Forall₂ (Item.IsMoved k k') items items') :
    Option.Rel (List.Forall₂ (Item.IsMoved k k')) (decorate l cause f items).toOption (decorate l' cause f items').toOption := by
  cases h with
  | nil => exact .none
  | cons hi hrest => exact .some (.cons ⟨congrArg f hi.1, hi.2⟩ hrest)

theorem rel_readLine {l l' : SourceLine} (hl : IsMovedLine k k' l l') (h : List.Forall₂ (Item.IsMoved k k') items items') :
    Option.Rel (List.Forall₂ (Item.IsMoved k k')) (readLine items l).toOption (readLine items' l').toOption := by
  rw [readLine, readLine, hl.1]
  cases Line.read l'.text with
  | icon name => exact rel_decorate _ _ h
  | cssClass name => exact rel_decorate _ _ h
  | topic a => exact .some (.cons ⟨rfl, hl.2⟩ h)

theorem bind_eq_of_rel {α β γ : Type} {R : α → β → Prop} {x : Option α} {y : Option β} {f : α → Option γ} {g : β → Option γ}
    (h : Option.Rel R x y) (hf : ∀ a b, R a b → f a = g b) : x.bind f = y.bind g := by
  cases h with
  | none => rfl
  | some hab => exact hf _ _ hab

/-- **lines of the same depths are read as topics of the same depths** -/
theorem rel_foldlM_readLine {ls ls' : List SourceLine} (hls : List.Forall₂ (IsMovedLine k k') ls ls')
    (h : List.Forall₂ (Item.IsMoved k k') items items') :
    Option.Rel (List.Forall₂ (Item.IsMoved k k')) (ls.foldlM readLine items).toOption (ls'.foldlM readLine items').toOption := by
  induction hls generalizing items items' with
  | nil => exact .some h
  | @cons l l' ls ls' hl _ ih =>
    have hcons : ∀ (l : SourceLine) (ls : List SourceLine) (items : List Item), ((l :: ls).foldlM readLine items).toOption
        = (readLine items l).toOption.bind fun items => (ls.foldlM readLine items).toOption := fun l ls items => toOption_bind _ _
    have hfirst := rel_readLine hl h
    rw [hcons, hcons]
    generalize (readLine items l).toOption = x, (readLine items' l').toOption = x' at hfirst
    cases hfirst with
    | none => exact .none
    | some hitems => exact ih hitems

/-! ## Pages -/

/-- what the lines of a topic say -/
def Topic.texts (a : Topic) : List Text :=
  a.toText :: ((present a.icon).map fun name : Text => "::icon(" ++ name ++ ")").toList
    ++ ((present a.cssClass).map fun name : Text => ":::" ++ name).toList

theorem Topic.lines_eq_texts (o : RenderOptions) (depth : Nat) (a : Topic) :
    a.lines o depth = a.texts.map (o.levels depth ++ ·) := by
  rw [Topic.lines, Topic.texts]
  cases present a.icon <;> cases present a.cssClass <;> simp

/-- the texts of a map, each with its depth -/
def page (m : MindMap) : List (Nat × Text) := m.outline.flatMap fun x => x.2.texts.map (x.1, ·)

theorem render_eq_page (m : MindMap) (o : RenderOptions) :
    render m o = ofLines ("mindmap" :: m.page.map fun x => o.levels x.1 ++ x.2) := by
  rw [render_eq, page, List.map_flatMap]
  simp only [Topic.lines_eq_texts, List.map_map, Function.comp_def]

/-- every text of a map that was read is a line as it stands -/
theorem isLine_of_read {text : Text} {m : MindMap} (h : read text = .ok m) : ∀ x ∈ m.page, IsLine x.2 := by
  have htexts : ∀ x ∈ m.outline, IsLine x.2.toText ∧ (∀ name, x.2.icon = some name → IsName name) ∧
      ∀ name, x.2.cssClass = some name → IsName name ∧ name ≠ [] := by
    refine topic_of_read (P := fun a => IsLine a.toText ∧ (∀ name, a.icon = some name → IsName name) ∧
      ∀ name, a.cssClass = some name → IsName name ∧ name ≠ []) (fun l hl a ha => ?_) (fun l hl name hname a ha => ?_)
      (fun l hl name hname a ha => ?_) h
    · obtain ⟨hicon, hclass⟩ := undecorated_of_read ha
      exact ⟨isLine_toText (isLine_of_mem_sourceLines hl) ha, by simp [hicon], by simp [hclass]⟩
    · have hline := (isLine_of_mem_sourceLines hl).lineFeed
      exact ⟨ha.1, fun n e => Option.some.inj e ▸ isName_of_icon hline hname, ha.2.2⟩
    · have hline := (isLine_of_mem_sourceLines hl).lineFeed
      exact ⟨ha.1, ha.2.1, fun n e => Option.some.inj e ▸ isName_of_cssClass hline hname⟩
  intro x hx
  obtain ⟨y, hy, hx⟩ := List.mem_flatMap.1 hx
  obtain ⟨t, ht, rfl⟩ := List.mem_map.1 hx
  obtain ⟨hline, hicon, hclass⟩ := htexts y hy
  rw [Topic.texts, List.cons_append, List.mem_cons, List.mem_append] at ht
  rcases ht with rfl | ht | ht
  · exact hline
  · obtain ⟨name, hname, rfl⟩ := Option.map_eq_some_iff.1 (Option.mem_toList.1 ht)
    exact isLine_icon (hicon name (present_eq_some_iff.1 hname).1)
  · obtain ⟨name, hname, rfl⟩ := Option.map_eq_some_iff.1 (Option.mem_toList.1 ht)
    obtain ⟨hname, hne⟩ := hclass name (present_eq_some_iff.1 hname).1
    exact isLine_cssClass hname hne

/-- printed lines begin where their margins end -/
theorem forall₂_ofRaws {texts : List (Nat × Text)} (h : ∀ x ∈ texts, IsLine x.2) (o o' : RenderOptions) (number : Nat) :
    List.Forall₂ (IsMovedLine o.unit.length o'.unit.length) (SourceLine.ofRaws false number (texts.map fun x => o.levels x.1 ++ x.2))
      (SourceLine.ofRaws false number (texts.map fun x => o'.levels x.1 ++ x.2)) := by
  induction texts generalizing number with
  | nil => exact .nil
  | cons x texts ih =>
    have hx := h x List.mem_cons_self
    rw [List.map_cons, List.map_cons, ofRaws_margin (o.all_isBlank_levels x.1) hx, ofRaws_margin (o'.all_isBlank_levels x.1) hx]
    exact .cons ⟨rfl, x.1, o.length_levels x.1, o'.length_levels x.1⟩ (ih (fun y hy => h y (List.mem_cons_of_mem x hy)) _)

/-- **the indentation of a mind map does not change what is read** -/
theorem toOption_read_render_congr {text : Text} {m : MindMap} (h : read text = .ok m) {o o' : RenderOptions} (ho : '\n' ∉ o.unit)
    (ho' : '\n' ∉ o'.unit) : (read (render m o)).toOption = (read (render m o')).toOption := by
  have hlines := isLine_of_read h
  have hread : ∀ o : RenderOptions, '\n' ∉ o.unit → (read (render m o)).toOption
      = ((SourceLine.ofRaws false 2 (m.page.map fun x => o.levels x.1 ++ x.2)).foldlM readLine []).toOption.bind
          fun items => (ofForest (forest items.reverse)).toOption := by
    intro o ho
    have hraws : ∀ raw ∈ m.page.map (fun x => o.levels x.1 ++ x.2), '\n' ∉ raw := by
      intro raw hraw
      obtain ⟨x, hx, rfl⟩ := List.mem_map.1 hraw
      simp [RenderOptions.lineFeed_not_mem_levels ho x.1, (hlines x hx).lineFeed]
    have hcontent : SourceLine.content? false "mindmap" = some ("mindmap" : Text) := by decide
    have hkeyword : Dialect.mindmap.header? "mindmap" = some [] := by decide +kernel
    obtain ⟨head, hsplit⟩ := splitHeader_ofLines (by decide) hcontent hkeyword hraws
    unfold read
    rw [render_eq_page, hsplit]
    exact toOption_bind _ _
  rw [hread o ho, hread o' ho']
  exact bind_eq_of_rel (rel_foldlM_readLine (forall₂_ofRaws hlines o o' 2) .nil) fun items items' hitems =>
    toOption_ofForest_congr o.length_unit_pos o'.length_unit_pos (List.forall₂_reverse_iff.2 hitems)

end DiagramText.MindMap

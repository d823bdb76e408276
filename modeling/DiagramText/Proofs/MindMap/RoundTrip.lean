/-
Mind maps read back. Every topic of a map that was read is printable: its line says it again (`isPrintable_of_read`). The
page of such a map is read node line by node line with the indentation it was printed with (`foldlM_page`), from which
the tree is planted again. `read_render_settled` says that one round settles a map, up to an icon without a name.
-/
import DiagramText.Proofs.MindMap.Line
import DiagramText.Proofs.MindMap.Tree
import DiagramText.Proofs.Reading

namespace DiagramText

/-! ## Lines in their margins -/

theorem RenderOptions.length_levels (o : RenderOptions) (depth : Nat) : (o.levels depth).length = depth * o.unit.length := by
  simp [levels, Text.times]

theorem RenderOptions.length_unit_pos (o : RenderOptions) : 0 < o.unit.length := List.length_pos_iff.2 o.unit_ne_nil

namespace MindMap

open DiagramText.Text
open SourceLine (IsLine)

variable {o : RenderOptions} {a : Topic} {line : Text}

/-- a line in its margin keeps the margin -/
theorem ofRaw?_margin {margin : Text} (hm : margin.all isBlank = true) (h : IsLine line) (number : Nat) :
    SourceLine.ofRaw? false number (margin ++ line) = some ⟨number, margin.length + 1, line, margin⟩ := by
  have hend : endsWith (fun c => !decide (c = '\r')) (margin ++ line) = true := by
    refine endsWith_append margin (endsWith_mono (fun c hc => ?_) h.tight.last)
    rw [Bool.not_eq_true', decide_eq_false_iff_not]
    rintro rfl
    exact absurd hc (by decide)
  have hfirst : Scan.startsWith isBlank line = false := by
    obtain ⟨c, r, rfl, hc⟩ := exists_cons_of_startsWith h.tight.first
    change isBlank c = false
    simpa [isMark] using hc
  have hindent : (margin ++ line).takeWhile isBlank = margin := congrArg Prod.fst (span_of_all hm hfirst)
  simp only [SourceLine.ofRaw?, dropRightWhile_of_endsWith hend, hindent, trim_margin hm h.tight, Bool.false_and,
    Bool.false_eq_true, if_false, h.comment]
  rw [if_neg]
  simpa using h.tight.ne_nil

theorem ofRaws_margin {margin : Text} (hm : margin.all isBlank = true) (h : IsLine line) (number : Nat) (raws : List Text) :
    SourceLine.ofRaws false number ((margin ++ line) :: raws)
      = ⟨number, margin.length + 1, line, margin⟩ :: SourceLine.ofRaws false (number + 1) raws := by
  rw [SourceLine.ofRaws, ofRaw?_margin hm h]

/-! ## Topics -/

/-- the topic without its decorations -/
def Topic.bare (a : Topic) : Topic := { a with icon := none, cssClass := none }

/-- a topic that its lines say -/
structure Topic.IsPrintable (a : Topic) : Prop where
  read : Line.read a.toText = .topic a.bare
  line : IsLine a.toText
  icon : ∀ name, a.icon = some name → IsName name
  cssClass : ∀ name, a.cssClass = some name → IsName name ∧ name ≠ []

/-- the topic with an icon only where it has a name -/
def Topic.settled (a : Topic) : Topic := { a with icon := present a.icon }

theorem lines_settled (o : RenderOptions) (depth : Nat) (a : Topic) : a.settled.lines o depth = a.lines o depth := by
  rw [Topic.lines, Topic.lines, Topic.settled, present_present]
  rfl

/-! ## Reading lines -/

variable {l : SourceLine} {i : Item} {items : List Item} {name margin : Text}

theorem readLine_topic (ha : a.IsPrintable) (hl : l.text = a.toText) : readLine items l = .ok (⟨l, a.bare⟩ :: items) := by
  rw [readLine, hl, ha.read]

theorem readLine_icon (hname : IsName name) (hl : l.text = "::icon(" ++ name ++ ")") :
    readLine (i :: items) l = .ok ({ i with topic := { i.topic with icon := some name } } :: items) := by
  rw [readLine, hl, read_icon hname]
  rfl

theorem readLine_cssClass (hname : IsName name) (hne : name ≠ []) (hl : l.text = ":::" ++ name) :
    readLine (i :: items) l = .ok ({ i with topic := { i.topic with cssClass := some name } } :: items) := by
  rw [readLine, hl, read_cssClass hname hne]
  rfl

theorem foldlM_icon (hm : IsMargin margin) {icon : Option Text} (h : ∀ name, icon = some name → IsName name) (number : Nat) :
    (SourceLine.ofRaws false number ((icon.map fun (name : Text) => margin ++ "::icon(" ++ name ++ ")").toList)).foldlM
      readLine (i :: items) = .ok ({ i with topic := { i.topic with icon := icon.or i.topic.icon } } :: items) := by
  cases icon with
  | none => rfl
  | some name =>
    have hline := ofRaws_margin hm.blank (isLine_icon (h name rfl)) number []
    simp only [← List.append_assoc] at hline
    rw [Option.map_some, Option.toList_some, hline]
    rw [List.foldlM_cons, readLine_icon (h name rfl) rfl]
    rfl

theorem foldlM_cssClass (hm : IsMargin margin) {cssClass : Option Text}
    (h : ∀ name, cssClass = some name → IsName name ∧ name ≠ []) (number : Nat) :
    (SourceLine.ofRaws false number ((cssClass.map (margin ++ ":::" ++ ·)).toList)).foldlM readLine (i :: items)
      = .ok ({ i with topic := { i.topic with cssClass := cssClass.or i.topic.cssClass } } :: items) := by
  cases cssClass with
  | none => rfl
  | some name =>
    obtain ⟨hname, hne⟩ := h name rfl
    have hline := ofRaws_margin hm.blank (isLine_cssClass hname hne) number []
    simp only [← List.append_assoc] at hline
    rw [Option.map_some, Option.toList_some, hline]
    rw [List.foldlM_cons, readLine_cssClass hname hne rfl]
    rfl

/-- a topic is read from its lines -/
theorem foldlM_lines (ha : a.IsPrintable) (ho : '\n' ∉ o.unit) (depth number : Nat) (items : List Item) :
    ∃ i : Item, i.shown = (depth * o.unit.length, a.settled) ∧
      (SourceLine.ofRaws false number (a.lines o depth)).foldlM readLine items = .ok (i :: items) := by
  have hm := isMargin_levels ho depth
  have hicon : ∀ name, present a.icon = some name → IsName name := fun name h => ha.icon name (present_eq_some_iff.1 h).1
  have hclass : ∀ name, present a.cssClass = some name → IsName name ∧ name ≠ [] := fun name h =>
    ha.cssClass name (present_eq_some_iff.1 h).1
  refine ⟨⟨⟨number, (o.levels depth).length + 1, a.toText, o.levels depth⟩, a.settled⟩, ?_, ?_⟩
  · rw [Item.shown, Item.width, o.length_levels]
  · have hsettled : a.settled = { a.bare with icon := (present a.icon).or none, cssClass := (present a.cssClass).or none } := by
      have hpresent : present a.cssClass = a.cssClass := by
        cases hc : a.cssClass with
        | none => rfl
        | some name => exact present_eq_some_iff.2 ⟨rfl, (ha.cssClass name hc).2⟩
      rw [hpresent, Option.or_none, Option.or_none]
      rfl
    rw [Topic.lines, List.cons_append, ofRaws_margin hm.blank ha.line, List.foldlM_cons, readLine_topic ha rfl,
      SourceLine.ofRaws_append, hsettled]
    change List.foldlM readLine _ _ = _
    rw [List.foldlM_append, foldlM_icon hm hicon]
    exact foldlM_cssClass hm hclass _

/-- an outline is read from the lines of its topics -/
theorem foldlM_page (ho : '\n' ∉ o.unit) {outline : List (Nat × Topic)} (h : ∀ x ∈ outline, x.2.IsPrintable) (number : Nat) (items : List Item) :
    ∃ new : List Item, new.map Item.shown = outline.map (fun x => (x.1 * o.unit.length, x.2.settled)) ∧
      (SourceLine.ofRaws false number (outline.flatMap fun x => x.2.lines o x.1)).foldlM readLine items
        = .ok (new.reverse ++ items) := by
  induction outline generalizing number items with
  | nil => exact ⟨[], rfl, rfl⟩
  | cons x outline ih =>
    obtain ⟨i, hi, hread⟩ := foldlM_lines (h x List.mem_cons_self) ho x.1 number items
    obtain ⟨new, hnew, hrest⟩ := ih (fun y hy => h y (List.mem_cons_of_mem x hy)) (number + (x.2.lines o x.1).length) (i :: items)
    refine ⟨i :: new, by rw [List.map_cons, List.map_cons, hi, hnew], ?_⟩
    rw [List.flatMap_cons, SourceLine.ofRaws_append, List.foldlM_append, hread, List.reverse_cons, List.append_assoc]
    exact hrest

/-! ## What was read -/

theorem isPrintable_of_line (h : IsLine line) (hentity : ¬ quoteEntity <:+: line) (hread : Line.read line = .topic a) :
    a.IsPrintable := by
  obtain ⟨hicon, hclass⟩ := undecorated_of_read hread
  have hbare : a.bare = a := by
    obtain ⟨id, label, shape, icon, cssClass⟩ := a
    obtain rfl : icon = none := hicon
    obtain rfl : cssClass = none := hclass
    rfl
  exact ⟨hbare.symm ▸ read_toText hentity hread, isLine_toText h hread, fun name e => absurd (hicon.symm.trans e) (by simp),
    fun name e => absurd (hclass.symm.trans e) (by simp)⟩

/-- what a line makes true of the topics read -/
theorem topic_of_readLine {P : Topic → Prop} (htopic : ∀ a, Line.read l.text = .topic a → P a)
    (hicon : ∀ name, Line.read l.text = .icon name → ∀ a, P a → P { a with icon := some name })
    (hclass : ∀ name, Line.read l.text = .cssClass name → ∀ a, P a → P { a with cssClass := some name }) {items' : List Item}
    (h : ∀ i ∈ items, P i.topic) (hread : readLine items l = .ok items') : ∀ i ∈ items', P i.topic := by
  rw [readLine] at hread
  cases hkind : Line.read l.text with
  | topic t =>
    rw [hkind] at hread
    obtain rfl := Except.ok.inj hread
    exact List.forall_mem_cons.2 ⟨htopic t hkind, h⟩
  | icon name =>
    rw [hkind] at hread
    cases items with
    | nil => exact absurd hread (by simp [decorate])
    | cons last items =>
      obtain rfl := Except.ok.inj hread
      exact List.forall_mem_cons.2 ⟨hicon name hkind _ (h last List.mem_cons_self), fun i hi => h i (List.mem_cons_of_mem last hi)⟩
  | cssClass name =>
    rw [hkind] at hread
    cases items with
    | nil => exact absurd hread (by simp [decorate])
    | cons last items =>
      obtain rfl := Except.ok.inj hread
      exact List.forall_mem_cons.2 ⟨hclass name hkind _ (h last List.mem_cons_self), fun i hi => h i (List.mem_cons_of_mem last hi)⟩

theorem lineFeed_not_mem_lines (ha : a.IsPrintable) (hm : '\n' ∉ o.unit) (depth : Nat) :
    ∀ raw ∈ a.lines o depth, '\n' ∉ raw := by
  have hmargin := (isMargin_levels hm depth).lineFeed
  intro raw hraw
  rw [Topic.lines, List.cons_append, List.mem_cons, List.mem_append] at hraw
  rcases hraw with rfl | hraw | hraw
  · simp [hmargin, ha.line.lineFeed]
  · obtain ⟨name, hname, rfl⟩ := Option.map_eq_some_iff.1 (Option.mem_toList.1 hraw)
    simp [hmargin, (ha.icon name (present_eq_some_iff.1 hname).1).lineFeed]
  · obtain ⟨name, hname, rfl⟩ := Option.map_eq_some_iff.1 (Option.mem_toList.1 hraw)
    simp [hmargin, (ha.cssClass name (present_eq_some_iff.1 hname).1).1.lineFeed]

/-! ## Maps -/

/-- the map with icons only where they have names -/
def settled (m : MindMap) : MindMap := ⟨m.root.map (Node.map Topic.settled)⟩

/-- the outline of a map -/
def outline (m : MindMap) : List (Nat × Topic) := outlineOf 1 m.root.toList

theorem render_eq (m : MindMap) (o : RenderOptions) :
    render m o = ofLines ("mindmap" :: m.outline.flatMap fun x => x.2.lines o x.1) := by
  rw [render, linesOf_eq, outline]

theorem toList_settled (m : MindMap) : m.settled.root.toList = mapAll Topic.settled m.root.toList := by
  cases m with
  | mk root => cases root <;> rfl

theorem outline_settled (m : MindMap) : m.settled.outline = m.outline.map fun x => (x.1, x.2.settled) := by
  rw [outline, toList_settled, outlineOf_mapAll, outline]

theorem render_settled (m : MindMap) (o : RenderOptions) : render m.settled o = render m o := by
  rw [render_eq, render_eq, outline_settled, List.flatMap_map]
  simp only [lines_settled]

/-- **a page is read back** when every topic on it is printable -/
theorem read_render_of_isPrintable {m : MindMap} (h : ∀ x ∈ m.outline, x.2.IsPrintable) (ho : '\n' ∉ o.unit) :
    read (render m o) = .ok m.settled := by
  have hlines : ∀ raw ∈ m.outline.flatMap (fun x => x.2.lines o x.1), '\n' ∉ raw := fun raw hraw => by
    obtain ⟨x, hx, hraw⟩ := List.mem_flatMap.1 hraw
    exact lineFeed_not_mem_lines (h x hx) ho x.1 raw hraw
  have hcontent : SourceLine.content? false "mindmap" = some ("mindmap" : Text) := by decide
  have hkeyword : Dialect.mindmap.header? "mindmap" = some [] := by decide +kernel
  obtain ⟨head, hsplit⟩ := splitHeader_ofLines (by decide) hcontent hkeyword hlines
  obtain ⟨items, hshown, hread⟩ := foldlM_page ho h 2 []
  have houtline : items.map Item.shown = (outlineOf 1 m.settled.root.toList).map fun x => (x.1 * o.unit.length, x.2) := by
    rw [← outline, outline_settled, List.map_map]
    exact hshown
  obtain ⟨trees, hforest, hnodes, -⟩ := foldr_plant o.length_unit_pos 1 [] (fun r hr => absurd hr (by simp)) _ items houtline
  rw [List.append_nil] at hread hforest
  unfold read
  rw [render_eq, hsplit, hread]
  change ofForest (forest items.reverse.reverse) = _
  rw [List.reverse_reverse, forest, hforest]
  generalize m.settled = settledMap at *
  obtain ⟨root⟩ := settledMap
  cases root with
  | none =>
    rw [List.map_eq_nil_iff.1 hnodes]
    rfl
  | some n =>
    obtain ⟨r, rfl, hr⟩ := List.map_eq_singleton_iff.1 hnodes
    rw [ofForest, hr]

/-- **what every line makes true of topics is true of the topics of a map** -/
theorem topic_of_read {P : Topic → Prop} {text : Text} {m : MindMap}
    (htopic : ∀ l ∈ sourceLines false text, ∀ a, Line.read l.text = .topic a → P a)
    (hicon : ∀ l ∈ sourceLines false text, ∀ name, Line.read l.text = .icon name → ∀ a, P a → P { a with icon := some name })
    (hclass : ∀ l ∈ sourceLines false text, ∀ name, Line.read l.text = .cssClass name →
      ∀ a, P a → P { a with cssClass := some name })
    (h : read text = .ok m) : ∀ x ∈ m.outline, P x.2 := by
  unfold read at h
  obtain ⟨items, hitems, h⟩ := exceptBind_eq_ok_iff.1 h
  have hitemsP : ∀ i ∈ items, P i.topic := by
    refine invariant_of_foldlM (P := fun items => ∀ i ∈ items, P i.topic) (fun l hl p q hp hq => ?_) (by simp) hitems
    have hmem := body_subset .mindmap _ hl
    exact topic_of_readLine (htopic l hmem) (hicon l hmem) (hclass l hmem) hp hq
  have htopics := topic_of_mem_forest fun i hi => hitemsP i (List.mem_reverse.1 hi)
  cases hforest : forest items.reverse with
  | nil =>
    rw [hforest] at h
    obtain rfl := Except.ok.inj h
    exact fun x hx => absurd hx List.not_mem_nil
  | cons r others =>
    rw [hforest] at h htopics
    cases others with
    | cons r' others => exact absurd h (by simp [ofForest])
    | nil =>
      obtain rfl := Except.ok.inj h
      intro x hx
      refine htopics r List.mem_cons_self 1 x ?_
      simpa [outline, outlineOf] using hx

theorem isPrintable_of_read {text : Text} {m : MindMap} (hentity : ¬ quoteEntity <:+: text) (h : read text = .ok m) :
    ∀ x ∈ m.outline, x.2.IsPrintable := by
  refine topic_of_read (fun l hl a ha => ?_) (fun l hl name hname a ha => ?_) (fun l hl name hname a ha => ?_) h
  · exact isPrintable_of_line (isLine_of_mem_sourceLines hl) (fun hi => hentity (hi.trans (isInfix_of_mem_sourceLines hl))) ha
  · have hline := (isLine_of_mem_sourceLines hl).lineFeed
    exact ⟨ha.read, ha.line, fun n e => Option.some.inj e ▸ isName_of_icon hline hname, ha.cssClass⟩
  · have hline := (isLine_of_mem_sourceLines hl).lineFeed
    exact ⟨ha.read, ha.line, ha.icon, fun n e => Option.some.inj e ▸ isName_of_cssClass hline hname⟩

/-- **one round settles a mind map**: the page of a map that was read is read as the same tree, icons without a name left
out, and is the page of that tree -/
theorem read_render_settled {text : Text} {m : MindMap} (hentity : ¬ quoteEntity <:+: text) (h : read text = .ok m)
    (ho : '\n' ∉ o.unit) : read (render m o) = .ok m.settled ∧ render m.settled o = render m o :=
  ⟨read_render_of_isPrintable (isPrintable_of_read hentity h) ho, render_settled m o⟩

/-- quotes inside quotes, an icon without a name, a shape whose delimiters are those of another the other way round, an id
that is the label, and three widths of indentation -/
def thicket : Text := "mindmap\n root((\"say \"hi\"\"))\n  :::big\n  ::icon( )\n   ))x((\n  a)b(\n  [a]"

/-- what is read of it -/
def thicketMap : MindMap where
  root := some (.node ⟨"root", "say \"hi\"", .circle, some [], some "big"⟩
    [.node ⟨"x", "x", .bang, none, none⟩ [], .node ⟨"a", "b", .cloud, none, none⟩ [], .node ⟨"a", "a", .square, none, none⟩ []])

theorem read_render_settled_thicket : ¬ quoteEntity <:+: thicket ∧ read thicket = .ok thicketMap ∧
    '\n' ∉ RenderOptions.default.unit ∧
    read (render thicketMap .default) = .ok thicketMap.settled ∧ render thicketMap.settled .default = render thicketMap .default := by
  have hentity : ¬ quoteEntity <:+: thicket := by decide +kernel
  have hread : read thicket = .ok thicketMap := rfl
  have hunit : '\n' ∉ RenderOptions.default.unit := by decide
  exact ⟨hentity, hread, hunit, read_render_settled hentity hread hunit⟩

end MindMap

end DiagramText

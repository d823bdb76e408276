/-
Decoding undoes encoding of class diagrams. The classes that a text brings are those of its namespaces, those that are
written on their own, and those that its relationships name (`pageIds`); no class is left out (`mem_pageIds_of_mem_keys`),
since a class without a line of its own is one that a relationship names. `exists_perm_read_render` puts this together.
-/
import DiagramText.Proofs.ClassDiagram.Replay

namespace DiagramText.ClassDiagram

open DiagramText.Text
open Sequence (IsLineText)

/-- every part of the diagram can be written -/
structure IsWritable (d : ClassDiagram) : Prop extends IsPrintable d where
  classDefs : ∀ x ∈ d.classDefs.toList, (Line.classDef x.1 x.2).IsPlain
  cssClasses : ∀ x ∈ d.cssClasses.toList, Entries.IsAssigned IsListed IsId x
  accessibility : ∀ line ∈ d.accessibility.written, line.value ≠ [] ∧ IsLineText line.value

/-- a diagram of nothing but classes, relationships, namespaces and notes that fit the grammar -/
structure IsPlain (d : ClassDiagram) : Prop extends IsPrintable d where
  classDefs : d.classDefs = .empty
  cssClasses : d.cssClasses = .empty
  accessibility : d.accessibility = {}

theorem IsPlain.isWritable {d : ClassDiagram} (h : d.IsPlain) : d.IsWritable where
  toIsPrintable := h.toIsPrintable
  classDefs x hx := absurd hx (by simp [h.classDefs, Entries.empty])
  cssClasses x hx := absurd hx (by simp [h.cssClasses, Entries.empty])
  accessibility line hline := absurd hline (by simp [h.accessibility, Accessibility.written, present])

/-! ## The classes of a text -/

/-- the classes that are written on their own -/
def freeClasses (d : ClassDiagram) (o : RenderOptions) : List Class :=
  (orderedClasses d o).filter fun c => !(namespaceLines d o [] d.namespaces).2.contains c.id && needsDeclaration d c

/-- the ids of the classes that a text brings, in the order in which it does -/
def pageIds (d : ClassDiagram) (o : RenderOptions) : List Text :=
  groupedIds o d.namespaces ++ (freeClasses d o).map Class.id ++ endIds d.relationships

theorem perm_orderedClasses (d : ClassDiagram) (o : RenderOptions) : (orderedClasses d o).Perm d.classes.values :=
  perm_ite_mergeSort _ _ d.classes.values

namespace IsPrintable

variable {d : ClassDiagram} {o : RenderOptions} (h : d.IsPrintable)
include h

theorem mem_orderedClasses {c : Class} : c ∈ orderedClasses d o ↔ d.classes.get? c.id = some c := by
  rw [(perm_orderedClasses d o).mem_iff, Entries.mem_values_iff_of_byId h.byId]

theorem nodup_orderedClasses : ((orderedClasses d o).map Class.id).Nodup := by
  rw [((perm_orderedClasses d o).map Class.id).nodup_iff, Entries.map_values h.byId]
  exact d.classes.nodup_keys

theorem mem_declared (id : Text) : id ∈ (namespaceLines d o [] d.namespaces).2 ↔ id ∈ groupedIds o d.namespaces := by
  rw [mem_namespaceLines h.members]
  simp

theorem mem_freeClasses {c : Class} :
    c ∈ freeClasses d o ↔ d.classes.get? c.id = some c ∧ c.id ∉ groupedIds o d.namespaces ∧ needsDeclaration d c = true := by
  rw [freeClasses, List.mem_filter, h.mem_orderedClasses, Bool.and_eq_true, Bool.not_eq_true', List.contains_eq_mem,
    decide_eq_false_iff_not, h.mem_declared]

theorem nodup_freeClasses : ((freeClasses d o).map Class.id).Nodup :=
  h.nodup_orderedClasses.sublist (List.filter_sublist.map _)

theorem mem_keys_of_mem_endIds {id : Text} (hid : id ∈ endIds d.relationships) : id ∈ d.classes.keys := by
  obtain ⟨r, hr, hid⟩ := List.mem_flatMap.1 hid
  simp only [List.mem_cons, List.not_mem_nil, or_false] at hid
  rcases hid with rfl | rfl
  · exact (h.ends r hr).1
  · exact (h.ends r hr).2

/-- a class without a line of its own is named by a relationship, and there is nothing more to know of it -/
theorem of_not_needsDeclaration {c : Class} (hc : d.classes.get? c.id = some c) (hneeds : needsDeclaration d c = false) :
    c = { id := c.id, label := c.id } ∧ c.id ∈ endIds d.relationships := by
  have hplain := h.classes hc
  simp only [needsDeclaration, Class.hasBody, hplain.present_stereotype, hplain.present_generic, Bool.or_eq_false_iff,
    Option.isSome_eq_false_iff, Option.isNone_iff_eq_none, Bool.not_eq_false', List.isEmpty_iff, decide_eq_false_iff_not,
    not_not, List.any_eq_true, Bool.or_eq_true, beq_iff_eq] at hneeds
  obtain ⟨⟨⟨⟨⟨hstereotype, hattributes⟩, hmethods⟩, hgeneric⟩, hlabel⟩, r, hr, hends⟩ := hneeds
  refine ⟨?_, List.mem_flatMap.2 ⟨r, hr, ?_⟩⟩
  · obtain ⟨id, label, generic, stereotype, attributes, methods⟩ := c
    obtain rfl : stereotype = none := hstereotype
    obtain rfl : attributes = [] := hattributes
    obtain rfl : methods = [] := hmethods
    obtain rfl : generic = none := hgeneric
    obtain rfl : label = id := hlabel
    rfl
  · simp only [List.mem_cons, List.not_mem_nil, or_false]
    exact hends.imp Eq.symm Eq.symm

/-- a class that only relationships bring is no more than they say -/
theorem get?_of_mem_endIds {id : Text} (hid : id ∈ endIds d.relationships)
    (hnew : id ∉ groupedIds o d.namespaces ++ (freeClasses d o).map Class.id) :
    d.classes.get? id = some { id := id, label := id } := by
  obtain ⟨c, hc⟩ := Entries.exists_of_mem_keys (h.mem_keys_of_mem_endIds hid)
  obtain rfl := h.byId hc
  rw [List.mem_append, not_or] at hnew
  have hneeds : needsDeclaration d c = false := by
    by_contra hneeds
    rw [Bool.not_eq_false] at hneeds
    exact hnew.2 (List.mem_map_of_mem (h.mem_freeClasses.2 ⟨hc, hnew.1, hneeds⟩))
  rw [hc, ← (h.of_not_needsDeclaration hc hneeds).1]

/-- **no class is left out** -/
theorem mem_pageIds_of_mem_keys {id : Text} (hid : id ∈ d.classes.keys) : id ∈ pageIds d o := by
  obtain ⟨c, hc⟩ := Entries.exists_of_mem_keys hid
  obtain rfl := h.byId hc
  rw [pageIds, List.mem_append, List.mem_append]
  by_cases hgrouped : c.id ∈ groupedIds o d.namespaces
  · exact Or.inl (Or.inl hgrouped)
  · cases hneeds : needsDeclaration d c with
    | true => exact Or.inl (Or.inr (List.mem_map_of_mem (h.mem_freeClasses.2 ⟨hc, hgrouped, hneeds⟩)))
    | false => exact Or.inr (h.of_not_needsDeclaration hc hneeds).2

/-- the classes that a text brings are those of the diagram -/
theorem get?_brought_pageIds (id : Text) : (brought d (pageIds d o)).get? id = d.classes.get? id := by
  rw [get?_brought]
  split
  · rfl
  · rename_i hid
    exact (Entries.get?_eq_none_iff.2 fun hk => hid (h.mem_pageIds_of_mem_keys hk)).symm

end IsPrintable

/-! ## Reading a text -/

variable {d : ClassDiagram} {o : RenderOptions}

theorem reads_direction (ho : '\n' ∉ o.unit) (d : Direction) :
    Reads Progress.readLine ⟨{}, none, none⟩ (if d = .tb then [] else [o.unit ++ "direction " ++ d.toText])
      ⟨{ direction := d }, none, none⟩ := by
  have hunit : IsMargin o.unit := o.levels_one ▸ isMargin_levels ho 1
  split
  · rename_i e
    rw [e]
    exact .nil
  · have htext : (o.unit ++ "direction " ++ d.toText : Text) = o.unit ++ (Line.direction d.toText).toText := by
      rw [List.append_assoc]
      rfl
    have hplain : (Line.direction d.toText).IsPlain := by cases d <;> exact ⟨by decide, by decide⟩
    rw [htext]
    exact Reads.line_of_apply hunit (.direction d.toText) hplain rfl (fun l => by cases d <;> rfl) .nil

/-- the lines of a text, part by part -/
theorem render_eq (d : ClassDiagram) (o : RenderOptions) : render d o = ofLines (("classDiagram" : Text) ::
    ((if d.direction = .tb then [] else [o.unit ++ "direction " ++ d.direction.toText])
      ++ (d.accessibility.lines o.unit
      ++ ((namespaceLines d o [] d.namespaces).1 ++ ((freeClasses d o).flatMap (Class.lines o o.unit)
      ++ (d.relationships.map (fun r => o.unit ++ r.toText) ++ (d.notes.map (fun n => o.unit ++ n.toText)
      ++ (d.classDefs.toList.map (fun (name, style) => trimRight (o.unit ++ "classDef " ++ name ++ " " ++ style.toText))
      ++ d.cssClasses.toList.flatMap fun (id, names) =>
          names.map fun name => o.unit ++ "cssClass \"" ++ id ++ "\" " ++ name)))))))) := by
  unfold render
  dsimp only
  simp only [List.cons_append, List.append_assoc, freeClasses]

/-- a diagram of which only the direction and the texts are known -/
def opening (d : ClassDiagram) : ClassDiagram := { direction := d.direction, accessibility := d.accessibility.settled }

/-- **what a printed text is read as** -/
theorem read_render_of_isWritable (h : d.IsWritable) (ho : '\n' ∉ o.unit) :
    read (render d o) = .ok { d with
      classes := brought d (pageIds d o), namespaces := d.namespaces.map (Namespace.settled o)
      accessibility := d.accessibility.settled } := by
  have hprintable := h.toIsPrintable
  have htexts := reads_texts ho { direction := d.direction } h.accessibility
  have hgrouped := reads_namespaceLines hprintable ho d.namespaces [] [] (fun n hn => hn) (p := ⟨opening d, none, none⟩) rfl rfl rfl
    fun id => Iff.rfl
  rw [List.nil_append] at hgrouped
  have hfree := reads_classes (d := d) ho (freeClasses d o) (groupedIds o d.namespaces)
    (fun c hc => ⟨(hprintable.mem_freeClasses.1 hc).1, h.classes (hprintable.mem_freeClasses.1 hc).1⟩)
    hprintable.nodup_freeClasses (fun c hc => (hprintable.mem_freeClasses.1 hc).2.1)
    (p := ⟨{ opening d with
      classes := brought d (groupedIds o d.namespaces)
      namespaces := d.namespaces.map (Namespace.settled o) }, none, none⟩) rfl rfl rfl
  have hrelated := reads_relationships (d := d) ho d.relationships (groupedIds o d.namespaces ++ (freeClasses d o).map Class.id)
    h.relationships (fun id hid => ⟨hprintable.mem_keys_of_mem_endIds hid, hprintable.get?_of_mem_endIds hid⟩)
    (p := ⟨{ opening d with
      classes := brought d (groupedIds o d.namespaces ++ (freeClasses d o).map Class.id)
      namespaces := d.namespaces.map (Namespace.settled o) }, none, none⟩) rfl rfl
  have hnoted := reads_notes ho d.notes h.notes
    (p := ⟨{ opening d with
      classes := brought d (pageIds d o)
      relationships := d.relationships
      namespaces := d.namespaces.map (Namespace.settled o) }, none, none⟩) rfl
  have hdefined := reads_classDefs ho { opening d with
    classes := brought d (pageIds d o)
    relationships := d.relationships
    namespaces := d.namespaces.map (Namespace.settled o)
    notes := d.notes } h.classDefs
  have hassigned := reads_cssClasses ho { opening d with
    classes := brought d (pageIds d o)
    relationships := d.relationships
    namespaces := d.namespaces.map (Namespace.settled o)
    notes := d.notes
    classDefs := d.classDefs } h.cssClasses
  have hreads := (reads_direction ho d.direction).append (htexts.append (hgrouped.append (hfree.append (hrelated.append
    (hnoted.append (hdefined.append hassigned))))))
  obtain ⟨head, body, hsplit, hrun⟩ := hreads.run_ofLines (by decide : '\n' ∉ ("classDiagram" : Text))
    (by decide +kernel) (by decide +kernel : Dialect.classDiagram.header? "classDiagram" = some [])
  rw [read, render_eq, hsplit]
  dsimp only
  rw [hrun]
  rfl

theorem read_render_eq (h : d.IsPlain) (ho : '\n' ∉ o.unit) :
    read (render d o) = .ok { d with
      classes := brought d (pageIds d o), namespaces := d.namespaces.map (Namespace.settled o) } := by
  rw [read_render_of_isWritable h.isWritable ho, h.accessibility]
  rfl

/-- **decoding undoes encoding** of class diagrams, but for the order of the classes -/
theorem exists_perm_read_render (h : d.IsPlain) (ho : '\n' ∉ o.unit) (hsort : o.sortEntities = false) :
    ∃ classes : Entries Class, classes.toList.Perm d.classes.toList ∧ read (render d o) = .ok { d with classes := classes } := by
  have hnamespaces : d.namespaces.map (Namespace.settled o) = d.namespaces := by
    have hsettled : ∀ n : Namespace, n.settled o = n := fun n => by
      rw [Namespace.settled, Namespace.ordered, hsort]
      rfl
    rw [List.map_congr_left fun n _ => hsettled n, List.map_id']
  refine ⟨brought d (pageIds d o), Entries.perm_of_get? h.get?_brought_pageIds, ?_⟩
  rw [read_render_eq h ho, hnamespaces]

/-- a class with a body, a class of two namespaces, and a class that only a relationship names -/
def pond : ClassDiagram where
  direction := .lr
  classes := ⟨[("Pond", { id := "Pond", label := "Pond" }),
    ("Animal", {
      id := "Animal"
      label := "any \"animal\""
      generic := some "T"
      stereotype := some "interface"
      attributes := [⟨.public, "name", some "String", none, true, false⟩]
      methods := [⟨.private, "eat", some "bool", some "food", false, true⟩] }),
    ("Duck", { id := "Duck", label := "Duck" })], by decide⟩
  relationships := [⟨"Animal", "Duck", .extension, .none, false, none, none, none⟩,
    ⟨"Pond", "Duck", .aggregation, .dependency, true, some "is home of", some "1", some "0..*"⟩]
  namespaces := [⟨"birds.water", ["Duck", "Animal"]⟩, ⟨"birds", ["Duck"]⟩]
  notes := [⟨"swims", some "Duck"⟩, ⟨"in spring", none⟩]

theorem isPlain_of_mem_pond : ∀ x ∈ pond.classes.toList, x.2.id = x.1 ∧ x.2.IsPlain := by
  have hattribute : Member.IsPlain ⟨.public, "name", some "String", none, true, false⟩ :=
    ⟨⟨"+String name$", by decide, by decide, by decide +kernel⟩, by decide,
      fun text e => absurd (e.symm.trans (rfl : _ = none)) (by simp), by decide⟩
  have hmethod : Member.IsPlain ⟨.private, "eat", some "bool", some "food", false, true⟩ :=
    ⟨⟨"-eat(food)* bool", by decide, by decide, by decide +kernel⟩, by decide,
      fun text e => absurd (e.symm.trans (rfl : _ = none)) (by simp), by decide⟩
  intro x hx
  simp only [pond, List.mem_cons, List.not_mem_nil, or_false] at hx
  rcases hx with rfl | rfl | rfl
  · exact ⟨rfl, ⟨by decide, by decide +kernel⟩, ⟨by decide, by decide⟩, by simp, by simp, by simp, by simp⟩
  · refine ⟨rfl, ⟨by decide, by decide +kernel⟩, ⟨by decide, by decide⟩, ?_, ?_, ?_, ?_⟩
    · rintro g ⟨⟩
      decide
    · rintro t ⟨⟩
      exact ⟨by decide, by decide +kernel, by decide, by decide⟩
    · intro m hm
      rw [List.mem_singleton.1 hm]
      exact ⟨hattribute, rfl⟩
    · intro m hm
      rw [List.mem_singleton.1 hm]
      exact ⟨hmethod, rfl⟩
  · exact ⟨rfl, ⟨by decide, by decide +kernel⟩, ⟨by decide, by decide⟩, by simp, by simp, by simp, by simp⟩

theorem isPlain_pond : pond.IsPlain := by
  have hget : ∀ {id c}, pond.classes.get? id = some c → (id, c) ∈ pond.classes.toList := Entries.mem_toList_iff.2
  have hids : ∀ id ∈ (["Pond", "Animal", "Duck"] : List Text), id ≠ [] ∧ id.all isWordOrHyphen = true := by decide +kernel
  have hid : ∀ id ∈ (["Pond", "Animal", "Duck"] : List Text), IsId id := fun id h => ⟨(hids id h).1, (hids id h).2⟩
  refine {
    byId := fun hc => (isPlain_of_mem_pond _ (hget hc)).1, classes := fun hc => (isPlain_of_mem_pond _ (hget hc)).2, relationships := ?_,
    ends := by decide, namespaces := ?_, members := by decide, notes := ?_, classDefs := rfl, cssClasses := rfl,
    accessibility := rfl }
  · intro r hr
    simp only [pond, List.mem_cons, List.not_mem_nil, or_false] at hr
    rcases hr with rfl | rfl
    · exact ⟨⟨hid _ (by decide), hid _ (by decide), by simp, by simp, by simp⟩, by decide⟩
    · refine ⟨⟨hid _ (by decide), hid _ (by decide), ?_, ?_, ?_⟩, by decide⟩
      · rintro t ⟨⟩
        exact ⟨by decide, by decide⟩
      · rintro t ⟨⟩
        exact ⟨by decide, by decide⟩
      · rintro t ⟨⟩
        exact ⟨by decide, by decide, by decide +kernel, by decide⟩
  · have hnames : ∀ n ∈ pond.namespaces, n.name ≠ [] ∧ n.name.all isNamespaceChar = true := by decide +kernel
    have hnodup : ∀ n ∈ pond.namespaces, n.classIds.Nodup := by decide
    exact fun n hn => ⟨hnames n hn, hnodup n hn⟩
  · intro n hn
    simp only [pond, List.mem_cons, List.not_mem_nil, or_false] at hn
    rcases hn with rfl | rfl
    · refine ⟨?_, by decide, by decide⟩
      rintro id ⟨⟩
      exact hid _ (by decide)
    · exact ⟨by simp, by decide, by decide⟩

theorem exists_perm_read_render_pond : pond.IsPlain ∧ '\n' ∉ RenderOptions.default.unit ∧
    RenderOptions.default.sortEntities = false ∧
    ∃ classes : Entries Class, classes.toList.Perm pond.classes.toList ∧
      read (render pond .default) = .ok { pond with classes := classes } :=
  ⟨isPlain_pond, by decide, rfl, exists_perm_read_render isPlain_pond (by decide) rfl⟩

end DiagramText.ClassDiagram

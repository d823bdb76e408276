/-
One round of reading and writing settles an entity-relationship diagram. The page of a diagram that can be written is read
as that diagram (`IsPrintable.read_render_eq`), and what is read declares the same entities in the same order, although they
stand in another one (`IsPrintable.declared_pick`). All of it is up to names: an entity of which only the name is written is
lost when the name can be cut into a relationship, and then its page is refused (`exists_read_render_iff`).
-/
import DiagramText.Proofs.EntityDiagram.Accepted
import DiagramText.Proofs.EntityDiagram.Replay

namespace DiagramText.EntityDiagram

open DiagramText.Text

variable {d : EntityDiagram} {o : RenderOptions} {raws : List Text}

/-! ## Whole texts -/

/-- the entities that are declared, in the order of writing -/
def declared (d : EntityDiagram) (o : RenderOptions) : List Entity := (orderedEntities d o).filter (needsDeclaration d)

/-- the ids of the entities that a text brings, in the order in which it does -/
def pageIds (d : EntityDiagram) (o : RenderOptions) : List Text := (declared d o).map Entity.id ++ endIds d.relationships

/-- a diagram with direction and texts only -/
def opening (d : EntityDiagram) : EntityDiagram := { direction := d.direction, accessibility := d.accessibility.settled }

/-- no name that is all that is written of an entity can be cut into a relationship -/
def IsUnambiguous (d : EntityDiagram) : Prop :=
  ∀ e ∈ d.entities.values, needsDeclaration d e = true → e.IsBare → ¬ IsAmbiguous e.id

theorem render_eq (d : EntityDiagram) (o : RenderOptions) :
    render d o = ofLines (("erDiagram" : Text) ::
      ((if d.direction = .tb then [] else [o.unit ++ "direction " ++ d.direction.toText]) ++ d.accessibility.lines o.unit
        ++ ((declared d o).flatMap (Entity.lines o) ++ d.relationships.map fun r => o.unit ++ r.toText))) := by
  unfold render
  dsimp only
  rw [declared, List.cons_append, List.cons_append, List.cons_append, List.append_assoc _ _ (d.relationships.map _)]

theorem perm_orderedEntities (d : EntityDiagram) (o : RenderOptions) : (orderedEntities d o).Perm d.entities.values :=
  perm_ite_mergeSort _ _ d.entities.values

theorem mem_endIds {rs : List Relationship} {id : Text} : id ∈ endIds rs ↔ ∃ r ∈ rs, r.source = id ∨ r.target = id := by
  simp only [endIds, List.mem_flatMap, List.mem_cons, List.not_mem_nil, or_false, eq_comm]

/-- an entity without a declaration is named by a relationship, and there is nothing more to know of it -/
theorem of_not_needsDeclaration {e : Entity} (h : needsDeclaration d e = false) :
    e = { id := e.id, label := e.id } ∧ e.id ∈ endIds d.relationships := by
  simp only [needsDeclaration, Bool.or_eq_false_iff, decide_eq_false_iff_not, not_not, Bool.not_eq_false', List.any_eq_true,
    Bool.or_eq_true, beq_iff_eq] at h
  obtain ⟨⟨hcolumns, hlabel⟩, hends⟩ := h
  refine ⟨?_, mem_endIds.2 hends⟩
  obtain ⟨id, label, columns⟩ := e
  obtain rfl : columns = [] := hcolumns
  obtain rfl : label = id := hlabel
  rfl

namespace IsPrintable

variable (h : d.IsPrintable)
include h

theorem mem_values_iff {e : Entity} : e ∈ d.entities.values ↔ d.entities.get? e.id = some e :=
  Entries.mem_values_iff_of_byId h.byId

theorem mem_declared {e : Entity} : e ∈ declared d o ↔ d.entities.get? e.id = some e ∧ needsDeclaration d e = true := by
  rw [declared, List.mem_filter, (perm_orderedEntities d o).mem_iff, h.mem_values_iff]

theorem nodup_declared : ((declared d o).map Entity.id).Nodup := by
  refine List.Nodup.sublist (List.filter_sublist.map _) ?_
  rw [((perm_orderedEntities d o).map Entity.id).nodup_iff, Entries.map_values h.byId]
  exact d.entities.nodup_keys

/-- an entity that only relationships bring is no more than they say -/
theorem get?_of_mem_endIds {id : Text} (hid : id ∈ endIds d.relationships) :
    id ∈ d.entities.keys ∧ (id ∉ (declared d o).map Entity.id → d.entities.get? id = some { id := id, label := id }) := by
  have hkey : id ∈ d.entities.keys := by
    obtain ⟨r, hr, rfl | rfl⟩ := mem_endIds.1 hid
    · exact (h.ends r hr).1
    · exact (h.ends r hr).2
  refine ⟨hkey, fun hnew => ?_⟩
  obtain ⟨e, he⟩ := Entries.exists_of_mem_keys hkey
  obtain rfl := h.byId he
  cases hneeds : needsDeclaration d e with
  | true => exact absurd (List.mem_map_of_mem (h.mem_declared.2 ⟨he, hneeds⟩)) hnew
  | false => rw [he, ← (of_not_needsDeclaration hneeds).1]

/-- **no entity is left out** -/
theorem get?_pick_pageIds (id : Text) : (d.entities.pick (pageIds d o)).get? id = d.entities.get? id := by
  rw [Entries.get?_pick]
  split
  · rfl
  · rename_i hid
    cases he : d.entities.get? id with
    | none => rfl
    | some e =>
      obtain rfl := h.byId he
      refine absurd ?_ hid
      rw [pageIds, List.mem_append]
      cases hneeds : needsDeclaration d e with
      | true => exact Or.inl (List.mem_map_of_mem (h.mem_declared.2 ⟨he, hneeds⟩))
      | false => exact Or.inr (of_not_needsDeclaration hneeds).2

/-- direction and texts come first -/
theorem reads_opening (ho : '\n' ∉ o.unit) : Reads Progress.readLine ⟨{}, none⟩
    ((if d.direction = .tb then [] else [o.unit ++ "direction " ++ d.direction.toText]) ++ d.accessibility.lines o.unit)
    ⟨opening d, none⟩ := by
  refine (reads_direction ho d.direction).append ?_
  rw [opening, Accessibility.lines_eq, ← Accessibility.foldl_put_written]
  exact reads_accessibility ho h.accessibility

/-- declared entities are read, as far as their names cannot be cut -/
theorem reads_declared {es : List Entity} (hes : es.Sublist (declared d o)) (hnames : ∀ e ∈ es, e.IsBare → ¬ IsAmbiguous e.id)
    (ho : '\n' ∉ o.unit) :
    Reads Progress.readLine ⟨opening d, none⟩ (es.flatMap (Entity.lines o))
      ⟨{ opening d with entities := d.entities.pick (es.map Entity.id) }, none⟩ := by
  refine reads_entities ho (fun e he => ?_) (h.nodup_declared.sublist (hes.map _)) (fun e _ => List.not_mem_nil) rfl
  have hget := (h.mem_declared.1 (hes.subset he)).1
  exact ⟨hget, h.entities hget, hnames e he⟩

/-- **what a printed text is read as** -/
theorem read_render_eq (hnames : d.IsUnambiguous) (ho : '\n' ∉ o.unit) :
    read (render d o) = .ok { d with
      entities := d.entities.pick (pageIds d o), accessibility := d.accessibility.settled } := by
  have hdeclared := h.reads_declared (o := o) (List.Sublist.refl _) (fun e he => by
    obtain ⟨hget, hneeds⟩ := h.mem_declared.1 he
    exact hnames e (h.mem_values_iff.2 hget) hneeds) ho
  have hrelated := reads_relationships (d := { opening d with entities := d.entities.pick ((declared d o).map Entity.id) })
    ho h.relationships (fun id hid => h.get?_of_mem_endIds hid) rfl
  have hreads := (h.reads_opening ho).append (hdeclared.append hrelated)
  obtain ⟨head, body, hsplit, hrun⟩ := hreads.run_ofLines (by decide : '\n' ∉ ("erDiagram" : Text))
    (by decide +kernel) (by decide +kernel : Dialect.er.header? "erDiagram" = some [])
  rw [read, render_eq, hsplit]
  dsimp only
  rw [hrun]
  rfl

/-! ## The second page -/

/-- what only relationships bring stands at the end, and is not declared -/
theorem exists_values_pick :
    ∃ es, (d.entities.pick (pageIds d o)).values = declared d o ++ es ∧ ∀ e ∈ es, ¬ needsDeclaration d e = true := by
  have hkeys : ((declared d o).map fun e => (e.id, e)).map Prod.fst = (declared d o).map Entity.id := by
    rw [List.map_map]
    rfl
  have hpick : (d.entities.pick ((declared d o).map Entity.id)).toList = (declared d o).map fun e => (e.id, e) := by
    rw [← hkeys]
    refine Entries.toList_pick (hkeys ▸ h.nodup_declared) fun x hx => ?_
    obtain ⟨e, he, rfl⟩ := List.mem_map.1 hx
    exact (h.mem_declared.1 he).1
  obtain ⟨pairs, hpairs, hnew⟩ := d.entities.exists_toList_pick_append ((declared d o).map Entity.id) (endIds d.relationships)
  refine ⟨pairs.map Prod.snd, ?_, fun e he hneeds => ?_⟩
  · rw [Entries.values, pageIds, hpairs, hpick, List.map_append, List.map_map]
    exact congrArg (· ++ _) (List.map_id' _)
  · obtain ⟨x, hx, rfl⟩ := List.mem_map.1 he
    obtain ⟨hfree, hget⟩ := hnew x hx
    rw [← h.byId hget] at hfree hget
    exact hfree (List.mem_map_of_mem (h.mem_declared.2 ⟨hget, hneeds⟩))

/-- the diagram that is read back declares the same entities in the same order -/
theorem declared_pick : declared { d with
    entities := d.entities.pick (pageIds d o), accessibility := d.accessibility.settled } o = declared d o := by
  have hperm : (d.entities.pick (pageIds d o)).values.Perm d.entities.values :=
    (Entries.perm_of_get? h.get?_pick_pageIds).map Prod.snd
  cases hsort : o.sortEntities with
  | true =>
    have hids : ∀ a ∈ (d.entities.pick (pageIds d o)).values, ∀ b ∈ (d.entities.pick (pageIds d o)).values, a.id = b.id → a = b := by
      intro a ha b hb hab
      have hb := h.mem_values_iff.1 (hperm.mem_iff.1 hb)
      rw [← hab, h.mem_values_iff.1 (hperm.mem_iff.1 ha)] at hb
      exact Option.some.inj hb
    simp only [declared, orderedEntities, hsort, if_true]
    rw [mergeSort_of_perm hperm hids]
    rfl
  | false =>
    obtain ⟨es, hvalues, hes⟩ := h.exists_values_pick (o := o)
    have hdeclared : (declared d o).filter (needsDeclaration d) = declared d o :=
      List.filter_eq_self.2 fun e he => (h.mem_declared.1 he).2
    calc declared { d with entities := d.entities.pick (pageIds d o), accessibility := d.accessibility.settled } o
      _ = (d.entities.pick (pageIds d o)).values.filter (needsDeclaration d) := by
        rw [declared, orderedEntities, hsort]
        rfl
      _ = declared d o := by
        rw [hvalues, List.filter_append, hdeclared, List.filter_eq_nil_iff.2 hes, List.append_nil]

theorem render_pick : render { d with
    entities := d.entities.pick (pageIds d o), accessibility := d.accessibility.settled } o = render d o := by
  rw [render_eq, render_eq, h.declared_pick]
  dsimp only
  rw [Accessibility.lines_settled]

end IsPrintable

/-- **one round settles an entity-relationship diagram** in which no bare name can be cut: the page of a diagram that was
read is read as the same diagram, but for the order of the entities and texts that are empty, and is the page of that
diagram -/
theorem read_render_of_isUnambiguous {text : Text} (hs : ';' ∉ text) (h : read text = .ok d) (hnames : d.IsUnambiguous)
    (ho : '\n' ∉ o.unit) :
    ∃ entities : Entries Entity, entities.toList.Perm d.entities.toList ∧
      read (render d o) = .ok { d with entities := entities, accessibility := d.accessibility.settled } ∧
      render { d with entities := entities, accessibility := d.accessibility.settled } o = render d o := by
  have hprintable := isPrintable_of_read hs h
  exact ⟨d.entities.pick (pageIds d o), Entries.perm_of_get? hprintable.get?_pick_pageIds,
    hprintable.read_render_eq hnames ho, hprintable.render_pick⟩

/-! ## Names that are refused -/

theorem lineFeed_not_mem_lines (ho : '\n' ∉ o.unit) {e : Entity} (he : e.IsPlain) : ∀ raw ∈ e.lines o, '\n' ∉ raw := by
  have hlevels := (isMargin_levels ho 2).lineFeed
  have hdeclaration : '\n' ∉ e.declaration := (isContent_declare he.id he.alias _).lineFeed
  rw [e.lines_eq, List.forall_mem_cons]
  refine ⟨by simp [ho, hdeclaration], ?_⟩
  split
  · simp
  · refine List.forall_mem_append.2 ⟨fun raw hraw => ?_, List.forall_mem_singleton.2 (by simp [ho])⟩
    obtain ⟨c, hc, rfl⟩ := List.mem_map.1 hraw
    simp [hlevels, Column.lineFeed_not_mem_toText (he.columns c hc)]

/-- a bare name that can be cut is refused where its line is read -/
theorem refuses_entity {e : Entity} (he : e.IsPlain) (hbare : e.IsBare) (hcut : IsAmbiguous e.id) :
    Refuses Progress.readLine ⟨d, none⟩ (e.lines o ++ raws) := by
  have hdeclaration : e.declaration = e.id := by
    have halias : e.alias = none := Entity.alias_eq_none_iff.2 hbare.2
    rw [Entity.declaration, halias, hbare.1]
    exact List.append_nil e.id
  obtain ⟨r, hread, hr⟩ := read?_ambiguous he.id hcut
  have hblank : o.unit.all isBlank = true := o.levels_one ▸ o.all_isBlank_levels 1
  rw [e.lines_eq, hdeclaration, List.cons_append]
  refine .cons (SourceLine.content?_margin true hblank ?_) fun l hl q hq => ?_
  · exact hdeclaration ▸ isContent_declare he.id he.alias _
  · rw [Progress.readLine, hl, hread] at hq
    obtain ⟨relationship, hrelationship, -⟩ := exceptMap_eq_ok_iff.1 hq
    exact read_of_relation? he.id hr l relationship hrelationship

namespace IsPrintable

variable (h : d.IsPrintable)
include h

/-- the first bare name that can be cut stops the reader -/
theorem refuses_declared (hnames : ¬ d.IsUnambiguous) (ho : '\n' ∉ o.unit) :
    Refuses Progress.readLine ⟨opening d, none⟩ ((declared d o).flatMap (Entity.lines o) ++ raws) := by
  classical
  obtain ⟨e, hfind⟩ : ∃ e, (declared d o).find? (fun e => e.IsBare ∧ IsAmbiguous e.id) = some e := by
    simp only [IsUnambiguous, not_forall, not_not] at hnames
    obtain ⟨e, he, hneeds, hbare, hcut⟩ := hnames
    rw [← Option.isSome_iff_exists, List.find?_isSome]
    exact ⟨e, h.mem_declared.2 ⟨h.mem_values_iff.1 he, hneeds⟩, decide_eq_true ⟨hbare, hcut⟩⟩
  obtain ⟨hbad, es, es', hsplit, hgood⟩ := List.find?_eq_some_iff_append.1 hfind
  obtain ⟨hbare, hcut⟩ := of_decide_eq_true hbad
  have hread := h.reads_declared (hsplit ▸ List.sublist_append_left es (e :: es'))
    (fun x hx hbare hcut => by simpa [hbare, hcut] using hgood x hx) ho
  have hplain : e.IsPlain := h.entities (h.mem_declared.1 (hsplit ▸ List.mem_append_right es List.mem_cons_self)).1
  rw [hsplit, List.flatMap_append, List.flatMap_cons, List.append_assoc, List.append_assoc]
  exact .append hread (refuses_entity hplain hbare hcut)

theorem lineFeed_not_mem_page (ho : '\n' ∉ o.unit) :
    ∀ raw ∈ (declared d o).flatMap (Entity.lines o) ++ d.relationships.map (fun r => o.unit ++ r.toText), '\n' ∉ raw := by
  refine List.forall_mem_append.2 ⟨fun raw hraw => ?_, fun raw hraw => ?_⟩
  · obtain ⟨e, he, hraw⟩ := List.mem_flatMap.1 hraw
    exact lineFeed_not_mem_lines ho (h.entities (h.mem_declared.1 he).1) raw hraw
  · obtain ⟨r, hr, rfl⟩ := List.mem_map.1 hraw
    simp [ho, (h.relationships r hr).isContent.lineFeed]

/-- **a bare name that can be cut makes its page refused** -/
theorem read_render_ne_ok (hnames : ¬ d.IsUnambiguous) (ho : '\n' ∉ o.unit) (d' : EntityDiagram) :
    read (render d o) ≠ .ok d' := by
  have hopening := h.reads_opening ho
  have hrefuses := Refuses.run_ofLines (by decide : '\n' ∉ ("erDiagram" : Text)) (by decide +kernel)
    (by decide +kernel : Dialect.er.header? "erDiagram" = some [])
    (List.forall_mem_append.2 ⟨hopening.lineFeed, h.lineFeed_not_mem_page ho⟩)
    (Refuses.append hopening (h.refuses_declared hnames ho))
  intro hread
  rw [read, render_eq] at hread
  obtain ⟨p, hp, -⟩ := exceptBind_eq_ok_iff.1 hread
  exact hrefuses p hp

end IsPrintable

/-- **the page of an accepted text is accepted** just when no bare name on it can be cut -/
theorem exists_read_render_iff {text : Text} (hs : ';' ∉ text) (h : read text = .ok d) (ho : '\n' ∉ o.unit) :
    (∃ d', read (render d o) = .ok d') ↔ d.IsUnambiguous := by
  have hprintable := isPrintable_of_read hs h
  constructor
  · rintro ⟨d', hd'⟩
    by_contra hnames
    exact hprintable.read_render_ne_ok hnames ho d' hd'
  · intro hnames
    exact ⟨_, hprintable.read_render_eq hnames ho⟩

/-- a name that is accepted where a block follows it, and refused where it stands alone -/
example : (read "erDiagram\nzoo--oology \x7b\x7d").toOption.map (render · .default) = some "erDiagram\n    zoo--oology" ∧
    (read "erDiagram\n    zoo--oology").toOption = none := ⟨rfl, rfl⟩

end DiagramText.EntityDiagram

/-
The printed text of an entity-relationship diagram read line by line. An entity is read with its columns where it is
declared (`reads_entity`), and a relationship brings the entities that have not been declared (`reads_relationships`); the
entities that have come are those of the diagram under the ids that have come (`Entries.pick`).
-/
import DiagramText.Proofs.Entries
import DiagramText.Proofs.EntityDiagram.Line
import DiagramText.Proofs.Reading

namespace DiagramText.EntityDiagram

open DiagramText.Text
open Sequence (IsLineText)

variable {d : EntityDiagram} {o : RenderOptions} {p q : Progress} {margin : Text} {raws : List Text}

/-! ## Reading lines -/

/-- a line outside blocks, after which the reader goes on -/
theorem reads_line {t : Text} {line : Line} (hm : IsMargin margin) (ht : SourceLine.IsContent t)
    (hread : Line.read? t = some line) (hblock : p.block = none)
    (h : ∀ l : SourceLine, l.text = t → ∃ p', p.apply l line = .ok p' ∧ Reads Progress.readLine p' raws q) :
    Reads Progress.readLine p ((margin ++ t) :: raws) q := by
  refine .line hm ht fun l hl => ?_
  obtain ⟨p', happly, hrest⟩ := h l hl
  refine ⟨p', ?_, hrest⟩
  rw [Progress.readLine, hblock, hl, hread]
  exact happly

theorem reads_direction (ho : '\n' ∉ o.unit) (direction : Direction) :
    Reads Progress.readLine ⟨{}, none⟩ (if direction = .tb then [] else [o.unit ++ "direction " ++ direction.toText])
      ⟨{ direction := direction }, none⟩ := by
  have hunit : IsMargin o.unit := o.levels_one ▸ isMargin_levels ho 1
  split
  · rename_i e
    rw [e]
    exact .nil
  · rw [List.append_assoc]
    have hread : Line.read? ("direction " ++ direction.toText) = some (.direction direction.toText) := by
      cases direction <;> decide +kernel
    have hcontent : SourceLine.IsContent ("direction " ++ direction.toText : Text) := by
      refine .keyword (by decide) (by decide) ?_ ?_ <;> cases direction <;> decide
    exact reads_line hunit hcontent hread rfl fun l _ => ⟨_, by cases direction <;> rfl, .nil⟩

/-- the texts that are written are read one by one -/
theorem reads_accessibility (ho : '\n' ∉ o.unit) {lines : List AccessibilityLine}
    (h : ∀ line ∈ lines, line.value ≠ [] ∧ IsLineText line.value) :
    Reads Progress.readLine ⟨d, none⟩ (lines.map (o.unit ++ accessibilityText ·))
      ⟨{ d with accessibility := lines.foldl Accessibility.put d.accessibility }, none⟩ := by
  have hunit : IsMargin o.unit := o.levels_one ▸ isMargin_levels ho 1
  induction lines generalizing d with
  | nil => exact .nil
  | cons line lines ih =>
    obtain ⟨hne, hline⟩ := h line List.mem_cons_self
    have hplain : line.IsPlain := AccessibilityLine.isPlain_of_isLineText hne hline
    have hread : Line.read? (accessibilityText line) = some (.accessibility line) := by
      rw [Line.read?, line?_accessibilityText hplain]
      rfl
    rw [List.map_cons]
    refine reads_line hunit (isContent_accessibilityText hplain hline.semicolon) hread rfl fun l _ => ⟨_, rfl, ?_⟩
    exact ih (d := { d with accessibility := d.accessibility.put line }) fun x hx => h x (List.mem_cons_of_mem line hx)

/-! ## Entities -/

/-- a name is all that is written of the entity -/
def Entity.IsBare (e : Entity) : Prop := e.columns = [] ∧ e.label = e.id

instance (e : Entity) : Decidable e.IsBare := inferInstanceAs (Decidable (_ ∧ _))

/-- the declaration of an entity as it is written -/
def Entity.declaration (e : Entity) : Text := e.id ++ (bracketText e.alias ++ braceText !(e.columns.isEmpty))

theorem Entity.lines_eq (e : Entity) : e.lines o = (o.unit ++ e.declaration) ::
    if e.columns = [] then [] else e.columns.map (fun c => o.levels 2 ++ c.toText) ++ [o.unit ++ "\x7d"] := by
  have hbrace : (" \x7b" : Text) = braceText true := rfl
  have hnone : braceText false = [] := rfl
  rw [Entity.lines, Entity.declaration, Entity.head_eq, hbrace]
  cases e.columns <;> simp [hnone]

theorem Entity.alias_getD (e : Entity) : e.alias.getD e.id = e.label := by
  rw [Entity.alias]
  split
  · rename_i h
    exact h.symm
  · rfl

theorem Entity.alias_eq_none_iff {e : Entity} : e.alias = none ↔ e.label = e.id := by
  rw [Entity.alias]
  split <;> simp_all

theorem Entity.IsPlain.alias {e : Entity} (h : e.IsPlain) : ∀ t, e.alias = some t → IsQuotable t := by
  intro t ht
  rw [Entity.alias, Option.ite_none_left_eq_some] at ht
  exact Option.some.inj ht.2 ▸ h.label

/-- the columns of a block are added to its entity one by one -/
theorem reads_columns (ho : '\n' ∉ o.unit) {cs : List Column} (hcs : ∀ c ∈ cs, c.IsPlain) {e : Entity} {l : SourceLine}
    (h : Reads Progress.readLine ⟨{ d with entities := d.entities.insert e.id { e with columns := e.columns ++ cs } }, some (e.id, l)⟩ raws q) :
    Reads Progress.readLine ⟨{ d with entities := d.entities.insert e.id e }, some (e.id, l)⟩
      (cs.map (fun c => o.levels 2 ++ c.toText) ++ raws) q := by
  induction cs generalizing e with
  | nil => simpa using h
  | cons c cs ih =>
    have hplain := hcs c List.mem_cons_self
    rw [List.map_cons, List.cons_append]
    refine .line (isMargin_levels ho 2) (Column.isContent_toText hplain) fun l' hl' =>
      ⟨⟨{ d with entities := d.entities.insert e.id { e with columns := e.columns ++ [c] } }, some (e.id, l)⟩, ?_, ?_⟩
    · have halter : (d.entities.insert e.id e).alter e.id { id := e.id, label := e.id } (fun e => { e with columns := e.columns ++ [c] })
          = d.entities.insert e.id { e with columns := e.columns ++ [c] } := by
        rw [Entries.alter, Entries.get?_insert, if_pos rfl, Option.getD_some, Entries.insert_insert]
      have hread := Column.read_toText hplain
      unfold Progress.readLine
      dsimp only
      rw [hl', if_neg c.toText_ne_close, Progress.addColumn, hl', hread]
      dsimp only
      rw [alterEntity, halter]
    · refine ih (e := { e with columns := e.columns ++ [c] }) (fun x hx => hcs x (List.mem_cons_of_mem c hx)) ?_
      simpa using h

/-- **an entity is read back** from its lines, if it has not been known before -/
theorem reads_entity (ho : '\n' ∉ o.unit) {e : Entity} (he : e.IsPlain) (hname : e.IsBare → ¬ IsAmbiguous e.id)
    (hnew : d.entities.get? e.id = none) :
    Reads Progress.readLine ⟨d, none⟩ (e.lines o) ⟨{ d with entities := d.entities.insert e.id e }, none⟩ := by
  have hunit : IsMargin o.unit := o.levels_one ▸ isMargin_levels ho 1
  have hread : Line.read? e.declaration = some (.declare e.id e.alias !(e.columns.isEmpty)) :=
    read?_declare he.id he.alias fun halias hcolumns =>
      hname ⟨by simpa using hcolumns, Entity.alias_eq_none_iff.1 halias⟩
  have hcontent : SourceLine.IsContent e.declaration := isContent_declare he.id he.alias _
  have hdeclared : alterEntity e.id (fun x => { x with label := e.alias.getD x.label }) d
      = { d with entities := d.entities.insert e.id { id := e.id, label := e.label } } := by
    rw [alterEntity, Entries.alter, hnew, Option.getD_none, e.alias_getD]
  rw [e.lines_eq]
  refine reads_line hunit hcontent hread rfl fun l _ => ⟨_, rfl, ?_⟩
  rw [hdeclared]
  by_cases hcolumns : e.columns = []
  · have hsame : ({ id := e.id, label := e.label } : Entity) = e := by
      obtain ⟨id, label, columns⟩ := e
      obtain rfl : columns = [] := hcolumns
      rfl
    rw [if_pos hcolumns, hsame, hcolumns]
    exact .nil
  · have hopens : (!(e.columns.isEmpty)) = true := by simpa using hcolumns
    rw [if_neg hcolumns, hopens, if_pos rfl]
    refine reads_columns (e := { id := e.id, label := e.label }) ho he.columns ?_
    refine .line hunit (.of_ends (by decide) (by decide) (by decide)) fun l' hl' => ⟨_, ?_, .nil⟩
    rw [Progress.readLine, hl']
    rfl

/-- entities that have not come before are read one by one -/
theorem reads_entities (ho : '\n' ∉ o.unit) {all : Entries Entity} {es : List Entity} {seen : List Text}
    (hes : ∀ e ∈ es, all.get? e.id = some e ∧ e.IsPlain ∧ (e.IsBare → ¬ IsAmbiguous e.id)) (hnodup : (es.map Entity.id).Nodup)
    (hfree : ∀ e ∈ es, e.id ∉ seen) (hd : d.entities = all.pick seen) :
    Reads Progress.readLine ⟨d, none⟩ (es.flatMap (Entity.lines o))
      ⟨{ d with entities := all.pick (seen ++ es.map Entity.id) }, none⟩ := by
  induction es generalizing d seen with
  | nil =>
    rw [List.map_nil, List.append_nil, ← hd]
    exact .nil
  | cons e es ih =>
    obtain ⟨hget, hplain, hname⟩ := hes e List.mem_cons_self
    have hseen := hfree e List.mem_cons_self
    rw [List.map_cons, List.nodup_cons] at hnodup
    have hread := reads_entity (d := d) ho hplain hname (by rw [hd, Entries.get?_pick_of_not_mem hseen])
    have hnext : d.entities.insert e.id e = all.pick (seen ++ [e.id]) := by
      rw [Entries.pick_of_not_mem hseen hget, ← hd]
    rw [List.flatMap_cons, List.map_cons, List.append_cons seen]
    refine hread.append (ih (d := { d with entities := d.entities.insert e.id e })
      (fun x hx => hes x (List.mem_cons_of_mem e hx)) hnodup.2 (fun x hx => ?_) hnext)
    rw [List.mem_append, List.mem_singleton, not_or]
    exact ⟨hfree x (List.mem_cons_of_mem e hx), fun hid => hnodup.1 (hid ▸ List.mem_map_of_mem hx)⟩

/-! ## Relationships -/

/-- the entities that relationships name -/
def endIds (rs : List Relationship) : List Text := rs.flatMap fun r => [r.source, r.target]

theorem alterEntity_id (name : Text) (d : EntityDiagram) :
    alterEntity name id d = { d with entities := d.entities.insertNew name { id := name, label := name } } := by
  have halter : d.entities.alter name { id := name, label := name } id = d.entities.insertNew name { id := name, label := name } := by
    rw [Entries.alter, id]
    cases hget : d.entities.get? name with
    | none => rw [Option.getD_none, Entries.insertNew_of_get?_eq_none hget]
    | some e => rw [Option.getD_some, Entries.insert_of_get? hget, Entries.insertNew_of_get? hget]
  rw [alterEntity, halter]

/-- relationships are read one by one, and bring back the entities that they name -/
theorem reads_relationships (ho : '\n' ∉ o.unit) {all : Entries Entity} {rs : List Relationship} {seen : List Text}
    (hrs : ∀ r ∈ rs, r.IsPlain)
    (hends : ∀ id ∈ endIds rs, id ∈ all.keys ∧ (id ∉ seen → all.get? id = some { id := id, label := id }))
    (hd : d.entities = all.pick seen) :
    Reads Progress.readLine ⟨d, none⟩ (rs.map fun r => o.unit ++ r.toText)
      ⟨{ d with entities := all.pick (seen ++ endIds rs), relationships := d.relationships ++ rs }, none⟩ := by
  have hunit : IsMargin o.unit := o.levels_one ▸ isMargin_levels ho 1
  induction rs generalizing d seen with
  | nil =>
    rw [endIds, List.flatMap_nil, List.append_nil, List.append_nil, ← hd]
    exact .nil
  | cons r rs ih =>
    have hids : endIds (r :: rs) = [r.source] ++ [r.target] ++ endIds rs := rfl
    rw [hids] at hends
    obtain ⟨hsource, hsource'⟩ := hends r.source (by simp)
    obtain ⟨htarget, htarget'⟩ := hends r.target (by simp)
    obtain ⟨text, hread, hrelated⟩ := read?_relate (hrs r List.mem_cons_self)
    have hknown : alterEntity r.target id (alterEntity r.source id d)
        = { d with entities := all.pick (seen ++ [r.source] ++ [r.target]) } := by
      rw [← Entries.insertNew_pick htarget fun hid => htarget' fun hs => hid (List.mem_append_left _ hs),
        ← Entries.insertNew_pick hsource hsource', ← hd, alterEntity_id, alterEntity_id]
    rw [List.map_cons, hids, List.append_cons d.relationships, ← List.append_assoc, ← List.append_assoc]
    refine reads_line hunit (hrs r List.mem_cons_self).isContent hread rfl fun l _ =>
      ⟨⟨{ d with entities := all.pick (seen ++ [r.source] ++ [r.target]), relationships := d.relationships ++ [r] }, none⟩, ?_, ?_⟩
    · rw [Progress.apply, hrelated l]
      dsimp only [Except.map]
      rw [hknown]
    · refine ih (d := { d with
        entities := all.pick (seen ++ [r.source] ++ [r.target]), relationships := d.relationships ++ [r] })
        (fun x hx => hrs x (List.mem_cons_of_mem r hx)) (fun id hid => ?_) rfl
      have hid' : id ∈ [r.source] ++ [r.target] ++ endIds rs := List.mem_append_right _ hid
      exact ⟨(hends id hid').1, fun hn => (hends id hid').2 fun hs => hn (by simp [hs])⟩

end DiagramText.EntityDiagram

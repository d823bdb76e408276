/-
The canonical text of a class diagram written again. A diagram that is read can be written but for a few texts that stand
where their notation cannot hold them (`IsLegible`): a member is given after a colon, and written in a class body, where a
line may close the body, be a stereotype or be a comment. A blank stereotype is not written, so a diagram is written as its
settled form is (`render_settled`), and the classes that are read again need the same declarations in the same order
(`freeClasses_reread`). `render_stable` puts this together.
-/
import DiagramText.Proofs.ClassDiagram.Accepted

namespace DiagramText.ClassDiagram

open DiagramText.Text
open Sequence (IsLineText)

variable {d d' : ClassDiagram} {o : RenderOptions}

/-! ## What reading does not make sure of -/

/-- a member whose text, on a line of a class body, is a member and nothing else -/
structure Member.IsLegible (m : Member) : Prop where
  semicolon : ';' ∉ m.toText
  close : m.toText ≠ "\x7d"
  stereotype : (stereotype? m.toText).map Prod.snd ≠ some []
  comment : dropPrefix? "%%" m.toText = none

instance (m : Member) : Decidable m.IsLegible :=
  decidable_of_iff (';' ∉ m.toText ∧ m.toText ≠ "\x7d" ∧ (stereotype? m.toText).map Prod.snd ≠ some [] ∧ dropPrefix? "%%" m.toText = none)
    ⟨fun h => ⟨h.1, h.2.1, h.2.2.1, h.2.2.2⟩, fun h => ⟨h.semicolon, h.close, h.stereotype, h.comment⟩⟩

theorem Member.IsTaken.isPlain {m : Member} (h : m.IsTaken) (hl : m.IsLegible) : m.IsPlain := by
  obtain ⟨t, hf, ht⟩ := h
  refine ⟨Member.isRead_of_read? hf ht hl.semicolon, hl.close, fun text e => hl.stereotype ?_, hl.comment⟩
  rw [e]
  rfl

/-- no text of the diagram stands where its notation cannot hold it -/
structure IsLegible (d : ClassDiagram) : Prop where
  member : ∀ c ∈ d.classes.values, ∀ m ∈ c.attributes ++ c.methods, m.IsLegible
  source : ∀ r ∈ d.relationships, r.source ≠ "classDef"
  label : ∀ r ∈ d.relationships, ∀ t ∈ r.label, ¬ endsWith (· = ';') t = true
  style : ∀ x ∈ d.classDefs.toList, ¬ endsWith (· = ';') x.2.toText = true
  accessibility : ∀ line ∈ d.accessibility.written, ¬ endsWith (· = ';') line.value = true

instance (d : ClassDiagram) : Decidable d.IsLegible :=
  decidable_of_iff ((∀ c ∈ d.classes.values, ∀ m ∈ c.attributes ++ c.methods, m.IsLegible)
      ∧ (∀ r ∈ d.relationships, r.source ≠ "classDef")
      ∧ (∀ r ∈ d.relationships, ∀ t ∈ r.label, ¬ endsWith (· = ';') t = true)
      ∧ (∀ x ∈ d.classDefs.toList, ¬ endsWith (· = ';') x.2.toText = true)
      ∧ ∀ line ∈ d.accessibility.written, ¬ endsWith (· = ';') line.value = true)
    ⟨fun h => ⟨h.1, h.2.1, h.2.2.1, h.2.2.2.1, h.2.2.2.2⟩, fun h => ⟨h.member, h.source, h.label, h.style, h.accessibility⟩⟩

/-! ## Blank stereotypes -/

/-- a class without a stereotype that is blank -/
def Class.settled (c : Class) : Class := { c with stereotype := present c.stereotype }

/-- the diagram without stereotypes that are blank -/
def settled (d : ClassDiagram) : ClassDiagram := { d with classes := d.classes.map Class.settled }

theorem Class.lines_settled (margin : Text) (c : Class) : c.settled.lines o margin = c.lines o margin := by
  have hstereotype : present c.settled.stereotype = present c.stereotype := present_present c.stereotype
  have hbody : c.settled.hasBody = c.hasBody := by
    rw [Class.hasBody, Class.hasBody, hstereotype]
    rfl
  have hlines : c.settled.bodyLines = c.bodyLines := by
    rw [Class.bodyLines, Class.bodyLines, hstereotype]
    rfl
  rw [Class.lines, Class.lines, hbody, hlines]
  rfl

theorem needsDeclaration_settled (c : Class) : needsDeclaration d.settled c.settled = needsDeclaration d c := by
  have hbody : c.settled.hasBody = c.hasBody := by
    rw [Class.hasBody, Class.hasBody]
    exact congrArg (fun t : Option Text => t.isSome || !c.attributes.isEmpty || !c.methods.isEmpty) (present_present c.stereotype)
  rw [needsDeclaration, needsDeclaration, hbody]
  rfl

/-- members of namespaces are written as their classes are -/
theorem memberLines_congr_classes (h : ∀ id, (d'.classes.get? id).map (Class.lines o (o.levels 2))
    = (d.classes.get? id).map (Class.lines o (o.levels 2))) (known ids : List Text) :
    memberLines d' o known ids = memberLines d o known ids := by
  induction ids generalizing known with
  | nil => rfl
  | cons id ids ih =>
    have hid := h id
    rw [memberLines, memberLines]
    by_cases hknown : known.contains id = true
    · simp only [if_pos hknown, ih]
    · simp only [if_neg hknown]
      cases hget : d.classes.get? id with
      | none =>
        rw [hget, Option.map_none, Option.map_eq_none_iff] at hid
        simp only [hid, ih]
      | some c =>
        rw [hget, Option.map_some] at hid
        obtain ⟨c', hc', hlines⟩ := Option.map_eq_some_iff.1 hid
        simp only [hc', hlines, ih]

theorem namespaceLines_congr_classes (h : ∀ id, (d'.classes.get? id).map (Class.lines o (o.levels 2))
    = (d.classes.get? id).map (Class.lines o (o.levels 2))) (known : List Text) (ns : List Namespace) :
    namespaceLines d' o known ns = namespaceLines d o known ns := by
  induction ns generalizing known with
  | nil => rfl
  | cons n ns ih => simp only [namespaceLines, memberLines_congr_classes h, ih]

theorem orderedClasses_settled : orderedClasses d.settled o = (orderedClasses d o).map Class.settled := by
  have hvalues : d.settled.classes.values = d.classes.values.map Class.settled := by
    simp [settled, Entries.values, Entries.map, Function.comp_def]
  rw [orderedClasses, orderedClasses, hvalues]
  split
  · refine (List.map_mergeSort fun a _ b _ => ?_).symm
    rfl
  · rfl

theorem freeClasses_settled : freeClasses d.settled o = (freeClasses d o).map Class.settled := by
  have hclasses : ∀ id, (d.settled.classes.get? id).map (Class.lines o (o.levels 2))
      = (d.classes.get? id).map (Class.lines o (o.levels 2)) := by
    intro id
    rw [settled, Entries.get?_map, Option.map_map]
    exact congrArg (Option.map · _) (funext fun c => c.lines_settled _)
  rw [freeClasses, freeClasses, orderedClasses_settled, List.filter_map]
  refine congrArg (List.map _) (List.filter_congr fun c _ => ?_)
  rw [Function.comp_apply, needsDeclaration_settled, namespaceLines_congr_classes hclasses]
  rfl

/-- **a blank stereotype is not written** -/
theorem render_settled (d : ClassDiagram) (o : RenderOptions) : render d.settled o = render d o := by
  have hclasses : ∀ id, (d.settled.classes.get? id).map (Class.lines o (o.levels 2))
      = (d.classes.get? id).map (Class.lines o (o.levels 2)) := by
    intro id
    rw [settled, Entries.get?_map, Option.map_map]
    exact congrArg (Option.map · _) (funext fun c => c.lines_settled _)
  rw [render_eq, render_eq, namespaceLines_congr_classes hclasses, freeClasses_settled, List.flatMap_map]
  simp only [Class.lines_settled]
  rfl

/-- **a diagram that is read can be written**, unless a text of it stands where its notation cannot hold it -/
theorem isWritable_settled {text : Text} (h : read text = .ok d) (hl : d.IsLegible) : d.settled.IsWritable := by
  have ht := isTaken_of_read h
  have hclosed := closed_of_read h
  have hget : ∀ {id c}, d.settled.classes.get? id = some c → ∃ c', d.classes.get? id = some c' ∧ c'.settled = c := by
    intro id c hc
    rw [settled, Entries.get?_map] at hc
    exact Option.map_eq_some_iff.1 hc
  have hkeys : d.settled.classes.keys = d.classes.keys := Entries.keys_map _ _
  constructor
  · constructor
    · intro id c hc
      obtain ⟨c', hc', rfl⟩ := hget hc
      exact (ht.classes hc').1
    · intro id c hc
      obtain ⟨c', hc', rfl⟩ := hget hc
      have hmember := hl.member c' (Entries.mem_values_iff.2 ⟨id, hc'⟩)
      obtain ⟨-, hid, hlabel, hgeneric, hstereotype, hattributes, hmethods⟩ := ht.classes hc'
      refine ⟨hid, hlabel, hgeneric, fun t e => ?_, fun m hm => ?_, fun m hm => ?_⟩
      · obtain ⟨e, hne⟩ := present_eq_some_iff.1 e
        exact ⟨hne, (hstereotype t e).trimmed, (hstereotype t e).bracket, (hstereotype t e).lineFeed⟩
      · exact ⟨(hattributes m hm).1.isPlain (hmember m (List.mem_append_left _ hm)), (hattributes m hm).2⟩
      · exact ⟨(hmethods m hm).1.isPlain (hmember m (List.mem_append_right _ hm)), (hmethods m hm).2⟩
    · intro r hr
      have hspelled := ht.relationships r hr
      refine ⟨⟨hspelled.source, hspelled.target, hspelled.sourceCardinality, hspelled.targetCardinality, fun t e => ?_⟩,
        hl.source r hr⟩
      obtain ⟨hne, hf, htrim⟩ := hspelled.label t e
      exact ⟨hne, hf, htrim, hl.label r hr t e⟩
    · rw [hkeys]
      exact hclosed.related
    · exact ht.namespaces
    · rw [hkeys]
      exact hclosed.grouped
    · exact ht.notes
  · exact fun x hx => ⟨(ht.classDefs x hx).1, (ht.classDefs x hx).2, hl.style x hx⟩
  · exact ht.cssClasses
  · intro line hline
    obtain ⟨htrim, hf⟩ := ht.accessibility line hline
    exact ⟨Accessibility.value_ne_nil_of_mem_written hline, hf, htrim, hl.accessibility line hline⟩

/-! ## The second text -/

/-- the diagram that is read from the text of a diagram -/
def reread (d : ClassDiagram) (o : RenderOptions) : ClassDiagram :=
  { d with
    classes := brought d (pageIds d o)
    namespaces := d.namespaces.map (Namespace.settled o)
    accessibility := d.accessibility.settled }

/-- members that are in the order of writing stay in it -/
theorem Namespace.ordered_settled (n : Namespace) : (n.settled o).ordered o = n.ordered o := by
  change (if o.sortEntities then (n.ordered o).mergeSort Text.le else n.ordered o) = n.ordered o
  split
  · rename_i hsort
    have hordered : n.ordered o = n.classIds.mergeSort Text.le := if_pos hsort
    rw [hordered]
    exact mergeSort_of_perm (List.mergeSort_perm _ _) fun _ _ _ _ e => e
  · rfl

theorem namespaceLines_settled (known : List Text) (ns : List Namespace) :
    namespaceLines d o known (ns.map (Namespace.settled o)) = namespaceLines d o known ns := by
  induction ns generalizing known with
  | nil => rfl
  | cons n ns ih =>
    rw [List.map_cons]
    simp only [namespaceLines, Namespace.ordered_settled, ih]
    rfl

namespace IsPrintable

variable (h : d.IsPrintable)
include h

theorem namespaceLines_reread : namespaceLines (d.reread o) o [] (d.reread o).namespaces = namespaceLines d o [] d.namespaces := by
  refine (namespaceLines_settled [] d.namespaces).trans (namespaceLines_congr_classes (fun id => ?_) [] d.namespaces)
  rw [reread, h.get?_brought_pageIds]

/-- the classes that are read again are those of namespaces, those that are written on their own, and those that
relationships bring -/
theorem exists_values_brought : ∃ cs cs', (brought d (pageIds d o)).values = cs ++ freeClasses d o ++ cs' ∧
    (∀ c ∈ cs, c.id ∈ groupedIds o d.namespaces) ∧ ∀ c ∈ cs', needsDeclaration d c = false := by
  have hids : ((freeClasses d o).map fun c => (c.id, c)).map Prod.fst = (freeClasses d o).map Class.id := by
    rw [List.map_map]
    rfl
  have hfree : ∀ x ∈ (freeClasses d o).map fun c => (c.id, c), x.1 ∉ groupedIds o d.namespaces ∧ d.classes.get? x.1 = some x.2 := by
    intro x hx
    obtain ⟨c, hc, rfl⟩ := List.mem_map.1 hx
    obtain ⟨hget, hgrouped, -⟩ := h.mem_freeClasses.1 hc
    exact ⟨hgrouped, hget⟩
  have hpick := Entries.toList_pick_append (hids ▸ h.nodup_freeClasses) (fun x hx => (hfree x hx).1) fun x hx => (hfree x hx).2
  rw [hids] at hpick
  obtain ⟨pairs, hpairs, hnew⟩ :=
    d.classes.exists_toList_pick_append (groupedIds o d.namespaces ++ (freeClasses d o).map Class.id) (endIds d.relationships)
  refine ⟨(d.classes.pick (groupedIds o d.namespaces)).values, pairs.map Prod.snd, ?_, fun c hc => ?_, fun c hc => ?_⟩
  · change ((d.classes.pick (pageIds d o)).toList).map Prod.snd = _
    rw [pageIds, hpairs, hpick, List.map_append, List.map_append, List.map_map]
    exact congrArg (_ ++ · ++ _) (List.map_id' _)
  · obtain ⟨id, hget⟩ := Entries.mem_values_iff.1 hc
    rw [Entries.get?_pick] at hget
    obtain ⟨hid, hget⟩ := Option.ite_none_right_eq_some.1 hget
    exact h.byId hget ▸ hid
  · obtain ⟨x, hx, rfl⟩ := List.mem_map.1 hc
    obtain ⟨hid, hget⟩ := hnew x hx
    rw [← h.byId hget, List.mem_append, not_or] at hid
    rw [← h.byId hget] at hget
    refine Bool.eq_false_iff.2 fun hneeds => hid.2 ?_
    exact List.mem_map_of_mem (h.mem_freeClasses.2 ⟨hget, hid.1, hneeds⟩)

/-- **the classes that are read again** need the same declarations in the same order -/
theorem freeClasses_reread : freeClasses (d.reread o) o = freeClasses d o := by
  have hperm : (d.reread o).classes.values.Perm d.classes.values :=
    (Entries.perm_of_get? h.get?_brought_pageIds).map Prod.snd
  have hfilter : freeClasses (d.reread o) o = (orderedClasses (d.reread o) o).filter fun c =>
      !(namespaceLines d o [] d.namespaces).2.contains c.id && needsDeclaration d c := by
    rw [freeClasses, h.namespaceLines_reread]
    rfl
  cases hsort : o.sortEntities with
  | true =>
    have hids : ∀ a ∈ (d.reread o).classes.values, ∀ b ∈ (d.reread o).classes.values, a.id = b.id → a = b := by
      intro a ha b hb hab
      have ha := (Entries.mem_values_iff_of_byId h.byId).1 (hperm.mem_iff.1 ha)
      have hb := (Entries.mem_values_iff_of_byId h.byId).1 (hperm.mem_iff.1 hb)
      rw [hab, hb] at ha
      exact (Option.some.inj ha).symm
    have hordered : orderedClasses (d.reread o) o = orderedClasses d o := by
      simp only [orderedClasses, hsort, if_true]
      exact mergeSort_of_perm hperm hids
    rw [hfilter, hordered]
    rfl
  | false =>
    have hordered : orderedClasses (d.reread o) o = (brought d (pageIds d o)).values := by
      rw [orderedClasses, hsort]
      rfl
    obtain ⟨cs, cs', hvalues, hgrouped, hnamed⟩ := h.exists_values_brought (o := o)
    have hfree : ∀ c ∈ freeClasses d o, (!(namespaceLines d o [] d.namespaces).2.contains c.id && needsDeclaration d c) = true :=
      fun c hc => (List.mem_filter.1 hc).2
    rw [hfilter, hordered, hvalues, List.filter_append, List.filter_append, List.filter_eq_self.2 hfree,
      List.filter_eq_nil_iff.2 fun c hc => ?_, List.filter_eq_nil_iff.2 fun c hc => ?_, List.nil_append, List.append_nil]
    · simp [hnamed c hc]
    · simp [(h.mem_declared c.id).2 (hgrouped c hc)]

/-- rendering a diagram that is read again gives its text -/
theorem render_reread : render (d.reread o) o = render d o := by
  rw [render_eq, render_eq, h.namespaceLines_reread, h.freeClasses_reread]
  have htexts : (d.reread o).accessibility.lines o.unit = d.accessibility.lines o.unit := Accessibility.lines_settled _ _
  rw [htexts]
  rfl

end IsPrintable

/-- **the canonical text of a class diagram is stable**: a diagram that is read, of which every text can stand where it is
written, is written so that it is read again, and then written as the same text -/
theorem render_stable {text : Text} (h : read text = .ok d) (hl : d.IsLegible) (ho : '\n' ∉ o.unit) :
    ∃ d', read (render d o) = .ok d' ∧ render d' o = render d o := by
  have hwritable := isWritable_settled h hl
  refine ⟨d.settled.reread o, ?_, ?_⟩
  · rw [← render_settled]
    exact read_render_of_isWritable hwritable ho
  · rw [hwritable.toIsPrintable.render_reread, render_settled]

/-- a class of a namespace with inline members and a blank stereotype, and one that only a relationship names -/
def waters : Text := "classDiagram\nPond *-- Duck\nnamespace birds \x7b\nclass Duck\n\x7d\nDuck : +swim() bool\nDuck : wet\n<< >> Duck"

/-- what the text says -/
def watersDiagram : ClassDiagram where
  classes := ⟨[("Pond", { id := "Pond", label := "Pond" }), ("Duck", {
    id := "Duck"
    label := "Duck"
    stereotype := some []
    attributes := [⟨.unmarked, "wet", none, none, false, false⟩]
    methods := [⟨.public, "swim", some "bool", some [], false, false⟩] })], by decide⟩
  relationships := [⟨"Pond", "Duck", .composition, .none, false, none, none, none⟩]
  namespaces := [⟨"birds", ["Duck"]⟩]

theorem read_waters : read waters = .ok watersDiagram := by exact rfl

theorem render_stable_waters : read waters = .ok watersDiagram ∧ watersDiagram.IsLegible ∧ '\n' ∉ RenderOptions.default.unit ∧
    ∃ d', read (render watersDiagram .default) = .ok d' ∧ render d' .default = render watersDiagram .default :=
  ⟨read_waters, by decide +kernel, by decide, render_stable read_waters (by decide +kernel) (by decide)⟩

/-- an inline member that closes the body of its class when it is written there -/
theorem render_refused_brace : ∃ d, read "classDiagram\nA : \x7d" = .ok d ∧ ∀ d', read (render d .default) ≠ .ok d' :=
  ⟨_, rfl, fun _ => nofun⟩

/-- an inline member that is a stereotype when it is written in the body of its class -/
theorem render_unstable_stereotype : ∃ d d', read "classDiagram\nA : +x\nA : <<b>>" = .ok d ∧
    read (render d .default) = .ok d' ∧ render d' .default ≠ render d .default := ⟨_, _, rfl, rfl, by decide⟩

end DiagramText.ClassDiagram

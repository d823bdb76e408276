/-
The printed text of a class diagram read line by line. `brought d ids` are the classes once those of some ids have come:
a class is written in full where it comes first, with its id alone where it comes again, and not at all where a relationship
brings it back. Each `reads_…` says of one part of a text that reading it brings the classes of that part.
-/
import DiagramText.ClassDiagram.Reader
import DiagramText.Proofs.ClassDiagram.Line
import DiagramText.Proofs.Entries
import DiagramText.Proofs.Reading

namespace DiagramText.ClassDiagram

open DiagramText.Text
open Sequence (IsLineText)

/-! ## Diagrams that can be written -/

/-- a class that can be written -/
structure Class.IsPlain (c : Class) : Prop where
  id : IsId c.id
  label : IsQuotable c.label
  generic : ∀ g, c.generic = some g → g ≠ [] ∧ '~' ∉ g ∧ '\n' ∉ g
  stereotype : ∀ t, c.stereotype = some t → IsStereotype t
  attributes : ∀ m ∈ c.attributes, m.IsPlain ∧ m.isMethod = false
  methods : ∀ m ∈ c.methods, m.IsPlain ∧ m.isMethod = true

/-- a namespace that can be written -/
structure Namespace.IsPlain (n : Namespace) : Prop where
  name : n.name ≠ [] ∧ n.name.all isNamespaceChar = true
  nodup : n.classIds.Nodup

/-- the classes, the relationships, the namespaces and the notes of the diagram can be written -/
structure IsPrintable (d : ClassDiagram) : Prop where
  byId : ∀ {id c}, d.classes.get? id = some c → c.id = id
  classes : ∀ {id c}, d.classes.get? id = some c → c.IsPlain
  relationships : ∀ r ∈ d.relationships, r.IsPlain ∧ r.source ≠ "classDef"
  ends : ∀ r ∈ d.relationships, r.source ∈ d.classes.keys ∧ r.target ∈ d.classes.keys
  namespaces : ∀ n ∈ d.namespaces, n.IsPlain
  members : ∀ n ∈ d.namespaces, ∀ id ∈ n.classIds, id ∈ d.classes.keys
  notes : ∀ n ∈ d.notes, (∀ id, n.forClass = some id → IsId id) ∧ IsQuotable n.text

/-! ## Lines -/

theorem readLine_toText {p : Progress} (hbody : p.body = none) {line : Line} (hl : line.IsPlain) {l : SourceLine}
    (hlt : l.text = line.toText) : p.readLine l = p.apply l line := by
  rw [Progress.readLine, hbody]
  dsimp only
  rw [hlt, Line.read?_toText hl]

theorem apply_declare (l : SourceLine) (p : Progress) (id : Text) (parameter label : Option Text) (opensBody : Bool) :
    p.apply l (.declare id parameter label opensBody) = .ok {
      diagram := { p.diagram with
        classes := p.diagram.classes.alter id { id := id, label := id } (Progress.declare id parameter label) }
      openNamespace := p.openNamespace.map (Progress.include_ id)
      body := if opensBody then some (id, l) else none } := rfl

/-- a printed line leads on as what it says does -/
theorem Reads.line_of_apply {p p' q : Progress} {margin : Text} {raws : List Text} (hm : IsMargin margin) (line : Line)
    (hl : line.IsPlain) (hbody : p.body = none) (hp : ∀ l, p.apply l line = .ok p') (h : Reads Progress.readLine p' raws q) :
    Reads Progress.readLine p ((margin ++ line.toText) :: raws) q :=
  .line hm (Line.isContent_toText hl) fun l hlt => ⟨p', (readLine_toText hbody hl hlt).trans (hp l), h⟩

/-- a printed line of a class body leads on as what it says does -/
theorem Reads.bodyLine {p q : Progress} {id : Text} {opened : SourceLine} {margin : Text} {raws : List Text} (hm : IsMargin margin)
    (line : BodyLine) (hl : line.IsPlain) (hbody : p.body = some (id, opened))
    (h : Reads Progress.readLine (p.applyInBody id line) raws q) :
    Reads Progress.readLine p ((margin ++ line.toText) :: raws) q := by
  refine .line hm (BodyLine.isContent_toText hl) fun l hlt => ⟨_, ?_, h⟩
  rw [Progress.readLine, hbody]
  dsimp only
  rw [hlt, BodyLine.read_toText hl]

/-! ## Classes -/

/-- the declaration of a class -/
def Class.declaration (c : Class) : Line :=
  .declare c.id c.generic (if c.label = c.id then none else some c.label) c.hasBody

/-- the body of a class -/
def Class.body (c : Class) : List BodyLine :=
  (c.stereotype.map BodyLine.stereotype).toList ++ (c.attributes ++ c.methods).map fun m => .member (some m)

/-- the class after a line of its body -/
def BodyLine.perform (c : Class) : BodyLine → Class
  | .close => c
  | .stereotype text => { c with stereotype := some text }
  | .member m => (m.map c.addMember).getD c

theorem foldl_perform_member (ms : List Member) (c : Class) :
    (ms.map fun m => BodyLine.member (some m)).foldl BodyLine.perform c = ms.foldl Class.addMember c := by
  rw [List.foldl_map]
  rfl

theorem foldl_addMember_attributes (ms : List Member) (h : ∀ m ∈ ms, m.isMethod = false) (c : Class) :
    ms.foldl Class.addMember c = { c with attributes := c.attributes ++ ms } := by
  induction ms generalizing c with
  | nil => simp
  | cons m ms ih =>
    rw [List.foldl_cons, ih fun x hx => h x (List.mem_cons_of_mem m hx), Class.addMember, h m (by simp)]
    simp

theorem foldl_addMember_methods (ms : List Member) (h : ∀ m ∈ ms, m.isMethod = true) (c : Class) :
    ms.foldl Class.addMember c = { c with methods := c.methods ++ ms } := by
  induction ms generalizing c with
  | nil => simp
  | cons m ms ih =>
    rw [List.foldl_cons, ih fun x hx => h x (List.mem_cons_of_mem m hx), Class.addMember, h m (by simp)]
    simp

namespace Class.IsPlain

variable {c : Class} (h : c.IsPlain)
include h

theorem declaration : c.declaration.IsPlain := by
  refine ⟨h.id, h.generic, fun t e => ?_⟩
  split at e
  · exact absurd e (by simp)
  · exact Option.some.inj e ▸ h.label

theorem body : ∀ l ∈ c.body, l.IsPlain ∧ l ≠ .close := by
  intro l hl
  rcases List.mem_append.1 hl with hl | hl
  · obtain ⟨t, ht, rfl⟩ := Option.mem_map.1 (Option.mem_toList.1 hl)
    exact ⟨h.stereotype t ht, by simp⟩
  · obtain ⟨m, hm, rfl⟩ := List.mem_map.1 hl
    refine ⟨⟨m, rfl, ?_⟩, by simp⟩
    exact (List.mem_append.1 hm).elim (fun hm => (h.attributes m hm).1) fun hm => (h.methods m hm).1

theorem present_generic : present c.generic = c.generic := present_eq_self fun g hg => (h.generic g hg).1

theorem present_stereotype : present c.stereotype = c.stereotype := present_eq_self fun t ht => (h.stereotype t ht).ne_nil

theorem bodyLines_eq : c.bodyLines = c.body.map BodyLine.toText := by
  rw [Class.bodyLines, Class.body, h.present_stereotype, List.map_append, List.map_map, List.map_append, List.append_assoc]
  cases c.stereotype <;> rfl

theorem hasBody_iff : c.hasBody = true ↔ c.body ≠ [] := by
  rw [Class.hasBody, Class.body, h.present_stereotype]
  cases c.stereotype <;> cases c.attributes <;> cases c.methods <;> simp

/-- the line that a class begins with -/
theorem toText_declaration : c.declaration.toText = c.head ++ braceText c.hasBody := by
  have htilde : ("~" : Text) = ['~'] := rfl
  have hopen : ("[" : Text) = ['['] := rfl
  have hclose : ("]" : Text) = [']'] := rfl
  change ("class " : Text) ++ c.id ++ genericText c.generic ++ bracketText (if c.label = c.id then none else some c.label)
    ++ braceText c.hasBody = _
  unfold Class.head
  rw [h.present_generic, htilde, hopen, hclose]
  cases c.generic <;> split <;> simp [genericText, bracketText]

/-- the lines of a class -/
theorem lines_eq (o : RenderOptions) (margin : Text) :
    c.lines o margin = (margin ++ c.declaration.toText) ::
      if c.hasBody then c.body.map (fun l => (margin ++ o.unit) ++ l.toText) ++ [margin ++ BodyLine.close.toText] else [] := by
  have hbrace : (" \x7b" : Text) = braceText true := rfl
  have hclose : BodyLine.close.toText = "\x7d" := rfl
  rw [Class.lines, h.toText_declaration, h.bodyLines_eq, hclose, hbrace]
  cases c.hasBody
  · simp [braceText]
  · simp [Function.comp_def]

/-- the lines of its body make a class what it is -/
theorem foldl_perform :
    c.body.foldl BodyLine.perform { id := c.id, label := c.label, generic := c.generic } = c := by
  have hstereotype : (c.stereotype.map BodyLine.stereotype).toList.foldl BodyLine.perform
      { id := c.id, label := c.label, generic := c.generic }
        = { id := c.id, label := c.label, generic := c.generic, stereotype := c.stereotype } := by
    cases c.stereotype <;> rfl
  rw [Class.body, List.foldl_append, hstereotype, foldl_perform_member, List.foldl_append,
    foldl_addMember_attributes _ (fun m hm => (h.attributes m hm).2), foldl_addMember_methods _ fun m hm => (h.methods m hm).2]
  rfl

end Class.IsPlain

/-- a state with other classes -/
def Progress.withClasses (p : Progress) (classes : Entries Class) : Progress :=
  { p with diagram := { p.diagram with classes := classes } }

/-- a state in which a class has been declared and its body has not been opened -/
def Progress.withClass (p : Progress) (c : Class) : Progress :=
  { p.withClasses (p.diagram.classes.insert c.id c) with openNamespace := p.openNamespace.map (Progress.include_ c.id) }

section

variable {p : Progress} {c : Class} {o : RenderOptions} {margin : Text}

/-- the lines of a body change the class whose body it is -/
theorem reads_body {id : Text} {opened : SourceLine} (hm : IsMargin margin) (ls : List BodyLine)
    (hls : ∀ l ∈ ls, l.IsPlain ∧ l ≠ .close) {q : Progress} (classes : Entries Class) (c : Class) {raws : List Text}
    (hbody : p.body = some (id, opened))
    (h : Reads Progress.readLine (p.withClasses (classes.insert id (ls.foldl BodyLine.perform c))) raws q) :
    Reads Progress.readLine (p.withClasses (classes.insert id c)) (ls.map (fun l => margin ++ l.toText) ++ raws) q := by
  induction ls generalizing c with
  | nil => exact h
  | cons l ls ih =>
    have hl := hls l (by simp)
    have happly : (p.withClasses (classes.insert id c)).applyInBody id l = p.withClasses (classes.insert id (l.perform c)) := by
      have halter : ∀ f : Class → Class, (classes.insert id c).alter id { id := id, label := id } f = classes.insert id (f c) := by
        intro f
        rw [Entries.alter, Entries.get?_insert, if_pos rfl, Option.getD_some, Entries.insert_insert]
      cases l with
      | close => exact absurd rfl hl.2
      | stereotype text => exact congrArg p.withClasses (halter _)
      | member m => exact congrArg p.withClasses (halter _)
    refine Reads.bodyLine hm l hl.1 hbody ?_
    rw [happly]
    exact ih (fun x hx => hls x (List.mem_cons_of_mem l hx)) (l.perform c) h

/-- **a class is read back** where it is written in full, if it has not been known before -/
theorem reads_class (ho : '\n' ∉ o.unit) (hm : IsMargin margin) (hc : c.IsPlain) (hbody : p.body = none)
    (hnew : p.diagram.classes.get? c.id = none) : Reads Progress.readLine p (c.lines o margin) (p.withClass c) := by
  have hdeclare : Progress.declare c.id c.generic (if c.label = c.id then none else some c.label)
      { id := c.id, label := c.id } = { id := c.id, label := c.label, generic := c.generic } := by
    have hgeneric : (c.generic <|> none) = c.generic := by cases c.generic <;> rfl
    have hlabel : (if c.label = c.id then none else some c.label).getD c.id = c.label := by
      split
      · rename_i e
        exact e.symm
      · rfl
    unfold Progress.declare
    rw [hgeneric, hlabel]
  have hclasses : p.diagram.classes.alter c.id { id := c.id, label := c.id }
      (Progress.declare c.id c.generic (if c.label = c.id then none else some c.label))
        = p.diagram.classes.insert c.id { id := c.id, label := c.label, generic := c.generic } := by
    rw [Entries.alter, hnew, Option.getD_none, hdeclare]
  rw [hc.lines_eq]
  cases hopens : c.hasBody with
  | false =>
    have hbodyless : c.body = [] := by
      by_contra hne
      rw [hc.hasBody_iff.2 hne] at hopens
      exact absurd hopens (by simp)
    have hperform := hc.foldl_perform
    rw [hbodyless, List.foldl_nil] at hperform
    refine Reads.line_of_apply hm c.declaration hc.declaration hbody (fun l => ?_) .nil
    rw [Class.declaration, hopens, apply_declare, hclasses, hperform]
    obtain ⟨diagram, ns, body⟩ := p
    obtain rfl : body = none := hbody
    rfl
  | true =>
    refine .line hm (Line.isContent_toText hc.declaration) fun l hlt =>
      ⟨{ p.withClasses (p.diagram.classes.insert c.id { id := c.id, label := c.label, generic := c.generic }) with
        openNamespace := p.openNamespace.map (Progress.include_ c.id), body := some (c.id, l) }, ?_, ?_⟩
    · rw [readLine_toText hbody hc.declaration hlt, Class.declaration, hopens, apply_declare, hclasses]
      rfl
    · refine reads_body (p := { p with openNamespace := p.openNamespace.map (Progress.include_ c.id), body := some (c.id, l) })
        (hm.unit ho) c.body hc.body _ _ rfl ?_
      rw [hc.foldl_perform]
      refine Reads.bodyLine hm .close trivial (rfl : _ = some (c.id, l)) ?_
      obtain ⟨diagram, ns, body⟩ := p
      obtain rfl : body = none := hbody
      exact .nil

/-- a class that is known stays as it is where only its id is written -/
theorem reads_reference {id : Text} (hm : IsMargin margin) (hid : IsId id) (hbody : p.body = none)
    (hknown : p.diagram.classes.get? id = some c) (hc : c.id = id) :
    Reads Progress.readLine p [margin ++ (Line.declare id none none false).toText]
      { p with openNamespace := p.openNamespace.map (Progress.include_ id) } := by
  refine Reads.line_of_apply hm (.declare id none none false) ⟨hid, by simp, by simp⟩ hbody (fun l => ?_) .nil
  have hsame : Progress.declare id none none c = c := by
    subst hc
    rfl
  have hclasses : p.diagram.classes.alter id { id := id, label := id } (Progress.declare id none none) = p.diagram.classes := by
    rw [Entries.alter, hknown, Option.getD_some, hsame, Entries.insert_of_get? hknown]
  rw [apply_declare, hclasses]
  obtain ⟨diagram, ns, body⟩ := p
  obtain rfl : body = none := hbody
  rfl

end

/-! ## Classes that are known -/

/-- the classes once a class of the diagram has come, in full or by a line that names it -/
def bring (d : ClassDiagram) (classes : Entries Class) (id : Text) : Entries Class :=
  ((d.classes.get? id).map (classes.insertNew id)).getD classes

/-- the classes once those of some ids have come, one after another -/
def brought (d : ClassDiagram) (ids : List Text) : Entries Class := ids.foldl (bring d) .empty

section

variable {d : ClassDiagram} {ids : List Text} {id : Text} {c : Class}

/-- **the classes that have come** are as the diagram has them -/
theorem get?_brought (d : ClassDiagram) (ids : List Text) (id : Text) :
    (brought d ids).get? id = if id ∈ ids then d.classes.get? id else none := d.classes.get?_pick ids id

theorem brought_of_mem (h : id ∈ ids) : brought d (ids ++ [id]) = brought d ids := Entries.pick_of_mem h

theorem get?_brought_of_not_mem (h : id ∉ ids) : (brought d ids).get? id = none := Entries.get?_pick_of_not_mem h

theorem brought_of_not_mem (h : id ∉ ids) (hc : d.classes.get? id = some c) :
    brought d (ids ++ [id]) = (brought d ids).insert id c := Entries.pick_of_not_mem h hc

/-- a line that names a class brings it back, if there is nothing more to know of it -/
theorem insertNew_brought (hid : id ∈ d.classes.keys) (h : id ∉ ids → d.classes.get? id = some { id := id, label := id }) :
    (brought d ids).insertNew id { id := id, label := id } = brought d (ids ++ [id]) := Entries.insertNew_pick hid h

end

/-! ## Namespaces -/

variable {d : ClassDiagram} {o : RenderOptions}

/-- the members of a namespace that are classes are declared after it -/
theorem mem_memberLines_iff {known ids : List Text} (id : Text) :
    id ∈ (memberLines d o known ids).2 ↔ id ∈ known ∨ (id ∈ ids ∧ id ∈ d.classes.keys) := by
  induction ids generalizing known with
  | nil => simp [memberLines]
  | cons x ids ih =>
    rw [memberLines]
    cases hmember : if known.contains x then none else d.classes.get? x with
    | none =>
      dsimp only
      have hx : x ∈ d.classes.keys → x ∈ known := by
        intro hkey
        by_contra hnew
        rw [if_neg (by simpa using hnew)] at hmember
        exact Entries.get?_eq_none_iff.1 hmember hkey
      rw [ih, List.mem_cons]
      refine or_congr_right' fun hid => and_congr_left fun hkey => ?_
      exact (or_iff_right fun e : id = x => hid (e ▸ hx (e ▸ hkey))).symm
    | some c =>
      dsimp only
      have hx : x ∈ d.classes.keys := by
        refine Entries.mem_keys_of_get? (v := c) ?_
        split at hmember
        · exact absurd hmember nofun
        · exact hmember
      rw [ih, List.mem_cons, List.mem_cons]
      constructor
      · rintro ((rfl | h) | ⟨h, hkey⟩)
        · exact .inr ⟨.inl rfl, hx⟩
        · exact .inl h
        · exact .inr ⟨.inr h, hkey⟩
      · rintro (h | ⟨rfl | h, hkey⟩)
        · exact .inl (.inr h)
        · exact .inl (.inl rfl)
        · exact .inr ⟨h, hkey⟩

theorem mem_memberLines {known ids : List Text} (hids : ∀ id ∈ ids, id ∈ d.classes.keys) (id : Text) :
    id ∈ (memberLines d o known ids).2 ↔ id ∈ known ∨ id ∈ ids := by
  rw [mem_memberLines_iff, and_iff_left_of_imp (hids id)]

/-- the members of a namespace are read one by one -/
theorem reads_memberLines (h : d.IsPrintable) (ho : '\n' ∉ o.unit) (ids : List Text) (hids : ∀ id ∈ ids, id ∈ d.classes.keys)
    {known seen : List Text} {p : Progress} {n : OpenNamespace} (hopen : p.openNamespace = some n) (hbody : p.body = none)
    (hclasses : p.diagram.classes = brought d seen) (hknown : ∀ id, id ∈ known ↔ id ∈ seen)
    (hnodup : (n.classIds ++ ids).Nodup) :
    Reads Progress.readLine p (memberLines d o known ids).1
      { p.withClasses (brought d (seen ++ ids)) with openNamespace := some { n with classIds := n.classIds ++ ids } } := by
  induction ids generalizing known seen p n with
  | nil =>
    obtain ⟨diagram, ns, body⟩ := p
    obtain rfl : ns = some n := hopen
    rw [List.append_nil, List.append_nil, ← hclasses]
    exact .nil
  | cons id ids ih =>
    have hm := isMargin_levels ho 2
    obtain ⟨c, hc⟩ := Entries.exists_of_mem_keys (hids id (by simp))
    have hid := h.byId hc
    have hinclude : Progress.include_ id n = { n with classIds := n.classIds ++ [id] } := by
      have hnot : id ∉ n.classIds := fun hmem => (List.nodup_append.1 hnodup).2.2 id hmem id (by simp) rfl
      rw [Progress.include_, if_neg (by simpa using hnot)]
    have hnodup' : (({ n with classIds := n.classIds ++ [id] } : OpenNamespace).classIds ++ ids).Nodup := by
      simpa using hnodup
    have hids' : ∀ x ∈ ids, x ∈ d.classes.keys := fun x hx => hids x (List.mem_cons_of_mem id hx)
    rw [memberLines, List.append_cons seen, List.append_cons n.classIds]
    by_cases hmem : id ∈ known
    · have hseen := (hknown id).1 hmem
      have hread := reads_reference hm (hid ▸ (h.classes hc).id) hbody (by rw [hclasses, get?_brought, if_pos hseen, hc]) hid
      have htext : (Line.declare id none none false).toText = "class " ++ id := by
        change ("class " : Text) ++ id ++ [] ++ [] ++ [] = _
        simp
      rw [hopen, Option.map_some, hinclude, htext, ← List.append_assoc] at hread
      rw [if_pos (by simpa using hmem)]
      refine hread.append (ih (p := { p with openNamespace := some { n with classIds := n.classIds ++ [id] } }) hids' rfl hbody ?_
        (fun x => ?_) hnodup')
      · rw [brought_of_mem hseen]
        exact hclasses
      · rw [hknown x, List.mem_append, List.mem_singleton]
        exact ⟨Or.inl, fun hx => hx.elim (fun hx => hx) fun e => e ▸ hseen⟩
    · have hseen : id ∉ seen := fun hs => hmem ((hknown id).2 hs)
      subst hid
      have hread := reads_class ho hm (h.classes hc) hbody (by rw [hclasses, get?_brought_of_not_mem hseen])
      rw [if_neg (by simpa using hmem), hc]
      refine hread.append (ih (p := p.withClass c) hids' ?_ hbody ?_ (fun x => ?_) hnodup')
      · rw [← hinclude]
        exact congrArg (Option.map _) hopen
      · rw [brought_of_not_mem hseen hc, ← hclasses]
        rfl
      · rw [List.mem_cons, List.mem_append, List.mem_singleton, hknown x, or_comm]

/-- a namespace as it is read back, its members in the order of writing -/
def Namespace.settled (o : RenderOptions) (n : Namespace) : Namespace := ⟨n.name, n.ordered o⟩

theorem Namespace.perm_ordered (o : RenderOptions) (n : Namespace) : (n.ordered o).Perm n.classIds :=
  perm_ite_mergeSort _ _ n.classIds

/-- the members of namespaces in the order of writing -/
def groupedIds (o : RenderOptions) (ns : List Namespace) : List Text := ns.flatMap (Namespace.ordered o)

theorem mem_namespaceLines {known : List Text} {ns : List Namespace} (hns : ∀ n ∈ ns, ∀ id ∈ n.classIds, id ∈ d.classes.keys) (id : Text) :
    id ∈ (namespaceLines d o known ns).2 ↔ id ∈ known ∨ id ∈ groupedIds o ns := by
  induction ns generalizing known with
  | nil => simp [namespaceLines, groupedIds]
  | cons n ns ih =>
    have hids : ∀ id ∈ n.ordered o, id ∈ d.classes.keys := fun id hid => hns n (by simp) id ((n.perm_ordered o).subset hid)
    rw [namespaceLines]
    dsimp only
    have hgrouped : groupedIds o (n :: ns) = n.ordered o ++ groupedIds o ns := List.flatMap_cons
    rw [ih fun x hx => hns x (List.mem_cons_of_mem n hx), mem_memberLines hids, hgrouped, List.mem_append, or_assoc]

/-- namespaces are read one by one -/
theorem reads_namespaceLines (h : d.IsPrintable) (ho : '\n' ∉ o.unit) (ns : List Namespace) (known seen : List Text) (hns : ∀ n ∈ ns, n ∈ d.namespaces)
    {p : Progress} (hopen : p.openNamespace = none) (hbody : p.body = none) (hclasses : p.diagram.classes = brought d seen)
    (hknown : ∀ id, id ∈ known ↔ id ∈ seen) :
    Reads Progress.readLine p (namespaceLines d o known ns).1
      { p with diagram := { p.diagram with
        classes := brought d (seen ++ groupedIds o ns), namespaces := p.diagram.namespaces ++ ns.map (Namespace.settled o) } } := by
  induction ns generalizing known seen p with
  | nil =>
    rw [groupedIds, List.flatMap_nil, List.append_nil, List.map_nil, List.append_nil, ← hclasses]
    exact .nil
  | cons n ns ih =>
    have hunit : IsMargin o.unit := o.levels_one ▸ isMargin_levels ho 1
    have hn := h.namespaces n (hns n (by simp))
    have hids : ∀ id ∈ n.ordered o, id ∈ d.classes.keys := fun id hid =>
      h.members n (hns n (by simp)) id ((n.perm_ordered o).subset hid)
    have hname : (o.unit ++ "namespace " ++ n.name ++ " \x7b" : Text) = o.unit ++ (Line.openNamespace n.name).toText := by
      change _ = o.unit ++ (("namespace " : Text) ++ n.name ++ " \x7b")
      simp
    have hopens : (Line.openNamespace n.name).IsPlain := hn.name
    obtain ⟨diagram, open_, body⟩ := p
    obtain rfl : open_ = none := hopen
    obtain rfl : body = none := hbody
    have hclasses : diagram.classes = brought d seen := hclasses
    rw [namespaceLines, hname]
    dsimp only
    rw [List.append_assoc, List.cons_append]
    refine .line hunit (Line.isContent_toText hopens) fun l hlt => ⟨⟨diagram, some ⟨l, n.name, []⟩, none⟩, ?_, ?_⟩
    · rw [readLine_toText rfl hopens hlt]
      rfl
    refine (reads_memberLines (n := ⟨l, n.name, []⟩) h ho (n.ordered o) hids rfl rfl hclasses hknown
      (by simpa using (n.perm_ordered o).nodup_iff.2 hn.nodup)).append ?_
    rw [List.nil_append, List.singleton_append]
    refine Reads.line_of_apply hunit .closeBrace trivial rfl (fun l => rfl) ?_
    have hrest := ih (memberLines d o known (n.ordered o)).2 (seen ++ n.ordered o) (fun x hx => hns x (List.mem_cons_of_mem n hx))
      (p := ⟨{ diagram with
        classes := brought d (seen ++ n.ordered o), namespaces := diagram.namespaces ++ [n.settled o] }, none, none⟩)
      rfl rfl rfl fun id => by rw [mem_memberLines hids, hknown, List.mem_append]
    rw [groupedIds, List.flatMap_cons, List.map_cons, ← List.append_assoc, List.append_cons diagram.namespaces]
    exact hrest

/-! ## Classes on their own -/

/-- classes that have not come before are read one by one -/
theorem reads_classes (ho : '\n' ∉ o.unit) (cs : List Class) (seen : List Text) (hcs : ∀ c ∈ cs, d.classes.get? c.id = some c ∧ c.IsPlain)
    (hnodup : (cs.map Class.id).Nodup) (hfree : ∀ c ∈ cs, c.id ∉ seen) {p : Progress} (hopen : p.openNamespace = none)
    (hbody : p.body = none) (hclasses : p.diagram.classes = brought d seen) :
    Reads Progress.readLine p (cs.flatMap (Class.lines o o.unit)) (p.withClasses (brought d (seen ++ cs.map Class.id))) := by
  induction cs generalizing seen p with
  | nil =>
    rw [List.map_nil, List.append_nil, ← hclasses]
    exact .nil
  | cons c cs ih =>
    have hunit : IsMargin o.unit := o.levels_one ▸ isMargin_levels ho 1
    obtain ⟨hc, hplain⟩ := hcs c (by simp)
    have hseen := hfree c (by simp)
    rw [List.map_cons, List.nodup_cons] at hnodup
    have hread := reads_class ho hunit hplain hbody (by rw [hclasses, get?_brought_of_not_mem hseen])
    obtain ⟨diagram, open_, body⟩ := p
    obtain rfl : open_ = none := hopen
    have hclasses : diagram.classes = brought d seen := hclasses
    rw [List.flatMap_cons, List.map_cons, List.append_cons seen]
    refine hread.append (ih (p := Progress.withClass ⟨diagram, none, body⟩ c) (seen ++ [c.id]) (fun x hx => hcs x (List.mem_cons_of_mem c hx))
      hnodup.2 (fun x hx => ?_) rfl hbody ?_)
    · rw [List.mem_append, List.mem_singleton, not_or]
      exact ⟨hfree x (List.mem_cons_of_mem c hx), fun e => hnodup.1 (e ▸ List.mem_map_of_mem hx)⟩
    · rw [brought_of_not_mem hseen hc, ← hclasses]
      rfl

/-! ## Relationships and notes -/

/-- the classes that relationships name -/
def endIds (rs : List Relationship) : List Text := rs.flatMap fun r => [r.source, r.target]

/-- relationships are read one by one, and bring back the classes that they name -/
theorem reads_relationships (ho : '\n' ∉ o.unit) (rs : List Relationship) (seen : List Text) (hrs : ∀ r ∈ rs, r.IsPlain ∧ r.source ≠ "classDef")
    (hends : ∀ id ∈ endIds rs, id ∈ d.classes.keys ∧ (id ∉ seen → d.classes.get? id = some { id := id, label := id }))
    {p : Progress} (hbody : p.body = none) (hclasses : p.diagram.classes = brought d seen) :
    Reads Progress.readLine p (rs.map fun r => o.unit ++ r.toText)
      { p with diagram := { p.diagram with
        classes := brought d (seen ++ endIds rs), relationships := p.diagram.relationships ++ rs } } := by
  induction rs generalizing seen p with
  | nil =>
    rw [endIds, List.flatMap_nil, List.append_nil, List.append_nil, ← hclasses]
    exact .nil
  | cons r rs ih =>
    have hunit : IsMargin o.unit := o.levels_one ▸ isMargin_levels ho 1
    have hmem : ∀ {id}, id ∈ [r.source, r.target] → id ∈ endIds (r :: rs) := fun hid => by
      rw [endIds, List.flatMap_cons]
      exact List.mem_append_left _ hid
    obtain ⟨hsource, hsource'⟩ := hends r.source (hmem (by simp))
    obtain ⟨htarget, htarget'⟩ := hends r.target (hmem (by simp))
    have hensure : ((p.diagram.ensureClass r.source).ensureClass r.target).classes = brought d (seen ++ [r.source] ++ [r.target]) := by
      have hfirst : (p.diagram.ensureClass r.source).classes = brought d (seen ++ [r.source]) := by
        rw [← insertNew_brought hsource hsource', ← hclasses]
        rfl
      rw [← insertNew_brought htarget fun hid => htarget' fun hs => hid (List.mem_append_left _ hs), ← hfirst]
      rfl
    have hids : seen ++ endIds (r :: rs) = seen ++ [r.source] ++ [r.target] ++ endIds rs := by simp [endIds]
    rw [List.map_cons, hids, List.append_cons p.diagram.relationships]
    have happly : ∀ l, p.apply l (.relate r) = .ok { p with diagram := { p.diagram with
        classes := brought d (seen ++ [r.source] ++ [r.target]), relationships := p.diagram.relationships ++ [r] } } := by
      intro l
      rw [← hensure]
      rfl
    refine Reads.line_of_apply hunit (.relate r) (hrs r (by simp)) hbody happly
      (ih (seen ++ [r.source] ++ [r.target]) (fun x hx => hrs x (List.mem_cons_of_mem r hx)) (fun id hid => ?_) hbody rfl)
    · have hid' : id ∈ endIds (r :: rs) := by
        rw [endIds, List.flatMap_cons]
        exact List.mem_append_right _ hid
      exact ⟨(hends id hid').1, fun hn => (hends id hid').2 fun hs => hn (by simp [hs])⟩

/-- notes are read one by one -/
theorem reads_notes (ho : '\n' ∉ o.unit) (ns : List Note) (hns : ∀ n ∈ ns, (Line.note n).IsPlain) {p : Progress}
    (hbody : p.body = none) :
    Reads Progress.readLine p (ns.map fun n => o.unit ++ n.toText)
      { p with diagram := { p.diagram with notes := p.diagram.notes ++ ns } } := by
  induction ns generalizing p with
  | nil =>
    rw [List.append_nil]
    exact .nil
  | cons n ns ih =>
    have hunit : IsMargin o.unit := o.levels_one ▸ isMargin_levels ho 1
    rw [List.map_cons, List.append_cons p.diagram.notes]
    exact Reads.line_of_apply hunit (.note n) (hns n (by simp)) hbody (fun l => rfl)
      (ih (fun x hx => hns x (List.mem_cons_of_mem n hx)) hbody)

/-! ## Texts and style classes -/

/-- lines of one kind are read one by one; `make` says which state has read what -/
theorem reads_lines {α β : Type} (ho : '\n' ∉ o.unit) (make : β → Progress) (line : α → Line) (act : β → α → β) {xs : List α}
    (hxs : ∀ x ∈ xs, (line x).IsPlain) (hbody : ∀ b, (make b).body = none)
    (happly : ∀ b x l, (make b).apply l (line x) = .ok (make (act b x))) (b : β) :
    Reads Progress.readLine (make b) (xs.map fun x => o.unit ++ (line x).toText) (make (xs.foldl act b)) := by
  have hunit : IsMargin o.unit := o.levels_one ▸ isMargin_levels ho 1
  refine Reads.foldl_make make hunit (fun x hx => ?_) b
  have hcontent := Line.isContent_toText (hxs x hx)
  refine ⟨hcontent.isLine, fun _ => hcontent.semicolon, fun b l hl => ?_⟩
  rw [readLine_toText (hbody b) (hxs x hx) hl, happly]

/-- texts are read if they are not empty -/
theorem reads_texts (ho : '\n' ∉ o.unit) (d : ClassDiagram) {a : Accessibility}
    (ha : ∀ line ∈ a.written, line.value ≠ [] ∧ IsLineText line.value) :
    Reads Progress.readLine ⟨{ d with accessibility := {} }, none, none⟩ (a.lines o.unit)
      ⟨{ d with accessibility := a.settled }, none, none⟩ := by
  have hplain : ∀ line ∈ a.written, (Line.accessibility line).IsPlain := by
    intro line hline
    have hvalue := ha line hline
    cases line <;> exact hvalue
  have hread := reads_lines ho (fun a => ⟨{ d with accessibility := a }, none, none⟩) Line.accessibility Accessibility.put hplain
    (fun _ => rfl) (fun _ _ _ => rfl) {}
  rw [Accessibility.foldl_put_written] at hread
  rw [Accessibility.lines_eq]
  exact hread

/-- style classes are read one by one -/
theorem reads_classDefs (ho : '\n' ∉ o.unit) (d : ClassDiagram) {e : Entries Style}
    (he : ∀ x ∈ e.toList, (Line.classDef x.1 x.2).IsPlain) :
    Reads Progress.readLine ⟨{ d with classDefs := .empty }, none, none⟩
      (e.toList.map fun (name, style) => trimRight (o.unit ++ "classDef " ++ name ++ " " ++ style.toText))
      ⟨{ d with classDefs := e }, none, none⟩ := by
  have hread := reads_lines ho (fun e => ⟨{ d with classDefs := e }, none, none⟩) (fun x : Text × Style => Line.classDef x.1 x.2)
    (fun e x => e.insert x.1 x.2) he (fun _ => rfl) (fun _ _ _ => rfl) .empty
  have hfold : e.toList.foldl (fun e x => e.insert x.1 x.2) .empty = e := Entries.update_toList e
  rw [hfold] at hread
  refine (List.map_congr_left fun x _ => ?_) ▸ hread
  change o.unit ++ trimRight ("classDef " ++ x.1 ++ " " ++ x.2.toText) = trimRight (o.unit ++ "classDef " ++ x.1 ++ " " ++ x.2.toText)
  simp only [List.append_assoc]
  exact (trimRight_margin o.unit (startsWith_append _ (by decide : Scan.startsWith isMark ("classDef " : Text) = true))).symm

/-- the style classes of classes are read one by one -/
theorem reads_cssClasses (ho : '\n' ∉ o.unit) (d : ClassDiagram) {e : Entries (List Text)}
    (he : ∀ x ∈ e.toList, Entries.IsAssigned IsListed IsId x) :
    Reads Progress.readLine ⟨{ d with cssClasses := .empty }, none, none⟩
      (e.toList.flatMap fun (id, names) => names.map fun name => o.unit ++ "cssClass \"" ++ id ++ "\" " ++ name)
      ⟨{ d with cssClasses := e }, none, none⟩ := by
  have hplain : ∀ x ∈ e.toList.flatMap fun x => x.2.map (x.1, ·), (Line.cssClass [x.1] x.2).IsPlain := by
    intro y hy
    obtain ⟨x, hx, hy⟩ := List.mem_flatMap.1 hy
    obtain ⟨name, hname, rfl⟩ := List.mem_map.1 hy
    exact ⟨⟨x.1, rfl, (he x hx).key⟩, (he x hx).member name hname⟩
  have hread := reads_lines ho (fun e => ⟨{ d with cssClasses := e }, none, none⟩)
    (fun x : Text × Text => Line.cssClass [x.1] x.2) (fun e x => e.assign x.1 x.2) hplain (fun _ => rfl) (fun _ _ _ => rfl) .empty
  rw [Entries.foldl_assign_toList fun x hx => ⟨(he x hx).ne_nil, (he x hx).distinct⟩, List.map_flatMap] at hread
  refine (List.flatMap_congr fun x _ => ?_) ▸ hread
  rw [List.map_map]
  refine List.map_congr_left fun name _ => ?_
  change o.unit ++ (("cssClass \"" : Text) ++ join "," [x.1] ++ "\" " ++ name) = _
  rw [join_singleton]
  simp only [List.append_assoc]

end DiagramText.ClassDiagram

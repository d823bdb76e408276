/-
Class diagrams that are read. Whatever a line says is spelled as one of its kind has to be (`isTaken_of_read?`,
`BodyLine.isTaken_read`), in a class body as outside one, and each line leaves a diagram whose parts were all said in this
way (`IsTaken`). That is nearly what a diagram that can be written needs; what is missing is said in `IsLegible`.
-/
import DiagramText.Proofs.Closed
import DiagramText.Proofs.ClassDiagram.RoundTrip

namespace DiagramText.ClassDiagram

open DiagramText.Text
open Scan (orElse_eq_some_iff)

/-! ## What lines say -/

/-- a member that a text is read as -/
def Member.IsTaken (m : Member) : Prop := ∃ t : Text, '\n' ∉ t ∧ Member.read? t = some m

/-- a stereotype that stood between its brackets, perhaps with nothing but white space in it -/
structure IsBracketed (t : Text) : Prop where
  trimmed : trim t = t
  bracket : '>' ∉ t
  lineFeed : '\n' ∉ t

/-- what a line outside class bodies says, as it is read -/
def Line.IsTaken : Line → Prop
  | .accessibility line => trim line.value = line.value ∧ '\n' ∉ line.value
  | .direction _ | .closeBrace => True
  | .openNamespace name => name ≠ [] ∧ name.all isNamespaceChar = true
  | .declare id generic label _ =>
    IsId id ∧ (∀ g, generic = some g → g ≠ [] ∧ '~' ∉ g ∧ '\n' ∉ g) ∧ ∀ t, label = some t → IsQuotable t
  | .annotate id stereotype => IsId id ∧ IsBracketed stereotype
  | .note n => (∀ id, n.forClass = some id → IsId id) ∧ IsQuotable n.text
  | .classDef name style => IsId name ∧ style.IsPlain
  | .cssClass ids name => (∀ id ∈ ids, IsListed id) ∧ IsId name
  | .relate r => r.IsSpelled
  | .member id m => IsId id ∧ ∀ x, m = some x → x.IsTaken

/-- what a line in a class body says, as it is read -/
def BodyLine.IsTaken : BodyLine → Prop
  | .close => True
  | .stereotype text => IsBracketed text
  | .member m => ∀ x, m = some x → x.IsTaken

section

variable {t rest : Text} {l : Line}

theorem generic_subset (t : Text) :
    (∀ g, (generic t).1 = some g → g ≠ [] ∧ '~' ∉ g ∧ g ⊆ t) ∧ (generic t).2 ⊆ t := by
  unfold generic
  split
  · rename_i r
    split
    · rename_i c param rest hspan
      obtain ⟨hparam, hrest⟩ := span_eq_subset hspan
      refine ⟨fun g hg => ?_, fun x hx => List.mem_cons_of_mem _ (hrest (List.mem_cons_of_mem _ hx))⟩
      obtain rfl := Option.some.inj hg
      refine ⟨by simp, fun hm => ?_, fun x hx => List.mem_cons_of_mem _ (hparam hx)⟩
      exact absurd (List.all_eq_true.1 (all_of_span_eq hspan) _ hm) (by decide)
    · exact ⟨nofun, List.Subset.refl _⟩
  · exact ⟨nofun, List.Subset.refl _⟩

theorem stereotype?_subset {text : Text} (hl : '\n' ∉ t) (h : stereotype? t = some (text, rest)) :
    IsBracketed text ∧ rest ⊆ t := by
  obtain ⟨r, hr, h⟩ := Option.bind_eq_some_iff.1 h
  have hsub := dropPrefix?_subset hr
  split at h
  · rename_i c text' rest' hspan
    obtain ⟨rfl, rfl⟩ := Prod.mk.inj (Option.some.inj h)
    obtain ⟨htext, hrest⟩ := span_eq_subset hspan
    refine ⟨⟨trim_trim _, fun hm => ?_, fun hm => hl (hsub (htext (mem_of_mem_trim hm)))⟩, fun x hx => ?_⟩
    · exact absurd (List.all_eq_true.1 (all_of_span_eq hspan) _ (mem_of_mem_trim hm)) (by decide)
    · exact hsub (hrest (List.mem_cons_of_mem _ (List.mem_cons_of_mem _ hx)))
  · exact absurd h (by simp)

/-- the items of a quoted list -/
theorem isListed_of_mem_items {token id : Text} (hl : '\n' ∉ t) (h : Scan.quoted? t = some (token, rest))
    (hid : id ∈ items ',' token.tail.dropLast) : IsListed id := by
  obtain ⟨inner, rfl, hinner⟩ := exists_inner_of_quoted? h
  have htail : ('"' :: inner ++ ['"']).tail.dropLast = inner := by simp
  rw [htail] at hid
  obtain ⟨hitem, hsub⟩ := isItem_of_mem_items hid
  refine ⟨hitem.tight, ⟨hitem.separator, fun hm => hinner (hsub hm)⟩, fun hm => hl ?_⟩
  exact (Scan.quoted?_subset h).1 (by simp [hsub hm])

variable (hl : '\n' ∉ t)
include hl

theorem isQuotable_of_bracketedLabel {u : Text} (h : (bracketedLabel t).1 = some u) : IsQuotable u := by
  unfold bracketedLabel at h
  split at h
  · rename_i r hr
    have hsub : r ⊆ t := fun x hx => Scan.blanks_subset t (hr ▸ List.mem_cons_of_mem _ hx)
    split at h
    · rename_i token rest hquoted
      obtain rfl := Option.some.inj h
      exact isQuotable_unquote hquoted fun hm => hl (hsub hm)
    · exact absurd h (by simp)
  · exact absurd h (by simp)

theorem isTaken_of_declaration? (h : declaration? t = some l) : l.IsTaken := by
  obtain ⟨⟨id, rest⟩, hid, h⟩ := Option.bind_eq_some_iff.1 h
  obtain ⟨r, hr, hid⟩ := Option.bind_eq_some_iff.1 hid
  obtain ⟨hid, hrest⟩ := isId_of_run? hid
  have hsub : rest ⊆ t := List.Subset.trans hrest (Scan.word?_subset hr)
  obtain ⟨hparameter, hafter⟩ := generic_subset rest
  dsimp only at h
  obtain ⟨-, h⟩ := Option.ite_none_right_eq_some.1 h
  obtain rfl := Option.some.inj h
  refine ⟨hid, fun g hg => ?_, fun u hu => ?_⟩
  · obtain ⟨hne, htilde, hg⟩ := hparameter g hg
    exact ⟨hne, htilde, fun hm => hl (hsub (hg hm))⟩
  · exact isQuotable_of_bracketedLabel (fun hm => hl (hsub (hafter hm))) hu

omit hl in
theorem isTaken_of_namespace? (h : namespace? t = some l) : l.IsTaken := by
  obtain ⟨⟨name, rest⟩, hname, h⟩ := Option.bind_eq_some_iff.1 h
  obtain ⟨r, -, hname⟩ := Option.bind_eq_some_iff.1 hname
  obtain ⟨-, h⟩ := Option.ite_none_right_eq_some.1 h
  obtain ⟨hne, hall, -⟩ := Scan.run?_eq_some hname
  exact Option.some.inj h ▸ ⟨hne, hall⟩

theorem isTaken_of_outerStereotype? (h : outerStereotype? t = some l) : l.IsTaken := by
  obtain ⟨⟨text, rest⟩, htext, h⟩ := Option.bind_eq_some_iff.1 h
  obtain ⟨id, hid, rfl⟩ := Option.map_eq_some_iff.1 h
  obtain ⟨r, -, hid⟩ := Option.bind_eq_some_iff.1 hid
  exact ⟨isId_of_whole? hid, (stereotype?_subset hl htext).1⟩

theorem isQuotable_of_soleQuoted? {u : Text} (h : soleQuoted? t = some u) : IsQuotable u := by
  obtain ⟨⟨token, rest⟩, hquoted, h⟩ := Option.bind_eq_some_iff.1 h
  obtain ⟨-, h⟩ := Option.ite_none_right_eq_some.1 h
  exact Option.some.inj h ▸ isQuotable_unquote hquoted hl

theorem isTaken_of_noteFor? (h : noteFor? t = some l) : l.IsTaken := by
  obtain ⟨⟨id, rest⟩, hid, h⟩ := Option.bind_eq_some_iff.1 h
  obtain ⟨text, htext, rfl⟩ := Option.map_eq_some_iff.1 h
  obtain ⟨r, hr, hid⟩ := Option.bind_eq_some_iff.1 hid
  obtain ⟨u, hu, hr⟩ := Option.bind_eq_some_iff.1 hr
  obtain ⟨v, hv, htext⟩ := Option.bind_eq_some_iff.1 htext
  obtain ⟨hid, hrest⟩ := isId_of_run? hid
  have hsub : v ⊆ t := List.Subset.trans (Scan.blanks?_subset hv)
    (List.Subset.trans hrest (List.Subset.trans (Scan.word?_subset hr) (Scan.word?_subset hu)))
  exact ⟨fun k hk => Option.some.inj hk ▸ hid, isQuotable_of_soleQuoted? (fun hm => hl (hsub hm)) htext⟩

theorem isTaken_of_freeNote? (h : freeNote? t = some l) : l.IsTaken := by
  obtain ⟨text, htext, rfl⟩ := Option.map_eq_some_iff.1 h
  obtain ⟨r, hr, htext⟩ := Option.bind_eq_some_iff.1 htext
  exact ⟨nofun, isQuotable_of_soleQuoted? (fun hm => hl (Scan.word?_subset hr hm)) htext⟩

theorem isTaken_of_classDef? (h : classDef? t = some l) : l.IsTaken := by
  obtain ⟨⟨name, rest⟩, hname, h⟩ := Option.bind_eq_some_iff.1 h
  obtain ⟨props, hprops, rfl⟩ := Option.map_eq_some_iff.1 h
  obtain ⟨r, hr, hname⟩ := Option.bind_eq_some_iff.1 hname
  obtain ⟨hname, hrest⟩ := isId_of_run? hname
  refine ⟨hname, Style.isPlain_ofText fun hm => hl ?_⟩
  exact Scan.word?_subset hr (hrest (Scan.optionalRest?_subset hprops hm))

theorem isTaken_of_cssClass? (h : cssClass? t = some l) : l.IsTaken := by
  obtain ⟨⟨token, rest⟩, htoken, h⟩ := Option.bind_eq_some_iff.1 h
  obtain ⟨r, hr, htoken⟩ := Option.bind_eq_some_iff.1 htoken
  obtain ⟨-, h⟩ := Option.ite_none_left_eq_some.1 h
  obtain ⟨name, hname, rfl⟩ := Option.map_eq_some_iff.1 h
  obtain ⟨u, -, hname⟩ := Option.bind_eq_some_iff.1 hname
  exact ⟨fun id hid => isListed_of_mem_items (fun hm => hl (Scan.word?_subset hr hm)) htoken hid, isId_of_whole? hname⟩

theorem isTaken_of_inlineMember? (h : inlineMember? t = some l) : l.IsTaken := by
  obtain ⟨⟨id, rest⟩, hid, h⟩ := Option.bind_eq_some_iff.1 h
  obtain ⟨text, htext, h⟩ := Option.bind_eq_some_iff.1 h
  obtain ⟨-, h⟩ := Option.ite_none_left_eq_some.1 h
  obtain ⟨hid, hrest⟩ := isId_of_run? hid
  have hsub : text ⊆ t := List.Subset.trans (Scan.afterColon?_subset htext) hrest
  exact Option.some.inj h ▸ ⟨hid, fun m hm => ⟨text, fun hn => hl (hsub hn), hm⟩⟩

/-- **what a line says is spelled as it has to be** -/
theorem isTaken_of_read? (h : Line.read? t = some l) : l.IsTaken := by
  simp only [Line.read?, orElse_eq_some_iff] at h
  rcases h with
    h | ⟨-, h | ⟨-, h | ⟨-, h | ⟨-, h | ⟨-, h | ⟨-, h | ⟨-, h | ⟨-, h | ⟨-, h | ⟨-, h | ⟨-, h⟩⟩⟩⟩⟩⟩⟩⟩⟩⟩⟩
  · obtain ⟨line, hline, rfl⟩ := Option.map_eq_some_iff.1 h
    obtain ⟨htrim, hsub⟩ := Accessibility.value_of_line? hline
    exact ⟨htrim, fun hm => hl (hsub hm)⟩
  · obtain ⟨x, -, rfl⟩ := Option.map_eq_some_iff.1 h
    trivial
  · exact isTaken_of_namespace? h
  · obtain ⟨-, h⟩ := Option.ite_none_right_eq_some.1 h
    exact Option.some.inj h ▸ trivial
  · exact isTaken_of_declaration? hl h
  · exact isTaken_of_outerStereotype? hl h
  · exact isTaken_of_noteFor? hl h
  · exact isTaken_of_freeNote? hl h
  · exact isTaken_of_classDef? hl h
  · exact isTaken_of_cssClass? hl h
  · obtain ⟨r, hr, rfl⟩ := Option.map_eq_some_iff.1 h
    exact Relationship.isSpelled_of_read? hl hr
  · exact isTaken_of_inlineMember? hl h

/-- **what a line of a class body says** is spelled as it has to be -/
theorem BodyLine.isTaken_read : (BodyLine.read t).IsTaken := by
  unfold BodyLine.read
  split
  · trivial
  · split
    · rename_i text h
      exact (stereotype?_subset hl h).1
    · exact fun m hm => ⟨t, hl, hm⟩

end

/-! ## What the parts of a diagram are -/

/-- a class of which every part was said by a line -/
structure Class.IsTaken (c : Class) : Prop where
  id : IsId c.id
  label : IsQuotable c.label
  generic : ∀ g, c.generic = some g → g ≠ [] ∧ '~' ∉ g ∧ '\n' ∉ g
  stereotype : ∀ t, c.stereotype = some t → IsBracketed t
  attributes : ∀ m ∈ c.attributes, m.IsTaken ∧ m.isMethod = false
  methods : ∀ m ∈ c.methods, m.IsTaken ∧ m.isMethod = true

/-- a diagram of which every part was said by a line -/
structure IsTaken (d : ClassDiagram) : Prop where
  classes : ∀ {id c}, d.classes.get? id = some c → c.id = id ∧ c.IsTaken
  relationships : ∀ r ∈ d.relationships, r.IsSpelled
  namespaces : ∀ n ∈ d.namespaces, n.IsPlain
  notes : ∀ n ∈ d.notes, (∀ id, n.forClass = some id → IsId id) ∧ IsQuotable n.text
  classDefs : ∀ x ∈ d.classDefs.toList, IsId x.1 ∧ x.2.IsPlain
  cssClasses : ∀ x ∈ d.cssClasses.toList, Entries.IsAssigned IsListed IsId x
  accessibility : ∀ line ∈ d.accessibility.written, trim line.value = line.value ∧ '\n' ∉ line.value

/-- a class of which nothing is known but its id -/
theorem Class.isTaken_new {id : Text} (h : IsId id) : Class.IsTaken { id := id, label := id } :=
  ⟨h, h.isQuotable, nofun, nofun, nofun, nofun⟩

theorem Class.IsTaken.addMember {c : Class} (h : c.IsTaken) {m : Member} (hm : m.IsTaken) : (c.addMember m).IsTaken := by
  unfold Class.addMember
  cases hmethod : m.isMethod with
  | true => exact { h with methods := List.forall_mem_append.2 ⟨h.methods, List.forall_mem_singleton.2 ⟨hm, hmethod⟩⟩ }
  | false => exact { h with attributes := List.forall_mem_append.2 ⟨h.attributes, List.forall_mem_singleton.2 ⟨hm, hmethod⟩⟩ }

/-- a member that is said is added, and a blank text adds none -/
theorem Class.IsTaken.addMember? {c : Class} (h : c.IsTaken) {m : Option Member} (hm : ∀ x, m = some x → x.IsTaken) :
    ((m.map c.addMember).getD c).IsTaken ∧ ((m.map c.addMember).getD c).id = c.id := by
  cases m with
  | none => exact ⟨h, rfl⟩
  | some m =>
    refine ⟨h.addMember (hm m rfl), ?_⟩
    change (c.addMember m).id = c.id
    unfold Class.addMember
    split <;> rfl

namespace IsTaken

variable {d : ClassDiagram} (h : d.IsTaken)
include h

/-- a class that is changed, or created -/
theorem alterClass {id : Text} (hid : IsId id) {f : Class → Class}
    (hf : ∀ c : Class, c.id = id → c.IsTaken → (f c).IsTaken ∧ (f c).id = id) : (d.alterClass id f).IsTaken := by
  refine { h with classes := fun {k c} hc => ?_ }
  rw [ClassDiagram.alterClass, Entries.get?_alter] at hc
  split at hc
  · rename_i e
    obtain rfl := Option.some.inj hc
    cases hget : d.classes.get? id with
    | none => exact e ▸ (hf _ rfl (Class.isTaken_new hid)).symm
    | some c => exact e ▸ (hf c (h.classes hget).1 (h.classes hget).2).symm
  · exact h.classes hc

theorem ensureClass {id : Text} (hid : IsId id) : (d.ensureClass id).IsTaken := by
  refine { h with classes := fun {k c} hc => ?_ }
  obtain ⟨rfl, rfl⟩ | hc := Entries.get?_insertNew_cases hc
  · exact ⟨rfl, Class.isTaken_new hid⟩
  · exact h.classes hc

end IsTaken

/-! ## Lines leave what they say -/

namespace Progress

variable {p q : Progress} {l : SourceLine}

/-- what has been read so far, with the open namespace and the open class body -/
structure IsTaken (p : Progress) : Prop where
  diagram : p.diagram.IsTaken
  openNamespace : ∀ n ∈ p.openNamespace, Namespace.IsPlain ⟨n.name, n.classIds⟩
  body : ∀ x ∈ p.body, IsId x.1

namespace IsTaken

/-- a declaration gives a class what it names -/
theorem declare {c : Class} (h : c.IsTaken) {id : Text} {parameter label : Option Text} {opensBody : Bool}
    (hline : (Line.declare id parameter label opensBody).IsTaken) : (Progress.declare id parameter label c).IsTaken := by
  obtain ⟨hid, hparameter, hlabel⟩ := hline
  refine { h with id := hid, label := ?_, generic := fun g hg => ?_ }
  · cases label with
    | none => exact h.label
    | some t => exact hlabel t rfl
  · rcases orElse_eq_some_iff.1 hg with hg | ⟨-, hg⟩
    · exact hparameter g hg
    · exact h.generic g hg

theorem include_ {n : OpenNamespace} (h : Namespace.IsPlain ⟨n.name, n.classIds⟩) (id : Text) :
    Namespace.IsPlain ⟨(Progress.include_ id n).name, (Progress.include_ id n).classIds⟩ := by
  unfold Progress.include_
  split
  · exact h
  · rename_i hnew
    refine ⟨h.name, List.nodup_append.2 ⟨h.nodup, List.nodup_singleton id, ?_⟩⟩
    rintro a ha b hb rfl
    exact hnew (List.contains_iff_mem.2 (List.mem_singleton.1 hb ▸ ha))

theorem apply (h : p.IsTaken) {line : Line} (hline : line.IsTaken) (hq : p.apply l line = .ok q) : q.IsTaken := by
  cases line with
  | accessibility line =>
    obtain rfl := Except.ok.inj hq
    refine ⟨{ h.diagram with accessibility := fun x hx => ?_ }, h.openNamespace, h.body⟩
    rcases Accessibility.mem_written_put hx with ⟨rfl, -⟩ | hx
    · exact hline
    · exact h.diagram.accessibility x hx
  | direction token =>
    rw [Progress.apply] at hq
    split at hq
    · obtain rfl := Except.ok.inj hq
      exact ⟨{ h.diagram with }, h.openNamespace, h.body⟩
    · cases hq
  | openNamespace name =>
    rw [Progress.apply] at hq
    split at hq
    · cases hq
    · obtain rfl := Except.ok.inj hq
      refine ⟨h.diagram, fun n hn => ?_, h.body⟩
      obtain rfl := Option.some.inj hn
      exact ⟨hline, List.nodup_nil⟩
  | closeBrace =>
    rw [Progress.apply, closeNamespace] at hq
    split at hq
    · cases hq
    · rename_i n hn
      obtain rfl := Except.ok.inj hq
      have hnew := List.forall_mem_append.2 ⟨h.diagram.namespaces, List.forall_mem_singleton.2 (h.openNamespace n hn)⟩
      exact ⟨{ h.diagram with namespaces := hnew }, by simp, h.body⟩
  | declare id parameter label opensBody =>
    obtain rfl := Except.ok.inj hq
    refine ⟨h.diagram.alterClass hline.1 fun c _ hc => ⟨declare hc hline, rfl⟩, fun n hn => ?_, fun x hx => ?_⟩
    · obtain ⟨n', hn', rfl⟩ := Option.map_eq_some_iff.1 hn
      exact include_ (h.openNamespace n' hn') id
    · obtain ⟨-, hx⟩ := Option.ite_none_right_eq_some.1 hx
      exact Option.some.inj hx ▸ hline.1
  | annotate id text =>
    obtain rfl := Except.ok.inj hq
    refine ⟨h.diagram.alterClass hline.1 fun c hid hc => ⟨{ hc with stereotype := fun t ht => ?_ }, hid⟩, h.openNamespace, h.body⟩
    exact Option.some.inj ht ▸ hline.2
  | note n =>
    obtain rfl := Except.ok.inj hq
    have hnew := List.forall_mem_append.2 ⟨h.diagram.notes, List.forall_mem_singleton.2 hline⟩
    exact ⟨{ h.diagram with notes := hnew }, h.openNamespace, h.body⟩
  | classDef name style =>
    obtain rfl := Except.ok.inj hq
    refine ⟨{ h.diagram with classDefs := fun x hx => ?_ }, h.openNamespace, h.body⟩
    rcases Entries.mem_put hx with rfl | hx
    · exact hline
    · exact h.diagram.classDefs x hx
  | cssClass ids name =>
    obtain rfl := Except.ok.inj hq
    refine ⟨{ h.diagram with cssClasses := ?_ }, h.openNamespace, h.body⟩
    exact List.foldlRecOn (motive := fun e : Entries (List Text) => ∀ x ∈ e.toList, Entries.IsAssigned IsListed IsId x) ids _
      h.diagram.cssClasses fun e he id hid => Entries.isAssigned_assign he (hline.1 id hid) hline.2
  | relate r =>
    obtain rfl := Except.ok.inj hq
    have hknown := (h.diagram.ensureClass hline.source).ensureClass hline.target
    have hnew := List.forall_mem_append.2 ⟨hknown.relationships, List.forall_mem_singleton.2 hline⟩
    exact ⟨{ hknown with relationships := hnew }, h.openNamespace, h.body⟩
  | member id m =>
    obtain rfl := Except.ok.inj hq
    refine ⟨h.diagram.alterClass hline.1 fun c hid hc => ?_, h.openNamespace, h.body⟩
    exact (hc.addMember? hline.2).imp_right fun e => e.trans hid

theorem applyInBody (h : p.IsTaken) {id : Text} (hid : IsId id) {line : BodyLine} (hline : line.IsTaken) :
    (p.applyInBody id line).IsTaken := by
  cases line with
  | close => exact ⟨h.diagram, h.openNamespace, by simp [Progress.applyInBody]⟩
  | stereotype text =>
    refine ⟨h.diagram.alterClass hid fun c hid hc => ⟨{ hc with stereotype := fun t ht => ?_ }, hid⟩, h.openNamespace, h.body⟩
    exact Option.some.inj ht ▸ hline
  | member m =>
    refine ⟨h.diagram.alterClass hid fun c hid hc => ?_, h.openNamespace, h.body⟩
    exact (hc.addMember? hline).imp_right fun e => e.trans hid

theorem readLine (h : p.IsTaken) (hl : '\n' ∉ l.text) (hq : p.readLine l = .ok q) : q.IsTaken := by
  unfold Progress.readLine at hq
  split at hq
  · rename_i id opened hbody
    obtain rfl := Except.ok.inj hq
    exact h.applyInBody (h.body _ hbody) (BodyLine.isTaken_read hl)
  · split at hq
    · rename_i line hline
      exact h.apply (isTaken_of_read? hl hline) hq
    · cases hq

end IsTaken

end Progress

/-- **every part of a diagram that is read was said by a line** -/
theorem isTaken_of_read {text : Text} {d : ClassDiagram} (h : read text = .ok d) : d.IsTaken := by
  obtain ⟨p, hrun, hfinish⟩ := exceptBind_eq_ok_iff.1 h
  have hstart : Progress.IsTaken ⟨{}, none, none⟩ :=
    ⟨⟨nofun, nofun, nofun, nofun, nofun, nofun, by simp [Accessibility.written, present]⟩, by simp, by simp⟩
  have htaken : p.IsTaken := invariant_of_foldlM (fun l hl _ _ hp hq =>
    hp.readLine (isLine_of_mem_sourceLines (body_subset .classDiagram _ hl)).lineFeed hq) hstart hrun
  unfold Progress.finish at hfinish
  split at hfinish
  · cases hfinish
  · cases hfinish
  · exact Except.ok.inj hfinish ▸ htaken.diagram

end DiagramText.ClassDiagram

/-
Building class diagrams. `Call.account` says which names a call refers to and which it declares, in namespaces too; a class
that a member or an annotation has created is not declared by that. `Call.records` is the step lemma: a call enters exactly
its account, and every declared class stands in the diagram.
-/
import DiagramText.ClassDiagram.Builder
import DiagramText.Proofs.Entries
import DiagramText.Proofs.Ledger

namespace DiagramText.ClassDiagram

variable {P Q : Text → Prop}

/-! ## What calls say about names -/

/-- what a call on a namespace says about names -/
def NamespaceCall.account : NamespaceCall → Account
  | .declare c => { entities := [c.id] }
  | .member id text => { references := [.entity ("member " ++ id ++ " : " ++ text) id] }

/-- what a call says about names -/
def Call.account : Call → Account
  | .declare c => { entities := [c.id] }
  | .member id text => { references := [.entity ("member " ++ id ++ " : " ++ text) id] }
  | .annotate id text => { references := [.entity ("<<" ++ text ++ ">> " ++ id) id] }
  | .relate r =>
    let construct := "relation " ++ r.source ++ " -- " ++ r.target
    { references := [.entity construct r.source, .entity construct r.target] }
  | .group _ body => .concat (body.map NamespaceCall.account)
  | .note n => { references := n.forClass.toList.map fun id => .entity ("note for " ++ id) id }
  | .defineClass name _ => { classDefs := [name] }
  | .assignClass id name =>
    let construct := "cssClass \"" ++ id ++ "\" " ++ name
    { references := [.entity construct id, .classDef construct name] }
  | .describe _ => {}

/-! ## Which names the parts of a diagram refer to -/

/-- every name that a part of the diagram refers to is one of these classes or style classes -/
structure RefersOnlyTo (P Q : Text → Prop) (d : ClassDiagram) : Prop where
  related : ∀ r ∈ d.relationships, P r.source ∧ P r.target
  grouped : ∀ n ∈ d.namespaces, ∀ id ∈ n.classIds, P id
  noted : ∀ n ∈ d.notes, ∀ id ∈ n.forClass, P id
  assigned : ∀ x ∈ d.cssClasses.toList, Entries.IsAssigned P Q x

theorem RefersOnlyTo.mono {P' Q' : Text → Prop} {d : ClassDiagram} (h : d.RefersOnlyTo P Q) (hP : ∀ id, P id → P' id)
    (hQ : ∀ name, Q name → Q' name) : d.RefersOnlyTo P' Q' where
  related r hr := ⟨hP _ (h.related r hr).1, hP _ (h.related r hr).2⟩
  grouped n hn id hid := hP id (h.grouped n hn id hid)
  noted n hn id hid := hP id (h.noted n hn id hid)
  assigned x hx := (h.assigned x hx).mono hP hQ

/-! ## Calls enter their accounts -/

namespace Builder

/-- references and declared names of a diagram under construction; what is declared stands in the diagram -/
def ledger : Ledger Builder where
  log := Builder.log
  entities := Builder.declared
  classDefs b := b.diagram.classDefs.keys
  Sound b := ∀ id ∈ b.declared, id ∈ b.diagram.classes.keys
  Within P Q b := b.diagram.RefersOnlyTo P Q

variable {b : Builder}

/-- a change of the diagram that declares no name and takes no class away, after references -/
theorem records_update {refs : List Reference} {f : ClassDiagram → ClassDiagram}
    (hkeys : ∀ id ∈ b.diagram.classes.keys, id ∈ (f b.diagram).classes.keys)
    (hclasses : (f b.diagram).classDefs = b.diagram.classDefs)
    (hwithin : ∀ {P Q}, b.diagram.RefersOnlyTo P Q → (∀ r ∈ refs, r.IsKnown P Q) → (f b.diagram).RefersOnlyTo P Q) :
    ledger.Records { references := refs } b ((b.mention refs).update f) where
  sound h id hid := hkeys id (h id hid)
  log := rfl
  entities _ id := by simp [ledger, mention, update]
  classDefs name := by
    change name ∈ (f b.diagram).classDefs.keys ↔ _
    rw [hclasses]
    simp [ledger]
  within h hrefs _ := hwithin h hrefs

theorem mem_keys_alterClass {d : ClassDiagram} {id k : Text} {f : Class → Class} :
    k ∈ (d.alterClass id f).classes.keys ↔ k ∈ d.classes.keys ∨ k = id := Entries.mem_keys_insert

/-- a change of a class after a reference to it -/
theorem records_alterClass (construct id : Text) (f : Class → Class) :
    ledger.Records { references := [.entity construct id] } b ((b.mention [.entity construct id]).update (·.alterClass id f)) :=
  records_update (fun _ hk => mem_keys_alterClass.2 (Or.inl hk)) rfl fun h _ => { h with }

theorem mem_declared_declare {c : Declaration} {id : Text} : id ∈ (b.declare c).declared ↔ id ∈ b.declared ∨ id = c.id :=
  Entries.mem_addTo

theorem records_declare (c : Declaration) : ledger.Records { entities := [c.id] } b (b.declare c) where
  sound h id hid := mem_keys_alterClass.2 ((mem_declared_declare.1 hid).imp_left (h id))
  log := (List.append_nil _).symm
  entities _ id := mem_declared_declare.trans (or_congr_right List.mem_singleton.symm)
  classDefs name := by simp [ledger, declare, alterClass]
  within h _ _ := { h with }

theorem records_member (k text : Text) :
    ledger.Records { references := [.entity ("member " ++ k ++ " : " ++ text) k] } b (b.member k text) := by
  unfold member
  split
  · exact records_alterClass _ k _
  · exact records_update (f := id) (fun _ => id) rfl fun h _ => h

end Builder

theorem NamespaceCall.records (b : Builder) : (c : NamespaceCall) → Builder.ledger.Records c.account b (c.run b)
  | .declare c => Builder.records_declare c
  | .member id text => Builder.records_member id text

/-- the members of a namespace are declared in it -/
theorem mem_declaredIds {body : List NamespaceCall} {ids : List Text} {id : Text} (h : id ∈ declaredIds body ids) :
    id ∈ ids ∨ id ∈ (Account.concat (body.map NamespaceCall.account)).entities := by
  induction body generalizing ids with
  | nil => exact Or.inl h
  | cons c rest ih =>
    cases c with
    | declare c =>
      rcases ih h with h | h
      · rw [← Entries.addTo, Entries.mem_addTo] at h
        rcases h with h | rfl
        · exact Or.inl h
        · exact Or.inr List.mem_cons_self
      · exact Or.inr (List.mem_cons_of_mem _ h)
    | member id text => exact ih h

theorem Call.records (b : Builder) (c : Call) : Builder.ledger.Records c.account b (c.run b) := by
  cases c with
  | declare c => exact Builder.records_declare c
  | member id text => exact Builder.records_member id text
  | annotate id text => exact Builder.records_alterClass _ id _
  | relate r =>
    refine Builder.records_update (f := fun d => { d with relationships := d.relationships ++ [r] }) (fun _ => id) rfl
      fun h hrefs => { h with related := ?_ }
    simp only [List.forall_mem_cons, Reference.isKnown_entity] at hrefs
    exact List.forall_mem_append.2 ⟨h.related, List.forall_mem_singleton.2 ⟨hrefs.1, hrefs.2.1⟩⟩
  | group name body =>
    have hbody := Ledger.Records.foldl NamespaceCall.records body b
    refine ⟨hbody.sound, hbody.log, hbody.entities, hbody.classDefs, fun h hrefs hids => ?_⟩
    have hwithin : (body.foldl NamespaceCall.run b).diagram.RefersOnlyTo _ _ := hbody.within h hrefs hids
    refine { hwithin with grouped := ?_ }
    refine List.forall_mem_append.2 ⟨hwithin.grouped, List.forall_mem_singleton.2 fun id hid => ?_⟩
    exact hids id ((mem_declaredIds hid).resolve_left List.not_mem_nil)
  | note n =>
    refine Builder.records_update (f := fun d => { d with notes := d.notes ++ [n] }) (fun _ => id) rfl
      fun h hrefs => { h with noted := ?_ }
    refine List.forall_mem_append.2 ⟨h.noted, List.forall_mem_singleton.2 fun id hid => ?_⟩
    exact hrefs _ (List.mem_map_of_mem (Option.mem_toList.2 hid))
  | defineClass name style =>
    refine ⟨fun h => h, (List.append_nil _).symm, fun _ id => ?_, fun k => ?_, fun h _ _ => { h with }⟩
    · simp [Builder.ledger, run, Builder.update, account]
    · exact Entries.mem_keys_insert.trans (or_congr_right List.mem_singleton.symm)
  | assignClass k name =>
    refine Builder.records_update (f := fun d => { d with cssClasses := d.cssClasses.assign k name }) (fun _ => id) rfl
      fun h hrefs => { h with assigned := ?_ }
    simp only [List.forall_mem_cons, Reference.isKnown_entity, Reference.isKnown_classDef] at hrefs
    exact Entries.isAssigned_assign h.assigned hrefs.1 hrefs.2.1
  | describe line =>
    refine ⟨fun h => h, (List.append_nil _).symm, fun _ id => ?_, fun k => ?_, fun h _ _ => { h with }⟩ <;>
      simp [Builder.ledger, run, Builder.update, account]

/-! ## Validated builds -/

/-- every name that a part of the diagram refers to is a class or a style class of the diagram -/
def IsSelfContained (d : ClassDiagram) : Prop := d.RefersOnlyTo (· ∈ d.classes.keys) (· ∈ d.classDefs.keys)

/-- **validated class diagrams**: the check decides by what the calls say about names -/
theorem validates_build (dir : Direction) (calls : List Call) :
    (Account.concat (calls.map Call.account)).Validates IsSelfContained (((Builder.start dir).run calls).build) :=
  (Ledger.Records.foldl (L := Builder.ledger) Call.records calls (Builder.start dir)).validates rfl nofun
    (fun _ _ => ⟨nofun, nofun, nofun, nofun⟩) fun hdeclared h => h.mono hdeclared fun _ => id

end DiagramText.ClassDiagram

/-
Building state diagrams. `Call.account` says which names a call refers to and which it declares, at any depth of composite
states. `ScopeCall.records` is the step lemma, by induction on the call: whatever the scope, exactly its account is entered,
and every declared state stands in the diagram. The beginning and the end count as declared for every reference, not only for
those of transitions: `build_note_terminal` is a note that a validated build lets through although no state bears it. Where
no call attaches a note or a style class to them, all belong to states (`attached_to_states`).
-/
import DiagramText.Proofs.Entries
import DiagramText.Proofs.Ledger
import DiagramText.StateDiagram.Builder

namespace DiagramText.StateDiagram

variable {P Q : Text → Prop}

/-! ## What calls say about names -/

mutual

/-- what a call on a scope says about names, with the calls in it -/
def ScopeCall.account : ScopeCall → Account
  | .state id _ | .pseudo id _ => { entities := [id] }
  | .composite id _ _ body => { entities := [id] } ++ scopeAccount body
  | .transition source target _ =>
    let construct := "transition " ++ source ++ " --> " ++ target
    { references := [.entity construct source, .entity construct target] }
  | .note n => { references := [.entity ("note " ++ n.position ++ " " ++ n.stateId) n.stateId] }
  | .direction _ => {}

/-- what the calls in a composite state say about names -/
def scopeAccount : List ScopeCall → Account
  | [] => {}
  | c :: cs => c.account ++ scopeAccount cs

end

/-- what a call says about names -/
def Call.account : Call → Account
  | .scope c => c.account
  | .defineClass name _ => { classDefs := [name] }
  | .assignClass ids name => .concat (ids.map (.classAssignment name))
  | .describe _ => {}

/-! ## Which names the parts of a diagram refer to -/

/-- every name that a part of the diagram refers to is one of these states or style classes -/
structure RefersOnlyTo (P Q : Text → Prop) (d : StateDiagram) : Prop where
  joined : ∀ t ∈ d.transitions, P t.source ∧ P t.target
  noted : ∀ n ∈ d.notes, P n.stateId
  assigned : ∀ x ∈ d.classAssignments.toList, Entries.IsAssigned P Q x

theorem RefersOnlyTo.mono {P' Q' : Text → Prop} {d : StateDiagram} (h : d.RefersOnlyTo P Q) (hP : ∀ id, P id → P' id)
    (hQ : ∀ name, Q name → Q' name) : d.RefersOnlyTo P' Q' where
  joined t ht := ⟨hP _ (h.joined t ht).1, hP _ (h.joined t ht).2⟩
  noted n hn := hP _ (h.noted n hn)
  assigned x hx := (h.assigned x hx).mono hP hQ

/-! ## Calls enter their accounts -/

namespace Builder

/-- references and declared names of a diagram under construction; the beginning and the end are always known, and what is
declared stands in the diagram -/
def ledger : Ledger Builder where
  log := Builder.log
  entities b := terminal :: b.diagram.states.keys
  classDefs b := b.diagram.classDefs.keys
  Sound b := ∀ id ∈ b.assembly.declared, id ∈ b.diagram.states.keys
  Within P Q b := b.diagram.RefersOnlyTo P Q

variable {b : Builder}

/-- a change of the diagram that leaves its states and style classes, after references -/
theorem records_update {refs : List Reference} {f : Assembly → Assembly}
    (hdeclared : (f b.assembly).declared = b.assembly.declared)
    (hstates : (f b.assembly).diagram.states.keys = b.assembly.diagram.states.keys)
    (hclasses : (f b.assembly).diagram.classDefs = b.assembly.diagram.classDefs)
    (hwithin : ∀ {P Q}, b.diagram.RefersOnlyTo P Q → (∀ r ∈ refs, r.IsKnown P Q) →
      (f b.assembly).diagram.RefersOnlyTo P Q) :
    ledger.Records { references := refs } b ((b.mention refs).update f) where
  sound h id hid := by
    change id ∈ (f b.assembly).declared at hid
    change id ∈ (f b.assembly).diagram.states.keys
    rw [hstates]
    exact h id (hdeclared ▸ hid)
  log := rfl
  entities _ id := by
    change id ∈ terminal :: (f b.assembly).diagram.states.keys ↔ _
    rw [hstates]
    simp [ledger, diagram]
  classDefs name := by
    change name ∈ (f b.assembly).diagram.classDefs.keys ↔ _
    rw [hclasses]
    simp [ledger, diagram]
  within h hrefs _ := hwithin h hrefs

/-- a change of the diagram that neither declares nor mentions a name -/
theorem records_change {f : Assembly → Assembly} (hdeclared : (f b.assembly).declared = b.assembly.declared)
    (hstates : (f b.assembly).diagram.states.keys = b.assembly.diagram.states.keys)
    (hclasses : (f b.assembly).diagram.classDefs = b.assembly.diagram.classDefs)
    (hwithin : ∀ {P Q}, b.diagram.RefersOnlyTo P Q → (f b.assembly).diagram.RefersOnlyTo P Q) :
    ledger.Records {} b (b.update f) := by
  have hmention : b.mention [] = b := by rw [mention, List.append_nil]
  have h : ledger.Records {} b ((b.mention []).update f) :=
    records_update hdeclared hstates hclasses fun hb _ => hwithin hb
  rwa [hmention] at h

/-- a state that is declared for the first time moves to the end -/
theorem records_declare (id : Text) (scope : Option Text) :
    ledger.Records { entities := [id] } b (b.update (·.declare id scope)) := by
  by_cases hid : b.assembly.declared.contains id = true
  · have hsame : b.update (·.declare id scope) = b := by rw [update, Assembly.declare, if_pos hid]
    rw [hsame]
    have hmem := List.contains_iff_mem.1 hid
    refine ⟨fun h => h, (List.append_nil _).symm, fun h k => ?_, fun k => ?_, fun h _ _ => h⟩
    · rw [List.mem_singleton, or_iff_left_of_imp]
      rintro rfl
      exact List.mem_cons_of_mem _ (h k hmem)
    · simp
  · have hkeys : ∀ k, k ∈ (b.update (·.declare id scope)).diagram.states.keys ↔ k ∈ b.diagram.states.keys ∨ k = id := by
      intro k
      rw [diagram, update, Assembly.declare, if_neg hid, Entries.keys_insert_erase, List.mem_append, List.mem_filter,
        List.mem_singleton]
      by_cases hk : k = id <;> simp [hk, diagram]
    refine ⟨fun h k hk => ?_, ?_, fun _ k => ?_, fun k => ?_, fun h _ _ => ?_⟩
    · rw [update, Assembly.declare, if_neg hid, List.mem_cons] at hk
      exact (hkeys k).2 (hk.symm.imp_left (h k))
    · exact (List.append_nil _).symm
    · change k ∈ terminal :: (b.update (·.declare id scope)).diagram.states.keys ↔ k ∈ terminal :: b.diagram.states.keys ∨ _
      rw [List.mem_cons, List.mem_cons, hkeys, List.mem_singleton, or_assoc]
    · change k ∈ (b.update (·.declare id scope)).diagram.classDefs.keys ↔ k ∈ b.diagram.classDefs.keys ∨ k ∈ []
      rw [diagram, update, Assembly.declare, if_neg hid, or_iff_left List.not_mem_nil]
      exact Iff.rfl
    · change (b.update (·.declare id scope)).diagram.RefersOnlyTo _ _
      rw [diagram, update, Assembly.declare, if_neg hid]
      exact { h with }

theorem records_alterState (id : Text) (f : State → State) : ledger.Records {} b (b.update (·.alterState id f)) := by
  cases hget : b.assembly.diagram.states.get? id with
  | none =>
    have hsame : b.update (·.alterState id f) = b := by rw [update, Assembly.alterState, hget]
    rw [hsame]
    exact .refl b
  | some s =>
    have halter : b.assembly.alterState id f =
        { b.assembly with diagram := { b.assembly.diagram with states := b.assembly.diagram.states.insert id (f s) } } := by
      rw [Assembly.alterState, hget]
    refine records_change ?_ ?_ ?_ fun h => ?_ <;> rw [halter]
    · rw [Entries.keys_insert, if_pos (Entries.mem_keys_of_get? hget)]
    · exact { h with }

theorem records_declareAs (id : Text) (scope : Option Text) (f : State → State) :
    ledger.Records { entities := [id] } b (b.declareAs id scope f) := by
  have h := (records_declare (b := b) id scope).trans (records_alterState id f)
  rwa [Account.append_empty] at h

theorem records_setDirection (d : Direction) (scope : Option Text) : ledger.Records {} b (b.setDirection d scope) := by
  cases scope with
  | none => exact .refl b
  | some id => exact records_alterState id _

theorem records_assignClass (name id : Text) : ledger.Records (.classAssignment name id) b (b.assignClass name id) :=
  records_update (f := (·.assignClass id name)) rfl rfl rfl fun h hrefs => by
    simp only [List.forall_mem_cons, Reference.isKnown_entity, Reference.isKnown_classDef] at hrefs
    exact { h with assigned := Entries.isAssigned_assign h.assigned hrefs.1 hrefs.2.1 }

end Builder

mutual

/-- **a call enters its account**, with all calls in it -/
theorem ScopeCall.records (scope : Option Text) (b : Builder) : (c : ScopeCall) →
    Builder.ledger.Records c.account b (c.run scope b)
  | .state id label | .pseudo id marker => by
    rw [ScopeCall.account, ScopeCall.run]
    exact Builder.records_declareAs id scope _
  | .composite id label direction body => by
    rw [ScopeCall.account, ScopeCall.run]
    exact (Builder.records_declareAs id scope _).trans (records_runAll (some id) _ body)
  | .transition source target label => by
    rw [ScopeCall.account, ScopeCall.run]
    refine Builder.records_update (f := (·.addTransition ⟨source, target, label, scope⟩)) rfl rfl rfl fun h hrefs =>
      { h with joined := List.forall_mem_append.2 ⟨h.joined, List.forall_mem_singleton.2 ?_⟩ }
    simp only [List.forall_mem_cons, Reference.isKnown_entity] at hrefs
    exact ⟨hrefs.1, hrefs.2.1⟩
  | .note n => by
    rw [ScopeCall.account, ScopeCall.run]
    exact Builder.records_update (f := (·.addNote n)) rfl rfl rfl fun h hrefs =>
      { h with noted := List.forall_mem_append.2 ⟨h.noted, List.forall_mem_singleton.2 (hrefs _ (List.mem_singleton_self _))⟩ }
  | .direction d => by
    rw [ScopeCall.account, ScopeCall.run]
    exact Builder.records_setDirection d scope

/-- calls on a scope enter their accounts -/
theorem records_runAll (scope : Option Text) (b : Builder) : (cs : List ScopeCall) →
    Builder.ledger.Records (scopeAccount cs) b (runAll scope b cs)
  | [] => by
    rw [scopeAccount, runAll]
    exact .refl b
  | c :: cs => by
    rw [scopeAccount, runAll]
    exact (ScopeCall.records scope b c).trans (records_runAll scope _ cs)

end

theorem Call.records (b : Builder) (c : Call) : Builder.ledger.Records c.account b (c.run b) := by
  cases c with
  | scope c => exact c.records none b
  | defineClass name style =>
    refine ⟨fun h => h, (List.append_nil _).symm, fun _ id => ?_, fun k => ?_, fun h _ _ => { h with }⟩
    · change id ∈ terminal :: b.diagram.states.keys ↔ id ∈ terminal :: b.diagram.states.keys ∨ id ∈ []
      simp
    · exact Entries.mem_keys_insert.trans (or_congr_right List.mem_singleton.symm)
  | assignClass ids name => exact Ledger.Records.foldl (fun b id => Builder.records_assignClass name id) ids b
  | describe line => exact Builder.records_change (f := (·.describe line)) rfl rfl rfl fun h => { h with }

/-! ## Validated builds -/

/-- every name that a part of the diagram refers to is a state, the beginning or the end, or a style class of the diagram -/
def IsSelfContained (d : StateDiagram) : Prop :=
  d.RefersOnlyTo (fun id => id = terminal ∨ id ∈ d.states.keys) (· ∈ d.classDefs.keys)

/-- **validated state diagrams**: the check decides by what the calls say about names, of which the beginning and the end
need no declaration -/
theorem validates_build (dir : Direction) (calls : List Call) :
    (({ entities := [terminal] } : Account) ++ .concat (calls.map Call.account)).Validates IsSelfContained
      (((Builder.start dir).run calls).build) :=
  (Ledger.Records.foldl (L := Builder.ledger) Call.records calls (Builder.start dir)).validates rfl nofun
    (fun _ _ => ⟨nofun, nofun, nofun⟩) fun _ h => h.mono (fun _ => List.mem_cons.1) fun _ => id

/-! ## Attachments -/

mutual

/-- the names that a call attaches notes to, with the calls in it -/
def ScopeCall.attached : ScopeCall → List Text
  | .state _ _ | .pseudo _ _ | .transition _ _ _ | .direction _ => []
  | .composite _ _ _ body => attachedByAll body
  | .note n => [n.stateId]

/-- the names that calls attach notes to -/
def attachedByAll : List ScopeCall → List Text
  | [] => []
  | c :: cs => c.attached ++ attachedByAll cs

end

/-- the names that a call attaches notes or style classes to -/
def Call.attached : Call → List Text
  | .scope c => c.attached
  | .assignClass ids _ => ids
  | .defineClass _ _ | .describe _ => []

/-- notes and style classes are attached to these names only -/
structure AttachesOnlyTo (P : Text → Prop) (d : StateDiagram) : Prop where
  noted : ∀ n ∈ d.notes, P n.stateId
  assigned : ∀ id ∈ d.classAssignments.keys, P id

namespace AttachesOnlyTo

variable {b : Builder}

theorem declareAs (h : b.diagram.AttachesOnlyTo P) (id : Text) (scope : Option Text) (f : State → State) :
    (b.declareAs id scope f).diagram.AttachesOnlyTo P := by
  have hdeclare : ((b.assembly.declare id scope).diagram).AttachesOnlyTo P := by
    unfold Assembly.declare
    split
    · exact h
    · exact { h with }
  change ((b.assembly.declare id scope).alterState id f).diagram.AttachesOnlyTo P
  unfold Assembly.alterState
  split
  · exact hdeclare
  · exact { hdeclare with }

theorem setDirection (h : b.diagram.AttachesOnlyTo P) (d : Direction) (scope : Option Text) :
    (b.setDirection d scope).diagram.AttachesOnlyTo P := by
  cases scope with
  | none => exact h
  | some id =>
    change (b.assembly.alterState id _).diagram.AttachesOnlyTo P
    unfold Assembly.alterState
    split
    · exact h
    · exact { h with }

theorem foldl_assignClass (h : b.diagram.AttachesOnlyTo P) (name : Text) {ids : List Text} (hids : ∀ id ∈ ids, P id) :
    (ids.foldl (Builder.assignClass name) b).diagram.AttachesOnlyTo P := by
  induction ids generalizing b with
  | nil => exact h
  | cons id ids ih =>
    refine ih { h with assigned := ?_ } fun k hk => hids k (List.mem_cons_of_mem id hk)
    intro k hk
    rcases Entries.mem_keys_insert.1 hk with hk | rfl
    · exact h.assigned k hk
    · exact hids k List.mem_cons_self

mutual

theorem scopeCall {b : Builder} (h : b.diagram.AttachesOnlyTo P) (scope : Option Text) : (c : ScopeCall) →
    (∀ id ∈ c.attached, P id) → (c.run scope b).diagram.AttachesOnlyTo P
  | .state id label, _ | .pseudo id label, _ => by
    rw [ScopeCall.run]
    exact h.declareAs id scope _
  | .composite id label direction body, hc => by
    rw [ScopeCall.attached] at hc
    rw [ScopeCall.run]
    exact runAll (h.declareAs id scope _) (some id) body hc
  | .transition source target label, _ => by
    rw [ScopeCall.run]
    exact { h with }
  | .note n, hc => by
    rw [ScopeCall.attached, List.forall_mem_singleton] at hc
    rw [ScopeCall.run]
    exact { h with noted := List.forall_mem_append.2 ⟨h.noted, List.forall_mem_singleton.2 hc⟩ }
  | .direction d, _ => by
    rw [ScopeCall.run]
    exact h.setDirection d scope

theorem runAll {b : Builder} (h : b.diagram.AttachesOnlyTo P) (scope : Option Text) : (cs : List ScopeCall) →
    (∀ id ∈ attachedByAll cs, P id) → (StateDiagram.runAll scope b cs).diagram.AttachesOnlyTo P
  | [], _ => by
    rw [StateDiagram.runAll]
    exact h
  | c :: cs, hcs => by
    rw [attachedByAll, List.forall_mem_append] at hcs
    rw [StateDiagram.runAll]
    exact runAll (scopeCall h scope c hcs.1) scope cs hcs.2

end

theorem call (h : b.diagram.AttachesOnlyTo P) {c : Call} (hc : ∀ id ∈ c.attached, P id) :
    (c.run b).diagram.AttachesOnlyTo P := by
  cases c with
  | scope c => exact h.scopeCall none c hc
  | assignClass ids name => exact h.foldl_assignClass name hc
  | defineClass name style => exact { h with }
  | describe line => exact { h with }

theorem run (h : b.diagram.AttachesOnlyTo P) {calls : List Call} (hcalls : ∀ c ∈ calls, ∀ id ∈ c.attached, P id) :
    (b.run calls).diagram.AttachesOnlyTo P := by
  induction calls generalizing b with
  | nil => exact h
  | cons c calls ih =>
    exact ih (h.call (hcalls c List.mem_cons_self)) fun x hx => hcalls x (List.mem_cons_of_mem c hx)

end AttachesOnlyTo

/-- **notes and style classes belong to states** where no call attaches one to the beginning and the end -/
theorem attached_to_states {dir : Direction} {calls : List Call} (hcalls : ∀ c ∈ calls, terminal ∉ c.attached)
    {d : StateDiagram} (hd : ((Builder.start dir).run calls).build = .ok d) : d.AttachesOnlyTo (· ∈ d.states.keys) := by
  have hclosed := (validates_build dir calls).closed d hd
  have hattached : ((Builder.start dir).run calls).diagram.AttachesOnlyTo (· ≠ terminal) := by
    refine AttachesOnlyTo.run ⟨nofun, nofun⟩ ?_
    intro c hc id hid hterminal
    exact hcalls c hc (hterminal ▸ hid)
  obtain ⟨rfl, -⟩ := Reference.check_eq_ok_iff.1 hd
  refine ⟨?_, ?_⟩
  · intro n hn
    exact (hclosed.noted n hn).resolve_left (hattached.noted n hn)
  · intro id hid
    obtain ⟨x, hx, rfl⟩ := List.mem_map.1 hid
    exact (hclosed.assigned x hx).key.resolve_left (hattached.assigned _ hid)

/-- **a note without a state**: the beginning and the end bear notes, although they are no states of the diagram -/
theorem build_note_terminal : ∃ d, ((Builder.start .tb).run
      [.scope (.state "A" none), .scope (.note ⟨terminal, "hi", "right of"⟩)]).build = .ok d ∧
    ∃ n ∈ d.notes, n.stateId ∉ d.states.keys :=
  ⟨_, rfl, ⟨terminal, "hi", "right of"⟩, by decide, by decide⟩

end DiagramText.StateDiagram

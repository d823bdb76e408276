/-
Building sequence diagrams. `Call.account` says which names a call refers to and which it declares, at any depth of blocks
and sections. `StatementCall.enters` is the step lemma, by induction on the call: a call that is not refused notes exactly
its references, and its statement names no other actor. A call that is refused adds nothing to the diagram, but part of its
references may stay noted (`Call.run_refused`).
-/
import DiagramText.Proofs.Entries
import DiagramText.Proofs.Ledger
import DiagramText.Sequence.Builder

namespace DiagramText.Sequence

variable {P Q : Text → Prop}

/-! ## What calls say about names -/

mutual

/-- the references that a call makes, with those of the calls in it -/
def StatementCall.references : StatementCall → List Reference
  | .message m =>
    let construct := "message " ++ m.source ++ m.arrow.toText ++ m.target
    [.entity construct m.source, .entity construct m.target]
  | .note n => n.actorIds.map (.entity ("note " ++ n.position ++ " " ++ Text.join "," n.actorIds))
  | .activation id active => [.entity ((if active then "activate " else "deactivate ") ++ id) id]
  | .autonumber _ => []
  | .block _ _ body => referencesOfAll body
  | .sectioned _ sections => referencesOfSections sections

/-- the references that calls make -/
def referencesOfAll : List StatementCall → List Reference
  | [] => []
  | c :: cs => c.references ++ referencesOfAll cs

/-- the references that the calls in sections make -/
def referencesOfSections : List (Text × List StatementCall) → List Reference
  | [] => []
  | (_, body) :: rest => referencesOfAll body ++ referencesOfSections rest

end

/-- what a declaration says about names -/
def Declaration.account (a : Declaration) : Account := { entities := [a.id] }

/-- what a call says about names -/
def Call.account : Call → Account
  | .statement c => { references := c.references }
  | .declare a => a.account
  | .box _ _ body => .concat (body.map Declaration.account)
  | .title _ | .describe _ => {}

/-! ## Which actors the parts of a diagram refer to -/

mutual

/-- the actors that a statement names, at any depth -/
def Statement.names : Statement → List Text
  | .message m => [m.source, m.target]
  | .note n => n.actorIds
  | .activation id _ => [id]
  | .autonumber _ => []
  | .block _ _ body => namesOfAll body
  | .sectioned _ sections => namesOfSections sections

/-- the actors that statements name -/
def namesOfAll : List Statement → List Text
  | [] => []
  | s :: rest => s.names ++ namesOfAll rest

/-- the actors that the statements of sections name -/
def namesOfSections : List (Text × List Statement) → List Text
  | [] => []
  | (_, body) :: rest => namesOfAll body ++ namesOfSections rest

end

theorem namesOfAll_append (ss ts : List Statement) : namesOfAll (ss ++ ts) = namesOfAll ss ++ namesOfAll ts := by
  induction ss with
  | nil => rw [namesOfAll, List.nil_append, List.nil_append]
  | cons s ss ih => rw [List.cons_append, namesOfAll, namesOfAll, ih, List.append_assoc]

/-- every actor that a statement or a box of the diagram names is one of these -/
structure RefersOnlyTo (P : Text → Prop) (d : Sequence) : Prop where
  named : ∀ id ∈ namesOfAll d.statements, P id
  boxed : ∀ x ∈ d.boxes, ∀ id ∈ x.actorIds, P id

/-! ## Statements that calls add -/

/-- what calls with these references come to on a log: unless one of them is refused, just the references have been noted and
they cover the names in what the calls give; otherwise it may be that only the first of them have been noted -/
structure Enters {α : Type} (refs : List Reference) (names : α → List Text) (log : List Reference)
    (result : List Reference × Except CallError α) : Prop where
  noted : ∃ noted, noted <+: refs ∧ result.1 = log ++ noted
  log : ∀ a, result.2 = .ok a → result.1 = log ++ refs
  covers : ∀ a, result.2 = .ok a → ∀ {P Q : Text → Prop}, (∀ r ∈ refs, r.IsKnown P Q) → ∀ id ∈ names a, P id

namespace Enters

variable {α β γ : Type} {refs refs' log l : List Reference} {names : α → List Text} {names' : β → List Text}
  {names'' : γ → List Text} {a : α} {e : CallError}

theorem ok (hcovers : ∀ {P Q : Text → Prop}, (∀ r ∈ refs, r.IsKnown P Q) → ∀ id ∈ names a, P id) :
    Enters refs names log (log ++ refs, .ok a) where
  noted := ⟨refs, List.prefix_rfl, rfl⟩
  log _ _ := rfl
  covers _ h := Except.ok.inj h ▸ hcovers

theorem nil (log : List Reference) (ha : names a = []) : Enters [] names log (log, .ok a) where
  noted := ⟨[], List.prefix_rfl, (List.append_nil log).symm⟩
  log _ _ := (List.append_nil log).symm
  covers b hb := by
    obtain rfl := Except.ok.inj hb
    simp [ha]

theorem refused (refs : List Reference) (names : α → List Text) (e : CallError) : Enters refs names log (log, .error e) where
  noted := ⟨[], List.nil_prefix, (List.append_nil log).symm⟩
  log := nofun
  covers := nofun

/-- what is built from the result names the same actors -/
theorem map {result : List Reference × Except CallError β} (h : Enters refs names' log result) {f : β → γ}
    (hf : ∀ b, names'' (f b) = names' b) : Enters refs names'' log (result.1, result.2.map f) := by
  obtain ⟨l, e | b⟩ := result
  · exact ⟨h.noted, nofun, nofun⟩
  · refine ⟨h.noted, fun _ _ => h.log b rfl, fun c hc => ?_⟩
    obtain rfl := Except.ok.inj hc
    rw [hf]
    exact h.covers b rfl

/-- nothing is called after a call that is refused -/
theorem stop (h : Enters refs names log (l, .error e)) (refs' : List Reference) (names'' : γ → List Text) :
    Enters (refs ++ refs') names'' log (l, .error e) where
  noted := by
    obtain ⟨noted, hnoted, hl⟩ := h.noted
    exact ⟨noted, hnoted.trans (List.prefix_append refs refs'), hl⟩
  log := nofun
  covers := nofun

/-- calls after those that gave `a` -/
theorem andThen (h : Enters refs names log (l, .ok a)) {result : List Reference × Except CallError β}
    (h' : Enters refs' names' l result) {f : β → γ} (hf : ∀ b, names'' (f b) = names a ++ names' b) :
    Enters (refs ++ refs') names'' log (result.1, result.2.map f) := by
  obtain rfl : l = log ++ refs := h.log a rfl
  refine ⟨?_, fun c hc => ?_, fun c hc => ?_⟩
  · obtain ⟨noted, hnoted, hl⟩ := h'.noted
    exact ⟨refs ++ noted, (List.prefix_append_right_inj refs).2 hnoted, by rw [hl, List.append_assoc]⟩
  · obtain ⟨l', e | b⟩ := result
    · exact absurd hc nofun
    · rw [h'.log b rfl, List.append_assoc]
  · obtain ⟨l', e | b⟩ := result
    · exact absurd hc nofun
    · obtain rfl := Except.ok.inj hc
      intro P Q hrefs
      obtain ⟨hrefs, hrefs'⟩ := List.forall_mem_append.1 hrefs
      rw [hf]
      exact List.forall_mem_append.2 ⟨h.covers a rfl hrefs, h'.covers b rfl hrefs'⟩

end Enters

mutual

/-- **calls that add statements** note their references, and their statements name no other actor -/
theorem StatementCall.enters (log : List Reference) : (c : StatementCall) →
    Enters c.references Statement.names log (c.run log)
  | .message m => by
    rw [StatementCall.references, StatementCall.run]
    refine .ok fun hrefs => ?_
    simpa [Statement.names] using hrefs
  | .note n => by
    rw [StatementCall.references, StatementCall.run]
    refine .ok fun hrefs => ?_
    simpa [Statement.names] using hrefs
  | .activation k active => by
    rw [StatementCall.references, StatementCall.run]
    refine .ok fun hrefs => ?_
    simpa [Statement.names] using hrefs
  | .autonumber a => by
    rw [StatementCall.references, StatementCall.run]
    exact .nil log (by rw [Statement.names])
  | .block kind label body => by
    rw [StatementCall.references, StatementCall.run]
    exact (enters_runAll log body).map fun statements => by rw [Statement.names]
  | .sectioned kind sections => by
    rw [StatementCall.references, StatementCall.run]
    split
    · exact .refused _ _ _
    · exact (enters_runSections log sections).map fun filled => by rw [Statement.names]

theorem enters_runAll (log : List Reference) : (cs : List StatementCall) →
    Enters (referencesOfAll cs) namesOfAll log (runAll log cs)
  | [] => by
    rw [referencesOfAll, runAll]
    exact .nil log (by rw [namesOfAll])
  | c :: cs => by
    have hc := StatementCall.enters log c
    rw [referencesOfAll, runAll]
    generalize c.run log = result at hc ⊢
    obtain ⟨l, e | s⟩ := result
    · exact hc.stop _ _
    · exact hc.andThen (enters_runAll l cs) fun rest => by rw [namesOfAll]

theorem enters_runSections (log : List Reference) : (sections : List (Text × List StatementCall)) →
    Enters (referencesOfSections sections) namesOfSections log (runSections log sections)
  | [] => by
    rw [referencesOfSections, runSections]
    exact .nil log (by rw [namesOfSections])
  | (label, body) :: rest => by
    have hbody := enters_runAll log body
    rw [referencesOfSections, runSections]
    generalize runAll log body = result at hbody ⊢
    obtain ⟨l, e | statements⟩ := result
    · exact hbody.stop _ _
    · exact hbody.andThen (enters_runSections l rest) fun sections => by rw [namesOfSections]

end

/-! ## Calls enter their accounts -/

namespace Builder

/-- references and declared names of a diagram under construction; sequence diagrams have no style classes -/
def ledger : Ledger Builder where
  log := Builder.log
  entities b := b.diagram.actors.keys
  classDefs _ := []
  Within P _ b := b.diagram.RefersOnlyTo P

variable {b : Builder}

/-- a change of the diagram that neither declares nor mentions an actor -/
theorem records_update {f : Sequence → Sequence} (hactors : (f b.diagram).actors = b.diagram.actors)
    (hwithin : ∀ {P}, b.diagram.RefersOnlyTo P → (f b.diagram).RefersOnlyTo P) : ledger.Records {} b (b.update f) where
  sound := id
  log := (List.append_nil _).symm
  entities _ k := by
    change k ∈ (f b.diagram).actors.keys ↔ _
    rw [hactors]
    simp [ledger]
  classDefs k := by simp [ledger]
  within h _ _ := hwithin h

theorem records_declare (b : Builder) (a : Declaration) : ledger.Records a.account b (b.declare a) where
  sound := id
  log := (List.append_nil _).symm
  entities _ k := Entries.mem_keys_insert.trans (or_congr_right List.mem_singleton.symm)
  classDefs k := by simp [ledger, Declaration.account]
  within h _ _ := { h with }

theorem mem_distinct {ids : List Text} {k : Text} : k ∈ distinct ids ↔ k ∈ ids := by
  change k ∈ ids.foldl Entries.addTo [] ↔ _
  rw [Entries.mem_foldl_addTo, or_iff_right List.not_mem_nil]

/-- the actors of a box are declared in it -/
theorem records_box (label color : Option Text) (body : List Declaration) :
    ledger.Records (.concat (body.map Declaration.account)) b ((body.foldl declare b).update fun d =>
      { d with boxes := d.boxes ++ [⟨label, color, distinct (body.map Declaration.id)⟩] }) := by
  have hbody := Ledger.Records.foldl records_declare body b
  refine ⟨hbody.sound, hbody.log, hbody.entities, hbody.classDefs, fun h hrefs hids => ?_⟩
  have hwithin : (body.foldl declare b).diagram.RefersOnlyTo _ := hbody.within h hrefs hids
  refine { hwithin with boxed := List.forall_mem_append.2 ⟨hwithin.boxed, List.forall_mem_singleton.2 fun k hk => ?_⟩ }
  rw [mem_distinct, List.mem_map] at hk
  obtain ⟨a, ha, rfl⟩ := hk
  exact hids _ (Account.mem_entities_concat.2 ⟨_, List.mem_map_of_mem ha, List.mem_singleton_self _⟩)

end Builder

theorem Call.records (b : Builder) (c : Call) (h : (c.run b).2 = none) : Builder.ledger.Records c.account b (c.run b).1 := by
  cases c with
  | statement c =>
    have hc := c.enters b.log
    rw [run] at h ⊢
    generalize c.run b.log = result at h hc ⊢
    obtain ⟨log, e | s⟩ := result
    · exact absurd h nofun
    · refine ⟨id, hc.log s rfl, fun _ k => ?_, fun k => ?_, fun hwithin hrefs _ => { hwithin with named := ?_ }⟩
      · simp [Builder.ledger, account]
      · simp [Builder.ledger, account]
      · change ∀ k ∈ namesOfAll (b.diagram.statements ++ [s]), _
        rw [namesOfAll_append, namesOfAll, namesOfAll, List.append_nil]
        exact List.forall_mem_append.2 ⟨hwithin.named, hc.covers s rfl hrefs⟩
  | declare a => exact Builder.records_declare b a
  | box label color body => exact Builder.records_box label color body
  | title text => exact Builder.records_update (f := fun d => { d with title := some text }) rfl fun h => { h with }
  | describe line =>
    exact Builder.records_update (f := fun d => { d with accessibility := d.accessibility.put line }) rfl fun h => { h with }

/-! ## Validated builds -/

/-- every actor that a statement or a box names is an actor of the diagram -/
def IsSelfContained (d : Sequence) : Prop := d.RefersOnlyTo (· ∈ d.actors.keys)

/-- **validated sequence diagrams**: the check decides by what the calls say about names -/
theorem validates_build {calls : List Call} (h : Ledger.Accepts Call.run Builder.start calls) :
    (Account.concat (calls.map Call.account)).Validates IsSelfContained ((Builder.start.run calls).build) :=
  (Ledger.Records.foldl_accepts (L := Builder.ledger) Call.records h).validates rfl trivial
    (fun _ _ => ⟨by rw [Builder.start, namesOfAll]; nofun, nofun⟩) fun _ h => h

/-! ## Refused calls -/

mutual

/-- what has been noted before makes no difference to a call -/
theorem StatementCall.run_append (l log : List Reference) : (c : StatementCall) →
    c.run (l ++ log) = (l ++ (c.run log).1, (c.run log).2)
  | .message m | .note n | .activation k active => by
    rw [StatementCall.run, StatementCall.run, List.append_assoc]
  | .autonumber a => by rw [StatementCall.run, StatementCall.run]
  | .block kind label body => by
    rw [StatementCall.run, StatementCall.run, runAll_append l log body]
  | .sectioned kind sections => by
    rw [StatementCall.run, StatementCall.run, runSections_append l log sections]
    split <;> rfl

theorem runAll_append (l log : List Reference) : (cs : List StatementCall) →
    runAll (l ++ log) cs = (l ++ (runAll log cs).1, (runAll log cs).2)
  | [] => by rw [runAll, runAll]
  | c :: cs => by
    rw [runAll, runAll, StatementCall.run_append l log c]
    generalize c.run log = result
    obtain ⟨log', e | s⟩ := result
    · rfl
    · dsimp only
      rw [runAll_append l log' cs]

theorem runSections_append (l log : List Reference) : (sections : List (Text × List StatementCall)) →
    runSections (l ++ log) sections = (l ++ (runSections log sections).1, (runSections log sections).2)
  | [] => by rw [runSections, runSections]
  | (label, body) :: rest => by
    rw [runSections, runSections, runAll_append l log body]
    generalize runAll log body = result
    obtain ⟨log', e | statements⟩ := result
    · rfl
    · dsimp only
      rw [runSections_append l log' rest]

end

/-- a call that is refused leaves the diagram as it is; the first of its references may have been noted -/
theorem Call.run_refused {b : Builder} {c : Call} {e : CallError} (h : (c.run b).2 = some e) :
    (c.run b).1.diagram = b.diagram ∧ ∃ noted, noted <+: c.account.references ∧ (c.run b).1.log = b.log ++ noted := by
  cases c with
  | statement c =>
    have hc := c.enters b.log
    rw [run] at h ⊢
    generalize c.run b.log = result at h hc ⊢
    obtain ⟨log, e | s⟩ := result
    · exact ⟨rfl, hc.noted⟩
    · exact absurd h nofun
  | declare a => exact absurd h nofun
  | box label color body => exact absurd h nofun
  | title text => exact absurd h nofun
  | describe line => exact absurd h nofun

/-- the same diagram, and the same log but for references that only one of the two has -/
structure Inserts (refs : List Reference) (b b' : Builder) : Prop where
  diagram : b'.diagram = b.diagram
  log : ∃ before after, b.log = before ++ after ∧ b'.log = before ++ (refs ++ after)

namespace Inserts

variable {refs : List Reference} {b b' : Builder}

theorem update (h : Inserts refs b b') (f : Sequence → Sequence) : Inserts refs (b.update f) (b'.update f) :=
  ⟨congrArg f h.diagram, h.log⟩

theorem declare (h : Inserts refs b b') (a : Declaration) : Inserts refs (b.declare a) (b'.declare a) := by
  rw [Builder.declare, Builder.declare]
  exact h.update _

theorem foldl_declare (h : Inserts refs b b') (body : List Declaration) :
    Inserts refs (body.foldl Builder.declare b) (body.foldl Builder.declare b') := by
  induction body generalizing b b' with
  | nil => exact h
  | cons a body ih => exact ih (h.declare a)

theorem call (h : Inserts refs b b') (c : Call) : Inserts refs (c.run b).1 (c.run b').1 := by
  cases c with
  | statement c =>
    obtain ⟨hdiagram, before, after, hb, hb'⟩ := h
    have hrun : ∀ log, c.run log = (log ++ (c.run []).1, (c.run []).2) := fun log => by
      simpa only [List.append_nil] using c.run_append log []
    rw [Call.run, Call.run, hrun b.log, hrun b'.log, hb, hb', hdiagram]
    generalize c.run [] = result
    obtain ⟨log, e | s⟩ := result <;> exact ⟨rfl, before, after ++ log, by simp, by simp⟩
  | declare a => exact h.declare a
  | box label color body =>
    dsimp only [Call.run]
    exact (h.foldl_declare body).update _
  | title text =>
    dsimp only [Call.run]
    exact h.update _
  | describe line =>
    dsimp only [Call.run]
    exact h.update _

theorem run (h : Inserts refs b b') (calls : List Call) : Inserts refs (b.run calls) (b'.run calls) := by
  induction calls generalizing b b' with
  | nil => exact h
  | cons c calls ih => exact ih (h.call c)

/-- a build differs only by failing at one of the further references -/
theorem build (h : Inserts refs b b') : b'.build = b.build ∨ ∃ r ∈ refs, b'.build = .error r := by
  obtain ⟨hdiagram, before, after, hb, hb'⟩ := h
  simp only [Builder.build, Reference.check, Reference.firstDangling?, hdiagram, hb, hb', List.find?_append]
  cases List.find? (fun r => !r.isDeclared b.diagram.actors.keys []) before with
  | some q => exact Or.inl rfl
  | none =>
    cases hrefs : List.find? (fun r => !r.isDeclared b.diagram.actors.keys []) refs with
    | none => exact Or.inl rfl
    | some r => exact Or.inr ⟨r, List.mem_of_find?_eq_some hrefs, rfl⟩

end Inserts

/-- **a refused call** changes no diagram that is built after it; but a build may fail at an actor that the call mentioned -/
theorem run_after_refused {b : Builder} {c : Call} {e : CallError} (h : (c.run b).2 = some e) (later : List Call) :
    ((c.run b).1.run later).diagram = (b.run later).diagram ∧
      (((c.run b).1.run later).build = (b.run later).build ∨
        ∃ r ∈ c.account.references, ((c.run b).1.run later).build = .error r) := by
  obtain ⟨hdiagram, noted, hnoted, hlog⟩ := Call.run_refused h
  have hinserts : Inserts noted (b.run later) ((c.run b).1.run later) :=
    Inserts.run ⟨hdiagram, b.log, [], (List.append_nil _).symm, by rw [hlog, List.append_nil]⟩ later
  exact ⟨hinserts.diagram, hinserts.build.imp_right fun ⟨r, hr, hbuild⟩ => ⟨r, hnoted.subset hr, hbuild⟩⟩

end DiagramText.Sequence

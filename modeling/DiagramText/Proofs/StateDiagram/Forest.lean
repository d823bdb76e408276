/-
States form a forest in the order of the map. Texts and calls mention states: they declare them, and the transitions of a text
name them. `places` says which mentions decide where states stand: the first declaration of a name, or its first mention when
nothing declares it. `Follows` ties a diagram under construction to the mentions so far, with one lemma for each operation; a
state that was only named is taken out and put at the end when it is declared. From lines (`Progress.Follows.run`) and from calls
(`Call.follows`) the states come to stand as `places` says, each after the state it is in (`isForest_of_read_of_build`).
-/
import DiagramText.Proofs.Ledger
import DiagramText.Proofs.StateDiagram.WellFormed
import DiagramText.StateDiagram.Builder

namespace DiagramText.StateDiagram

/-! ## Mentions -/

/-- a name of a state in a scope: a declaration of the state, or a transition to or from it -/
structure Mention where
  id : Text
  scope : Option Text
  declares : Bool
deriving DecidableEq

/-- whether some mention declares the state -/
def isDeclared (ms : List Mention) (id : Text) : Bool := ms.any fun m => m.declares && m.id == id

/-- the first mention of each state -/
def firsts : List Mention → List Mention
  | [] => []
  | m :: ms => m :: (firsts ms).filter (·.id ≠ m.id)

/-- the mentions that count: declarations, and the other mentions of states that are never declared -/
def binding (ms : List Mention) : List Mention := ms.filter fun m => m.declares || !isDeclared ms m.id

/-- the mentions by which states get their places: the first declaration of a state, or the first mention of a state that is
never declared -/
def places (ms : List Mention) : List Mention := firsts (binding ms)

variable {ms : List Mention} {m : Mention} {id : Text}

theorem isDeclared_append (ms ms' : List Mention) (id : Text) : isDeclared (ms ++ ms') id = (isDeclared ms id || isDeclared ms' id) :=
  List.any_append

theorem isDeclared_singleton (m : Mention) (id : Text) : isDeclared [m] id = (m.declares && m.id == id) := Bool.or_false _

theorem isDeclared_iff : isDeclared ms id = true ↔ ∃ m ∈ ms, m.declares = true ∧ m.id = id := by
  rw [isDeclared, List.any_eq_true]
  simp only [Bool.and_eq_true, beq_iff_eq]

theorem mem_ids_of_isDeclared (h : isDeclared ms id = true) : id ∈ ms.map Mention.id := by
  obtain ⟨m, hm, -, rfl⟩ := isDeclared_iff.1 h
  exact List.mem_map_of_mem hm

theorem mem_ids_firsts : id ∈ (firsts ms).map Mention.id ↔ id ∈ ms.map Mention.id := by
  induction ms with
  | nil => rfl
  | cons m ms ih =>
    by_cases e : id = m.id
    · simp [firsts, e]
    · rw [firsts, List.map_cons, List.map_cons, List.mem_cons, List.mem_cons, ← ih]
      refine or_congr_right ?_
      simp only [List.mem_map, List.mem_filter, decide_eq_true_eq]
      exact ⟨fun ⟨x, hx, hid⟩ => ⟨x, hx.1, hid⟩, fun ⟨x, hx, hid⟩ => ⟨x, ⟨hx, hid ▸ e⟩, hid⟩⟩

theorem firsts_concat (ms : List Mention) (m : Mention) :
    firsts (ms ++ [m]) = if m.id ∈ ms.map Mention.id then firsts ms else firsts ms ++ [m] := by
  induction ms with
  | nil => simp [firsts]
  | cons x ms ih =>
    rw [List.cons_append, firsts, firsts, ih]
    by_cases hm : m.id ∈ ms.map Mention.id
    · have hcons : m.id ∈ (x :: ms).map Mention.id := List.mem_cons_of_mem _ hm
      rw [if_pos hm, if_pos hcons]
    · rw [if_neg hm, List.filter_append]
      by_cases e : m.id = x.id
      · simp [e]
      · have hcons : m.id ∉ (x :: ms).map Mention.id := fun h => (List.mem_cons.1 h).elim e hm
        rw [if_neg hcons, List.filter_cons_of_pos (by simpa using e), List.filter_nil, List.cons_append]

/-- leaving out a name before or after the first mentions are picked -/
theorem firsts_filter (P : Text → Bool) (ms : List Mention) : firsts (ms.filter fun m => P m.id) = (firsts ms).filter fun m => P m.id := by
  induction ms with
  | nil => rfl
  | cons x ms ih =>
    rw [firsts]
    by_cases hx : P x.id
    · rw [List.filter_cons_of_pos (by exact hx), List.filter_cons_of_pos (by exact hx), firsts, ih, List.filter_comm]
    · rw [List.filter_cons_of_neg (by exact hx), List.filter_cons_of_neg (by exact hx), ih, List.filter_filter]
      refine List.filter_congr fun m _ => ?_
      by_cases hm : P m.id
      · have hne : m.id ≠ x.id := fun e => hx (e ▸ hm)
        simp [hm, hne]
      · simp [hm]

theorem mem_ids_binding : id ∈ (binding ms).map Mention.id ↔ id ∈ ms.map Mention.id := by
  refine ⟨fun h => ?_, fun h => ?_⟩
  · obtain ⟨m, hm, rfl⟩ := List.mem_map.1 h
    exact List.mem_map_of_mem (List.mem_of_mem_filter hm)
  · by_cases hd : isDeclared ms id = true
    · obtain ⟨m, hm, hdeclares, rfl⟩ := isDeclared_iff.1 hd
      exact List.mem_map_of_mem (List.mem_filter.2 ⟨hm, by simp [hdeclares]⟩)
    · obtain ⟨m, hm, rfl⟩ := List.mem_map.1 h
      exact List.mem_map_of_mem (List.mem_filter.2 ⟨hm, by simp [hd]⟩)

theorem mem_ids_places : id ∈ (places ms).map Mention.id ↔ id ∈ ms.map Mention.id := mem_ids_firsts.trans mem_ids_binding

/-- one more name of a state gives it a place when it is the first one -/
theorem places_reference (hm : m.declares = false) :
    places (ms ++ [m]) = if m.id ∈ ms.map Mention.id then places ms else places ms ++ [m] := by
  have hdeclared : ∀ id, isDeclared (ms ++ [m]) id = isDeclared ms id := by
    intro id
    rw [isDeclared_append, isDeclared_singleton, hm, Bool.false_and, Bool.or_false]
  have hbinding : binding (ms ++ [m]) = binding ms ++ if isDeclared ms m.id then [] else [m] := by
    rw [binding, List.filter_append]
    simp only [hdeclared]
    by_cases hd : isDeclared ms m.id = true <;> simp [binding, hm, hd]
  rw [places, hbinding]
  by_cases hd : isDeclared ms m.id = true
  · rw [if_pos hd, List.append_nil, if_pos (mem_ids_of_isDeclared hd), places]
  · rw [if_neg hd, firsts_concat, places]
    simp only [mem_ids_binding]

/-- a declaration gives a state its place, unless it is declared already -/
theorem places_declaration (hm : m.declares = true) :
    places (ms ++ [m]) = if isDeclared ms m.id then places ms else (places ms).filter (·.id ≠ m.id) ++ [m] := by
  by_cases hd : isDeclared ms m.id = true
  · have hbinding : binding (ms ++ [m]) = binding ms ++ [m] := by
      rw [binding, List.filter_append, binding]
      congr 1
      · refine List.filter_congr fun x _ => ?_
        by_cases e : m.id = x.id
        · simp [isDeclared_append, ← e, hd]
        · have hne : (m.id == x.id) = false := by simpa using e
          simp [isDeclared_append, isDeclared_singleton, hne]
      · simp [hm]
    rw [if_pos hd, places, hbinding, firsts_concat, if_pos (mem_ids_binding.2 (mem_ids_of_isDeclared hd)), places]
  · have hbinding : binding (ms ++ [m]) = (binding ms).filter (·.id ≠ m.id) ++ [m] := by
      rw [binding, List.filter_append, binding, List.filter_filter]
      congr 1
      · refine List.filter_congr fun x hx => ?_
        by_cases e : x.id = m.id
        · have hx : x.declares = false := by
            by_contra hdeclares
            exact hd (isDeclared_iff.2 ⟨x, hx, by simpa using hdeclares, e⟩)
          simp [isDeclared_append, isDeclared_singleton, hx, hm, e]
        · have hne : (m.id == x.id) = false := by simpa using Ne.symm e
          simp [isDeclared_append, isDeclared_singleton, hne, e]
      · simp [hm]
    have hfilter := firsts_filter (fun k => decide (k ≠ m.id)) (binding ms)
    have hfresh : m.id ∉ ((binding ms).filter (·.id ≠ m.id)).map Mention.id := by
      simp
    rw [if_neg hd, places, hbinding, firsts_concat, if_neg hfresh, hfilter, places]

/-! ## Diagrams under construction -/

namespace Assembly

/-- each state with the scope it is in, in the order of the map -/
def outline (a : Assembly) : List (Text × Option Text) := a.diagram.states.toList.map fun x => (x.1, x.2.parent)

/-- the states of the diagram are declared and stand as these mentions say -/
structure Follows (ms : List Mention) (a : Assembly) : Prop where
  nested : a.IsNested
  declared : ∀ id, id ∈ a.declared ↔ isDeclared ms id = true
  outline : a.outline = (places ms).map fun m => (m.id, m.scope)

variable {a : Assembly} {scope : Option Text}

theorem keys_eq_map_outline (a : Assembly) : a.diagram.states.keys = a.outline.map Prod.fst := by
  rw [outline, List.map_map, Entries.keys]
  rfl

namespace Follows

theorem keys (h : a.Follows ms) : a.diagram.states.keys = (places ms).map Mention.id := by
  rw [keys_eq_map_outline, h.outline, List.map_map]
  rfl

theorem mem_keys (h : a.Follows ms) : id ∈ a.diagram.states.keys ↔ id ∈ ms.map Mention.id := by
  rw [h.keys, mem_ids_places]

/-- a change that leaves the states alone -/
theorem of_states {a' : Assembly} (h : a.Follows ms) (hstates : a'.diagram.states = a.diagram.states)
    (hdeclared : a'.declared = a.declared) : a'.Follows ms where
  nested := ⟨fun hs => h.nested.byId (hstates ▸ hs), fun hs hp => hstates ▸ hdeclared ▸ h.nested.parent (hstates ▸ hs) hp,
    hstates ▸ hdeclared ▸ h.nested.known⟩
  declared id := hdeclared ▸ h.declared id
  outline := by rw [Assembly.outline, hstates, ← h.outline, Assembly.outline]

/-- a declaration moves its state to the end, unless it is declared already -/
theorem declare (h : a.Follows ms) (id : Text) (hscope : ∀ p, scope = some p → isDeclared ms p = true) :
    (a.declare id scope).Follows (ms ++ [⟨id, scope, true⟩]) where
  nested := h.nested.declare fun p hp => (h.declared p).2 (hscope p hp)
  declared k := by
    have hk : isDeclared (ms ++ [⟨id, scope, true⟩]) k = true ↔ k ∈ a.declared ∨ id = k := by
      rw [isDeclared_append, isDeclared_singleton, Bool.true_and, Bool.or_eq_true, beq_iff_eq, h.declared]
    rw [hk]
    unfold Assembly.declare
    split
    · rename_i hid
      exact ⟨Or.inl, fun hk => hk.elim (fun hk => hk) fun e => e ▸ List.contains_iff_mem.1 hid⟩
    · rw [List.mem_cons, or_comm, eq_comm]
  outline := by
    have hcontains : a.declared.contains id = true ↔ isDeclared ms id = true := List.contains_iff_mem.trans (h.declared id)
    rw [places_declaration rfl]
    unfold Assembly.declare
    by_cases hid : isDeclared ms id = true
    · rw [if_pos (hcontains.2 hid), if_pos hid, h.outline]
    · rw [if_neg (fun hc => hid (hcontains.1 hc)), if_neg hid, Assembly.outline]
      have hfresh : id ∉ (a.diagram.states.erase id).keys := by
        rw [Entries.keys_erase, List.mem_filter]
        simp
      rw [Entries.toList_insert_of_notMem _ hfresh, List.map_append, List.map_append]
      congr 1
      calc ((a.diagram.states.erase id).toList.map fun x => (x.1, x.2.parent))
          = a.outline.filter (·.1 ≠ id) := by rw [Assembly.outline, List.filter_map]; rfl
        _ = ((places ms).filter (·.id ≠ id)).map fun m => (m.id, m.scope) := by rw [h.outline, List.filter_map]; rfl

/-- what is said of a state leaves it in its place -/
theorem alterState (h : a.Follows ms) (id : Text) {f : State → State} (hid : ∀ s, (f s).id = s.id)
    (hparent : ∀ s, (f s).parent = s.parent) : (a.alterState id f).Follows ms where
  nested := h.nested.alterState hid hparent
  declared k := by rw [Progress.declared_alterState]; exact h.declared k
  outline := by
    rw [← h.outline]
    unfold Assembly.alterState
    split
    · rfl
    · rename_i s hs
      exact Entries.map_toList_insert hs (by rw [hparent])

theorem declareAs (h : a.Follows ms) (id : Text) (hscope : ∀ p, scope = some p → isDeclared ms p = true) {f : State → State}
    (hid : ∀ s, (f s).id = s.id) (hparent : ∀ s, (f s).parent = s.parent) :
    (a.declareAs id scope f).Follows (ms ++ [⟨id, scope, true⟩]) := (h.declare id hscope).alterState id hid hparent

/-- a state that a transition names stands at the end, unless it is known -/
theorem reference (h : a.Follows ms) {id : Text} (hid : id ≠ terminal) (hscope : ∀ p, scope = some p → isDeclared ms p = true) :
    (a.reference id scope).Follows (ms ++ [⟨id, scope, false⟩]) where
  nested := h.nested.reference id fun p hp => (h.declared p).2 (hscope p hp)
  declared k := by
    rw [declared_reference, isDeclared_append, isDeclared_singleton, Bool.false_and, Bool.or_false]
    exact h.declared k
  outline := by
    rw [places_reference rfl, Assembly.reference, if_neg hid, Assembly.outline]
    by_cases hk : id ∈ a.diagram.states.keys
    · obtain ⟨s, hs⟩ := Entries.exists_of_mem_keys hk
      rw [Entries.insertNew_of_get? hs, if_pos (h.mem_keys.1 hk), ← h.outline, Assembly.outline]
    · have hget := Entries.get?_eq_none_iff.2 hk
      rw [Entries.insertNew_of_get?_eq_none hget, Entries.toList_insert_of_notMem _ hk, if_neg (fun hm => hk (h.mem_keys.2 hm)),
        List.map_append, List.map_append, ← h.outline, Assembly.outline]
      rfl

end Follows

end Assembly

/-- what an end of a transition mentions: nothing when it is the beginning or the end -/
def endpointMention (scope : Option Text) (id : Text) : List Mention := if id = terminal then [] else [⟨id, scope, false⟩]

theorem Assembly.Follows.endpoint {a : Assembly} {scope : Option Text} (h : a.Follows ms) (id : Text)
    (hscope : ∀ p, scope = some p → isDeclared ms p = true) : (a.reference id scope).Follows (ms ++ endpointMention scope id) := by
  unfold endpointMention
  by_cases hid : id = terminal
  · rw [if_pos hid, List.append_nil, Assembly.reference, if_pos hid]
    exact h
  · rw [if_neg hid]
    exact h.reference hid hscope

/-! ## Lines -/

/-- what a line mentions in a scope -/
def Line.mentions (scope : Option Text) : Line → List Mention
  | .openComposite id _ | .label id _ | .pseudo id _ | .declare id => [⟨id, scope, true⟩]
  | .transition source target _ => endpointMention scope source ++ endpointMention scope target
  | _ => []

/-- the composite states that are open after a line, the innermost first -/
def Line.openAfter (open_ : List Text) : Line → List Text
  | .openComposite id _ => id :: open_
  | .closeComposite => open_.tail
  | _ => open_

/-- whether the lines after this one belong to a note -/
def Line.opensNote : Line → Bool
  | .openNote _ _ => true
  | _ => false

/-- what lines mention, when these composite states are open and perhaps a note -/
def mentionsOf (open_ : List Text) (inNote : Bool) : List SourceLine → List Mention
  | [] => []
  | l :: ls =>
    if inNote then mentionsOf open_ (!isEndNote l.text) ls
    else
      match Line.read? l.text with
      | some line => line.mentions open_.head? ++ mentionsOf (line.openAfter open_) line.opensNote ls
      | none => mentionsOf open_ false ls

/-- what the lines of a text mention -/
def textMentions (text : Text) : List Mention := mentionsOf [] false (splitHeader .state (sourceLines true text)).2

namespace Progress

/-- the states stand as these mentions say, and these composite states are open, which are declared -/
structure Follows (ms : List Mention) (open_ : List Text) (inNote : Bool) (p : Progress) : Prop where
  assembly : p.assembly.Follows ms
  composites : p.composites.map Prod.fst = open_
  note : p.note.isSome = inNote
  known : ∀ id ∈ open_, isDeclared ms id = true

variable {p q : Progress} {l : SourceLine} {open_ : List Text} {inNote : Bool}

namespace Follows

theorem scope (h : p.Follows ms open_ inNote) : p.scope = open_.head? := by
  rw [Progress.scope, ← h.composites, List.head?_map]

theorem isDeclared_scope (h : p.Follows ms open_ inNote) : ∀ id, p.scope = some id → isDeclared ms id = true := by
  intro id hid
  exact h.known id (List.mem_of_mem_head? (h.scope ▸ hid))

/-- a change of the diagram that makes mentions -/
theorem update (h : p.Follows ms open_ inNote) {f : Assembly → Assembly} {ms' : List Mention}
    (hf : (f p.assembly).Follows (ms ++ ms')) : (p.update f).Follows (ms ++ ms') open_ inNote where
  assembly := hf
  composites := h.composites
  note := h.note
  known id hid := by rw [isDeclared_append, h.known id hid, Bool.true_or]

/-- a change of the diagram that leaves the states alone -/
theorem update_of_states (h : p.Follows ms open_ inNote) {f : Assembly → Assembly}
    (hstates : (f p.assembly).diagram.states = p.assembly.diagram.states)
    (hdeclared : (f p.assembly).declared = p.assembly.declared) : (p.update f).Follows (ms ++ []) open_ inNote :=
  h.update (by rw [List.append_nil]; exact h.assembly.of_states hstates hdeclared)

theorem setDirection (h : p.Follows ms open_ inNote) (d : Direction) : (p.setDirection d).Follows (ms ++ []) open_ inNote := by
  unfold Progress.setDirection
  split
  · refine h.update ?_
    rw [List.append_nil]
    exact h.assembly.alterState _ (fun _ => rfl) fun _ => rfl
  · exact h.update_of_states rfl rfl

/-- **a line mentions what it says** -/
theorem apply (h : p.Follows ms open_ false) {line : Line} (hq : p.apply l line = .ok q) :
    q.Follows (ms ++ line.mentions open_.head?) (line.openAfter open_) line.opensNote := by
  have hscope := h.isDeclared_scope
  rw [← h.scope]
  cases line with
  | direction d =>
    obtain rfl := Except.ok.inj hq
    exact h.setDirection d
  | openComposite id label =>
    obtain rfl := Except.ok.inj hq
    have hdeclared := h.update (h.assembly.declareAs id hscope (f := fun s => { s with kind := .composite, label := label <|> s.label })
      (fun _ => rfl) fun _ => rfl)
    have hid : isDeclared (ms ++ [⟨id, p.scope, true⟩]) id = true := by simp [isDeclared_append, isDeclared_singleton]
    exact ⟨hdeclared.assembly, congrArg (id :: ·) hdeclared.composites, hdeclared.note,
      List.forall_mem_cons.2 ⟨hid, hdeclared.known⟩⟩
  | closeComposite =>
    rw [Progress.apply] at hq
    split at hq
    · cases hq
    · rename_i c cs hcs
      obtain rfl := Except.ok.inj hq
      have hopen := h.composites
      rw [hcs] at hopen
      subst hopen
      change Progress.Follows (ms ++ []) (cs.map Prod.fst) false _
      rw [List.append_nil]
      exact ⟨h.assembly, rfl, h.note, fun id hid => h.known id (List.mem_cons_of_mem c.1 hid)⟩
  | label id label =>
    obtain rfl := Except.ok.inj hq
    exact h.update (h.assembly.declareAs id hscope (fun _ => rfl) fun _ => rfl)
  | pseudo id marker =>
    obtain rfl := Except.ok.inj hq
    exact h.update (h.assembly.declareAs id hscope (fun _ => rfl) fun _ => rfl)
  | declare id =>
    obtain rfl := Except.ok.inj hq
    exact h.update (h.assembly.declare id hscope)
  | openNote id position =>
    obtain rfl := Except.ok.inj hq
    change Progress.Follows (ms ++ []) open_ true _
    rw [List.append_nil]
    exact ⟨h.assembly, h.composites, rfl, h.known⟩
  | assignClass ids name =>
    obtain rfl := Except.ok.inj hq
    have hfold : ∀ a : Assembly, a.Follows ms → (ids.foldl (fun a id => a.assignClass id name) a).Follows ms := fun a ha =>
      List.foldlRecOn (motive := Assembly.Follows ms) ids _ ha fun a ha id _ => ha.of_states rfl rfl
    change Progress.Follows (ms ++ []) open_ false _
    apply h.update
    rw [List.append_nil]
    exact hfold p.assembly h.assembly
  | transition source target label =>
    obtain rfl := Except.ok.inj hq
    have hsource := h.assembly.endpoint source hscope
    have hboth := hsource.endpoint target fun id hid => by rw [isDeclared_append, hscope id hid, Bool.true_or]
    rw [List.append_assoc] at hboth
    exact h.update (hboth.of_states rfl rfl)
  | _ =>
    obtain rfl := Except.ok.inj hq
    exact h.update_of_states rfl rfl

/-- a line of a note mentions nothing -/
theorem readLine_note (h : p.Follows ms open_ true) (hq : p.readLine l = .ok q) : q.Follows ms open_ (!isEndNote l.text) := by
  obtain ⟨n, hn⟩ := Option.isSome_iff_exists.1 h.note
  rw [readLine, hn] at hq
  dsimp only at hq
  split at hq
  · rename_i hend
    obtain rfl := Except.ok.inj hq
    rw [hend]
    exact ⟨h.assembly.of_states rfl rfl, h.composites, rfl, h.known⟩
  · rename_i hend
    obtain rfl := Except.ok.inj hq
    rw [Bool.not_eq_true] at hend
    rw [hend]
    exact ⟨h.assembly, h.composites, rfl, h.known⟩

/-- a line outside notes is read for what it says -/
theorem exists_read?_of_readLine (h : p.Follows ms open_ false) (hq : p.readLine l = .ok q) :
    ∃ line, Line.read? l.text = some line ∧ p.apply l line = .ok q := by
  have hn : p.note = none := Option.not_isSome_iff_eq_none.1 (by rw [h.note]; exact Bool.false_ne_true)
  rw [readLine, hn] at hq
  dsimp only at hq
  split at hq
  · exact ⟨_, ‹_›, hq⟩
  · cases hq

/-- **lines mention what they say**, one after the other -/
theorem run (h : p.Follows ms open_ inNote) {ls : List SourceLine} (hq : ls.foldlM readLine p = .ok q) :
    q.assembly.Follows (ms ++ mentionsOf open_ inNote ls) := by
  induction ls generalizing p ms open_ inNote with
  | nil =>
    obtain rfl := Except.ok.inj hq
    rw [mentionsOf, List.append_nil]
    exact h.assembly
  | cons l ls ih =>
    rw [List.foldlM_cons] at hq
    obtain ⟨p', hp', hq⟩ := exceptBind_eq_ok_iff.1 hq
    rw [mentionsOf]
    cases inNote with
    | true => exact ih (h.readLine_note hp') hq
    | false =>
      obtain ⟨line, hline, happly⟩ := h.exists_read?_of_readLine hp'
      rw [hline, if_neg Bool.false_ne_true, ← List.append_assoc]
      exact ih (h.apply happly) hq

end Follows

end Progress

/-! ## Calls -/

mutual

/-- what a call on a scope mentions, with the calls in it: transitions create no states here -/
def ScopeCall.mentions (scope : Option Text) : ScopeCall → List Mention
  | .state id _ | .pseudo id _ => [⟨id, scope, true⟩]
  | .composite id _ _ body => ⟨id, scope, true⟩ :: mentionsOfAll (some id) body
  | .transition _ _ _ | .note _ | .direction _ => []

/-- what calls on a scope mention -/
def mentionsOfAll (scope : Option Text) : List ScopeCall → List Mention
  | [] => []
  | c :: cs => c.mentions scope ++ mentionsOfAll scope cs

end

/-- what a call mentions -/
def Call.mentions : Call → List Mention
  | .scope c => c.mentions none
  | .defineClass _ _ | .assignClass _ _ | .describe _ => []

mutual

/-- **a call on a scope mentions what it declares**, by induction on the call -/
theorem ScopeCall.follows {ms : List Mention} (scope : Option Text) (b : Builder) (h : b.assembly.Follows ms)
    (hscope : ∀ p, scope = some p → isDeclared ms p = true) : (c : ScopeCall) →
    (c.run scope b).assembly.Follows (ms ++ c.mentions scope)
  | .state id label => by
    rw [ScopeCall.run, ScopeCall.mentions]
    exact h.declareAs id hscope (fun _ => rfl) fun _ => rfl
  | .pseudo id marker => by
    rw [ScopeCall.run, ScopeCall.mentions]
    exact h.declareAs id hscope (fun _ => rfl) fun _ => rfl
  | .composite id label direction body => by
    rw [ScopeCall.run, ScopeCall.mentions, List.append_cons]
    refine follows_runAll (some id) _ ?_ ?_ body
    · exact h.declareAs id hscope (fun _ => rfl) fun _ => rfl
    · rintro p ⟨⟩
      simp [isDeclared_append, isDeclared_singleton]
  | .transition source target label => by
    rw [ScopeCall.run, ScopeCall.mentions, List.append_nil]
    exact h.of_states rfl rfl
  | .note n => by
    rw [ScopeCall.run, ScopeCall.mentions, List.append_nil]
    exact h.of_states rfl rfl
  | .direction d => by
    rw [ScopeCall.run, ScopeCall.mentions, List.append_nil]
    unfold Builder.setDirection
    split
    · exact h.alterState _ (fun _ => rfl) fun _ => rfl
    · exact h

/-- calls on a scope mention what they declare -/
theorem follows_runAll {ms : List Mention} (scope : Option Text) (b : Builder) (h : b.assembly.Follows ms)
    (hscope : ∀ p, scope = some p → isDeclared ms p = true) : (cs : List ScopeCall) →
    (runAll scope b cs).assembly.Follows (ms ++ mentionsOfAll scope cs)
  | [] => by
    rw [runAll, mentionsOfAll, List.append_nil]
    exact h
  | c :: cs => by
    rw [runAll, mentionsOfAll, ← List.append_assoc]
    refine follows_runAll scope _ (ScopeCall.follows scope b h hscope c) (fun p hp => ?_) cs
    rw [isDeclared_append, hscope p hp, Bool.true_or]

end

theorem Call.follows {b : Builder} (h : b.assembly.Follows ms) (c : Call) : (c.run b).assembly.Follows (ms ++ c.mentions) := by
  cases c with
  | scope c => exact ScopeCall.follows none b h nofun c
  | assignClass ids name =>
    rw [Call.mentions, List.append_nil]
    exact List.foldlRecOn (motive := fun b : Builder => b.assembly.Follows ms) ids _ h fun b hb id _ => hb.of_states rfl rfl
  | _ =>
    rw [Call.mentions, List.append_nil]
    exact h.of_states rfl rfl

theorem Builder.follows_run {b : Builder} (h : b.assembly.Follows ms) (calls : List Call) :
    (b.run calls).assembly.Follows (ms ++ calls.flatMap Call.mentions) := by
  induction calls generalizing b ms with
  | nil =>
    rw [List.flatMap_nil, List.append_nil]
    exact h
  | cons c calls ih =>
    rw [List.flatMap_cons, ← List.append_assoc]
    exact ih (c.follows h)

/-! ## Forests -/

/-- the state is directly inside the other one -/
def IsInside (d : StateDiagram) (id parent : Text) : Prop := ∃ s, d.states.get? id = some s ∧ s.parent = some parent

/-- states stand as these mentions say, each after the state it is in; so none is inside itself, and the printer, which walks
from states into the states inside, comes to an end and to no state twice -/
structure IsForest (ms : List Mention) (d : StateDiagram) : Prop where
  places : d.states.toList.map (fun x => (x.1, x.2.parent)) = (places ms).map fun m => (m.id, m.scope)
  parent : ∀ {before after id s p}, d.states.toList = before ++ (id, s) :: after → s.parent = some p → p ∈ before.map Prod.fst
  acyclic : ∀ id, ¬ Relation.TransGen d.IsInside id id
  once : ∀ o, (visits d o (d.states.toList.length + 1) none).Nodup
  ends : ∀ o fuel, d.states.toList.length < fuel →
    scopeLines d o fuel none 1 = scopeLines d o (d.states.toList.length + 1) none 1

theorem idxOf_lt_of_isInside {d : StateDiagram} (h : IsNested d) {id p : Text} (hin : Relation.TransGen d.IsInside id p) :
    d.states.keys.idxOf p < d.states.keys.idxOf id := by
  induction hin with
  | single hstep =>
    obtain ⟨s, hs, hp⟩ := hstep
    exact h.parent hs hp
  | tail _ hstep ih =>
    obtain ⟨s, hs, hp⟩ := hstep
    exact (h.parent hs hp).trans ih

theorem Assembly.Follows.isForest {a : Assembly} (h : a.Follows ms) : IsForest ms a.diagram := by
  have hnested := h.nested.isNested
  refine ⟨h.outline, fun {before after id s p} hstates hp => ?_, fun id hid => ?_, fun o => nodup_visits hnested, fun o fuel hfuel => ?_⟩
  · have hs : a.diagram.states.get? id = some s := Entries.mem_toList_iff.1 (by rw [hstates]; simp)
    have hkeys : a.diagram.states.keys = before.map Prod.fst ++ id :: after.map Prod.fst := by
      rw [Entries.keys, hstates, List.map_append, List.map_cons]
    have hfresh : id ∉ before.map Prod.fst := by
      have hnodup := a.diagram.states.nodup_keys
      rw [hkeys, List.nodup_append] at hnodup
      exact fun hm => hnodup.2.2 id hm id List.mem_cons_self rfl
    have hlt := hnested.parent hs hp
    by_contra hbefore
    rw [hkeys, List.idxOf_append_of_notMem hbefore, List.idxOf_append_of_notMem hfresh, List.idxOf_cons_self] at hlt
    omega
  · exact absurd (idxOf_lt_of_isInside hnested hid) (lt_irrefl _)
  · exact scopeLines_congr_fuel hnested 1 (Nat.zero_le _) hfuel (Nat.lt_succ_self _)

theorem Assembly.follows_empty (dir : Direction) : Assembly.Follows [] ⟨{ direction := dir }, []⟩ where
  nested := ⟨fun hs => absurd hs (by simp), fun hs => absurd hs (by simp), List.nil_subset _⟩
  declared := by simp [isDeclared]
  outline := rfl

/-! ## Ids -/

theorem isId_of_mem_endpointMention {scope : Option Text} (h : IsEndpoint id) (hm : m ∈ endpointMention scope id) : Text.IsId m.id := by
  unfold endpointMention at hm
  split at hm
  · cases hm
  · obtain rfl := List.mem_singleton.1 hm
    exact h.resolve_left ‹_›

/-- a line that is read mentions states by their ids -/
theorem isId_of_mem_mentions {t : Text} {line : Line} (hline : Line.read? t = some line) {scope : Option Text}
    (hm : m ∈ line.mentions scope) : Text.IsId m.id := by
  have hfrom := isFrom_of_read? hline
  cases line with
  | openComposite id title | label id title | pseudo id title =>
    obtain rfl := List.mem_singleton.1 hm
    exact hfrom.1
  | declare id =>
    obtain rfl := List.mem_singleton.1 hm
    exact hfrom
  | transition source target label =>
    rcases List.mem_append.1 hm with hm | hm
    · exact isId_of_mem_endpointMention hfrom.1 hm
    · exact isId_of_mem_endpointMention hfrom.2.1 hm
  | _ => cases hm

theorem isId_of_mem_mentionsOf {open_ : List Text} {inNote : Bool} {ls : List SourceLine} (hm : m ∈ mentionsOf open_ inNote ls) :
    Text.IsId m.id := by
  induction ls generalizing open_ inNote with
  | nil => cases hm
  | cons l ls ih =>
    rw [mentionsOf] at hm
    split at hm
    · exact ih hm
    · split at hm
      · rename_i line hline
        rcases List.mem_append.1 hm with hm | hm
        · exact isId_of_mem_mentions hline hm
        · exact ih hm
      · exact ih hm

/-- **states that are read have ids for keys**: a key is a name that some line mentions -/
theorem isId_of_mem_keys {text : Text} {d : StateDiagram} (h : read text = .ok d) (hid : id ∈ d.states.keys) : Text.IsId id := by
  obtain ⟨p, hrun, rfl⟩ := exists_of_read h
  have hstart : Progress.Follows [] [] false ⟨⟨{}, []⟩, [], none⟩ := ⟨Assembly.follows_empty .tb, rfl, rfl, nofun⟩
  obtain ⟨m, hm, rfl⟩ := List.mem_map.1 ((hstart.run hrun).mem_keys.1 hid)
  exact isId_of_mem_mentionsOf hm

/-! ## Texts and calls -/

/-- **the states of a diagram form a forest in the order of the map**, whether it is read or built: states stand in the order,
and in the scopes, of their first declarations, or of the first transitions that name them when they are never declared -/
theorem isForest_of_read_of_build :
    (∀ text d, read text = .ok d → IsForest (textMentions text) d) ∧
    ∀ dir calls d, ((Builder.start dir).run calls).diagram = d ∨ ((Builder.start dir).run calls).build = .ok d →
      IsForest (calls.flatMap Call.mentions) d := by
  constructor
  · intro text d h
    obtain ⟨p, hrun, rfl⟩ := exists_of_read h
    have hstart : Progress.Follows [] [] false ⟨⟨{}, []⟩, [], none⟩ := ⟨Assembly.follows_empty .tb, rfl, rfl, nofun⟩
    exact (hstart.run hrun).isForest
  · intro dir calls d h
    have hfollows : ((Builder.start dir).run calls).assembly.Follows (calls.flatMap Call.mentions) :=
      Builder.follows_run (b := Builder.start dir) (Assembly.follows_empty dir) calls
    rcases h with rfl | h
    · exact hfollows.isForest
    · obtain ⟨rfl, -⟩ := Reference.check_eq_ok_iff.1 h
      exact hfollows.isForest

/-- a state that a transition names, and that is then declared in a composite state -/
def moved : Text := "stateDiagram-v2\nB --> C\nstate A \x7b\nB\n[*] --> D\n\x7d\nA"

/-- calls that declare a composite state again inside itself, and a state again outside of it -/
def redeclared : List Call :=
  [.scope (.composite "A" none none [.state "A" none, .pseudo "B" "fork", .transition "B" "C" none]), .scope (.state "B" none)]

/-- the declaration takes the state out of its place before the other one, and into the composite state -/
theorem isForest_moved : ∃ d, read moved = .ok d ∧ IsForest (textMentions moved) d ∧
    places (textMentions moved) = [⟨"C", none, false⟩, ⟨"A", none, true⟩, ⟨"B", some "A", true⟩, ⟨"D", some "A", false⟩] ∧
    IsForest (redeclared.flatMap Call.mentions) ((Builder.start .tb).run redeclared).diagram := by
  obtain ⟨d, hd⟩ : ∃ d, read moved = .ok d := ⟨_, rfl⟩
  have hbuilt := isForest_of_read_of_build.2 .tb redeclared _ (Or.inl rfl)
  exact ⟨d, hd, isForest_of_read_of_build.1 moved d hd, by decide +kernel, hbuilt⟩

end DiagramText.StateDiagram

/-
The scopes of a state diagram: the top, and each composite state. The printer walks from a scope into the composite
states that are directly inside it, and `scopes` lists what it comes through. Where states stand after their parents
(`IsNested`) the walk ends in spite of its fuel: it comes through a scope if and only if all states around the scope are
composite (`mem_scopes_iff`), and then once (`nodup_scopes`). So it comes to no state twice (`nodup_visits`), and more fuel
than there are states changes nothing (`scopeLines_congr_fuel`).
-/
import DiagramText.Proofs.Entries
import DiagramText.StateDiagram.Printer

namespace DiagramText.StateDiagram

/-- the scopes that the printer comes through, each after those inside it -/
def scopes (d : StateDiagram) (o : RenderOptions) : Nat → Option Text → List (Option Text)
  | 0, _ => []
  | fuel + 1, scope =>
    (scopeStates d o scope).flatMap (fun s => if s.kind = .composite then scopes d o fuel (some s.id) else []) ++ [scope]

/-- the states are kept under their ids, after the states they are in -/
structure IsNested (d : StateDiagram) : Prop where
  byId : ∀ {id s}, d.states.get? id = some s → s.id = id
  parent : ∀ {id s p}, d.states.get? id = some s → s.parent = some p → d.states.keys.idxOf p < d.states.keys.idxOf id

/-- a scope with composite states only around it -/
inductive IsOpen (d : StateDiagram) : Option Text → Prop
  | top : IsOpen d none
  | inner {id : Text} {s : State} : d.states.get? id = some s → s.kind = .composite → IsOpen d s.parent → IsOpen d (some id)

variable {d : StateDiagram} {o : RenderOptions} {fuel : Nat} {scope c : Option Text} {s : State}

theorem perm_scopeStates (d : StateDiagram) (o : RenderOptions) (scope : Option Text) :
    (scopeStates d o scope).Perm (d.childrenOf scope) := Text.perm_ite_mergeSort _ _ (d.childrenOf scope)

theorem mem_scopeStates (h : IsNested d) : s ∈ scopeStates d o scope ↔ d.states.get? s.id = some s ∧ s.parent = scope := by
  rw [(perm_scopeStates d o scope).mem_iff, StateDiagram.childrenOf, List.mem_filter, Entries.mem_values_iff_of_byId h.byId,
    beq_iff_eq]

theorem nodup_ids_scopeStates (h : IsNested d) (scope : Option Text) : ((scopeStates d o scope).map State.id).Nodup := by
  have hvalues : (d.states.values.map State.id).Nodup := by
    rw [Entries.map_values h.byId]
    exact d.states.nodup_keys
  exact ((perm_scopeStates d o scope).map State.id).nodup_iff.2 (hvalues.sublist (List.filter_sublist.map _))

/-! ## Around a scope -/

/-- the scope around a scope -/
def outer? (d : StateDiagram) (scope : Option Text) : Option (Option Text) :=
  scope.bind fun id => (d.states.get? id).map State.parent

/-- some place of the state in the order of the map: further inside is further on -/
def rank (d : StateDiagram) : Option Text → Nat
  | none => 0
  | some id => d.states.keys.idxOf id + 1

theorem outer?_id (hs : d.states.get? s.id = some s) : outer? d (some s.id) = some s.parent := by
  rw [outer?, Option.bind_some, hs, Option.map_some]

theorem rank_lt (h : IsNested d) (hc : outer? d scope = some c) : rank d c < rank d scope := by
  obtain ⟨id, rfl, hmap⟩ := Option.bind_eq_some_iff.1 hc
  obtain ⟨s, hs, hp⟩ := Option.map_eq_some_iff.1 hmap
  cases c with
  | none => exact Nat.succ_pos _
  | some p => exact Nat.succ_lt_succ (h.parent hs hp)

/-- a scope reached from another by going outwards -/
def IsAround (d : StateDiagram) : Option Text → Option Text → Prop :=
  Relation.ReflTransGen fun scope c => outer? d scope = some c

theorem IsAround.rank_le (h : IsNested d) (hc : IsAround d scope c) : rank d c ≤ rank d scope := by
  induction hc with
  | refl => exact le_refl _
  | tail _ hstep ih => exact (rank_lt h hstep).le.trans ih

/-- of two states in one scope none is around the other -/
theorem IsAround.eq_of_siblings {s t : State} (h : IsNested d) (hs : d.states.get? s.id = some s)
    (ht : d.states.get? t.id = some t) (hp : s.parent = t.parent) (ha : IsAround d (some s.id) (some t.id)) : s.id = t.id := by
  rcases Relation.ReflTransGen.cases_head ha with e | ⟨c, hc, hrest⟩
  · exact Option.some.inj e
  · rw [outer?_id hs, Option.some.injEq] at hc
    subst hc
    have hle := IsAround.rank_le h hrest
    rw [hp] at hle
    exact absurd (rank_lt h (outer?_id ht)) (not_lt_of_ge hle)

/-! ## The walk -/

theorem mem_scopes_succ_iff (h : IsNested d) : c ∈ scopes d o (fuel + 1) scope ↔
    (∃ s, d.states.get? s.id = some s ∧ s.parent = scope ∧ s.kind = .composite ∧ c ∈ scopes d o fuel (some s.id)) ∨ c = scope := by
  rw [scopes, List.mem_append, List.mem_flatMap, List.mem_singleton]
  refine or_congr_left (exists_congr fun s => ?_)
  rw [mem_scopeStates h, and_assoc]
  refine and_congr_right fun _ => and_congr_right fun _ => ?_
  split
  · rename_i hk
    simp [hk]
  · rename_i hk
    simp [hk]

theorem isAround_of_mem_scopes (h : IsNested d) (hc : c ∈ scopes d o fuel scope) : IsAround d c scope := by
  induction fuel generalizing scope with
  | zero => exact absurd hc (by simp [scopes])
  | succ fuel ih =>
    rcases (mem_scopes_succ_iff h).1 hc with ⟨s, hs, rfl, -, hc⟩ | rfl
    · exact Relation.ReflTransGen.tail (ih hc) (outer?_id hs)
    · exact Relation.ReflTransGen.refl

/-- the printer comes through no scope twice -/
theorem nodup_scopes (h : IsNested d) : (scopes d o fuel scope).Nodup := by
  induction fuel generalizing scope with
  | zero => simp [scopes]
  | succ fuel ih =>
    have hinner : ∀ {c : Option Text} {s : State}, c ∈ (if s.kind = .composite then scopes d o fuel (some s.id) else []) → IsAround d c (some s.id) := by
      intro c s hc
      split at hc
      · exact isAround_of_mem_scopes h hc
      · exact absurd hc (by simp)
    rw [scopes, List.nodup_append, List.nodup_flatMap]
    refine ⟨⟨fun s _ => ?_, ?_⟩, by simp, ?_⟩
    · split
      · exact ih
      · exact List.nodup_nil
    · refine ((nodup_ids_scopeStates h scope).of_map _).pairwise_of_forall_ne fun s hs t ht hne c hcs hct => hne ?_
      obtain ⟨hs, hps⟩ := (mem_scopeStates h).1 hs
      obtain ⟨ht, hpt⟩ := (mem_scopeStates h).1 ht
      have hunique : Relator.RightUnique fun scope c => outer? d scope = some c :=
        fun a b b' hb hb' => Option.some.inj (hb.symm.trans hb')
      -- both are around the common scope, so one is around the other
      have hid : s.id = t.id := by
        rcases Relation.ReflTransGen.total_of_right_unique hunique (hinner hcs) (hinner hct) with ha | ha
        · exact IsAround.eq_of_siblings h hs ht (hps.trans hpt.symm) ha
        · exact (IsAround.eq_of_siblings h ht hs (hpt.trans hps.symm) ha).symm
      rw [hid, ht] at hs
      exact (Option.some.inj hs).symm
    · rintro c hc c' hc' rfl
      rw [List.mem_singleton] at hc'
      subst hc'
      obtain ⟨s, hs, hc⟩ := List.mem_flatMap.1 hc
      obtain ⟨hs, hp⟩ := (mem_scopeStates h).1 hs
      have hlt := rank_lt h (outer?_id hs)
      rw [hp] at hlt
      exact absurd (IsAround.rank_le h (hinner hc)) (not_le_of_gt hlt)

theorem isOpen_of_mem_scopes (h : IsNested d) (hopen : IsOpen d scope) (hc : c ∈ scopes d o fuel scope) : IsOpen d c := by
  induction fuel generalizing scope with
  | zero => exact absurd hc (by simp [scopes])
  | succ fuel ih =>
    rcases (mem_scopes_succ_iff h).1 hc with ⟨s, hs, rfl, hk, hc⟩ | rfl
    · exact ih (.inner hs hk hopen) hc
    · exact hopen

/-- one more step of the walk comes into the composite states that are inside what it came through -/
theorem mem_scopes_of_parent (h : IsNested d) (hs : d.states.get? s.id = some s) (hk : s.kind = .composite)
    (hp : s.parent ∈ scopes d o fuel scope) : some s.id ∈ scopes d o (fuel + 1) scope := by
  induction fuel generalizing scope with
  | zero => exact absurd hp (by simp [scopes])
  | succ fuel ih =>
    rw [mem_scopes_succ_iff h]
    rcases (mem_scopes_succ_iff h).1 hp with ⟨t, ht, rfl, hkt, hp⟩ | rfl
    · exact Or.inl ⟨t, ht, rfl, hkt, ih hp⟩
    · exact Or.inl ⟨s, hs, rfl, hk, (mem_scopes_succ_iff h).2 (Or.inr rfl)⟩

theorem mem_scopes_of_isOpen (h : IsNested d) (hc : IsOpen d c) (hfuel : rank d c < fuel) : c ∈ scopes d o fuel none := by
  induction hc generalizing fuel with
  | top =>
    obtain ⟨fuel, rfl⟩ := Nat.exists_eq_succ_of_ne_zero (Nat.ne_zero_of_lt hfuel)
    exact (mem_scopes_succ_iff h).2 (Or.inr rfl)
  | @inner id s hs hk hp ih =>
    obtain ⟨fuel, rfl⟩ := Nat.exists_eq_succ_of_ne_zero (Nat.ne_zero_of_lt hfuel)
    obtain rfl := h.byId hs
    exact mem_scopes_of_parent h hs hk (ih ((rank_lt h (outer?_id hs)).trans_le (Nat.le_of_lt_succ hfuel)))

/-- **the printer comes through the open scopes**, as far as they are nested -/
theorem mem_scopes_iff (h : IsNested d) : c ∈ scopes d o (d.states.toList.length + 1) none ↔ IsOpen d c := by
  refine ⟨isOpen_of_mem_scopes h .top, fun hc => mem_scopes_of_isOpen h hc ?_⟩
  cases hc with
  | top => exact Nat.succ_pos _
  | @inner id s hs _ _ =>
    have hmem := List.idxOf_lt_length_of_mem (Entries.mem_keys_of_get? hs)
    rw [Entries.keys, List.length_map] at hmem
    exact Nat.succ_lt_succ hmem

/-! ## What is printed -/

/-- the ids of the states that the printer comes to, in the order in which it does -/
def visits (d : StateDiagram) (o : RenderOptions) : Nat → Option Text → List Text
  | 0, _ => []
  | fuel + 1, scope =>
    (scopeStates d o scope).flatMap fun s => s.id :: if s.kind = .composite then visits d o fuel (some s.id) else []

/-- the printer comes to the states of the scopes that it comes through -/
theorem visits_perm (d : StateDiagram) (o : RenderOptions) (fuel : Nat) (scope : Option Text) :
    (visits d o fuel scope).Perm ((scopes d o fuel scope).flatMap fun c => (scopeStates d o c).map State.id) := by
  induction fuel generalizing scope with
  | zero => exact List.Perm.refl _
  | succ fuel ih =>
    have hinner : ∀ s : State, (if s.kind = .composite then visits d o fuel (some s.id) else []).Perm
        ((if s.kind = .composite then scopes d o fuel (some s.id) else []).flatMap fun c => (scopeStates d o c).map State.id) := by
      intro s
      split
      · exact ih (some s.id)
      · exact List.Perm.refl _
    rw [visits, scopes, List.flatMap_append, List.flatMap_assoc, List.flatMap_singleton]
    refine (List.map_append_flatMap_perm (scopeStates d o scope) State.id _).symm.trans ?_
    have hall := List.Perm.flatMap_left (scopeStates d o scope) fun s _ => hinner s
    exact (hall.append_left _).trans List.perm_append_comm

/-- **the printer comes to no state twice** -/
theorem nodup_visits (h : IsNested d) : (visits d o fuel scope).Nodup := by
  rw [(visits_perm d o fuel scope).nodup_iff, List.nodup_flatMap]
  refine ⟨fun c _ => nodup_ids_scopeStates h c, (nodup_scopes h).imp fun hne id hid hid' => hne ?_⟩
  obtain ⟨s, hs, rfl⟩ := List.mem_map.1 hid
  obtain ⟨t, ht, hts⟩ := List.mem_map.1 hid'
  obtain ⟨hs, hps⟩ := (mem_scopeStates h).1 hs
  obtain ⟨ht, hpt⟩ := (mem_scopeStates h).1 ht
  rw [hts, hs] at ht
  rw [← hps, ← hpt, Option.some.inj ht]

theorem rank_le_length (hs : d.states.get? s.id = some s) : rank d (some s.id) ≤ d.states.toList.length := by
  have hmem := List.idxOf_lt_length_of_mem (Entries.mem_keys_of_get? hs)
  rw [Entries.keys, List.length_map] at hmem
  exact hmem

/-- the walk ends before its fuel does: every step inwards is a step further on in the map -/
theorem scopeLines_congr_fuel (h : IsNested d) {fuel fuel' : Nat} (depth : Nat) (hscope : rank d scope ≤ d.states.toList.length)
    (hfuel : d.states.toList.length < fuel + rank d scope) (hfuel' : d.states.toList.length < fuel' + rank d scope) :
    scopeLines d o fuel scope depth = scopeLines d o fuel' scope depth := by
  induction fuel generalizing fuel' scope depth with
  | zero => omega
  | succ fuel ih =>
    obtain ⟨fuel', rfl⟩ : ∃ n, fuel' = n + 1 := Nat.exists_eq_succ_of_ne_zero (by omega)
    rw [scopeLines, scopeLines]
    have hinner : ∀ s ∈ scopeStates d o scope,
        scopeLines d o fuel (some s.id) (depth + 1) = scopeLines d o fuel' (some s.id) (depth + 1) := by
      intro s hs
      obtain ⟨hs, hp⟩ := (mem_scopeStates h).1 hs
      have hlt : rank d scope < rank d (some s.id) := hp ▸ rank_lt h (outer?_id hs)
      exact ih (depth + 1) (rank_le_length hs) (by omega) (by omega)
    congr 2
    refine List.flatMap_congr fun s hs => ?_
    rw [hinner s hs]

end DiagramText.StateDiagram

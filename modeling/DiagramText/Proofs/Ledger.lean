/-
What calls on a builder say about names, and what a validated build makes of it. An `Account` lists the references that
calls make and the names that they declare, in order. A `Ledger` says where a builder keeps these, and `Ledger.Records` that
an account has been entered: the parts that have come with it refer to nothing else. Whatever the builder, this decides its
validated builds (`Ledger.Records.validates`): they stand when every reference is to a declared name, before or after it, and
otherwise name the earliest reference that is not.
-/
import DiagramText.Reference

namespace DiagramText

namespace Reference

/-- the name belongs to those of its kind: `P` for entities, `Q` for style classes -/
def IsKnown (P Q : Text → Prop) (r : Reference) : Prop :=
  match r.kind with
  | .entity => P r.identifier
  | .classDef => Q r.identifier

variable {P Q : Text → Prop} {construct id : Text} {entities classDefs : List Text} {log : List Reference} {r : Reference}

@[simp] theorem isKnown_entity : (entity construct id).IsKnown P Q ↔ P id := Iff.rfl

@[simp] theorem isKnown_classDef : (classDef construct id).IsKnown P Q ↔ Q id := Iff.rfl

theorem isDeclared_iff : r.isDeclared entities classDefs = true ↔ r.IsKnown (· ∈ entities) (· ∈ classDefs) := by
  unfold isDeclared IsKnown
  cases r.kind <;> exact List.contains_iff_mem

theorem isKnown_congr {P' Q' : Text → Prop} (hP : ∀ id, P id ↔ P' id) (hQ : ∀ id, Q id ↔ Q' id) :
    r.IsKnown P Q ↔ r.IsKnown P' Q' := by
  unfold IsKnown
  cases r.kind
  · exact hP _
  · exact hQ _

/-- the reference that a check complains of is the first to a name that is not declared -/
theorem firstDangling?_eq_some_iff : firstDangling? entities classDefs log = some r ↔
    ∃ before after, log = before ++ r :: after ∧ (∀ q ∈ before, q.IsKnown (· ∈ entities) (· ∈ classDefs)) ∧
      ¬ r.IsKnown (· ∈ entities) (· ∈ classDefs) := by
  simp only [firstDangling?, List.find?_eq_some_iff_append, Bool.not_eq_true', ← isDeclared_iff, Bool.not_eq_true,
    Bool.not_not]
  constructor
  · rintro ⟨hr, before, after, rfl, hbefore⟩
    exact ⟨before, after, rfl, hbefore, hr⟩
  · rintro ⟨before, after, rfl, hbefore, hr⟩
    exact ⟨hr, before, after, rfl, hbefore⟩

theorem firstDangling?_eq_none_iff : firstDangling? entities classDefs log = none ↔
    ∀ r ∈ log, r.IsKnown (· ∈ entities) (· ∈ classDefs) := by
  simp only [firstDangling?, List.find?_eq_none, Bool.not_eq_true', Bool.not_eq_false, isDeclared_iff]

variable {α : Type} {built d : α}

theorem check_eq_ok_iff : check entities classDefs log built = .ok d ↔
    built = d ∧ ∀ r ∈ log, r.IsKnown (· ∈ entities) (· ∈ classDefs) := by
  rw [check, ← firstDangling?_eq_none_iff]
  cases firstDangling? entities classDefs log <;> simp

theorem check_eq_error_iff : check entities classDefs log built = .error r ↔
    ∃ before after, log = before ++ r :: after ∧ (∀ q ∈ before, q.IsKnown (· ∈ entities) (· ∈ classDefs)) ∧
      ¬ r.IsKnown (· ∈ entities) (· ∈ classDefs) := by
  rw [check, ← firstDangling?_eq_some_iff]
  cases firstDangling? entities classDefs log <;> simp

end Reference

/-! ## Accounts -/

/-- what calls say about names: the references that they make and the names that they declare, in order -/
structure Account where
  references : List Reference := []
  entities : List Text := []
  classDefs : List Text := []

namespace Account

instance : Append Account :=
  ⟨fun a b => ⟨a.references ++ b.references, a.entities ++ b.entities, a.classDefs ++ b.classDefs⟩⟩

@[simp] theorem empty_append (a : Account) : {} ++ a = a := rfl

@[simp] theorem append_empty (a : Account) : a ++ {} = a := by
  obtain ⟨references, entities, classDefs⟩ := a
  change Account.mk (references ++ []) (entities ++ []) (classDefs ++ []) = _
  simp only [List.append_nil]

/-- accounts one after another -/
def concat : List Account → Account
  | [] => {}
  | a :: as => a ++ concat as

/-- what a `class` statement says about names: it gives a style class to an entity -/
def classAssignment (name id : Text) : Account :=
  let construct := "class " ++ id ++ " " ++ name
  { references := [.entity construct id, .classDef construct name] }

theorem mem_entities_concat {as : List Account} {id : Text} : id ∈ (concat as).entities ↔ ∃ a ∈ as, id ∈ a.entities := by
  induction as with
  | nil => simp [concat]
  | cons a as ih =>
    change id ∈ a.entities ++ (concat as).entities ↔ _
    rw [List.mem_append, ih]
    simp

/-- the reference is to a name that is declared -/
def Declares (a : Account) (r : Reference) : Prop := r.IsKnown (· ∈ a.entities) (· ∈ a.classDefs)

instance (a : Account) : DecidablePred a.Declares :=
  fun r => decidable_of_iff (r.isDeclared a.entities a.classDefs = true) Reference.isDeclared_iff

/-- **what a validated build promises** for calls with this account: it stands exactly when every reference is to a declared
name; it fails exactly with the earliest reference that is not; and what it gives is closed -/
structure Validates {α : Type} (a : Account) (Closed : α → Prop) (build : Except Reference α) : Prop where
  stands : (∃ d, build = .ok d) ↔ ∀ r ∈ a.references, a.Declares r
  fails : ∀ r, build = .error r ↔
    ∃ before after, a.references = before ++ r :: after ∧ (∀ q ∈ before, a.Declares q) ∧ ¬ a.Declares r
  closed : ∀ d, build = .ok d → Closed d

end Account

/-! ## Ledgers -/

/-- where a builder keeps references and declared names -/
structure Ledger (σ : Type) where
  log : σ → List Reference
  entities : σ → List Text
  classDefs : σ → List Text
  /-- what holds of a builder from call to call -/
  Sound : σ → Prop := fun _ => True
  /-- every name that a part refers to is one of these entities or style classes -/
  Within : (Text → Prop) → (Text → Prop) → σ → Prop

namespace Ledger

variable {σ κ ε : Type} {L : Ledger σ}

/-- from one state to another the calls of an account have been entered, and nothing else -/
structure Records (L : Ledger σ) (a : Account) (s s' : σ) : Prop where
  sound : L.Sound s → L.Sound s'
  log : L.log s' = L.log s ++ a.references
  entities : L.Sound s → ∀ id, id ∈ L.entities s' ↔ id ∈ L.entities s ∨ id ∈ a.entities
  classDefs : ∀ id, id ∈ L.classDefs s' ↔ id ∈ L.classDefs s ∨ id ∈ a.classDefs
  within : ∀ {P Q}, L.Within P Q s → (∀ r ∈ a.references, r.IsKnown P Q) → (∀ id ∈ a.entities, P id) → L.Within P Q s'

namespace Records

variable {a a' : Account} {s s' s'' : σ} {account : κ → Account}

theorem refl (s : σ) : L.Records {} s s where
  sound := id
  log := (List.append_nil _).symm
  entities := by simp
  classDefs := by simp
  within h _ _ := h

theorem trans (h : L.Records a s s') (h' : L.Records a' s' s'') : L.Records (a ++ a') s s'' where
  sound hs := h'.sound (h.sound hs)
  log := by
    rw [h'.log, h.log, List.append_assoc]
    rfl
  entities hs id := by
    rw [h'.entities (h.sound hs), h.entities hs, or_assoc]
    exact or_congr_right List.mem_append.symm
  classDefs id := by
    rw [h'.classDefs, h.classDefs, or_assoc]
    exact or_congr_right List.mem_append.symm
  within hs hrefs hids := by
    obtain ⟨hrefs, hrefs'⟩ := List.forall_mem_append.1 hrefs
    obtain ⟨hids, hids'⟩ := List.forall_mem_append.1 hids
    exact h'.within (h.within hs hrefs hids) hrefs' hids'

/-- calls that are never refused -/
theorem foldl {run : σ → κ → σ} (hrun : ∀ s c, L.Records (account c) s (run s c)) (cs : List κ) (s : σ) :
    L.Records (Account.concat (cs.map account)) s (cs.foldl run s) := by
  induction cs generalizing s with
  | nil => exact refl s
  | cons c cs ih => exact (hrun s c).trans (ih _)

end Records

/-- no call of a run is refused -/
def Accepts (run : σ → κ → σ × Option ε) (s : σ) : List κ → Prop
  | [] => True
  | c :: cs => (run s c).2 = none ∧ Accepts run (run s c).1 cs

/-- calls none of which is refused -/
theorem Records.foldl_accepts {run : σ → κ → σ × Option ε} {account : κ → Account}
    (hrun : ∀ s c, (run s c).2 = none → L.Records (account c) s (run s c).1) {cs : List κ} {s : σ} (h : Accepts run s cs) :
    L.Records (Account.concat (cs.map account)) s (cs.foldl (fun s c => (run s c).1) s) := by
  induction cs generalizing s with
  | nil => exact refl s
  | cons c cs ih => exact (hrun s c h.1).trans (ih h.2)

/-- **the check of a build decides by the account**: names that are declared at the start need no declaration -/
theorem Records.validates {α : Type} {a : Account} {s s' : σ} (h : L.Records a s s') (hlog : L.log s = [])
    (hsound : L.Sound s) (hwithin : ∀ P Q, L.Within P Q s) {Closed : α → Prop} {built : α}
    (hclosed : L.Sound s' → L.Within (· ∈ L.entities s') (· ∈ L.classDefs s') s' → Closed built) :
    (({ entities := L.entities s, classDefs := L.classDefs s } : Account) ++ a).Validates Closed
      (Reference.check (L.entities s') (L.classDefs s') (L.log s') built) := by
  have hrefs : L.log s' = a.references := by rw [h.log, hlog, List.nil_append]
  have hknown : ∀ r : Reference, r.IsKnown (· ∈ L.entities s') (· ∈ L.classDefs s') ↔
      (({ entities := L.entities s, classDefs := L.classDefs s } : Account) ++ a).Declares r := by
    intro r
    refine Reference.isKnown_congr ?_ ?_
    · exact fun id => (h.entities hsound id).trans List.mem_append.symm
    · exact fun id => (h.classDefs id).trans List.mem_append.symm
  refine ⟨?_, ?_, ?_⟩
  · simp only [Reference.check_eq_ok_iff, exists_eq_left', hrefs, hknown]
    exact Iff.rfl
  · intro r
    simp only [Reference.check_eq_error_iff, hrefs, hknown]
    exact Iff.rfl
  · intro d hd
    obtain ⟨rfl, hall⟩ := Reference.check_eq_ok_iff.1 hd
    rw [hrefs] at hall
    exact hclosed (h.sound hsound) (h.within (hwithin _ _) hall fun id hid => (h.entities hsound id).2 (Or.inr hid))

end Ledger

end DiagramText

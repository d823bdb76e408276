/-
Diagrams that were read can be written. Every line of a text leaves entities under their own ids, ends of relationships that
are entities, and labels, comments and texts that their lines say again (`isPrintable_of_readLine`), so the diagram of an
accepted text has all of them (`isPrintable_of_read`). Semicolons are left out: the entity of a quote is spelled with one.
-/
import DiagramText.Proofs.Entries
import DiagramText.Proofs.EntityDiagram.Line
import DiagramText.Proofs.Reading

namespace DiagramText.EntityDiagram

open DiagramText.Text
open Sequence (IsLineText)

/-- a diagram that can be written -/
structure IsPrintable (d : EntityDiagram) : Prop where
  byId : ∀ {id e}, d.entities.get? id = some e → e.id = id
  entities : ∀ {id e}, d.entities.get? id = some e → e.IsPlain
  relationships : ∀ r ∈ d.relationships, r.IsPlain
  ends : ∀ r ∈ d.relationships, r.source ∈ d.entities.keys ∧ r.target ∈ d.entities.keys
  accessibility : ∀ line ∈ d.accessibility.written, line.value ≠ [] ∧ IsLineText line.value

/-- what a line outside blocks says, where it can be written again -/
def Line.IsPlain : Line → Prop
  | .accessibility line => IsLineText line.value
  | .direction _ => True
  | .declare id label _ => IsId id ∧ ∀ t, label = some t → IsQuotable t
  | .relate r => IsId r.source ∧ IsId r.target ∧ IsQuotable r.label

/-! ## What lines say -/

section

variable {t : Text} (hl : '\n' ∉ t) (hs : ';' ∉ t)

include hl hs

/-- a text that was taken from its quotes can stand in quotes -/
theorem isQuotable_unquote {u : Text} (h : u ⊆ t) : IsQuotable (unquote u) :=
  isQuotable_of_not_mem (fun hm => (mem_of_mem_unquote hm).elim (by decide) fun hu => hl (h hu))
    fun hm => (mem_of_mem_unquote hm).elim (by decide) fun hu => hs (h hu)

theorem isQuotable_of_bracketedLabel {u : Text} (h : (bracketedLabel t).1 = some u) : IsQuotable u := by
  unfold bracketedLabel at h
  split at h
  · rename_i r
    split at h
    · rename_i token rest hquoted
      obtain rfl := Option.some.inj h
      exact isQuotable_unquote hl hs fun x hx => List.mem_cons_of_mem _ ((Scan.quoted?_subset hquoted).1 hx)
    · exact absurd h (by simp)
  · exact absurd h (by simp)

theorem isPlain_of_block? {line : Line} (h : block? t = some line) : line.IsPlain := by
  obtain ⟨⟨id, rest⟩, hid, h⟩ := Option.bind_eq_some_iff.1 h
  obtain ⟨opens, -, rfl⟩ := Option.map_eq_some_iff.1 h
  obtain ⟨hid, hsub⟩ := isId_of_run? hid
  exact ⟨hid, fun u hu => isQuotable_of_bracketedLabel (fun hm => hl (hsub hm)) (fun hm => hs (hsub hm)) hu⟩

theorem isPlain_of_entity? {line : Line} (h : entity? t = some line) : line.IsPlain := by
  obtain ⟨⟨id, rest⟩, hid, h⟩ := Option.bind_eq_some_iff.1 h
  obtain ⟨hid, hsub⟩ := isId_of_run? hid
  dsimp only at h
  rw [Option.ite_none_right_eq_some] at h
  obtain rfl := Option.some.inj h.2
  exact ⟨hid, fun u hu => isQuotable_of_bracketedLabel (fun hm => hl (hsub hm)) (fun hm => hs (hsub hm)) hu⟩

theorem isPlain_of_relation? {r : RelationText} (h : relation? t = some r) : (Line.relate r).IsPlain := by
  obtain ⟨source, rest, rfl, hsource, h⟩ := Scan.exists_of_longest_all h
  rw [Option.ite_none_left_eq_some] at h
  obtain ⟨hne, h⟩ := h
  have hrest : rest ⊆ source ++ rest := List.subset_append_right source rest
  unfold relationTail? at h
  obtain ⟨⟨sourceSymbol, r₁⟩, h₁, h⟩ := Option.bind_eq_some_iff.1 h
  obtain ⟨⟨isIdentifying, r₂⟩, h₂, h⟩ := Option.bind_eq_some_iff.1 h
  obtain ⟨⟨targetSymbol, r₃⟩, h₃, h⟩ := Option.bind_eq_some_iff.1 h
  obtain ⟨⟨target, r₄⟩, h₄, h⟩ := Option.bind_eq_some_iff.1 h
  obtain ⟨label, hlabel, rfl⟩ := Option.map_eq_some_iff.1 h
  have hsymbol : ∀ {u symbol r : Text}, symbol? u = some (symbol, r) → r ⊆ u := by
    intro u symbol r hu
    unfold symbol? at hu
    split at hu
    · rw [Option.ite_none_right_eq_some] at hu
      obtain ⟨-, rfl⟩ := Prod.mk.inj (Option.some.inj hu.2)
      exact fun x hx => List.mem_cons_of_mem _ (List.mem_cons_of_mem _ hx)
    · exact absurd hu (by simp)
  have hline : r₂ ⊆ r₁ := by
    rw [lineStyle?, Scan.orElse_eq_some_iff] at h₂
    rcases h₂ with h₂ | ⟨-, h₂⟩ <;>
      · obtain ⟨r, hr, e⟩ := Option.map_eq_some_iff.1 h₂
        exact (Prod.mk.inj e).2 ▸ dropPrefix?_subset hr
  obtain ⟨htarget, hafter⟩ := isId_of_run? h₄
  refine ⟨⟨hne, hsource⟩, htarget, isQuotable_unquote hl hs fun x hx => hrest ?_⟩
  cases label with
  | none => exact absurd (mem_of_mem_trim hx) (by simp)
  | some v =>
    have hx : x ∈ r₄ := Scan.optionalLabel?_subset hlabel rfl (mem_of_mem_trim hx)
    exact Scan.blanks_subset rest (hsymbol h₁ (hline (hsymbol h₃ (Scan.blanks_subset r₃ (hafter hx)))))

/-- **what a line says can be written** -/
theorem Line.isPlain_of_read? {line : Line} (h : Line.read? t = some line) : line.IsPlain := by
  simp only [Line.read?, Scan.orElse_eq_some_iff, Option.map_eq_some_iff] at h
  rcases h with ⟨line, hline, rfl⟩ | ⟨-, ⟨x, -, rfl⟩ | ⟨-, h | ⟨-, ⟨r, hr, rfl⟩ | ⟨-, h⟩⟩⟩⟩
  · obtain ⟨htrim, hsub⟩ := Accessibility.value_of_line? hline
    refine ⟨fun hm => hl (hsub hm), htrim, fun he => ?_⟩
    obtain ⟨r, x, e, hx⟩ := exists_concat_of_endsWith he
    exact hs (hsub (e ▸ of_decide_eq_true hx ▸ List.mem_append_right r (List.mem_singleton_self x)))
  · trivial
  · exact isPlain_of_block? hl hs h
  · exact isPlain_of_relation? hl hs hr
  · exact isPlain_of_entity? hl hs h

end

/-! ## What lines leave -/

theorem mem_keys_alterEntity {d : EntityDiagram} {k id : Text} (f : Entity → Entity) (hk : k ∈ d.entities.keys ∨ k = id) :
    k ∈ (alterEntity id f d).entities.keys := by
  rw [alterEntity, Entries.keys_alter]
  split
  · rename_i hid
    exact hk.elim (fun hk => hk) fun e => e ▸ hid
  · rw [List.mem_append, List.mem_singleton]
    exact hk

namespace IsPrintable

variable {d : EntityDiagram} (h : d.IsPrintable)
include h

/-- an entity that is changed, or created -/
theorem alterEntity {id : Text} (hid : IsId id) {f : Entity → Entity}
    (hf : ∀ e : Entity, e.IsPlain → e.id = id → (f e).IsPlain ∧ (f e).id = id) : (alterEntity id f d).IsPrintable := by
  have hold : ∀ e, e = (d.entities.get? id).getD { id := id, label := id } → e.IsPlain ∧ e.id = id := by
    rintro e rfl
    cases hget : d.entities.get? id with
    | none => exact ⟨⟨hid, hid.isQuotable, by simp⟩, rfl⟩
    | some e => exact ⟨h.entities hget, h.byId hget⟩
  obtain ⟨hplain, hfid⟩ := hf _ (hold _ rfl).1 (hold _ rfl).2
  have hget : ∀ {k e}, (EntityDiagram.alterEntity id f d).entities.get? k = some e → e.IsPlain ∧ e.id = k := by
    intro k e he
    rw [EntityDiagram.alterEntity, Entries.get?_alter] at he
    split at he
    · rename_i hk
      obtain rfl := Option.some.inj he
      exact ⟨hplain, hk ▸ hfid⟩
    · exact ⟨h.entities he, h.byId he⟩
  exact ⟨fun he => (hget he).2, fun he => (hget he).1, h.relationships,
    fun r hr => ⟨mem_keys_alterEntity f (Or.inl (h.ends r hr).1), mem_keys_alterEntity f (Or.inl (h.ends r hr).2)⟩, h.accessibility⟩

end IsPrintable

/-- a diagram that can be written, with the id of the entity whose block is open -/
structure Progress.IsPrintable (p : Progress) : Prop where
  diagram : p.diagram.IsPrintable
  block : ∀ x, p.block = some x → IsId x.1

variable {p q : Progress} {l : SourceLine}

theorem isPrintable_of_apply (h : p.IsPrintable) {line : Line} (hline : line.IsPlain) (happly : p.apply l line = .ok q) :
    q.IsPrintable := by
  cases line with
  | accessibility line =>
    obtain rfl := Except.ok.inj happly
    refine ⟨⟨h.diagram.byId, h.diagram.entities, h.diagram.relationships, h.diagram.ends, fun x hx => ?_⟩, h.block⟩
    rcases Accessibility.mem_written_put hx with ⟨rfl, hne⟩ | hx
    · exact ⟨hne, hline⟩
    · exact h.diagram.accessibility x hx
  | direction token =>
    rw [Progress.apply] at happly
    split at happly
    · obtain rfl := Except.ok.inj happly
      exact ⟨⟨h.diagram.byId, h.diagram.entities, h.diagram.relationships, h.diagram.ends, h.diagram.accessibility⟩, h.block⟩
    · exact absurd happly (by simp)
  | declare id label opens =>
    obtain rfl := Except.ok.inj happly
    obtain ⟨hid, hlabel⟩ := hline
    refine ⟨h.diagram.alterEntity hid fun e he hide => ?_, fun x hx => ?_⟩
    · refine ⟨⟨he.id, ?_, he.columns⟩, hide⟩
      cases label with
      | none => exact he.label
      | some t => exact hlabel t rfl
    · dsimp only at hx
      rw [Option.ite_none_right_eq_some] at hx
      exact Option.some.inj hx.2 ▸ hid
  | relate text =>
    obtain ⟨r, hr, rfl⟩ := exceptMap_eq_ok_iff.1 happly
    obtain ⟨hsource, htarget, hlabel⟩ := hline
    have hplain : r.source = text.source ∧ r.target = text.target ∧ r.label = text.label := by
      unfold RelationText.read at hr
      dsimp only at hr
      split at hr
      · exact absurd hr (by simp)
      · exact absurd hr (by simp)
      · obtain rfl := Except.ok.inj hr
        exact ⟨rfl, rfl, rfl⟩
    obtain ⟨hs, ht, hl⟩ := hplain
    rw [← hs] at hsource
    rw [← ht] at htarget
    rw [← hl] at hlabel
    have hboth : (alterEntity r.target id (alterEntity r.source id p.diagram)).IsPrintable :=
      (h.diagram.alterEntity hsource fun e he hide => ⟨he, hide⟩).alterEntity htarget fun e he hide => ⟨he, hide⟩
    have hsourceKey : r.source ∈ (alterEntity r.target id (alterEntity r.source id p.diagram)).entities.keys :=
      mem_keys_alterEntity id (Or.inl (mem_keys_alterEntity id (Or.inr rfl)))
    refine ⟨⟨hboth.byId, hboth.entities, ?_, ?_, hboth.accessibility⟩, h.block⟩
    · exact List.forall_mem_append.2 ⟨hboth.relationships, List.forall_mem_singleton.2 ⟨hsource, htarget, hlabel⟩⟩
    · exact List.forall_mem_append.2 ⟨hboth.ends, List.forall_mem_singleton.2 ⟨hsourceKey, mem_keys_alterEntity id (Or.inr rfl)⟩⟩

/-- **every line leaves a diagram that can be written** -/
theorem isPrintable_of_readLine (h : p.IsPrintable) (hl : SourceLine.IsContent l.text) (hs : ';' ∉ l.text)
    (hread : p.readLine l = .ok q) : q.IsPrintable := by
  unfold Progress.readLine at hread
  split at hread
  · rename_i id opened hblock
    split at hread
    · obtain rfl := Except.ok.inj hread
      exact ⟨h.diagram, by simp⟩
    · unfold Progress.addColumn at hread
      split at hread
      · rename_i c hcolumn
        obtain rfl := Except.ok.inj hread
        refine ⟨h.diagram.alterEntity (h.block _ hblock) fun e he hide => ?_, h.block⟩
        refine ⟨⟨he.id, he.label, ?_⟩, hide⟩
        exact List.forall_mem_append.2 ⟨he.columns, List.forall_mem_singleton.2 (Column.isPlain_of_read hl hs hcolumn)⟩
      · exact absurd hread (by simp)
  · split at hread
    · rename_i line hline
      exact isPrintable_of_apply h (Line.isPlain_of_read? hl.lineFeed hs hline) hread
    · exact absurd hread (by simp)

/-- **the diagram of an accepted text can be written** -/
theorem isPrintable_of_read {text : Text} {d : EntityDiagram} (hs : ';' ∉ text) (h : read text = .ok d) : d.IsPrintable := by
  unfold read at h
  obtain ⟨p, hp, hfinish⟩ := exceptBind_eq_ok_iff.1 h
  have hstart : Progress.IsPrintable ⟨{}, none⟩ := ⟨⟨by simp, by simp, by simp, by simp, by simp [Accessibility.written, present]⟩, by simp⟩
  have hprintable : p.IsPrintable := by
    refine invariant_of_foldlM (fun l hl p q hp hq => ?_) hstart hp
    obtain ⟨hcontent, hsub⟩ := isContent_of_mem_sourceLines hs (body_subset .er _ hl)
    exact isPrintable_of_readLine hp hcontent (fun hm => hs (hsub hm)) hq
  unfold Progress.finish at hfinish
  split at hfinish
  · exact absurd hfinish (by simp)
  · exact Except.ok.inj hfinish ▸ hprintable.diagram

end DiagramText.EntityDiagram

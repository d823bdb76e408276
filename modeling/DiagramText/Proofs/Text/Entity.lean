/-
The pieces of a text between its entities. A text is cut at the entities that it spells (`exists_eq_join_quoteEntity`), and
reading it puts a double quote for each cut and leaves the pieces alone (`readEntities_join`): an entity has one number
sign, its first character, so none begins inside another one or runs from a piece into the next entity. What quoting does
to a text is said through these pieces in `quote_loses_only_entities`.
-/
import DiagramText.Proofs.Text.Quoted

namespace DiagramText

/-- no entity begins inside a piece that spells none, even where the next entity follows the piece -/
theorem not_prefix_of_piece {p : Text} (hne : p ≠ []) (h : ¬ quoteEntity <+: p) (t : Text) :
    ¬ quoteEntity <+: p ++ (quoteEntity ++ t) := by
  rintro ⟨s, e⟩
  rcases List.append_eq_append_iff.1 e with ⟨m, rfl, -⟩ | ⟨m, hm, hnext⟩
  · exact h (List.prefix_append quoteEntity m)
  · -- the entity ends after the piece, so the rest `m` of it begins with the number sign of the next entity
    cases m with
    | nil =>
      rw [List.append_nil] at hm
      exact h (hm ▸ List.prefix_rfl)
    | cons c m =>
      obtain ⟨d, p, rfl⟩ := List.exists_cons_of_ne_nil hne
      obtain ⟨rfl, -⟩ : '#' = c ∧ _ := List.cons.inj hnext
      have htail : ("quot;" : Text) = p ++ '#' :: m := (List.cons.inj hm).2
      have hsign : '#' ∈ ("quot;" : Text) := by
        rw [htail]
        simp
      exact absurd hsign (by decide)

/-- a piece that spells no entity is read as it stands, and the entity after it as a double quote -/
theorem readEntities_piece {p : Text} (h : ¬ quoteEntity <:+: p) (t : Text) :
    readEntities (p ++ (quoteEntity ++ t)) = p ++ '"' :: readEntities t := by
  induction p with
  | nil => exact readEntities_entity t
  | cons c p ih =>
    rw [List.infix_cons_iff, not_or] at h
    have hstart : ¬ quoteEntity <+: c :: (p ++ (quoteEntity ++ t)) := not_prefix_of_piece (List.cons_ne_nil c p) h.1 t
    rw [List.cons_append, readEntities_cons hstart, ih h.2, List.cons_append]

/-- **reading puts a double quote for every entity between the pieces of a text**, and keeps the pieces -/
theorem readEntities_join {pieces : List Text} (h : ∀ p ∈ pieces, ¬ quoteEntity <:+: p) :
    readEntities (Text.join quoteEntity pieces) = Text.join "\"" pieces := by
  induction pieces with
  | nil => rfl
  | cons p ps ih =>
    obtain ⟨hp, hps⟩ := List.forall_mem_cons.1 h
    cases ps with
    | nil => rw [Text.join_singleton, Text.join_singleton, readEntities_eq_self hp]
    | cons q qs =>
      rw [Text.join_cons_cons, Text.join_cons_cons, List.append_assoc, List.append_assoc, readEntities_piece hp, ih hps]
      rfl

/-- every text is pieces that spell no entity, with the entities of the text between them -/
theorem exists_eq_join_quoteEntity (t : Text) :
    ∃ pieces : List Text, (∀ p ∈ pieces, ¬ quoteEntity <:+: p) ∧ t = Text.join quoteEntity pieces := by
  suffices ∃ p ps, (∀ q ∈ p :: ps, ¬ quoteEntity <:+: q) ∧ t = Text.join quoteEntity (p :: ps) by
    obtain ⟨p, ps, h⟩ := this
    exact ⟨p :: ps, h⟩
  induction t using entity_induction with
  | nil => exact ⟨[], [], by decide, rfl⟩
  | entity r ih =>
    obtain ⟨p, ps, hfree, rfl⟩ := ih
    exact ⟨[], p :: ps, List.forall_mem_cons.2 ⟨by decide, hfree⟩, by rw [Text.join_cons_cons]; rfl⟩
  | cons c r hn ih =>
    obtain ⟨p, ps, hfree, rfl⟩ := ih
    obtain ⟨hp, hps⟩ := List.forall_mem_cons.1 hfree
    have hjoin : Text.join quoteEntity ((c :: p) :: ps) = c :: Text.join quoteEntity (p :: ps) := by
      cases ps with
      | nil => rw [Text.join_singleton, Text.join_singleton]
      | cons q qs => rw [Text.join_cons_cons, Text.join_cons_cons]; rfl
    have hstart : c :: p <+: c :: Text.join quoteEntity (p :: ps) := by
      cases ps with
      | nil => rw [Text.join_singleton]
      | cons q qs =>
        rw [Text.join_cons_cons, List.append_assoc]
        exact List.prefix_append (c :: p) _
    refine ⟨c :: p, ps, List.forall_mem_cons.2 ⟨?_, hps⟩, hjoin.symm⟩
    rw [List.infix_cons_iff, not_or]
    exact ⟨fun hentity => hn (hentity.trans hstart), hp⟩

/-- quoting and unquoting give a text back exactly when it spells no entity: no entity is left where they have been read -/
theorem unquote_quote_eq_self_iff {t : Text} : unquote (quote t) = t ↔ ¬ quoteEntity <:+: t := by
  refine ⟨fun h => ?_, unquote_quote_eq_self⟩
  rw [unquote_quote] at h
  exact h ▸ not_infix_readEntities t

/-- **quoting is a faithful escape.** A quoted text has its first and its last character for double quotes, and no other.
Unquoted again it is the text with a double quote in place of each of its entities, the pieces between them as they were,
so it is the text itself exactly when there were none; and it is quoted as before. -/
theorem quote_loses_only_entities (t : Text) :
    (∃ inner, quote t = '"' :: (inner ++ ['"']) ∧ '"' ∉ inner) ∧
    unquote (quote t) = Text.replace quoteEntity "\"" t ∧
    (∃ pieces : List Text, (∀ p ∈ pieces, ¬ quoteEntity <:+: p) ∧ t = Text.join quoteEntity pieces ∧
      unquote (quote t) = Text.join "\"" pieces) ∧
    (unquote (quote t) = t ↔ ¬ quoteEntity <:+: t) ∧
    quote (unquote (quote t)) = quote t := by
  obtain ⟨pieces, hfree, hjoin⟩ := exists_eq_join_quoteEntity t
  have hread : unquote (quote t) = Text.join "\"" pieces := by
    rw [unquote_quote, hjoin, readEntities_join hfree]
  exact ⟨⟨t.flatMap escapeQuote, quote_eq t, quote_not_mem_escape t⟩, unquote_quote t, ⟨pieces, hfree, hjoin, hread⟩,
    unquote_quote_eq_self_iff, quote_unquote_quote t⟩

/-- a partial entity before a double quote, and an entity -/
example : quote "#quot\"#quot;" = "\"#quot#quot;#quot;\"" ∧ unquote (quote "#quot\"#quot;") = "#quot\"\"" := by decide

end DiagramText

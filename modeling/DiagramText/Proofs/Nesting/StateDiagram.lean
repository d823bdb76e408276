/-
The composite states of a state diagram as brackets. Which lines open or close is said by their texts alone; that the order
in which a reader tries its rules does not matter is `read?_of_composite?` and its like. A note is an aside: a brace in its
text closes nothing. A state may be opened again inside itself, so the brackets hold the lines and not only the ids.
-/
import DiagramText.Proofs.Nesting.Brackets
import DiagramText.Proofs.StateDiagram.Accepted
import DiagramText.Proofs.StateDiagram.Forest

namespace DiagramText.StateDiagram

open DiagramText.Text

/-- the bracket that a line is by what it says -/
def Line.bracket : Line → Bracket Text
  | .openComposite id _ => .opens id
  | .closeComposite => .closes
  | _ => .neither

/-- a composite state is opened by its id and a brace, and closed by a brace; a note has its own first and last line -/
def nesting : Nesting where
  bracket l := if l.text = "\x7d" then .closes else ((composite? l.text).map Line.bracket).getD .neither
  opensAside l := ((note? l.text).map Line.opensNote).getD false
  closesAside l := isEndNote l.text

variable {t : Text} {line : Line} {l : SourceLine}

/-! ## Rules in order -/

/-- no rule before that of composite states claims a line of theirs -/
theorem read?_of_composite? (h : composite? t = some line) : Line.read? t = some line := by
  obtain ⟨r, hr, -⟩ := Option.bind_eq_some_iff.1 h
  obtain ⟨u, hu, -⟩ := Option.bind_eq_some_iff.1 hr
  obtain rfl := dropPrefix?_eq_some_iff.1 hu
  have hacc : Accessibility.line? ("state" ++ u) = none := rfl
  have hdirection : direction? ("state" ++ u) = none := rfl
  rw [Line.read?, hacc, hdirection, h]
  rfl

/-- no rule before that of notes claims a line of theirs -/
theorem read?_of_note? (h : note? t = some line) : Line.read? t = some line := by
  obtain ⟨⟨place, rest⟩, hplace, -⟩ := Option.bind_eq_some_iff.1 h
  obtain ⟨r, hr, -⟩ := Option.bind_eq_some_iff.1 hplace
  obtain ⟨u, hu, -⟩ := Option.bind_eq_some_iff.1 hr
  have hacc : Accessibility.line? t = none :=
    line?_eq_none (dropPrefix?_eq_none_iff.2 (not_prefix_of_differ (by decide) hu))
  have hdirection : direction? t = none := by
    rw [direction?, Scan.keyword?, dropKeyword?_eq_none_of_differ (by decide) hu]
    rfl
  have hword : Scan.word? "state" t = none := by
    rw [Scan.word?, dropPrefix?_eq_none_iff.2 (not_prefix_of_differ (by decide) hu)]
    rfl
  have hkeyword : Scan.keyword? "state" t = none := by
    rw [Scan.keyword?, dropKeyword?_eq_none_of_differ (by decide) hu]
    rfl
  have hclose : t ≠ "\x7d" := fun e => not_prefix_of_differ (w := "\x7d") (by decide) hu (e ▸ List.prefix_rfl)
  rw [Line.read?, hacc, hdirection, composite?, hword, if_neg hclose, alias?, hword, pseudo?, hkeyword, h]
  rfl

/-- the line opens and closes no composite state, and opens no note -/
structure Line.IsInline (line : Line) : Prop where
  bracket : line.bracket = .neither
  note : line.opensNote = false

theorem isInline_transitionTail? {source u : Text} (h : transitionTail? source u = some line) : line.IsInline := by
  obtain ⟨_, -, h⟩ := Option.bind_eq_some_iff.1 h
  obtain ⟨_, -, rfl⟩ := Option.map_eq_some_iff.1 h
  exact ⟨rfl, rfl⟩

theorem isInline_transition? (h : transition? t = some line) : line.IsInline := by
  unfold transition? at h
  split at h
  · exact isInline_transitionTail? h
  · obtain ⟨_, _, -, h⟩ := Scan.exists_of_longest h
    exact isInline_transitionTail? (Option.ite_none_left_eq_some.1 h).2

/-- **what a line says** that opens or closes something is said by its text alone -/
theorem isInline_of_read? (h : Line.read? t = some line) :
    composite? t = some line ∨ t = "\x7d" ∨ note? t = some line ∨ line.IsInline := by
  have hinline : line.IsInline → composite? t = some line ∨ t = "\x7d" ∨ note? t = some line ∨ line.IsInline := fun h =>
    .inr (.inr (.inr h))
  simp only [Line.read?, Scan.orElse_eq_some_iff] at h
  rcases h with
    h | ⟨-, h | ⟨-, h | ⟨-, h | ⟨-, h | ⟨-, h | ⟨-, h | ⟨-, h | ⟨-, h | ⟨-, h | ⟨-, h | ⟨-, h | ⟨-, h⟩⟩⟩⟩⟩⟩⟩⟩⟩⟩⟩⟩
  · obtain ⟨_, -, rfl⟩ := Option.map_eq_some_iff.1 h
    exact hinline ⟨rfl, rfl⟩
  · obtain ⟨_, -, rfl⟩ := Option.map_eq_some_iff.1 h
    exact hinline ⟨rfl, rfl⟩
  · exact .inl h
  · exact .inr (.inl (Option.ite_none_right_eq_some.1 h).1)
  · obtain ⟨_, -, h⟩ := Option.bind_eq_some_iff.1 h
    obtain ⟨_, -, rfl⟩ := Option.map_eq_some_iff.1 h
    exact hinline ⟨rfl, rfl⟩
  · obtain ⟨_, -, h⟩ := Option.bind_eq_some_iff.1 h
    obtain ⟨_, -, h⟩ := Option.bind_eq_some_iff.1 h
    obtain rfl := Option.some.inj (Option.ite_none_right_eq_some.1 h).2
    exact hinline ⟨rfl, rfl⟩
  · obtain ⟨_, -, rfl⟩ := Option.map_eq_some_iff.1 h
    exact hinline ⟨rfl, rfl⟩
  · exact .inr (.inr (.inl h))
  · obtain ⟨_, -, h⟩ := Option.bind_eq_some_iff.1 h
    obtain ⟨_, -, rfl⟩ := Option.map_eq_some_iff.1 h
    exact hinline ⟨rfl, rfl⟩
  · obtain ⟨_, -, h⟩ := Option.bind_eq_some_iff.1 h
    obtain ⟨_, -, h⟩ := List.exists_of_findSome?_eq_some h
    obtain ⟨_, -, rfl⟩ := Option.map_eq_some_iff.1 h
    exact hinline ⟨rfl, rfl⟩
  · exact hinline (isInline_transition? h)
  · obtain ⟨_, -, h⟩ := Option.bind_eq_some_iff.1 h
    obtain ⟨_, -, rfl⟩ := Option.map_eq_some_iff.1 h
    exact hinline ⟨rfl, rfl⟩
  · obtain ⟨_, -, rfl⟩ := Option.map_eq_some_iff.1 h
    exact hinline ⟨rfl, rfl⟩

theorem exists_of_composite? (h : composite? t = some line) : ∃ id label, line = .openComposite id label := by
  obtain ⟨r, -, h⟩ := Option.bind_eq_some_iff.1 h
  rcases Scan.orElse_eq_some_iff.1 h with h | ⟨-, h⟩
  · obtain ⟨⟨label, rest⟩, -, h⟩ := Option.bind_eq_some_iff.1 h
    obtain ⟨id, -, rfl⟩ := Option.map_eq_some_iff.1 h
    exact ⟨id, some label, rfl⟩
  · obtain ⟨id, -, rfl⟩ := Option.map_eq_some_iff.1 h
    exact ⟨id, none, rfl⟩

theorem bracket_of_note? (h : note? t = some line) : line.bracket = .neither := by
  obtain ⟨_, -, h⟩ := Option.bind_eq_some_iff.1 h
  obtain ⟨_, -, h⟩ := Option.bind_eq_some_iff.1 h
  dsimp only at h
  split at h
  · exact Option.some.inj h ▸ rfl
  · exact Option.some.inj h ▸ rfl
  · cases h

theorem bracket_of_read? (h : Line.read? l.text = some line) : nesting.bracket l = line.bracket := by
  by_cases hclose : l.text = "\x7d"
  · rw [hclose] at h
    obtain rfl := Option.some.inj h
    exact if_pos hclose
  · have hbracket : nesting.bracket l = ((composite? l.text).map Line.bracket).getD .neither := if_neg hclose
    rw [hbracket]
    rcases isInline_of_read? h with hc | he | hn | hinline
    · rw [hc]
      rfl
    · exact absurd he hclose
    · cases hc : composite? l.text with
      | none => exact (bracket_of_note? hn).symm
      | some line' =>
        obtain rfl := Option.some.inj (h.symm.trans (read?_of_composite? hc))
        rfl
    · cases hc : composite? l.text with
      | none => exact hinline.bracket.symm
      | some line' =>
        obtain rfl := Option.some.inj (h.symm.trans (read?_of_composite? hc))
        rfl

theorem opensAside_of_read? (h : Line.read? l.text = some line) : nesting.opensAside l = line.opensNote := by
  change ((note? l.text).map Line.opensNote).getD false = _
  cases hn : note? l.text with
  | some line' =>
    obtain rfl := Option.some.inj (h.symm.trans (read?_of_note? hn))
    rfl
  | none =>
    rcases isInline_of_read? h with hc | he | hn' | hinline
    · obtain ⟨id, label, rfl⟩ := exists_of_composite? hc
      rfl
    · rw [he] at h
      obtain rfl := Option.some.inj h
      rfl
    · exact absurd (hn.symm.trans hn') nofun
    · exact hinline.note.symm

/-- the header opens and closes nothing -/
theorem skips_of_header? (h : (Dialect.state.header? l.text).isSome) : nesting.Skips l := by
  have hclose : l.text ≠ "\x7d" := fun e => not_prefix_of_header? (w := "\x7d") (by decide) h (e ▸ List.prefix_rfl)
  have hcomposite : composite? l.text = none := by
    -- the keyword goes on where the white space after `state` would have to be
    have hword : Scan.word? "state" l.text = none := by
      rw [Option.eq_none_iff_forall_ne_some]
      intro r hr
      obtain ⟨u, hu, hblanks⟩ := Option.bind_eq_some_iff.1 hr
      obtain ⟨c, u, rfl, hc⟩ := exists_cons_of_startsWith (Scan.blanks?_eq_some hblanks).1
      have htext : l.text = "state" ++ c :: u := dropPrefix?_eq_some_iff.1 hu
      have hne : foldCase 'D' ≠ foldCase c := by
        intro e
        have hword := isWord_of_foldCase (c := c) (e ▸ by decide)
        rw [(not_isWord_of_isBlank hc).1] at hword
        exact absurd hword (by decide)
      obtain ⟨k, hk, r, hr⟩ := exists_of_header? h
      rw [htext] at hr
      have hnone : ∀ w : Text, dropKeyword? ("state" ++ 'D' :: w) ("state" ++ c :: u) = none := fun w => if_neg hne
      have hkeywords : ∀ k ∈ Dialect.state.keywords, k = "state" ++ 'D' :: k.drop 6 := by decide
      rw [hkeywords k hk, hnone] at hr
      cases hr
    rw [composite?, hword]
    rfl
  have hnote : note? l.text = none := by
    obtain ⟨k, hk, r, hr⟩ := exists_of_header? h
    have hdiffer : ∀ k ∈ Dialect.state.keywords, Text.differ k "note" = true := by decide
    rw [note?, Scan.keyword?, dropKeyword?_eq_none_of_differ (hdiffer k hk) hr]
    rfl
  constructor
  · simp only [nesting, hclose, if_false, hcomposite, Option.map_none, Option.getD_none]
  · simp only [nesting, hnote, Option.map_none, Option.getD_none]

/-! ## Reading -/

namespace Progress

variable {p q : Progress}

/-- the lines that opened the open composite states, with the ids of these -/
def openers (p : Progress) : List (SourceLine × Text) := p.composites.map Prod.swap

theorem composites_setDirection (d : Direction) (p : Progress) :
    (p.setDirection d).composites = p.composites ∧ (p.setDirection d).note = p.note := by
  unfold setDirection
  split <;> exact ⟨rfl, rfl⟩

/-- what a line outside notes does to what is open -/
theorem openers_apply (hnote : p.note = none) (h : p.apply l line = .ok q) :
    (line.bracket.map (l, ·)).step p.openers = some q.openers ∧ q.note.isSome = line.opensNote := by
  cases line with
  | direction d =>
    obtain rfl := Except.ok.inj h
    obtain ⟨hcomposites, hkept⟩ := composites_setDirection d p
    rw [openers, openers, hcomposites, hkept, hnote]
    exact ⟨rfl, rfl⟩
  | openComposite id label =>
    obtain rfl := Except.ok.inj h
    refine ⟨rfl, ?_⟩
    change p.note.isSome = false
    rw [hnote]
    rfl
  | closeComposite =>
    rw [apply] at h
    split at h
    · cases h
    · rename_i hopen
      obtain rfl := Except.ok.inj h
      rw [openers, openers, hopen]
      refine ⟨rfl, ?_⟩
      change p.note.isSome = false
      rw [hnote]
      rfl
  | openNote id position =>
    obtain rfl := Except.ok.inj h
    exact ⟨rfl, rfl⟩
  | _ =>
    obtain rfl := Except.ok.inj h
    refine ⟨rfl, ?_⟩
    change p.note.isSome = false
    rw [hnote]
    rfl

/-- what a line does to what is open, in a note or not -/
theorem openers_readLine (h : p.readLine l = .ok q) :
    (nesting.bracketAt p.note.isSome l).step p.openers = some q.openers ∧
      q.note.isSome = nesting.asideAfter p.note.isSome l := by
  rw [readLine] at h
  split at h
  · rename_i n hn
    rw [hn]
    split at h
    · rename_i hend
      obtain rfl := Except.ok.inj h
      exact ⟨rfl, by simp [Nesting.asideAfter, nesting, hend]⟩
    · rename_i hend
      obtain rfl := Except.ok.inj h
      exact ⟨rfl, by simp [Nesting.asideAfter, nesting, hend]⟩
  · rename_i hn
    split at h
    · rename_i line hline
      have hopen := openers_apply hn h
      rw [← bracket_of_read? hline, ← opensAside_of_read? hline] at hopen
      rw [hn]
      exact hopen
    · cases h

theorem tracks_readLine : nesting.Tracks readLine openers fun p => p.note.isSome :=
  ⟨fun h => (openers_readLine h).1, fun h => (openers_readLine h).2⟩

/-- no line is refused for a composite state that is not closed -/
theorem cause_of_readLine {e : ParseError} (h : p.readLine l = .error e) (id : Text) : e.cause ≠ .unclosedComposite id := by
  rw [readLine] at h
  split at h
  · split at h <;> cases h
  · split at h
    · rename_i line _
      cases line with
      | closeComposite =>
        rw [apply] at h
        split at h
        · obtain rfl := Except.error.inj h
          simp
        · cases h
      | _ => cases h
    · obtain rfl := Except.error.inj h
      simp

end Progress

variable {text : Text} {d : StateDiagram}

theorem leaves_of_run {p : Progress}
    (h : (splitHeader .state (sourceLines true text)).2.foldlM Progress.readLine ⟨⟨{}, []⟩, [], none⟩ = .ok p) :
    Bracket.Leaves (nesting.brackets text) p.openers :=
  Progress.tracks_readLine.leaves (fun _ => skips_of_header?) rfl rfl h

/-- **the composite state that is reported open is the last unclosed one** -/
theorem isAtLastUnclosed_of_read {e : ParseError} {id : Text} (h : read text = .error e) (hc : e.cause = .unclosedComposite id) :
    e.IsAtLastUnclosed (nesting.brackets text) id := by
  rcases exceptBind_eq_error_iff.1 h with h | ⟨_, -, h⟩
  · rw [cause_of_checkHeader h] at hc
    cases hc
  · rcases exceptBind_eq_error_iff.1 h with h | ⟨p, hrun, h⟩
    · obtain ⟨l, -, p, h⟩ := exists_error_of_foldlM h
      exact absurd hc (Progress.cause_of_readLine h id)
    · have hleaves := leaves_of_run hrun
      rw [Progress.finish] at h
      split at h
      · obtain rfl := Except.error.inj h
        cases hc
      · rename_i id l _ _ hopen
        obtain rfl := Except.error.inj h
        obtain rfl := Cause.unclosedComposite.inj hc
        rw [Progress.openers, hopen] at hleaves
        exact hleaves.isAtLastUnclosed _
      · cases h

/-- every composite state of a text that is read is closed, and every closer closes one -/
theorem balanced_of_read (h : read text = .ok d) : Bracket.Balanced (nesting.brackets text) := by
  obtain ⟨_, -, h⟩ := exceptBind_eq_ok_iff.1 h
  obtain ⟨p, hrun, h⟩ := exceptBind_eq_ok_iff.1 h
  have hleaves := leaves_of_run hrun
  rw [Progress.finish] at h
  split at h
  · cases h
  · cases h
  · rename_i hopen
    rw [Progress.openers, hopen] at hleaves
    exact hleaves.balanced_of_nil

end DiagramText.StateDiagram

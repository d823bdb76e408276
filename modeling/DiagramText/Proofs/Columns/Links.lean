/-
Where a chain of links is refused. Reading a chain takes nodes, operators and labels off the front of the line and trims what
is left; since a line ends with no white space, this stays the end of the line (`Scan.IsRest`, `group?_suffix`). So the column that
is computed from its length is where it begins, and an error of a chain points at what was not read (`StopsAt`): at what is no
link (`from?_of_expectedLink`), or behind a link at what is no node (`from?_of_expectedNode`).
-/
import DiagramText.Flowchart.Reader
import DiagramText.Proofs.Columns.Lines
import DiagramText.Proofs.Reading

namespace DiagramText.Flowchart

open DiagramText.Text

variable {t rest r text : Text} {l : SourceLine} {e : ParseError}

/-! ## Groups -/

theorem groupTail?_suffix {g : Group} (ht : trimRight t = t) (h : groupTail? t = some (g, rest)) : rest <:+ t := by
  fun_induction groupTail? t generalizing g with
  | case1 => exact absurd h (by simp)
  | case2 r m afterMention hm ih =>
    obtain ⟨⟨ms, r2⟩, hms, he⟩ := Option.map_eq_some_iff.1 h
    obtain ⟨-, rfl⟩ := Prod.mk.inj he
    have hr : trim r <:+ '&' :: r := trim_suffix_of_suffix ht (List.suffix_cons '&' r)
    have hafter : trim afterMention <:+ '&' :: r := trim_suffix_of_suffix ht ((mention?_rest hm).suffix.trans hr)
    exact (ih (trimRight_of_suffix ht hafter) hms).trans hafter
  | case3 =>
    obtain ⟨-, rfl⟩ := Prod.mk.inj (Option.some.inj h)
    exact List.suffix_rfl

theorem group?_suffix {g : Group} (ht : trimRight t = t) (h : group? t = some (g, rest)) : rest <:+ t := by
  obtain ⟨⟨m, r⟩, hm, h⟩ := Option.bind_eq_some_iff.1 h
  obtain ⟨⟨ms, r2⟩, hms, he⟩ := Option.map_eq_some_iff.1 h
  obtain ⟨-, rfl⟩ := Prod.mk.inj he
  have hr : trim r <:+ t := trim_suffix_of_suffix ht (mention?_rest hm).suffix
  exact (groupTail?_suffix (trimRight_of_suffix ht hr) hms).trans hr

/-! ## Chains -/

/-- an error at what was not read of a line: where no link begins, or, after a link, where no group does -/
inductive StopsAt (l : SourceLine) : Text → ParseError → Prop where
  | link {before rest : Text} (text : l.text = before ++ rest) (ne_nil : rest ≠ []) (none : link? rest = none) :
    StopsAt l rest (l.errorAt before.length (.expectedLink rest))
  | node {before rest : Text} (text : l.text = before ++ rest) (none : group? rest = none) :
    StopsAt l rest (l.errorAt before.length .expectedNode)

/-- **a chain is refused at what was not read** -/
theorem exists_stopsAt_of_chainTail (hl : trimRight l.text = l.text) (ht : t <:+ l.text) (h : chainTail l t = .error e) :
    ∃ rest, StopsAt l rest e := by
  -- the length of a rest tells where it begins
  have hoffset {s : Text} (hs : s <:+ l.text) :
      ∃ before, l.text = before ++ s ∧ (l.text.length : Int) - s.length = before.length := by
    obtain ⟨before, hbefore⟩ := hs
    refine ⟨before, hbefore.symm, ?_⟩
    rw [← hbefore, List.length_append]
    omega
  fun_induction chainTail l t with
  | case1 => exact absurd h (by simp)
  | case2 t hne offset hlink =>
    obtain ⟨before, htext, hlength⟩ : ∃ before, l.text = before ++ t ∧ offset t = before.length := hoffset ht
    obtain rfl := Except.error.inj h
    exact ⟨t, hlength ▸ .link htext hne hlink⟩
  | case3 t hne offset form afterLink hlink hgroup =>
    obtain ⟨before, htext, hlength⟩ : ∃ before, l.text = before ++ trim afterLink ∧ offset (trim afterLink) = before.length :=
      hoffset (trim_suffix_of_suffix hl ((link?_rest hlink).suffix.trans ht))
    obtain rfl := Except.error.inj h
    exact ⟨trim afterLink, hlength ▸ .node htext hgroup⟩
  | case4 t hne form afterLink hlink group afterGroup hgroup ih =>
    have hafter : trim afterLink <:+ l.text := trim_suffix_of_suffix hl ((link?_rest hlink).suffix.trans ht)
    have hrest : afterGroup <:+ l.text := (group?_suffix (trimRight_of_suffix hl hafter) hgroup).trans hafter
    exact ih (trim_suffix_of_suffix hl hrest) (exceptMap_eq_error_iff.1 h)

/-- what is wrong behind the first group of a chain -/
def IsOfChain : Cause → Prop
  | .expectedLink _ | .expectedNode => True
  | _ => False

theorem exists_stopsAt_of_readChain (hl : trimRight l.text = l.text) (h : readChain l = .error e) (hc : IsOfChain e.cause) :
    ∃ rest, StopsAt l rest e := by
  rw [readChain] at h
  split at h
  · obtain rfl := Except.error.inj h
    exact hc.elim
  · rename_i first rest hgroup
    exact exists_stopsAt_of_chainTail hl (trim_suffix_of_suffix hl (group?_suffix hl hgroup)) (exceptMap_eq_error_iff.1 h)

/-! ## Lines -/

theorem cause_of_directionAt {token : Text} {offset : Int} (h : directionAt l token offset = .error e) :
    e.cause = .unknownDirection token := by
  rw [directionAt] at h
  split at h
  · exact absurd h (by simp)
  · exact Except.error.inj h ▸ rfl

theorem cause_of_subgraphHead (h : subgraphHead l t = .error e) : e.cause = .noSubgraphId t := by
  rw [subgraphHead] at h
  split at h
  · exact absurd h (by simp)
  · split at h
    · exact absurd h (by simp)
    · dsimp only at h
      split at h
      · exact Except.error.inj h ▸ rfl
      · exact absurd h (by simp)

/-- of the statements only a chain is refused so -/
theorem exists_stopsAt_of_statement (hl : trimRight l.text = l.text) (h : Statement.read l = .error e) (hc : IsOfChain e.cause) :
    ∃ rest, StopsAt l rest e := by
  rw [Statement.read] at h
  split at h
  · exact absurd h (by simp)
  · split at h
    · rw [cause_of_directionAt (exceptMap_eq_error_iff.1 h)] at hc
      exact hc.elim
    · split at h
      · rw [cause_of_subgraphHead (exceptMap_eq_error_iff.1 h)] at hc
        exact hc.elim
      · split at h
        · exact absurd h (by simp)
        · exact exists_stopsAt_of_readChain hl (exceptMap_eq_error_iff.1 h) hc

theorem cause_of_apply {a : Assembly SourceLine} {s : Statement} (h : a.apply l s = .error e) : e.cause = .endOutsideSubgraph := by
  cases s with
  | closeSubgraph =>
    rw [Assembly.apply] at h
    split at h
    · exact absurd h (by simp)
    · exact Except.error.inj h ▸ rfl
  | _ => simp [Assembly.apply] at h

theorem cause_of_headerDirection {header : Option (SourceLine × Text)} (h : headerDirection header = .error e) :
    ∃ token, e.cause = .unknownDirection token := by
  rw [headerDirection.eq_def] at h
  split at h
  · exact absurd h (by simp)
  · dsimp only at h
    split at h
    · exact absurd h (by simp)
    · exact ⟨_, cause_of_directionAt h⟩

theorem cause_of_finish {a : Assembly SourceLine} (h : a.finish = .error e) : ∃ id, e.cause = .unclosedSubgraph id := by
  rw [Assembly.finish] at h
  split at h
  · exact absurd h (by simp)
  · rename_i o _ _
    exact ⟨o.subgraph.id, Except.error.inj h ▸ rfl⟩

/-- a text that is refused so has a line that was not read to its end -/
theorem exists_stopsAt_of_read (h : read text = .error e) (hc : IsOfChain e.cause) :
    ∃ l ∈ sourceLines true text, ∃ rest, StopsAt l rest e := by
  have hbody := body_subset .flowchart (sourceLines true text)
  unfold read at h
  generalize splitHeader .flowchart (sourceLines true text) = split at h hbody
  obtain ⟨header, body⟩ := split
  rcases exceptBind_eq_error_iff.1 h with h | ⟨direction, -, h⟩
  · obtain ⟨token, htoken⟩ := cause_of_headerDirection h
    rw [htoken] at hc
    exact hc.elim
  rcases exceptBind_eq_error_iff.1 h with h | ⟨assembled, -, h⟩
  · obtain ⟨l, hl, a, h⟩ := exists_error_of_foldlM h
    have hend : trimRight l.text = l.text := trimRight_of_endsWith (isTight_of_mem_sourceLines (hbody hl)).1.last
    rcases exceptBind_eq_error_iff.1 h with h | ⟨s, -, h⟩
    · exact ⟨l, hbody hl, exists_stopsAt_of_statement hend h hc⟩
    · rw [cause_of_apply h] at hc
      exact hc.elim
  · obtain ⟨id, hid⟩ := cause_of_finish h
    rw [hid] at hc
    exact hc.elim

/-- a node is missed at the text behind a link, of which nothing may be left -/
theorem from?_of_expectedNode (h : read text = .error e) (hc : e.cause = .expectedNode) :
    ∃ rest d, text.from? e.line e.column = some (rest ++ d) ∧ group? rest = none ∧ IsDropped true d := by
  obtain ⟨l, hl, rest, hstops⟩ := exists_stopsAt_of_read h (hc ▸ trivial)
  cases hstops with
  | link => simp at hc
  | node htext hnone =>
    obtain ⟨d, hfrom, hd⟩ := from?_of_mem_sourceLines hl htext
    exact ⟨rest, d, hfrom, hnone, hd⟩

/-- **a link is missed at the text that was not read**: it is not empty, it stands at the column of the error, and behind it
stands only what reading drops -/
theorem from?_of_expectedLink (h : read text = .error e) (hc : e.cause = .expectedLink r) :
    r ≠ [] ∧ ∃ d, text.from? e.line e.column = some (r ++ d) ∧ IsDropped true d := by
  obtain ⟨l, hl, rest, hstops⟩ := exists_stopsAt_of_read h (hc ▸ trivial)
  cases hstops with
  | link htext hne =>
    obtain rfl : rest = r := Cause.expectedLink.inj hc
    exact ⟨hne, from?_of_mem_sourceLines hl htext⟩
  | node => simp at hc

/-- behind an indentation nodes with labels, a class and shapes, groups, and links with text and with a label; what comes then is
no link, and the line ends with white space and a semicolon -/
def snagged : Text :=
  "flowchart LR\nsubgraph s\n\t A[\"x --> y\"]:::k & b-c(( o )) -. t .-> D & e ==>|\"|\"| F\x7br\x7d ;é ; \r\nend"

theorem from?_of_expectedLink_snagged : read snagged = .error ⟨3, 62, .expectedLink ";é"⟩ ∧ (";é" : Text) ≠ [] ∧
    ∃ d : Text, snagged.from? 3 62 = some ((";é" : Text) ++ d) ∧ IsDropped true d := by
  have hread : read snagged = .error ⟨3, 62, .expectedLink ";é"⟩ := by decide +kernel
  exact ⟨hread, from?_of_expectedLink hread rfl⟩

end DiagramText.Flowchart

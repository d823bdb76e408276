/-
The subgraphs of a flowchart as brackets. Which lines open or close is said by their texts alone; `bracket_of_read` says that
no other statement is read from such a line. A line that opens a subgraph but gives it no id is no bracket: it is refused.
-/
import DiagramText.Proofs.Columns.Links
import DiagramText.Proofs.Flowchart.Meaning
import DiagramText.Proofs.Nesting.Brackets

namespace DiagramText.Flowchart

open DiagramText.Text

/-- a subgraph is opened by its keyword with an id or a title, and closed by `end` -/
def nesting : Nesting where
  bracket l :=
    if l.text = "end" then .closes
    else
      match Scan.word? "subgraph" l.text with
      | some (c :: r) =>
        match subgraphHead l (c :: r) with
        | .ok (id, _) => .opens id
        | .error _ => .neither
      | _ => .neither
  opensAside _ := false
  closesAside _ := false

variable {t : Text} {s : Statement} {l : SourceLine}

/-! ## Rules in order -/

/-- the bracket that a line is by what it says -/
def Statement.bracket : Statement → Bracket Text
  | .openSubgraph id _ => .opens id
  | .closeSubgraph => .closes
  | _ => .neither

/-- statements with other keywords open and close nothing -/
theorem bracket_of_keywordStatement? (h : keywordStatement? t = some s) : s.bracket = .neither := by
  simp only [keywordStatement?, Scan.orElse_eq_some_iff] at h
  rcases h with h | ⟨-, h | ⟨-, h | ⟨-, h | ⟨-, h | ⟨-, h | ⟨-, h⟩⟩⟩⟩⟩⟩
  · obtain ⟨_, -, rfl⟩ := Option.map_eq_some_iff.1 h
    rfl
  · obtain ⟨_, _, -, -, h⟩ := exists_of_idList? h
    obtain ⟨_, -, rfl⟩ := Option.map_eq_some_iff.1 h
    rfl
  · obtain ⟨_, _, -, -, h⟩ := exists_of_idList? h
    obtain ⟨_, -, h⟩ := Option.bind_eq_some_iff.1 h
    exact Option.some.inj (Option.ite_none_right_eq_some.1 h).2 ▸ rfl
  · obtain ⟨_, _, -, -, h⟩ := exists_of_idList? h
    obtain ⟨_, -, rfl⟩ := Option.map_eq_some_iff.1 h
    rfl
  · obtain ⟨_, -, h⟩ := Option.bind_eq_some_iff.1 h
    rcases Scan.orElse_eq_some_iff.1 h with h | ⟨-, h⟩
    · obtain ⟨_, -, h⟩ := Option.bind_eq_some_iff.1 h
      obtain ⟨_, -, rfl⟩ := Option.map_eq_some_iff.1 h
      rfl
    · obtain ⟨_, -, h⟩ := List.exists_of_findSome?_eq_some h
      obtain ⟨_, -, rfl⟩ := Option.map_eq_some_iff.1 h
      rfl
  · obtain ⟨_, -, h⟩ := Option.bind_eq_some_iff.1 h
    obtain ⟨_, -, h⟩ := Option.bind_eq_some_iff.1 h
    dsimp only at h
    split at h
    · exact Option.some.inj h ▸ rfl
    · obtain ⟨_, -, h⟩ := Option.bind_eq_some_iff.1 h
      exact Option.some.inj (Option.ite_none_right_eq_some.1 h).2 ▸ rfl
  · have hcallback : ∀ {id u}, callback? id u = some s → s.bracket = .neither := by
      intro id u h
      obtain ⟨_, -, h⟩ := Option.bind_eq_some_iff.1 h
      exact Option.some.inj (Option.ite_none_right_eq_some.1 h).2 ▸ rfl
    obtain ⟨_, -, h⟩ := Option.bind_eq_some_iff.1 h
    rcases Scan.orElse_eq_some_iff.1 h with h | ⟨-, h⟩
    · obtain ⟨_, -, h⟩ := Option.bind_eq_some_iff.1 h
      exact hcallback h
    · exact hcallback h

/-- no other statement claims a line with the keyword of subgraphs -/
theorem read_of_word? {c : Char} {r : Text} (h : Scan.word? "subgraph" l.text = some (c :: r)) :
    Statement.read l = (subgraphHead l (c :: r)).map fun (id, title) => .openSubgraph id title := by
  obtain ⟨u, hu, -⟩ := Option.bind_eq_some_iff.1 h
  have htext : l.text = "subgraph" ++ u := dropPrefix?_eq_some_iff.1 hu
  have hkeyword : keywordStatement? l.text = none := by
    rw [htext]
    rfl
  have hdirection : Direction.statement? l.text = none := by
    rw [htext]
    rfl
  simp only [Statement.read, hkeyword, hdirection, h]

theorem bracket_of_read (h : Statement.read l = .ok s) : nesting.bracket l = s.bracket := by
  by_cases hend : l.text = "end"
  · obtain rfl := Except.ok.inj (h.symm.trans (read_closeSubgraph hend))
    exact if_pos hend
  · simp only [nesting, hend, if_false]
    split
    · rename_i c r hword
      rw [read_of_word? hword] at h
      obtain ⟨⟨id, title⟩, hhead, rfl⟩ := exceptMap_eq_ok_iff.1 h
      rw [hhead]
      rfl
    · rename_i hword
      rw [Statement.read] at h
      split at h
      · rename_i hkeyword
        exact Except.ok.inj h ▸ (bracket_of_keywordStatement? hkeyword).symm
      · split at h
        · obtain ⟨_, -, rfl⟩ := exceptMap_eq_ok_iff.1 h
          rfl
        · split at h
          · rename_i c r hsome
            exact absurd hsome (hword c r)
          · rw [if_neg hend] at h
            obtain ⟨_, -, rfl⟩ := exceptMap_eq_ok_iff.1 h
            rfl

/-- the header opens and closes nothing -/
theorem skips_of_header? (h : (Dialect.flowchart.header? l.text).isSome) : nesting.Skips l := by
  have hend : l.text ≠ "end" := fun e => not_prefix_of_header? (w := "end") (by decide) h (e ▸ List.prefix_rfl)
  have hword : Scan.word? "subgraph" l.text = none := by
    rw [Scan.word?, dropPrefix?_eq_none_iff.2 (not_prefix_of_header? (by decide) h)]
    rfl
  refine ⟨?_, rfl⟩
  simp only [nesting, hend, if_false, hword]

/-! ## Reading -/

namespace Assembly

variable {a b : Assembly SourceLine}

/-- the lines that opened the open subgraphs, with the ids of these -/
def openers (a : Assembly SourceLine) : List (SourceLine × Text) := a.open_.map fun o => (o.opener, o.subgraph.id)

theorem openers_inInnermost {f : Subgraph → Subgraph} (hf : ∀ s, (f s).id = s.id) (a : Assembly SourceLine) :
    (a.inInnermost f).openers = a.openers := by
  unfold inInnermost
  split
  · rfl
  · rename_i hopen
    simp only [openers, hopen, List.map_cons, hf]

theorem openers_mention (id : Text) (a : Assembly SourceLine) : (a.mention id).openers = a.openers :=
  openers_inInnermost (fun s => by split <;> rfl) a

theorem openers_meet (m : Mention) (a : Assembly SourceLine) : (a.meet m).openers = a.openers := by
  rw [meet]
  -- a class that the mention names changes the chart alone
  split <;> split <;> exact openers_mention _ _

theorem openers_meetGroup (g : Group) (a : Assembly SourceLine) : (a.meetGroup g).openers = a.openers :=
  List.foldlRecOn (motive := fun b : Assembly SourceLine => b.openers = a.openers) g meet rfl fun b hb m _ =>
    (openers_meet m b).trans hb

theorem openers_follow (from_ : Group) (links : List (LinkForm × Group)) (a : Assembly SourceLine) :
    (a.follow from_ links).openers = a.openers := by
  induction links generalizing a from_ with
  | nil => rfl
  | cons p links ih =>
    obtain ⟨form, group⟩ := p
    have hlinks : ((product form from_ group).foldl (fun a l => a.link l) (a.meetGroup group)).openers = a.openers :=
      List.foldlRecOn (motive := fun b : Assembly SourceLine => b.openers = a.openers) _ _ (openers_meetGroup group a)
        fun b hb l _ => hb
    exact (ih group _).trans hlinks

/-- what a statement does to what is open -/
theorem openers_apply (h : a.apply l s = .ok b) : (s.bracket.map (l, ·)).step a.openers = some b.openers := by
  -- changes of the chart alone, one for each name
  have hfold : ∀ {α : Type} (f : Assembly SourceLine → α → Assembly SourceLine) (xs : List α),
      (∀ a x, (f a x).openers = a.openers) → (xs.foldl f a).openers = a.openers := fun f xs hf =>
    List.foldlRecOn (motive := fun b : Assembly SourceLine => b.openers = a.openers) xs f rfl fun b hb x _ => (hf b x).trans hb
  cases s with
  | accessibility line => exact Except.ok.inj h ▸ rfl
  | classDef names style =>
    obtain rfl := Except.ok.inj h
    exact congrArg some (hfold (fun a n => a.defineClass n style) names fun _ _ => rfl).symm
  | assignClass ids name =>
    obtain rfl := Except.ok.inj h
    exact congrArg some (hfold (fun a id => a.assignClass id name) ids fun _ _ => rfl).symm
  | style ids style =>
    obtain rfl := Except.ok.inj h
    exact congrArg some (hfold (fun a id => a.styleNode id style) ids fun _ _ => rfl).symm
  | linkStyle keys style =>
    obtain rfl := Except.ok.inj h
    exact congrArg some (hfold (fun a k => a.styleLink k style) keys fun _ _ => rfl).symm
  | click c => exact Except.ok.inj h ▸ rfl
  | direction d =>
    obtain rfl := Except.ok.inj h
    refine congrArg some ?_
    unfold setDirection
    split
    · rfl
    · exact (openers_inInnermost (f := fun s => { s with direction := some d }) (fun _ => rfl) a).symm
  | openSubgraph id title => exact Except.ok.inj h ▸ rfl
  | closeSubgraph =>
    rw [apply] at h
    split at h
    · rename_i closed hclosed
      obtain rfl := Except.ok.inj h
      obtain ⟨chart, open_⟩ := a
      rcases open_ with _ | ⟨o, _ | ⟨o', os⟩⟩
      · cases hclosed
      · exact Option.some.inj hclosed ▸ rfl
      · exact Option.some.inj hclosed ▸ rfl
    · cases h
  | chain c =>
    obtain rfl := Except.ok.inj h
    exact congrArg some ((openers_follow c.first c.links _).trans (openers_meetGroup c.first a)).symm

theorem tracks_readLine : nesting.Tracks readLine openers fun _ => false where
  stack h := by
    obtain ⟨s, hs, happly⟩ := exceptBind_eq_ok_iff.1 h
    have hopen := openers_apply happly
    rw [← bracket_of_read hs] at hopen
    exact hopen
  aside _ := rfl

end Assembly

variable {text : Text} {d : Flowchart}

theorem leaves_of_run {dir : Direction} {a : Assembly SourceLine}
    (h : (splitHeader .flowchart (sourceLines true text)).2.foldlM Assembly.readLine ⟨{ direction := dir }, []⟩ = .ok a) :
    Bracket.Leaves (nesting.brackets text) a.openers :=
  Assembly.tracks_readLine.leaves (fun _ => skips_of_header?) rfl rfl h

theorem cause_of_chainTail {e : ParseError} (h : chainTail l t = .error e) (id : Text) : e.cause ≠ .unclosedSubgraph id := by
  fun_induction chainTail l t with
  | case1 => cases h
  | case2 =>
    obtain rfl := Except.error.inj h
    simp
  | case3 =>
    obtain rfl := Except.error.inj h
    simp
  | case4 _ _ _ _ _ _ _ _ ih => exact ih (exceptMap_eq_error_iff.1 h)

/-- no line is refused for a subgraph that is not closed -/
theorem cause_of_readLine {a : Assembly SourceLine} {e : ParseError} (h : a.readLine l = .error e) (id : Text) :
    e.cause ≠ .unclosedSubgraph id := by
  rcases exceptBind_eq_error_iff.1 h with h | ⟨s, -, h⟩
  · rw [Statement.read] at h
    split at h
    · cases h
    · split at h
      · rw [cause_of_directionAt (exceptMap_eq_error_iff.1 h)]
        simp
      · split at h
        · rw [cause_of_subgraphHead (exceptMap_eq_error_iff.1 h)]
          simp
        · split at h
          · cases h
          · have hchain := exceptMap_eq_error_iff.1 h
            rw [readChain] at hchain
            split at hchain
            · obtain rfl := Except.error.inj hchain
              simp
            · exact cause_of_chainTail (exceptMap_eq_error_iff.1 hchain) id
  · rw [cause_of_apply h]
    simp

/-- **the subgraph that is reported open is the last unclosed one** -/
theorem isAtLastUnclosed_of_read {e : ParseError} {id : Text} (h : read text = .error e) (hc : e.cause = .unclosedSubgraph id) :
    e.IsAtLastUnclosed (nesting.brackets text) id := by
  rcases exceptBind_eq_error_iff.1 h with h | ⟨dir, -, h⟩
  · obtain ⟨token, htoken⟩ := cause_of_headerDirection h
    rw [htoken] at hc
    cases hc
  rcases exceptBind_eq_error_iff.1 h with h | ⟨a, hrun, h⟩
  · obtain ⟨l, -, a, h⟩ := exists_error_of_foldlM h
    exact absurd hc (cause_of_readLine h id)
  · have hleaves := leaves_of_run hrun
    rw [Assembly.finish] at h
    split at h
    · cases h
    · rename_i o _ hopen
      obtain rfl := Except.error.inj h
      obtain rfl := Cause.unclosedSubgraph.inj hc
      rw [Assembly.openers, hopen] at hleaves
      exact hleaves.isAtLastUnclosed _

/-- every subgraph of a text that is read is closed, and every closer closes one -/
theorem balanced_of_read (h : read text = .ok d) : Bracket.Balanced (nesting.brackets text) := by
  obtain ⟨_, -, h⟩ := exceptBind_eq_ok_iff.1 h
  obtain ⟨a, hrun, h⟩ := exceptBind_eq_ok_iff.1 h
  have hleaves := leaves_of_run hrun
  rw [Assembly.finish] at h
  split at h
  · rename_i hopen
    rw [Assembly.openers, hopen] at hleaves
    exact hleaves.balanced_of_nil
  · cases h

end DiagramText.Flowchart

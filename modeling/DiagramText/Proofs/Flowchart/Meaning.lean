/-
What a line can mean. Whatever the reader takes a line for fits the grammar (`isRead_of_meaning`): ids are names, labels
and texts hold no line feed, links have a length, and class names are words with hyphens.
-/
import DiagramText.Proofs.Flowchart.WellFormed
import DiagramText.Proofs.Text.Scan

namespace DiagramText.Flowchart

open DiagramText.Text

/-- a statement as a line can mean it; lists of ids may be of any length -/
def Statement.IsRead : Statement → Prop
  | .accessibility (.title v) | .accessibility (.description v) => '\n' ∉ v ∧ trim v = v
  | .classDef names props => (∀ name ∈ names, Scan.isName isWord name = true) ∧ props.IsPlain
  | .assignClass ids name =>
    (∀ id ∈ ids, Scan.isName isWord id = true) ∧ name ≠ [] ∧ name.all isWordOrHyphen = true
  | .style ids props => (∀ id ∈ ids, Scan.isName isWord id = true) ∧ props.IsPlain
  | .linkStyle keys props => (∀ key ∈ keys, IsLinkKey key) ∧ props.IsPlain
  | .click c => c.IsPlain
  | .direction _ => True
  | .openSubgraph id title => id ≠ [] ∧ id.all isWordOrHyphen = true ∧ '\n' ∉ title
  | .closeSubgraph => True
  | .chain c => c.IsPlain

variable {t rest : Text}

/-! ## Nodes -/

theorem isName_of_nodeId? {id : Text} (h : nodeId? t = some (id, rest)) : Scan.isName isWord id = true ∧ rest ⊆ t :=
  ⟨((Scan.name?_eq_some_iff isWord_hyphen).1 h).2.1, Scan.name?_subset h⟩

theorem lineFeed_not_mem_labelValue {token : Text} (h : '\n' ∉ token) : '\n' ∉ labelValue token := by
  unfold labelValue
  split
  · exact lineFeed_not_mem_unquote h
  · exact fun hm => h (mem_of_mem_trim hm)

theorem lineFeed_not_mem_shapedLabel {shape s : NodeShape} {label : Text} (ht : '\n' ∉ t)
    (h : shapedLabel? t shape = some (label, s, rest)) : '\n' ∉ label := by
  obtain ⟨body, hbody, h⟩ := Option.bind_eq_some_iff.1 h
  obtain ⟨⟨token, rest'⟩, htoken, he⟩ := Option.map_eq_some_iff.1 h
  simp only [Prod.mk.injEq] at he
  obtain ⟨rfl, -, -⟩ := he
  have hclose : ∀ {run r : Text}, (dropPrefix? shape.delimiters.2 r).map (run, ·) = some (token, rest') → run = token := by
    intro run r hm
    obtain ⟨x, -, he⟩ := Option.map_eq_some_iff.1 hm
    exact (Prod.mk.inj he).1
  have hsub : token ⊆ body := by
    rcases Scan.orElse_eq_some_iff.1 htoken with hq | ⟨-, hp⟩
    · obtain ⟨⟨run, r⟩, hquoted, hm⟩ := Option.bind_eq_some_iff.1 hq
      exact hclose hm ▸ (Scan.quoted?_subset hquoted).1
    · obtain ⟨run, r, rfl, hm⟩ := Scan.exists_of_shortest hp
      exact hclose hm ▸ List.subset_append_left _ r
  exact lineFeed_not_mem_labelValue fun hm => ht (dropPrefix?_subset hbody (hsub hm))

theorem isClassName_of_classSuffix? {name : Text} (h : classSuffix? t = some (name, rest)) :
    name ≠ [] ∧ name.all isWordOrHyphen = true := by
  obtain ⟨r, -, h⟩ := Option.bind_eq_some_iff.1 h
  simp only [Option.ite_none_right_eq_some, Option.some.injEq] at h
  obtain ⟨c, r', rfl, hc⟩ := exists_cons_of_startsWith h.1
  refine ⟨?_, all_of_span_eq h.2⟩
  rw [← (Prod.mk.inj h.2).1, List.takeWhile_cons_of_pos (by simp [isWordOrHyphen, hc])]
  simp

/-- a node with the class name after it, when there is one -/
theorem isPlain_of_suffix {id : Text} {shaped : Option (Text × NodeShape)} {m : Mention}
    (hname : Scan.isName isWord id = true) (hshaped : ∀ l s, shaped = some (l, s) → '\n' ∉ l)
    (h : (match classSuffix? t with
      | some (name, rest) => (⟨id, shaped, some name⟩, rest)
      | none => (⟨id, shaped, none⟩, t)) = (m, rest)) : m.IsPlain := by
  split at h
  · rename_i name rest' hc
    obtain ⟨rfl, -⟩ := Prod.mk.inj h
    refine ⟨hname, hshaped, fun n e => ?_⟩
    obtain rfl := Option.some.inj e
    exact isClassName_of_classSuffix? hc
  · obtain ⟨rfl, -⟩ := Prod.mk.inj h
    exact ⟨hname, hshaped, by simp⟩

theorem isPlain_of_mention? {m : Mention} (ht : '\n' ∉ t) (h : mention? t = some (m, rest)) : m.IsPlain := by
  obtain ⟨⟨id, afterId⟩, hid, h⟩ := Option.map_eq_some_iff.1 h
  obtain ⟨hname, hsub⟩ := isName_of_nodeId? hid
  dsimp only at h
  cases hs : NodeShape.delimited.findSome? (shapedLabel? afterId) with
  | none =>
    rw [hs] at h
    exact isPlain_of_suffix hname (by simp) h
  | some x =>
    rw [hs] at h
    obtain ⟨label, s, r⟩ := x
    obtain ⟨shape, -, hs⟩ := List.exists_of_findSome?_eq_some hs
    have hlabel : '\n' ∉ label := lineFeed_not_mem_shapedLabel (fun hm => ht (hsub hm)) hs
    exact isPlain_of_suffix hname (by simpa using hlabel) h

theorem isPlain_of_groupTail? {g : Group} (ht : '\n' ∉ t) (h : groupTail? t = some (g, rest)) :
    (∀ m ∈ g, m.IsPlain) ∧ rest ⊆ t := by
  fun_induction groupTail? t generalizing g with
  | case1 => exact absurd h (by simp)
  | case2 r m afterMention hm ih =>
    have hr : '\n' ∉ trim r := fun hmem => ht (List.mem_cons_of_mem _ (mem_of_mem_trim hmem))
    obtain ⟨⟨ms, r2⟩, hms, he⟩ := Option.map_eq_some_iff.1 h
    obtain ⟨rfl, rfl⟩ := Prod.mk.inj he
    have hsub' : trim afterMention ⊆ trim r := List.Subset.trans (trim_subset _) (mention?_rest hm).suffix.subset
    obtain ⟨hall, hrest⟩ := ih (fun hmem => hr (hsub' hmem)) hms
    refine ⟨List.forall_mem_cons.2 ⟨isPlain_of_mention? hr hm, hall⟩, fun c hc => ?_⟩
    exact List.mem_cons_of_mem _ (mem_of_mem_trim (hsub' (hrest hc)))
  | case3 =>
    obtain ⟨rfl, rfl⟩ := Prod.mk.inj (Option.some.inj h)
    exact ⟨by simp, List.Subset.refl _⟩

theorem isPlain_of_group? {g : Group} (ht : '\n' ∉ t) (h : group? t = some (g, rest)) : g.IsPlain ∧ rest ⊆ t := by
  obtain ⟨⟨m, r⟩, hm, h⟩ := Option.bind_eq_some_iff.1 h
  obtain ⟨⟨ms, r2⟩, hms, he⟩ := Option.map_eq_some_iff.1 h
  obtain ⟨rfl, rfl⟩ := Prod.mk.inj he
  have hsub : trim r ⊆ t := List.Subset.trans (trim_subset r) (mention?_rest hm).suffix.subset
  obtain ⟨hall, hrest⟩ := isPlain_of_groupTail? (fun hmem => ht (hsub hmem)) hms
  exact ⟨⟨by simp, List.forall_mem_cons.2 ⟨isPlain_of_mention? ht hm, hall⟩⟩, List.Subset.trans hrest hsub⟩

/-! ## Links -/

theorem isPlain_of_linkForm? {b : Bool} {stroke : Stroke} {arrow : Arrow} {n : Int} {f : LinkForm}
    (h : linkForm? b stroke arrow n none = some f) : f.IsPlain ∧ f.label = none := by
  unfold linkForm? at h
  split at h
  · exact absurd h (by simp)
  · rename_i hn
    obtain rfl := Option.some.inj h
    rw [not_or, not_and, not_not] at hn
    exact ⟨⟨by simpa using hn.1, hn.2, nofun⟩, rfl⟩

theorem isPlain_of_dotted? {b : Bool} {f : LinkForm} (h : dotted? b t = some (some f, rest)) : f.IsPlain ∧ f.label = none := by
  obtain ⟨⟨n, r⟩, -, he⟩ := Option.map_eq_some_iff.1 h
  exact isPlain_of_linkForm? (Prod.mk.inj he).1

theorem isPlain_of_solid? {b : Bool} {stroke : Stroke} {c : Char} {f : LinkForm}
    (h : solid? b stroke c t = some (some f, rest)) : f.IsPlain ∧ f.label = none := by
  obtain ⟨⟨n, r⟩, -, he⟩ := Option.map_eq_some_iff.1 h
  exact isPlain_of_linkForm? (Prod.mk.inj he).1

theorem isPlain_of_operator? {f : LinkForm} (h : operator? t = some (f, rest)) : f.IsPlain ∧ f.label = none := by
  unfold operator? at h
  dsimp only at h
  split at h
  · rename_i form rest' hm
    obtain ⟨rfl, -⟩ := Prod.mk.inj (Option.some.inj h)
    rcases Scan.orElse_eq_some_iff.1 hm with hm | ⟨-, hm⟩
    · split at hm
      · exact isPlain_of_dotted? hm
      · exact absurd hm (by simp)
    · rcases Scan.orElse_eq_some_iff.1 hm with hm | ⟨-, hm⟩ <;> exact isPlain_of_solid? hm
  · exact absurd h (by simp)

theorem isPlain_of_closing? {b : Bool} {stroke : Stroke} {f : LinkForm} (h : closing? b stroke t = some (some f, rest)) :
    f.IsPlain := by
  cases stroke with
  | normal | thick => exact (isPlain_of_solid? h).1
  | dotted => exact (isPlain_of_dotted? h).1

theorem isPlain_withLabel {f : LinkForm} (h : f.IsPlain) {token : Text} (ht : '\n' ∉ token) :
    LinkForm.IsPlain { f with label := nonemptyLabel token } where
  length := h.length
  heads := h.heads
  label l hl := by
    have he : present (some (labelValue token)) = some l := hl
    rw [← Option.some.inj (present_eq_some_iff.1 he).1]
    exact lineFeed_not_mem_labelValue ht

theorem isPlain_of_textOperator? {stroke : Stroke} {f : LinkForm} (ht : '\n' ∉ t)
    (h : textOperator? t stroke = some (f, rest)) : f.IsPlain := by
  unfold textOperator? at h
  dsimp only at h
  split at h
  · rename_i text form rest' hm
    obtain ⟨rfl, -⟩ := Prod.mk.inj (Option.some.inj h)
    obtain ⟨body, hbody, hm⟩ := Option.bind_eq_some_iff.1 hm
    obtain ⟨run, r, rfl, hk⟩ := Scan.exists_of_longest hm
    obtain ⟨-, hk⟩ := Option.ite_none_left_eq_some.1 hk
    obtain ⟨word, r', rfl, hw⟩ := Scan.exists_of_shortest hk
    obtain ⟨-, hm⟩ := Option.ite_none_left_eq_some.1 hw
    obtain ⟨⟨g, r2⟩, hc, he⟩ := Option.map_eq_some_iff.1 hm
    simp only [Prod.mk.injEq] at he
    obtain ⟨rfl, rfl, rfl⟩ := he
    obtain ⟨r3, -, hc⟩ := Option.bind_eq_some_iff.1 hc
    have hwhole : run ++ (word ++ r') ⊆ t := List.Subset.trans (dropPrefix?_subset hbody) (openingHead_suffix t).subset
    have hword : word ⊆ t := fun c hmem => hwhole (by simp [hmem])
    exact isPlain_withLabel (isPlain_of_closing? hc) fun hmem => ht (hword hmem)
  · exact absurd h (by simp)

theorem pipeLabel?_subset {token : Text} (h : pipeLabel? t = some (token, rest)) : token ⊆ t := by
  unfold pipeLabel? at h
  have hblanks := Scan.blanks_subset t
  split at h
  · rename_i r hr
    rw [hr] at hblanks
    have hsub : r ⊆ t := fun c hc => hblanks (List.mem_cons_of_mem _ hc)
    dsimp only at h
    split at h
    · rename_i hq
      obtain ⟨rfl, -⟩ := Prod.mk.inj (Option.some.inj h)
      exact List.Subset.trans (Scan.quoted?_subset hq).1 hsub
    · split at h
      · rename_i hs
        obtain ⟨rfl, -⟩ := Prod.mk.inj (Option.some.inj h)
        exact List.Subset.trans (span_eq_subset hs).1 hsub
      · exact absurd h (by simp)
  · exact absurd h (by simp)

theorem isPlain_of_link? {f : LinkForm} (ht : '\n' ∉ t) (h : link? t = some (f, rest)) : f.IsPlain := by
  unfold link? at h
  rcases Scan.orElse_eq_some_iff.1 h with h | ⟨-, h⟩
  · obtain ⟨s, -, hs⟩ := List.exists_of_findSome?_eq_some h
    exact isPlain_of_textOperator? ht hs
  · obtain ⟨⟨g, r⟩, ho, he⟩ := Option.map_eq_some_iff.1 h
    obtain ⟨hplain, -⟩ := isPlain_of_operator? ho
    dsimp only at he
    split at he
    · obtain ⟨rfl, -⟩ := Prod.mk.inj he
      exact hplain
    · rename_i token r' hp
      obtain ⟨rfl, -⟩ := Prod.mk.inj he
      exact isPlain_withLabel hplain fun hmem => ht ((operator?_rest ho).suffix.subset (pipeLabel?_subset hp hmem))

theorem isPlain_of_chainTail {l : SourceLine} {ls : List (LinkForm × Group)} (ht : '\n' ∉ t)
    (h : chainTail l t = .ok ls) : ∀ x ∈ ls, x.1.IsPlain ∧ Group.IsPlain x.2 := by
  fun_induction chainTail l t generalizing ls with
  | case1 =>
    obtain rfl := Except.ok.inj h
    simp
  | case2 | case3 => exact absurd h (by simp)
  | case4 t hne form after hlink group rest hgroup ih =>
    have hsub : trim after ⊆ t := List.Subset.trans (trim_subset after) (link?_rest hlink).suffix.subset
    obtain ⟨hplain, hrest⟩ := isPlain_of_group? (fun hmem => ht (hsub hmem)) hgroup
    have hrest' : trim rest ⊆ t := List.Subset.trans (trim_subset rest) (List.Subset.trans hrest hsub)
    cases hc : chainTail l (trim rest) with
    | error e =>
      rw [hc] at h
      exact absurd h (by simp [Except.map])
    | ok links =>
      rw [hc] at h
      obtain rfl := Except.ok.inj h
      exact List.forall_mem_cons.2 ⟨⟨isPlain_of_link? ht hlink, hplain⟩, ih (fun hmem => ht (hrest' hmem)) hc⟩

theorem isPlain_of_readChain {l : SourceLine} {c : Chain} (ht : '\n' ∉ l.text) (h : readChain l = .ok c) : c.IsPlain := by
  unfold readChain at h
  split at h
  · exact absurd h (by simp)
  · rename_i first rest hg
    obtain ⟨hplain, hsub⟩ := isPlain_of_group? ht hg
    cases hc : chainTail l (trim rest) with
    | error e =>
      rw [hc] at h
      exact absurd h (by simp [Except.map])
    | ok links =>
      rw [hc] at h
      obtain rfl := Except.ok.inj h
      exact ⟨hplain, isPlain_of_chainTail (fun hmem => ht (hsub (mem_of_mem_trim hmem))) hc⟩

/-! ## Statements with keywords -/

theorem isRead_of_accessibility {line : AccessibilityLine} (ht : '\n' ∉ t) (h : Accessibility.line? t = some line) :
    (Statement.accessibility line).IsRead := by
  have hvalue : ∀ {keyword v : Text}, Accessibility.value? keyword t = some v → '\n' ∉ v ∧ trim v = v := by
    intro keyword v hv
    obtain ⟨r, hr, hv⟩ := Option.bind_eq_some_iff.1 hv
    have hblanks := Scan.blanks_subset r
    split at hv
    · rename_i r' hr'
      rw [hr'] at hblanks
      obtain ⟨w, hw, rfl⟩ := Option.map_eq_some_iff.1 hv
      refine ⟨fun hm => ht (dropPrefix?_subset hr (hblanks (List.mem_cons_of_mem _ ?_))), trim_trim w⟩
      exact Scan.blanks_subset r' (Scan.line?_subset hw (mem_of_mem_trim hm))
    · exact absurd hv (by simp)
  rcases Scan.orElse_eq_some_iff.1 h with h | ⟨-, h⟩ <;> obtain ⟨v, hv, rfl⟩ := Option.map_eq_some_iff.1 h <;>
    exact hvalue hv

/-- a list of ids after a keyword, and what the rule for the rest makes of it -/
theorem exists_of_idList? {α : Type} {keyword : Text} {rest? : List Text → Text → Option α} {a : α}
    (h : idList? keyword t rest? = some a) :
    ∃ ids rest, (∀ id ∈ ids, Scan.isName isWord id = true) ∧ rest ⊆ t ∧ rest? ids rest = some a := by
  obtain ⟨r, hr, h⟩ := Option.bind_eq_some_iff.1 h
  obtain ⟨⟨ids, rest⟩, hmem, ha⟩ := List.exists_of_findSome?_eq_some h
  obtain ⟨hids, hsub⟩ := Scan.mem_lists isName_of_nodeId? hmem
  exact ⟨ids, rest, hids, List.Subset.trans hsub (Scan.word?_subset hr), ha⟩

theorem isPlain_of_properties? {props : Style} (ht : '\n' ∉ t) (h : properties? t = some props) : props.IsPlain := by
  obtain ⟨r, hr, h⟩ := Option.bind_eq_some_iff.1 h
  obtain ⟨-, h⟩ := Option.ite_none_left_eq_some.1 h
  rw [← Option.some.inj h]
  exact Style.isPlain_ofText fun hm => ht (Scan.blanks?_subset hr hm)

theorem isRead_of_classDef? {s : Statement} (ht : '\n' ∉ t) (h : classDef? t = some s) : s.IsRead := by
  obtain ⟨ids, rest, hids, hsub, h⟩ := exists_of_idList? h
  obtain ⟨props, hp, rfl⟩ := Option.map_eq_some_iff.1 h
  exact ⟨hids, Style.isPlain_ofText fun hm => ht (hsub (Scan.optionalRest?_subset hp hm))⟩

theorem isRead_of_assignClass? {s : Statement} (h : assignClass? t = some s) : s.IsRead := by
  obtain ⟨ids, rest, hids, -, h⟩ := exists_of_idList? h
  obtain ⟨name, -, h⟩ := Option.bind_eq_some_iff.1 h
  obtain ⟨hname, h⟩ := Option.ite_none_right_eq_some.1 h
  obtain rfl := Option.some.inj h
  exact ⟨hids, hname⟩

theorem isRead_of_style? {s : Statement} (ht : '\n' ∉ t) (h : style? t = some s) : s.IsRead := by
  obtain ⟨ids, rest, hids, hsub, h⟩ := exists_of_idList? h
  obtain ⟨props, hp, rfl⟩ := Option.map_eq_some_iff.1 h
  exact ⟨hids, isPlain_of_properties? (fun hm => ht (hsub hm)) hp⟩

theorem isRead_of_linkStyle? {s : Statement} (ht : '\n' ∉ t) (h : linkStyle? t = some s) : s.IsRead := by
  obtain ⟨r, hr, h⟩ := Option.bind_eq_some_iff.1 h
  have hr' : '\n' ∉ r := fun hm => ht (Scan.word?_subset hr hm)
  rcases Scan.orElse_eq_some_iff.1 h with h | ⟨-, h⟩
  · obtain ⟨rest, hrest, h⟩ := Option.bind_eq_some_iff.1 h
    obtain ⟨props, hp, rfl⟩ := Option.map_eq_some_iff.1 h
    exact ⟨by simp [IsLinkKey], isPlain_of_properties? (fun hm => hr' (dropPrefix?_subset hrest hm)) hp⟩
  · obtain ⟨⟨keys, rest⟩, hmem, h⟩ := List.exists_of_findSome?_eq_some h
    obtain ⟨props, hp, rfl⟩ := Option.map_eq_some_iff.1 h
    have hrun : ∀ {t i r}, Scan.run? isDigit t = some (i, r) → IsLinkKey i ∧ r ⊆ t := fun h =>
      ⟨Or.inr ⟨(Scan.run?_eq_some h).1, (Scan.run?_eq_some h).2.1⟩, (Scan.run?_eq_some h).2.2⟩
    obtain ⟨hkeys, hsub⟩ := Scan.mem_lists hrun hmem
    exact ⟨hkeys, isPlain_of_properties? (fun hm => hr' (hsub hm)) hp⟩

theorem optionalTooltip_subset (ht : '\n' ∉ t) :
    (∀ v, (optionalTooltip t).1 = some v → '\n' ∉ v) ∧ (optionalTooltip t).2 ⊆ t := by
  unfold optionalTooltip
  split
  · rename_i tooltip rest h
    obtain ⟨r, hr, hq⟩ := Option.bind_eq_some_iff.1 h
    have hsub := Scan.blanks?_subset hr
    obtain ⟨h1, h2⟩ := Scan.quoted?_subset hq
    refine ⟨fun v hv => ?_, List.Subset.trans h2 hsub⟩
    rw [← Option.some.inj hv]
    exact lineFeed_not_mem_unquote fun hm => ht (hsub (h1 hm))
  · exact ⟨nofun, List.Subset.refl _⟩

theorem isName_of_clicked? {id : Text} (h : clicked? t = some (id, rest)) : Scan.isName isWord id = true ∧ rest ⊆ t := by
  obtain ⟨r, hr, h⟩ := Option.bind_eq_some_iff.1 h
  obtain ⟨⟨id', r'⟩, hid, h⟩ := Option.bind_eq_some_iff.1 h
  obtain ⟨r'', hb, he⟩ := Option.map_eq_some_iff.1 h
  obtain ⟨rfl, rfl⟩ := Prod.mk.inj he
  obtain ⟨hname, hsub⟩ := isName_of_nodeId? hid
  exact ⟨hname, List.Subset.trans (Scan.blanks?_subset hb) (List.Subset.trans hsub (Scan.word?_subset hr))⟩

theorem isRead_of_clickHref? {s : Statement} (ht : '\n' ∉ t) (h : clickHref? t = some s) : s.IsRead := by
  obtain ⟨⟨id, r⟩, hid, h⟩ := Option.bind_eq_some_iff.1 h
  obtain ⟨hname, hsub⟩ := isName_of_clicked? hid
  obtain ⟨⟨url, rest⟩, hurl, h⟩ := Option.bind_eq_some_iff.1 h
  have htarget : (Scan.word? "href" r).getD r ⊆ t := by
    cases hw : Scan.word? "href" r with
    | none => exact hsub
    | some u => exact List.Subset.trans (Scan.word?_subset hw) hsub
  obtain ⟨h1, h2⟩ := Scan.quoted?_subset hurl
  have hpage : '\n' ∉ unquote url := lineFeed_not_mem_unquote fun hm => ht (htarget (h1 hm))
  obtain ⟨htip, -⟩ := optionalTooltip_subset (fun hm => ht (htarget (h2 hm)) : '\n' ∉ rest)
  dsimp only at h
  split at h
  · obtain rfl := Option.some.inj h
    exact ⟨hname, hpage, htip, nofun⟩
  · obtain ⟨target, -, h⟩ := Option.bind_eq_some_iff.1 h
    obtain ⟨hmem, h⟩ := Option.ite_none_right_eq_some.1 h
    obtain rfl := Option.some.inj h
    refine ⟨hname, hpage, htip, fun v hv => Or.inr ?_⟩
    rw [← Option.some.inj hv]
    simpa using hmem

theorem isFunctionName_of_functionName? {name : Text} (h : functionName? t = some (name, rest)) :
    isFunctionName name = true ∧ rest ⊆ t := by
  unfold functionName? at h
  split at h
  · rename_i c r
    obtain ⟨hc, h⟩ := Option.ite_none_right_eq_some.1 h
    obtain ⟨rfl, rfl⟩ := Prod.mk.inj (Option.some.inj h)
    refine ⟨?_, fun c hm => List.mem_cons_of_mem _ ((List.dropWhile_sublist _).subset hm)⟩
    rw [isFunctionName, hc, Bool.true_and]
    exact List.all_takeWhile
  · exact absurd h (by simp)

theorem arguments_subset (t : Text) : (∀ a, (arguments t).1 = some a → ')' ∉ a ∧ a ⊆ t) ∧ (arguments t).2 ⊆ t := by
  unfold arguments
  split
  · rename_i r
    split
    · rename_i args rest hs
      obtain ⟨h1, h2⟩ := span_eq_subset hs
      refine ⟨fun a ha => ?_, fun c hc => List.mem_cons_of_mem _ (h2 (List.mem_cons_of_mem _ hc))⟩
      obtain rfl := Option.some.inj ha
      refine ⟨fun hm => ?_, fun c hc => List.mem_cons_of_mem _ (h1 hc)⟩
      simpa using List.all_eq_true.1 (all_of_span_eq hs) _ hm
    · exact ⟨nofun, List.Subset.refl _⟩
  · exact ⟨nofun, List.Subset.refl _⟩

theorem isRead_of_callback? {s : Statement} {id : Text} (hid : Scan.isName isWord id = true) (ht : '\n' ∉ t)
    (h : callback? id t = some s) : s.IsRead := by
  obtain ⟨⟨name, rest⟩, hname, h⟩ := Option.bind_eq_some_iff.1 h
  obtain ⟨hfunction, hsub⟩ := isFunctionName_of_functionName? hname
  obtain ⟨hargs, hrest⟩ := arguments_subset rest
  have hrest' : '\n' ∉ (arguments rest).2 := fun hm => ht (hsub (hrest hm))
  obtain ⟨-, h⟩ := Option.ite_none_right_eq_some.1 h
  obtain rfl := Option.some.inj h
  exact ⟨hid, hfunction, fun a ha => ⟨(hargs a ha).1, fun hm => ht (hsub ((hargs a ha).2 hm))⟩,
    (optionalTooltip_subset hrest').1⟩

theorem isRead_of_clickCall? {s : Statement} (ht : '\n' ∉ t) (h : clickCall? t = some s) : s.IsRead := by
  obtain ⟨⟨id, r⟩, hid, h⟩ := Option.bind_eq_some_iff.1 h
  obtain ⟨hname, hsub⟩ := isName_of_clicked? hid
  rcases Scan.orElse_eq_some_iff.1 h with h | ⟨-, h⟩
  · obtain ⟨u, hu, h⟩ := Option.bind_eq_some_iff.1 h
    exact isRead_of_callback? hname (fun hm => ht (hsub (Scan.word?_subset hu hm))) h
  · exact isRead_of_callback? hname (fun hm => ht (hsub hm)) h

theorem isRead_of_keywordStatement? {s : Statement} (ht : '\n' ∉ t) (h : keywordStatement? t = some s) : s.IsRead := by
  simp only [keywordStatement?, Scan.orElse_eq_some_iff] at h
  rcases h with h | ⟨-, h | ⟨-, h | ⟨-, h | ⟨-, h | ⟨-, h | ⟨-, h⟩⟩⟩⟩⟩⟩
  · obtain ⟨line, hline, rfl⟩ := Option.map_eq_some_iff.1 h
    exact isRead_of_accessibility ht hline
  · exact isRead_of_classDef? ht h
  · exact isRead_of_assignClass? h
  · exact isRead_of_style? ht h
  · exact isRead_of_linkStyle? ht h
  · exact isRead_of_clickHref? ht h
  · exact isRead_of_clickCall? ht h

/-! ## Subgraphs and lines -/

theorem isRead_of_subgraphHead {l : SourceLine} {id title : Text} (hne : t ≠ []) (ht : '\n' ∉ t)
    (h : subgraphHead l t = .ok (id, title)) : (Statement.openSubgraph id title).IsRead := by
  unfold subgraphHead at h
  split at h
  · rename_i head hb
    obtain rfl := Except.ok.inj h
    obtain ⟨⟨run, rest⟩, hrun, h⟩ := Option.bind_eq_some_iff.1 hb
    obtain ⟨hrun1, hrun2, hsub⟩ := Scan.run?_eq_some hrun
    have hblanks := Scan.blanks_subset rest
    dsimp only at h
    split at h
    · rename_i r hr
      rw [hr] at hblanks
      obtain ⟨-, h⟩ := Option.ite_none_right_eq_some.1 h
      obtain ⟨rfl, rfl⟩ := Prod.mk.inj (Option.some.inj h)
      refine ⟨hrun1, hrun2, lineFeed_not_mem_unquote fun hm => ht (hsub (hblanks (List.mem_cons_of_mem _ ?_)))⟩
      exact List.dropLast_subset r (mem_of_mem_trim hm)
    · exact absurd h (by simp)
  · split at h
    · rename_i hall
      obtain ⟨rfl, rfl⟩ := Prod.mk.inj (Except.ok.inj h)
      exact ⟨hne, hall, ht⟩
    · dsimp only at h
      split at h
      · exact absurd h (by simp)
      · rename_i hid
        obtain ⟨rfl, rfl⟩ := Prod.mk.inj (Except.ok.inj h)
        refine ⟨hid, ?_, lineFeed_not_mem_unquote ht⟩
        rw [idOfTitle, List.all_eq_true]
        exact fun c hc => (List.mem_filter.1 hc).2

/-- **what a line means fits the grammar** -/
theorem isRead_of_meaning {s : Statement} (ht : '\n' ∉ t) (h : meaning? t = some s) : s.IsRead := by
  have hread : Statement.read ⟨0, 0, t, []⟩ = .ok s := read_eq_ok_iff_meaning.2 h
  unfold Statement.read at hread
  split at hread
  · rename_i hk
    exact Except.ok.inj hread ▸ isRead_of_keywordStatement? ht hk
  · split at hread
    · cases hd : directionAt _ _ _ with
      | error e => rw [hd] at hread; exact absurd hread (by simp [Except.map])
      | ok d => rw [hd] at hread; exact Except.ok.inj hread ▸ trivial
    · split at hread
      · rename_i c r hw
        cases hh : subgraphHead _ (c :: r) with
        | error e => rw [hh] at hread; exact absurd hread (by simp [Except.map])
        | ok head =>
          rw [hh] at hread
          exact Except.ok.inj hread ▸ isRead_of_subgraphHead (by simp) (fun hm => ht (Scan.word?_subset hw hm)) hh
      · split at hread
        · exact Except.ok.inj hread ▸ trivial
        · cases hc : readChain _ with
          | error e => rw [hc] at hread; exact absurd hread (by simp [Except.map])
          | ok c => rw [hc] at hread; exact Except.ok.inj hread ▸ isPlain_of_readChain ht hc

end DiagramText.Flowchart

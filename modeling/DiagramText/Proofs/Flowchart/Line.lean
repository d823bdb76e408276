/-
Lines of nodes and links against the keywords that are tried first. After the id of the first node stands a `Sequel`,
which no keyword can go on with (`keywordStatement?_sequel`, `statement?_sequel`), so a line of nodes misleads in the
listed ways only. With that, `read_toText` reads every plain statement that does not mislead back as
`Statement.settled`, and `isContent_toText` says that its line keeps it whole.
-/
import DiagramText.Proofs.Flowchart.Statement

namespace DiagramText.Flowchart

open DiagramText.Text

/-! ## Lines of nodes -/

/-- what may follow white space after a node: an ampersand or an operator -/
def isNext (c : Char) : Bool := c ∈ ['&', '<', '-', '=']

theorem isNext_ne {c : Char} (h : isNext c = true) : isMark c = true ∧ isWord c = false ∧ c ≠ ':' := by
  simp only [isNext, List.mem_cons, List.not_mem_nil, or_false, decide_eq_true_eq] at h
  rcases h with rfl | rfl | rfl | rfl <;> decide

/-- no id, digit or keyword starts with such a character -/
theorem nodeId?_next {c : Char} (r : Text) (h : isNext c = true) :
    nodeId? (c :: r) = none ∧ Scan.run? isDigit (c :: r) = none ∧ dropPrefix? "default" (c :: r) = none := by
  simp only [isNext, List.mem_cons, List.not_mem_nil, or_false, decide_eq_true_eq] at h
  rcases h with rfl | rfl | rfl | rfl <;> exact ⟨rfl, rfl, rfl⟩

/-- what may follow the id of the first node: nothing, a suffix, or white space and what joins it to the next node -/
inductive Sequel : Text → Prop
  | nil : Sequel []
  | suffix {s : Text} (h : Scan.startsWith isSuffixHead s = true) : Sequel s
  | next {c : Char} {r : Text} (h : isNext c = true) : Sequel (' ' :: c :: r)

theorem Sequel.startsWith {s : Text} (h : Sequel s) : Scan.startsWith isWordOrHyphen s = false := by
  cases h with
  | nil => rfl
  | suffix h =>
    obtain ⟨c, r, rfl, hc⟩ := exists_cons_of_startsWith h
    exact (isSuffixHead_ne hc).1
  | next h => exact not_isWordOrHyphen_space _

/-- white space after the id is followed by no name -/
theorem Sequel.blanks? {s u : Text} (h : Sequel s) (hb : Scan.blanks? s = some u) :
    ∃ c r, s = ' ' :: c :: r ∧ u = c :: r ∧ isNext c = true := by
  cases h with
  | nil => exact absurd hb (by simp [Scan.blanks?])
  | suffix h =>
    obtain ⟨c, r, rfl, hc⟩ := exists_cons_of_startsWith h
    have hc : isBlank c = false := by simpa [isMark] using (isSuffixHead_ne hc).2
    simp [Scan.blanks?, hc] at hb
  | @next c r h =>
    rw [Scan.blanks?_space (show Scan.startsWith isMark (c :: r) = true from (isNext_ne h).1), Option.some.injEq] at hb
    exact ⟨c, r, rfl, hb.symm, h⟩

/-- the white space before a colon is none -/
theorem Sequel.colon {s : Text} (h : Sequel s) (hc : Scan.startsWith (· = ':') s = false) :
    Scan.startsWith (· = ':') (Scan.blanks s) = false := by
  cases h with
  | nil => rfl
  | suffix hs => rwa [Scan.blanks_of_startsWith (startsWith_mono (fun c hc => (isSuffixHead_ne hc).2) hs)]
  | @next c r h =>
    rw [Scan.blanks_space, Scan.blanks_of_startsWith (show Scan.startsWith isMark (c :: r) = true from (isNext_ne h).1)]
    exact decide_eq_false (isNext_ne h).2.2

section

variable {id s : Text} (hid : Scan.isName isWord id = true) (hs : Sequel s)
include hid hs

/-- a keyword before white space is the whole id, and no name follows it -/
theorem word?_sequel {k u : Text} (hk : k.all isWordOrHyphen = true) (h : Scan.word? k (id ++ s) = some u) :
    id = k ∧ ∃ c r, s = ' ' :: c :: r ∧ u = c :: r ∧ isNext c = true := by
  have hmark : id.all isMark = true :=
    List.all_eq_true.2 fun c hc => isMark_of_isWordOrHyphen (List.all_eq_true.1 (Scan.all_of_isName hid) c hc)
  obtain ⟨he, hb⟩ := Scan.word?_name hk hmark hs.startsWith h
  exact ⟨he, hs.blanks? hb⟩

theorem idList?_sequel {α : Type} {k : Text} (hk : k.all isWordOrHyphen = true)
    (rest? : List Text → Text → Option α) : idList? k (id ++ s) rest? = none := by
  rw [idList?]
  cases hw : Scan.word? k (id ++ s) with
  | none => rfl
  | some u =>
    obtain ⟨-, c, r, -, rfl, hc⟩ := word?_sequel hid hs hk hw
    rw [Option.bind_some, Scan.lists, (nodeId?_next r hc).1]
    rfl

theorem accessibilityValue?_sequel {k : Text} (hk : k.all isWordOrHyphen = true)
    (h : ¬ (id = k ∧ Scan.startsWith (· = ':') s = true)) : Accessibility.value? k (id ++ s) = none := by
  rw [Accessibility.value?]
  cases hd : dropPrefix? k (id ++ s) with
  | none => rfl
  | some r =>
    obtain ⟨n, rfl, rfl⟩ := Scan.dropPrefix?_name hk hs.startsWith hd
    have hcolon : Scan.startsWith (· = ':') (Scan.blanks (n ++ s)) = false := by
      cases n with
      | cons c n =>
        have hall := Scan.all_of_isName hid
        simp only [List.all_append, List.all_cons, Bool.and_eq_true] at hall
        have hm : Scan.startsWith isMark (c :: n ++ s) = true := isMark_of_isWordOrHyphen hall.2.1
        rw [Scan.blanks_of_startsWith hm]
        refine decide_eq_false ?_
        rintro rfl
        exact absurd hall.2.1 (by decide)
      | nil =>
        rw [List.append_nil, not_and, Bool.not_eq_true] at h
        exact hs.colon (h rfl)
    rw [Option.bind_some]
    split
    · rename_i e
      rw [e] at hcolon
      simp [Scan.startsWith] at hcolon
    · rfl

theorem linkStyle?_sequel : linkStyle? (id ++ s) = none := by
  rw [linkStyle?]
  cases hw : Scan.word? "linkStyle" (id ++ s) with
  | none => rfl
  | some u =>
    obtain ⟨-, c, r, -, rfl, hc⟩ := word?_sequel hid hs (by decide) hw
    obtain ⟨-, hrun, hdefault⟩ := nodeId?_next r hc
    rw [Option.bind_some, hdefault, Scan.lists, hrun]
    rfl

theorem clicked?_sequel : clicked? (id ++ s) = none := by
  rw [clicked?]
  cases hw : Scan.word? "click" (id ++ s) with
  | none => rfl
  | some u =>
    obtain ⟨-, c, r, -, rfl, hc⟩ := word?_sequel hid hs (by decide) hw
    rw [Option.bind_some, (nodeId?_next r hc).1]
    rfl

/-- no keyword claims a line of nodes but that of an accessibility text, before a class name after colons -/
theorem keywordStatement?_sequel
    (h : ¬ ((id = "accTitle" ∨ id = "accDescr") ∧ Scan.startsWith (· = ':') s = true)) :
    keywordStatement? (id ++ s) = none := by
  have h1 := accessibilityValue?_sequel hid hs (k := "accTitle") (by decide) fun hc => h ⟨Or.inl hc.1, hc.2⟩
  have h2 := accessibilityValue?_sequel hid hs (k := "accDescr") (by decide) fun hc => h ⟨Or.inr hc.1, hc.2⟩
  rw [keywordStatement?, Accessibility.line?, h1, h2, classDef?, idList?_sequel hid hs (by decide), assignClass?,
    idList?_sequel hid hs (by decide), style?, idList?_sequel hid hs (by decide), linkStyle?_sequel hid hs, clickHref?,
    clickCall?, clicked?_sequel hid hs]
  rfl

/-- the keyword of a direction is followed by white space, which no direction follows here -/
theorem statement?_sequel : Direction.statement? (id ++ s) = none := by
  rw [Direction.statement?]
  cases hk : Scan.keyword? "direction" (id ++ s) with
  | none => rfl
  | some u =>
    obtain ⟨r, hr, hb⟩ := Option.bind_eq_some_iff.1 hk
    obtain ⟨pre, e, hfold⟩ := dropFolded?_eq_some hr
    have hnext : ∃ c r', u = c :: r' ∧ isNext c = true := by
      rcases List.append_eq_append_iff.1 e with ⟨m, rfl, rfl⟩ | ⟨n, rfl, rfl⟩
      · cases m with
        | nil =>
          obtain ⟨c, r', -, e', hc⟩ := hs.blanks? hb
          exact ⟨c, r', e', hc⟩
        | cons c m =>
          -- a letter of the keyword would stand outside the id
          have hmem : foldCase c ∈ ("direction" : Text).map foldCase := by
            rw [← hfold]
            exact List.mem_map_of_mem (by simp)
          have hletter : ∀ d ∈ ("direction" : Text).map foldCase, isLetter d = true := List.all_eq_true.1 (by decide)
          have hword := isWord_of_foldCase (hletter _ hmem)
          have hnot : isWordOrHyphen c = false := hs.startsWith
          rw [isWordOrHyphen, hword] at hnot
          exact absurd hnot (by simp)
      · cases n with
        | nil =>
          obtain ⟨c, r', -, e', hc⟩ := hs.blanks? hb
          exact ⟨c, r', e', hc⟩
        | cons c n =>
          have hall := Scan.all_of_isName hid
          simp only [List.all_append, List.all_cons, Bool.and_eq_true] at hall
          have hc : isBlank c = false := by simpa [isMark] using isMark_of_isWordOrHyphen hall.2.1
          simp [Scan.blanks?, hc] at hb
    obtain ⟨c, r', rfl, hc⟩ := hnext
    refine if_neg fun h => ?_
    simp [(isNext_ne hc).2.1] at h

end

/-- what follows the first node of a line -/
theorem sequel_rest (ms : Group) {links : List (LinkForm × Group)} (hl : ∀ p ∈ links, p.1.IsPlain ∧ Group.IsPlain p.2) :
    (groupTailText ms ++ linksText links = [] ∧ ms = [] ∧ links = []) ∨
      (∃ c r, groupTailText ms ++ linksText links = ' ' :: c :: r ∧ isNext c = true) ∧ (ms ≠ [] ∨ links ≠ []) := by
  cases ms with
  | cons m ms => exact Or.inr ⟨⟨'&', _, rfl, by decide⟩, Or.inl (by simp)⟩
  | nil =>
    cases links with
    | nil => exact Or.inl ⟨rfl, rfl, rfl⟩
    | cons p links =>
      obtain ⟨c, r, e, hc⟩ := exists_cons_of_startsWith (startsWith_operator (hl p (by simp)).1)
      refine Or.inr ⟨⟨c, r ++ ' ' :: (groupText p.2 ++ linksText links), ?_, ?_⟩, Or.inr (by simp)⟩
      · simp [groupTailText, linksText, e]
      · simp only [List.mem_cons, List.not_mem_nil, or_false, decide_eq_true_eq] at hc
        rcases hc with rfl | rfl | rfl <;> rfl

/-- the id of the first node and its sequel: a bare node is followed by nothing or by white space, a shape by its
delimiter, and only a class name without a shape by a colon -/
theorem Chain.exists_sequel {m : Mention} {ms : List Mention} {links : List (LinkForm × Group)}
    (h : Chain.IsPlain ⟨m :: ms, links⟩) :
    ∃ s, Chain.toText ⟨m :: ms, links⟩ = m.id ++ s ∧ Sequel s ∧
      (Scan.startsWith (· = ':') s = true → ∃ n, m = ⟨m.id, none, some n⟩) ∧
      (Scan.startsWith (· = ' ') s = true → m = ⟨m.id, none, none⟩ ∧ (ms ≠ [] ∨ links ≠ [])) ∧
      (s = [] → m = ⟨m.id, none, none⟩ ∧ ms = [] ∧ links = []) := by
  refine ⟨m.suffix ++ (groupTailText ms ++ linksText links), ?_, ?_⟩
  · rw [Chain.toText, groupText_cons, Mention.toText]
    simp only [List.append_assoc]
  obtain ⟨id, shaped, className⟩ := m
  rcases suffix_eq_nil_or ⟨id, shaped, className⟩ with ⟨rfl, rfl, e⟩ | hsuffix
  · rw [e, List.nil_append]
    rcases sequel_rest ms h.links with ⟨e, rfl, rfl⟩ | ⟨⟨c, r, e, hc⟩, hne⟩
    · rw [e]
      exact ⟨.nil, fun h => absurd h (by simp [Scan.startsWith]), fun h => absurd h (by simp [Scan.startsWith]),
        fun _ => ⟨rfl, rfl, rfl⟩⟩
    · rw [e]
      exact ⟨.next hc, fun h => absurd h (by simp [Scan.startsWith]), fun _ => ⟨rfl, hne⟩, fun h => absurd h (by simp)⟩
  · have hs := startsWith_append (groupTailText ms ++ linksText links) hsuffix
    obtain ⟨c, r, e, hc⟩ := exists_cons_of_startsWith hs
    refine ⟨.suffix hs, fun hcolon => ?_, fun hspace => ?_, fun hnil => ?_⟩
    · cases shaped with
      | none =>
        cases className with
        | none => simp [Mention.suffix, shapeText, classText, Scan.startsWith] at hsuffix
        | some n => exact ⟨n, rfl⟩
      | some p =>
        obtain ⟨label, shape⟩ := p
        cases shape <;> simp [Mention.suffix, shapeText, NodeShape.delimiters, Scan.startsWith] at hcolon
    · rw [e] at hspace
      simp only [Scan.startsWith, decide_eq_true_eq] at hspace
      subst hspace
      exact absurd hc (by decide)
    · rw [e] at hnil
      exact absurd hnil (by simp)

/-- no keyword claims a line of nodes and links that neither describes, opens nor closes anything -/
theorem read_eq_readChain {m : Mention} {ms : List Mention} {links : List (LinkForm × Group)}
    (h : Chain.IsPlain ⟨m :: ms, links⟩)
    (hdescribes : ∀ name, m = ⟨m.id, none, some name⟩ → m.id ≠ "accTitle" ∧ m.id ≠ "accDescr")
    (hopens : m = ⟨"subgraph", none, none⟩ → ms = [] ∧ links = [])
    (hcloses : m = ⟨"end", none, none⟩ → ms ≠ [] ∨ links ≠ []) {l : SourceLine}
    (hl : l.text = Chain.toText ⟨m :: ms, links⟩) : Statement.read l = (readChain l).map .chain := by
  obtain ⟨s, ht, hs, hcolon, hspace, hnil⟩ := Chain.exists_sequel h
  have hid := (h.first.mention m (by simp)).id
  rw [ht] at hl
  have hkey : keywordStatement? l.text = none := by
    rw [hl]
    refine keywordStatement?_sequel hid hs ?_
    rintro ⟨hacc, hc⟩
    obtain ⟨n, e⟩ := hcolon hc
    exact hacc.elim (hdescribes n e).1 (hdescribes n e).2
  have hdir : Direction.statement? l.text = none := by
    rw [hl]
    exact statement?_sequel hid hs
  have hword : Scan.word? "subgraph" l.text = none := by
    rw [hl, Option.eq_none_iff_forall_not_mem]
    intro u hu
    obtain ⟨e, c, r, es, -, -⟩ := word?_sequel hid hs (by decide) hu
    obtain ⟨em, hne⟩ := hspace (by rw [es]; rfl)
    rw [e] at em
    obtain ⟨rfl, rfl⟩ := hopens em
    simp at hne
  have hend : l.text ≠ "end" := by
    rw [hl]
    intro he
    have hsnil : s = [] := by
      cases s with
      | nil => rfl
      | cons c r =>
        have hstart : isWordOrHyphen c = false := hs.startsWith
        have hc : c ∈ ("end" : Text) := by
          rw [← he]
          simp
        have hall : ∀ d ∈ ("end" : Text), isWordOrHyphen d = true := List.all_eq_true.1 (by decide)
        rw [hall c hc] at hstart
        exact absurd hstart (by simp)
    obtain ⟨em, rfl, rfl⟩ := hnil hsnil
    rw [hsnil, List.append_nil] at he
    rw [he] at em
    simpa using hcloses em
  simp only [Statement.read, hkey, hdir, hword]
  rw [if_neg hend]

/-- **lines of nodes and links read back**, unless they mislead -/
theorem read_chain {c : Chain} (h : c.IsPlain) (hm : ¬ c.Misleads) {l : SourceLine} (hl : l.text = c.toText) :
    Statement.read l = .ok (.chain (settledChain c)) := by
  have hchain := readChain_toText h (fun m hmem => by
    by_contra hn
    exact hm (.hyphen hmem hn)) hl
  obtain ⟨first, links⟩ := c
  cases first with
  | nil => exact absurd rfl h.first.ne_nil
  | cons m ms =>
    have hread := read_eq_readChain h (fun name e => ?_) (fun e => ?_) (fun e => ?_) hl
    · rw [hread, hchain]
      rfl
    · by_contra hacc
      rw [not_and_or, not_not, not_not] at hacc
      rw [e] at hm
      exact hm (.describes hacc)
    · by_contra hne
      rw [not_and_or] at hne
      rw [e] at hm
      exact hm (.opens hne)
    · by_contra hne
      rw [not_or, not_not, not_not] at hne
      obtain ⟨rfl, rfl⟩ := hne
      rw [e] at hm
      exact hm .closes

/-! ## Every statement -/

theorem read_closeSubgraph {l : SourceLine} (hl : l.text = "end") : Statement.read l = .ok .closeSubgraph := by
  have hkey : keywordStatement? l.text = none := by
    rw [hl]
    decide +kernel
  have hdir : Direction.statement? l.text = none := by
    rw [hl]
    decide +kernel
  have hword : Scan.word? "subgraph" l.text = none := by
    rw [hl]
    rfl
  simp only [Statement.read, hkey, hdir, hword]
  rw [if_pos hl]

theorem read_keyword {l : SourceLine} {s : Statement} (h : keywordStatement? l.text = some s) :
    Statement.read l = .ok s := by
  simp only [Statement.read, h]

/-- **statements read back from their lines**, unless they mislead -/
theorem read_toText {s : Statement} (h : s.IsPlain) (hm : ¬ s.Misleads) {l : SourceLine} (hl : l.text = s.toText) :
    Statement.read l = .ok s.settled := by
  cases s with
  | accessibility line =>
    exact read_keyword (hl ▸ keywordStatement?_accessibility h)
  | classDef names style =>
    obtain ⟨⟨name, rfl, hn⟩, hs⟩ := h
    exact read_keyword (hl ▸ keywordStatement?_classDef_style hn hs)
  | assignClass ids name =>
    obtain ⟨⟨id, rfl, hid⟩, hne, hn⟩ := h
    refine read_keyword ?_
    rw [hl, toText_assignClass]
    exact keywordStatement?_assignClass hid hne hn
  | style ids style =>
    obtain ⟨⟨id, rfl, hid⟩, hs⟩ := h
    refine read_keyword ?_
    rw [hl, toText_style, keywordStatement?_style hid (isPropertyText_style hs fun hn => hm (Or.inl hn)),
      Style.ofText_toText hs]
    rfl
  | linkStyle keys style =>
    obtain ⟨⟨key, rfl, hk⟩, hs⟩ := h
    refine read_keyword ?_
    rw [hl, toText_linkStyle, keywordStatement?_linkStyle hk (isPropertyText_style hs fun hn => hm (Or.inl hn)),
      Style.ofText_toText hs]
    rfl
  | click c => exact read_keyword (hl ▸ keywordStatement?_click h)
  | direction d => exact read_direction d hl
  | openSubgraph id title => exact read_openSubgraph h.1 h.2.1 h.2.2 hl
  | closeSubgraph => exact read_closeSubgraph hl
  | chain c => exact read_chain h hm hl

/-! ## Ends of lines -/

theorem endsWith_tooltip {t : Text} (ht : endsWith isLineEnd t = true) (tooltip : Option Text) :
    endsWith isLineEnd (t ++ tooltipText tooltip) = true := by
  cases tooltip with
  | none => rwa [tooltipText, List.append_nil]
  | some u => exact endsWith_append _ (endsWith_cons ' ' (endsWith_quote u))

theorem endsWith_click {c : Click} (h : c.IsPlain) : endsWith isLineEnd c.toText = true := by
  cases c with
  | href node target tooltip linkTarget =>
    obtain ⟨-, -, -, ht⟩ := h
    have htip := endsWith_tooltip (endsWith_quote target) tooltip
    have hend : endsWith isLineEnd (quote target ++ (tooltipText tooltip ++ targetText (present linkTarget))) = true := by
      rw [← List.append_assoc]
      cases hl : present linkTarget with
      | none => rwa [targetText, List.append_nil]
      | some t =>
        obtain ⟨h1, h2⟩ := Option.filter_eq_some_iff.1 hl
        have hmem : t ∈ linkTargets := (ht t h1).resolve_left (by simpa using h2)
        simp only [linkTargets, List.mem_cons, List.not_mem_nil, or_false] at hmem
        rcases hmem with rfl | rfl | rfl | rfl <;> exact endsWith_append _ (by decide)
    rw [toText_href]
    exact endsWith_append _ (endsWith_cons ' ' (endsWith_append node (endsWith_cons ' '
      (endsWith_append _ (endsWith_append [' '] hend)))))
  | callback node function args tooltip =>
    have hend : endsWith isLineEnd (')' :: tooltipText tooltip) = true := endsWith_tooltip (t := [')']) (by decide) tooltip
    rw [toText_callback]
    exact endsWith_append _ (endsWith_cons ' ' (endsWith_append node (endsWith_cons ' '
      (endsWith_append _ (endsWith_cons ' ' (endsWith_append function (endsWith_cons '(' (endsWith_append _ hend))))))))

theorem endsWith_style {style : Style} (hs : style.IsPlain) (hne : style.toList ≠ [])
    (h : ¬ endsWith (· = ';') style.toText = true) : endsWith isLineEnd style.toText = true :=
  endsWith_isLineEnd (Style.isTight_toText hs hne).last h

/-- a plain line that does not mislead ends in a character that readers keep -/
theorem endsWith_toText {s : Statement} (h : s.IsPlain) (hm : ¬ s.Misleads) : endsWith isLineEnd s.toText = true := by
  cases s with
  | accessibility line =>
    cases line with
    | title v => exact endsWith_append _ (endsWith_isLineEnd h.1.last hm)
    | description v => exact endsWith_append _ (endsWith_isLineEnd h.1.last hm)
  | classDef names style =>
    obtain ⟨⟨name, rfl, hn⟩, hs⟩ := h
    rw [toText_classDef, join_singleton, trimRight_classDef hn hs]
    refine endsWith_append _ ?_
    split
    · rw [List.append_nil]
      exact endsWith_mono (fun _ => isLineEnd_of_isWordOrHyphen)
        (endsWith_of_all (ne_nil_of_isName hn) (Scan.all_of_isName hn))
    · rename_i hne
      exact endsWith_append _ (endsWith_cons ' ' (endsWith_style hs hne hm))
  | assignClass ids name =>
    obtain ⟨⟨id, rfl, hid⟩, hne, hn⟩ := h
    rw [toText_assignClass]
    exact endsWith_append _ (endsWith_cons ' ' (endsWith_append id (endsWith_cons ' '
      (endsWith_mono (fun _ => isLineEnd_of_isWordOrHyphen) (endsWith_of_all hne hn)))))
  | style ids style =>
    obtain ⟨⟨id, rfl, hid⟩, hs⟩ := h
    rw [toText_style]
    exact endsWith_append _ (endsWith_cons ' ' (endsWith_append id (endsWith_cons ' '
      (endsWith_style hs (fun hn => hm (Or.inl hn)) fun hn => hm (Or.inr hn)))))
  | linkStyle keys style =>
    obtain ⟨⟨key, rfl, hk⟩, hs⟩ := h
    rw [toText_linkStyle]
    exact endsWith_append _ (endsWith_cons ' ' (endsWith_append key (endsWith_cons ' '
      (endsWith_style hs (fun hn => hm (Or.inl hn)) fun hn => hm (Or.inr hn)))))
  | click c => exact endsWith_click h
  | direction d => exact endsWith_append _ (by cases d <;> decide)
  | openSubgraph id title =>
    rw [toText_openSubgraph]
    split
    · rw [List.append_nil]
      exact endsWith_append _ (endsWith_mono (fun _ => isLineEnd_of_isWordOrHyphen) (endsWith_of_all h.1 h.2.1))
    · exact endsWith_append _ (endsWith_append ('[' :: labelText title) (by decide))
  | closeSubgraph => exact (by decide : endsWith isLineEnd ("end" : Text) = true)
  | chain c =>
    refine endsWith_mono (fun c hc => ?_) (endsWith_linksText h.links (isTight_groupText h.first).2)
    rw [isLineEnd, (isNodeEnd_ne hc).1, Bool.true_and, decide_eq_true (isNodeEnd_ne hc).2]

theorem startsWith_toText {s : Statement} (h : s.IsPlain) : Scan.startsWith isWord s.toText = true := by
  cases s with
  | accessibility line => cases line <;> exact startsWith_append _ (by decide)
  | classDef names style =>
    obtain ⟨⟨name, rfl, hn⟩, hs⟩ := h
    rw [toText_classDef, join_singleton, trimRight_classDef hn hs]
    exact startsWith_append _ (by decide)
  | assignClass ids name =>
    obtain ⟨⟨id, rfl, hid⟩, -⟩ := h
    rw [toText_assignClass]
    exact startsWith_append _ (by decide)
  | style ids style =>
    obtain ⟨⟨id, rfl, hid⟩, -⟩ := h
    rw [toText_style]
    exact startsWith_append _ (by decide)
  | linkStyle keys style =>
    obtain ⟨⟨id, rfl, hid⟩, -⟩ := h
    rw [toText_linkStyle]
    exact startsWith_append _ (by decide)
  | click c =>
    cases c with
    | href node target tooltip linkTarget =>
      rw [toText_click, toText_href]
      exact startsWith_append _ (by decide)
    | callback node function args tooltip =>
      rw [toText_click, toText_callback]
      exact startsWith_append _ (by decide)
  | direction d => exact startsWith_append _ (by decide)
  | openSubgraph id title =>
    rw [toText_openSubgraph, List.append_assoc]
    exact startsWith_append _ (by decide)
  | closeSubgraph => exact (by decide : Scan.startsWith isWord ("end" : Text) = true)
  | chain c =>
    exact startsWith_append _ (isTight_groupText h.first).1

theorem lineFeed_not_mem_operator (f : LinkForm) : '\n' ∉ f.operator := by
  rw [operator_eq]
  simp only [List.mem_append, not_or]
  refine ⟨by split <;> decide, ?_, by cases f.arrow <;> decide⟩
  unfold LinkForm.strokes
  cases f.stroke <;> simp [List.mem_replicate]

theorem lineFeed_not_mem_form {f : LinkForm} (h : f.IsPlain) : '\n' ∉ f.toText := by
  unfold LinkForm.toText
  simp only [List.mem_append, not_or]
  refine ⟨lineFeed_not_mem_operator f, ?_⟩
  cases hp : present f.label with
  | none => simp
  | some label =>
    have hl := lineFeed_not_mem_labelText (h.label label (Option.filter_eq_some_iff.1 hp).1)
    simp only [List.mem_append, not_or]
    exact ⟨⟨by decide, hl⟩, by decide⟩

theorem lineFeed_not_mem_group {g : Group} (h : ∀ m ∈ g, m.IsPlain) : '\n' ∉ groupText g := by
  cases g with
  | nil => simp [groupText, join]
  | cons m ms =>
    rw [groupText_cons, List.mem_append, not_or]
    refine ⟨lineFeed_not_mem_mention (h m (by simp)), fun hmem => ?_⟩
    obtain ⟨n, hn, hmem⟩ := List.mem_flatMap.1 hmem
    rcases List.mem_append.1 hmem with hmem | hmem
    · exact absurd hmem (by decide)
    · exact lineFeed_not_mem_mention (h n (by simp [hn])) hmem

theorem lineFeed_not_mem_chain {c : Chain} (h : c.IsPlain) : '\n' ∉ c.toText := by
  rw [Chain.toText, List.mem_append, not_or]
  refine ⟨lineFeed_not_mem_group h.first.mention, fun hmem => ?_⟩
  obtain ⟨p, hp, hmem⟩ := List.mem_flatMap.1 hmem
  obtain ⟨hf, hg⟩ := h.links p hp
  rcases List.mem_cons.1 hmem with hmem | hmem
  · exact absurd hmem (by decide)
  rcases List.mem_append.1 hmem with hmem | hmem
  · exact lineFeed_not_mem_form hf hmem
  · rcases List.mem_cons.1 hmem with hmem | hmem
    · exact absurd hmem (by decide)
    · exact lineFeed_not_mem_group hg.mention hmem

theorem lineFeed_not_mem_tooltip {tooltip : Option Text} (h : ∀ t, tooltip = some t → '\n' ∉ t) :
    '\n' ∉ tooltipText tooltip := by
  cases tooltip with
  | none => simp [tooltipText]
  | some t =>
    rw [tooltipText, List.mem_cons, not_or]
    exact ⟨by decide, lineFeed_not_mem_quote (h t rfl)⟩

theorem lineFeed_not_mem_click {c : Click} (h : c.IsPlain) : '\n' ∉ c.toText := by
  cases c with
  | href node target tooltip linkTarget =>
    obtain ⟨hn, htarget, htip, hl⟩ := h
    have hctx : '\n' ∉ targetText (present linkTarget) := by
      cases hp : present linkTarget with
      | none => simp [targetText]
      | some t =>
        have ht := hl t (Option.filter_eq_some_iff.1 hp).1
        rw [targetText, List.mem_cons, not_or]
        refine ⟨by decide, ?_⟩
        simp only [linkTargets, List.mem_cons, List.not_mem_nil, or_false] at ht
        rcases ht with rfl | rfl | rfl | rfl | rfl <;> decide
    rw [toText_href]
    simp only [List.mem_append, List.mem_cons, not_or]
    exact ⟨by decide, by decide, lineFeed_not_mem_of_all (Scan.all_of_isName hn), by decide, by decide, by decide,
      lineFeed_not_mem_quote htarget, lineFeed_not_mem_tooltip htip, hctx⟩
  | callback node function args tooltip =>
    obtain ⟨hn, hf, ha, htip⟩ := h
    have hfun : '\n' ∉ function := by
      cases function with
      | nil => simp
      | cons c name =>
        simp only [isFunctionName, Bool.and_eq_true] at hf
        rw [List.mem_cons, not_or]
        refine ⟨?_, fun hmem => absurd (List.all_eq_true.1 hf.2 _ hmem) (by decide)⟩
        rintro rfl
        exact absurd hf.1 (by decide)
    have hargs : '\n' ∉ args.getD [] := by
      cases args with
      | none => simp
      | some t => exact (ha t rfl).2
    rw [toText_callback]
    simp only [List.mem_append, List.mem_cons, not_or]
    exact ⟨by decide, by decide, lineFeed_not_mem_of_all (Scan.all_of_isName hn), by decide, by decide, by decide,
      hfun, by decide, hargs, by decide, lineFeed_not_mem_tooltip htip⟩

/-- plain statements are written on one line -/
theorem lineFeed_not_mem_toText {s : Statement} (h : s.IsPlain) : '\n' ∉ s.toText := by
  cases s with
  | accessibility line =>
    cases line <;> exact fun hmem => (List.mem_append.1 hmem).elim (fun hm => absurd hm (by decide)) h.2
  | classDef names style =>
    obtain ⟨⟨name, rfl, hn⟩, hs⟩ := h
    rw [toText_classDef, join_singleton, trimRight_classDef hn hs]
    simp only [List.mem_append, not_or]
    refine ⟨by decide, lineFeed_not_mem_of_all (Scan.all_of_isName hn), ?_⟩
    split
    · simp
    · simpa using Style.not_mem_toText hs
  | assignClass ids name =>
    obtain ⟨⟨id, rfl, hid⟩, hne, hn⟩ := h
    rw [toText_assignClass]
    simp only [List.mem_append, List.mem_cons, not_or]
    exact ⟨by decide, by decide, lineFeed_not_mem_of_all (Scan.all_of_isName hid), by decide, lineFeed_not_mem_of_all hn⟩
  | style ids style =>
    obtain ⟨⟨id, rfl, hid⟩, hs⟩ := h
    rw [toText_style]
    simp only [List.mem_append, List.mem_cons, not_or]
    exact ⟨by decide, by decide, lineFeed_not_mem_of_all (Scan.all_of_isName hid), by decide, Style.not_mem_toText hs⟩
  | linkStyle keys style =>
    obtain ⟨⟨key, rfl, hk⟩, hs⟩ := h
    have hkey : '\n' ∉ key := by
      rcases hk with rfl | ⟨-, hk⟩
      · decide
      · exact fun hmem => absurd (List.all_eq_true.1 hk _ hmem) (by decide)
    rw [toText_linkStyle]
    simp only [List.mem_append, List.mem_cons, not_or]
    exact ⟨by decide, by decide, hkey, by decide, Style.not_mem_toText hs⟩
  | click c => exact lineFeed_not_mem_click h
  | direction d => exact (by cases d <;> decide : '\n' ∉ ("direction " : Text) ++ d.toText)
  | openSubgraph id title =>
    rw [toText_openSubgraph]
    simp only [List.mem_append, not_or]
    refine ⟨⟨by decide, lineFeed_not_mem_of_all h.2.1⟩, ?_⟩
    split
    · simp
    · simp only [List.mem_cons, List.mem_append, List.not_mem_nil, or_false, not_or]
      exact ⟨by decide, lineFeed_not_mem_labelText h.2.2, by decide⟩
  | closeSubgraph => exact (by decide : '\n' ∉ ("end" : Text))
  | chain c => exact lineFeed_not_mem_chain h

/-- **a plain statement that does not mislead is what its line holds**, whatever the margin -/
theorem isContent_toText {s : Statement} (h : s.IsPlain) (hm : ¬ s.Misleads) : SourceLine.IsContent s.toText := by
  refine .of_ends (startsWith_mono (fun c hc => ?_) (startsWith_toText h)) (endsWith_toText h hm)
    (lineFeed_not_mem_toText h)
  rw [isMark_of_isWord hc, Bool.true_and, decide_eq_true_eq]
  rintro rfl
  exact absurd hc (by decide)

end DiagramText.Flowchart

/-
Which messages read back. Only the arrow `-x` is made of what may stand in a name, so a reader that prefers the longest
source may take it, and part of the target, into the name: `a`, `-x`, `b-xc` is written `a-xb-xc` and read as a message
from `a-xb` to `c`. The argument has two halves. Where the mark and the target hold no `-x` with something after it,
nothing longer than the source leaves an arrow and a target (`afterSource?_eq_none`). Where they do, the source up to that
`-x` is a name, and what stands after it is read as a target (`exists_longer_message`). `message?_toText_iff` puts the
halves together, for every arrow; a message that is mistaken is read all the same, from a longer source
(`message?_of_isMistakable`).
-/
import DiagramText.Proofs.Sequence.Message

namespace DiagramText.Scan

variable {p : Char → Bool}

/-! ## The choice of a name -/

/-- a choice that stands is a continuation of the name, and the rest -/
theorem exists_of_longestTail {α : Type} {k : Text → Text → Option α} {t : Text} {x : α}
    (h : longestTail p k t = some x) : ∃ more rest, t = more ++ rest ∧ isNameTail p more = true ∧ k more rest = some x := by
  fun_induction longestTail p k t with
  | case1 k c r ih =>
    rw [orElse_eq_some_iff, Option.ite_none_right_eq_some] at h
    rcases h with ⟨hc, h⟩ | ⟨-, h⟩
    · obtain ⟨more, rest, rfl, hm, hk⟩ := ih h
      exact ⟨'-' :: c :: more, rest, rfl, by simp [isNameTail, startsWith, hc, hm], hk⟩
    · exact ⟨[], '-' :: c :: r, rfl, rfl, h⟩
  | case2 k c r _ ih =>
    rw [orElse_eq_some_iff, Option.ite_none_right_eq_some] at h
    rcases h with ⟨hc, h⟩ | ⟨-, h⟩
    · obtain ⟨more, rest, rfl, hm, hk⟩ := ih h
      exact ⟨c :: more, rest, rfl, by simp [isNameTail, hc, hm], hk⟩
    · exact ⟨[], c :: r, rfl, rfl, h⟩
  | case3 k => exact ⟨[], [], rfl, rfl, h⟩

/-- where no longer name stands, the shortest is chosen -/
theorem longestTail_eq_of_none {α : Type} {k : Text → Text → Option α} {t : Text}
    (h : ∀ more rest, t = more ++ rest → isNameTail p more = true → more ≠ [] → k more rest = none) :
    longestTail p k t = k [] t := by
  cases hl : longestTail p k t with
  | none =>
    cases hk : k [] t with
    | none => rfl
    | some x =>
      have hstands : (k [] t).isSome = true := by rw [hk]; rfl
      have hsome := Sequence.isSome_longestTail (p := p) hstands
      rw [hl] at hsome
      exact absurd hsome (by simp)
  | some x =>
    obtain ⟨more, rest, rfl, hm, hk⟩ := exists_of_longestTail hl
    cases more with
    | nil => exact hk.symm
    | cons c more => exact absurd (h (c :: more) rest rfl hm (by simp)) (by simp [hk])

end DiagramText.Scan

namespace DiagramText.Sequence

open DiagramText.Text

/-! ## What follows a source -/

theorem exists_of_afterSource? {source rest : Text} {m : Message} (h : afterSource? source rest = some m) :
    ∃ (arrow : Arrow) (r : Text), Scan.blanks rest = arrow.toText ++ r ∧ messageTail? source arrow r = some m := by
  obtain ⟨arrow, -, h⟩ := List.exists_of_findSome?_eq_some h
  obtain ⟨r, hr, hm⟩ := Option.bind_eq_some_iff.1 h
  exact ⟨arrow, r, dropPrefix?_eq_some_iff.1 hr, hm⟩

theorem source_of_messageTail? {source t : Text} {arrow : Arrow} {m : Message} (h : messageTail? source arrow t = some m) :
    m.source = source := by
  obtain ⟨⟨target, rest⟩, -, h⟩ := Option.bind_eq_some_iff.1 h
  dsimp only at h
  split at h
  · exact (Option.some.inj h) ▸ rfl
  · obtain ⟨text, -, rfl⟩ := Option.map_eq_some_iff.1 h
    rfl

theorem source_of_afterSource? {source rest : Text} {m : Message} (h : afterSource? source rest = some m) :
    m.source = source := by
  obtain ⟨arrow, r, -, hm⟩ := exists_of_afterSource? h
  exact source_of_messageTail? hm

/-- the text of a message is no target -/
theorem messageTail?_tailText (source t : Text) (arrow : Arrow) : messageTail? source arrow (tailText t) = none := by
  unfold tailText
  split <;> rfl

/-- no arrow begins with a character of a name -/
theorem startsWith_arrow (arrow : Arrow) (r : Text) : Scan.startsWith isActorChar (arrow.toText ++ r) = false := by
  cases arrow <;> rfl

theorem startsWith_arrow_hyphen (arrow : Arrow) (r : Text) :
    Scan.startsWith (fun c => c = '-' || c = '<') (arrow.toText ++ r) = true := by
  cases arrow <;> rfl

/-- one arrow has a character of a name after its first -/
theorem startsWith_tail_arrow {arrow : Arrow} (h : arrow ≠ .solidCross) (r : Text) :
    Scan.startsWith isActorChar (arrow.toText ++ r).tail = false := by
  cases arrow with
  | solidCross => exact absurd rfl h
  | _ => rfl

/-- an arrow that a part of a name leaves is the arrow `-x`, and stands in the name -/
theorem exists_eq_cross_append {part t r : Text} {arrow : Arrow} (hp : Scan.isNameTail isActorChar part = true)
    (h : Scan.blanks (part ++ tailText t) = arrow.toText ++ r) :
    ∃ after, part = '-' :: 'x' :: after ∧ r = after ++ tailText t := by
  cases part with
  | nil =>
    have hstart := startsWith_arrow_hyphen arrow r
    rw [← h, List.nil_append, tailText] at hstart
    split at hstart
    · exact absurd hstart (by decide)
    · rw [show Scan.blanks (": " ++ t) = ':' :: ' ' :: t from rfl] at hstart
      exact absurd hstart (by simp [Scan.startsWith])
  | cons c part =>
    rw [Scan.isNameTail, Bool.and_eq_true, Bool.or_eq_true] at hp
    obtain ⟨hc | hc, -⟩ := hp
    · have harrow := startsWith_arrow arrow r
      rw [← h, List.cons_append, Scan.blanks_of_startsWith (t := c :: _) (isMark_of_isActorChar hc)] at harrow
      exact absurd hc (by rw [show isActorChar c = false from harrow]; decide)
    · simp only [Bool.and_eq_true, decide_eq_true_eq] at hc
      obtain ⟨rfl, hstart⟩ := hc
      rw [List.cons_append, Scan.blanks_of_startsWith (t := '-' :: _) (by rfl)] at h
      by_cases harrow : arrow = .solidCross
      · subst harrow
        obtain ⟨c, part, rfl, hc⟩ := exists_cons_of_startsWith hstart
        obtain ⟨rfl, hr⟩ := List.cons.inj (List.cons.inj h).2
        exact ⟨part, rfl, hr.symm⟩
      · have htail := startsWith_tail_arrow harrow r
        rw [← h, List.tail_cons, startsWith_append _ hstart] at htail
        exact absurd htail (by decide)

/-! ## Messages with a second cross -/

/-- a message with another `-x` after its arrow, and something behind it -/
def Message.IsMistakable (m : Message) : Prop :=
  m.arrow = .solidCross ∧ m.activate = false ∧
    ∃ before after : Text, markText m ++ m.target = before ++ '-' :: 'x' :: after ∧ after ≠ []

/-- the mark of a deactivation and the target continue a name -/
theorem isNameTail_marked {m : Message} (h : m.IsSpelled) (ha : m.activate = false) :
    Scan.isNameTail isActorChar (markText m ++ m.target) = true := by
  have htarget := h.target
  rw [Scan.isName_eq isActorChar_hyphen, Bool.and_eq_true] at htarget
  unfold markText
  rw [ha]
  cases m.deactivate
  · exact htarget.2
  · change Scan.isNameTail isActorChar ('-' :: m.target) = true
    rw [Scan.isNameTail, htarget.1, htarget.2]
    rfl

/-- what continues a name is a target, perhaps after the mark of a deactivation -/
theorem exists_target {part : Text} (hp : Scan.isNameTail isActorChar part = true) (hne : part ≠ []) :
    ∃ (target : Text) (deactivate : Bool), Scan.isName isActorChar target = true ∧
      part = (if deactivate then ['-'] else []) ++ target := by
  cases part with
  | nil => exact absurd rfl hne
  | cons c part =>
    have htail := hp
    rw [Scan.isNameTail, Bool.and_eq_true, Bool.or_eq_true] at htail
    obtain ⟨hc | hc, htail⟩ := htail
    · refine ⟨c :: part, false, ?_, rfl⟩
      rw [Scan.isName_eq isActorChar_hyphen, hp, Bool.and_true]
      exact hc
    · simp only [Bool.and_eq_true, decide_eq_true_eq] at hc
      refine ⟨part, true, ?_, by rw [hc.1]; rfl⟩
      rw [Scan.isName_eq isActorChar_hyphen, hc.2, htail]
      rfl

/-! ## Nothing runs long -/

/-- a longer source than that of a message takes its arrow `-x` -/
theorem exists_eq_cross_of_longer {m : Message} {more rest : Text}
    (e : m.arrow.toText ++ (markText m ++ (m.target ++ tailText m.text)) = more ++ rest)
    (hmore : Scan.isNameTail isActorChar more = true) (hne : more ≠ []) :
    m.arrow = .solidCross ∧ ∃ before, more = '-' :: 'x' :: before ∧
      markText m ++ (m.target ++ tailText m.text) = before ++ rest := by
  have harrow : m.arrow = .solidCross := by
    by_contra harrow
    have hstops := stops_arrow harrow (markText m ++ (m.target ++ tailText m.text))
    rw [e] at hstops
    exact hne (Scan.eq_nil_of_stops hstops hmore)
  refine ⟨harrow, ?_⟩
  have hcut : '-' :: 'x' :: (markText m ++ (m.target ++ tailText m.text)) = more ++ rest := by
    rw [harrow] at e
    exact e
  cases more with
  | nil => exact absurd rfl hne
  | cons c more =>
    obtain ⟨rfl, hletter⟩ := List.cons.inj hcut
    -- no name ends in a hyphen, so the letter of the arrow is taken as well
    cases more with
    | nil => exact absurd hmore (by decide)
    | cons d before =>
      obtain ⟨rfl, hrest⟩ := List.cons.inj hletter
      exact ⟨before, rfl, hrest⟩

/-- a name that begins before the text of a message ends before it -/
theorem exists_part_of_isNameTail {u before rest t : Text} (hbefore : Scan.isNameTail isActorChar before = true)
    (e : u ++ tailText t = before ++ rest) : ∃ part, u = before ++ part ∧ rest = part ++ tailText t := by
  rcases List.append_eq_append_iff.1 e with ⟨extra, hextra, htext⟩ | ⟨part, hpart, hrest⟩
  · cases extra with
    | nil => exact ⟨[], by simp [hextra], by simpa using htext.symm⟩
    | cons c extra =>
      -- the text of a message is no part of a name
      have hc : c = ':' := by
        unfold tailText at htext
        split at htext
        · exact absurd htext (by simp)
        · exact (List.cons.inj htext).1.symm
      rw [hextra] at hbefore
      have hcolon := Scan.isNameTail_of_append_right hbefore
      rw [hc, Scan.isNameTail_cons_eq_false (by decide) (by decide)] at hcolon
      exact absurd hcolon (by decide)
  · exact ⟨part, hpart, hrest⟩

variable {m : Message} (h : m.IsSpelled)
include h

/-- a name that is longer than the source of a message leaves no arrow with a target -/
theorem afterSource?_eq_none (hm : ¬ m.IsMistakable) (source : Text) {more rest : Text}
    (e : m.arrow.toText ++ (markText m ++ (m.target ++ tailText m.text)) = more ++ rest)
    (hmore : Scan.isNameTail isActorChar more = true) (hne : more ≠ []) : afterSource? source rest = none := by
  obtain ⟨hcross, before, rfl, hcut⟩ := exists_eq_cross_of_longer e hmore hne
  have hbefore : Scan.isNameTail isActorChar before = true :=
    Scan.isNameTail_of_append_right (u := ['-', 'x']) hmore
  rw [Option.eq_none_iff_forall_not_mem]
  rintro m' hm'
  obtain ⟨arrow, r, hr, htail⟩ := exists_of_afterSource? hm'
  cases ha : m.activate with
  | true =>
    -- a name does not go on with the mark of an activation, and no arrow begins with it
    have hplus : markText m = ['+'] := by
      rw [markText, if_pos ha]
      rfl
    rw [hplus] at hcut
    cases before with
    | nil =>
      obtain rfl : '+' :: (m.target ++ tailText m.text) = rest := hcut
      rw [Scan.blanks_of_startsWith (t := '+' :: _) (by rfl)] at hr
      exact absurd (startsWith_arrow_hyphen arrow r) (by rw [← hr]; simp [Scan.startsWith])
    | cons c before =>
      obtain ⟨rfl, -⟩ := List.cons.inj hcut
      exact absurd hbefore (by rw [Scan.isNameTail_cons_eq_false (by decide) (by decide)]; decide)
  | false =>
    have hmarked := isNameTail_marked h ha
    -- what the longer source leaves begins inside the target
    rw [← List.append_assoc] at hcut
    obtain ⟨part, hpart, rfl⟩ := exists_part_of_isNameTail hbefore hcut
    rw [hpart] at hmarked
    obtain ⟨after, rfl, rfl⟩ := exists_eq_cross_append (Scan.isNameTail_of_append_right hmarked) hr
    refine hm ⟨hcross, ha, before, after, hpart, ?_⟩
    rintro rfl
    rw [List.nil_append, messageTail?_tailText] at htail
    exact absurd htail (by simp)

/-! ## Nothing stops short -/

/-- a message that can be mistaken is the text of another with a longer source -/
theorem exists_longer_message (hm : m.IsMistakable) : ∃ n : Message, n.IsSpelled ∧ n.toText = m.toText ∧
    ¬ (n.activate = true ∧ n.deactivate = true) ∧ m.source ++ ['-', 'x'] <+: n.source := by
  obtain ⟨hcross, ha, before, after, hmarked, hne⟩ := hm
  have htail := isNameTail_marked h ha
  rw [hmarked] at htail
  obtain ⟨target, deactivate, htarget, rfl⟩ :=
    exists_target (Scan.isNameTail_of_append_right (u := before ++ ['-', 'x']) (by simpa using htail)) hne
  have hbefore : Scan.isNameTail isActorChar ('-' :: 'x' :: before) = true := by
    rw [Scan.isNameTail, Scan.isNameTail, Scan.isNameTail_of_append_hyphen isActorChar_hyphen htail]
    rfl
  have hn : (⟨m.source ++ '-' :: 'x' :: before, target, m.text, .solidCross, false, deactivate⟩ : Message).IsSpelled :=
    ⟨Scan.isName_append isActorChar_hyphen h.source hbefore, htarget, h.lineFeed, h.trimmed⟩
  refine ⟨_, hn, ?_, by simp, before, by simp⟩
  rw [Message.toText_eq hn, Message.toText_eq h, hcross, ← List.append_assoc (markText m), hmarked]
  have hcrossText : Arrow.solidCross.toText = ['-', 'x'] := rfl
  cases deactivate <;> simp [markText, hcrossText]

/-- **a message that can be mistaken is mistaken**: it is read from a source that took the arrow in -/
theorem message?_of_isMistakable (hm : m.IsMistakable) :
    ∃ m', message? m.toText = some m' ∧ m.source ++ ['-', 'x'] <+: m'.source := by
  obtain ⟨n, hn, htext, hboth, hlonger⟩ := exists_longer_message h hm
  obtain ⟨shorter, hname⟩ := longestName_append isActorChar_hyphen hn.source
    (n.arrow.toText ++ (markText n ++ (n.target ++ tailText n.text))) afterSource?
  have hsome : (Scan.longestTail isActorChar (fun more => afterSource? (n.source ++ more))
      (n.arrow.toText ++ (markText n ++ (n.target ++ tailText n.text)))).isSome = true :=
    isSome_longestTail (by rw [List.append_nil, afterSource?_arrow hn hboth]; rfl)
  obtain ⟨m', hm'⟩ := Option.isSome_iff_exists.1 hsome
  obtain ⟨more, rest, -, -, hread⟩ := Scan.exists_of_longestTail hm'
  refine ⟨m', ?_, ?_⟩
  · rw [← htext, message?_eq, Message.toText_eq hn, hname, hm', Option.some_or]
  · rw [source_of_afterSource? hread]
    exact hlonger.trans (List.prefix_append _ _)

/-- **the messages that read back** -/
theorem message?_toText_iff (hboth : ¬ (m.activate = true ∧ m.deactivate = true)) :
    message? m.toText = some m ↔ ¬ m.IsMistakable := by
  constructor
  · intro hread hm
    obtain ⟨m', hm', hlonger⟩ := message?_of_isMistakable h hm
    obtain rfl : m = m' := Option.some.inj (hread.symm.trans hm')
    exact absurd hlonger.length_le (by simp)
  · intro hm
    obtain ⟨shorter, hname⟩ := longestName_append isActorChar_hyphen h.source
      (m.arrow.toText ++ (markText m ++ (m.target ++ tailText m.text))) afterSource?
    rw [message?_eq, Message.toText_eq h, hname,
      Scan.longestTail_eq_of_none fun more rest e hmore hne => afterSource?_eq_none h hm _ e hmore hne, List.append_nil,
      afterSource?_arrow h hboth, Option.some_or]

/-- hyphens of the source are told from the arrow, whatever it is: only a hyphen that follows the arrow could mislead -/
theorem message?_toText_of_not_mem (hd : m.deactivate = false) (ht : '-' ∉ m.target) : message? m.toText = some m := by
  refine (message?_toText_iff h (by simp [hd])).2 ?_
  rintro ⟨-, ha, before, after, hmarked, -⟩
  rw [markText, ha, hd] at hmarked
  exact ht (by simp [show m.target = _ from hmarked])

example : message? (Message.toText ⟨"a", "b-xc", [], .solidCross, false, false⟩) =
    some ⟨"a-xb", "c", [], .solidCross, false, false⟩ := by decide

end DiagramText.Sequence

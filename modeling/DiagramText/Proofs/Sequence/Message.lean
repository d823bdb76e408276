/-
Messages read back from their lines. Nothing but the grammar separates the source, the arrow, the mark and the target, so
the argument is about where each ends: an arrow other than `-x` cannot continue a name (`stops_arrow`), no arrow that is
tried earlier is found before a target (`dropPrefix?_earlier`), and a mark is no part of a name. `message?_toText` puts
them together. Where the arrow `-x` is taken into the name of the source, some message is read all the same
(`exists_message?_toText`).
-/
import DiagramText.Proofs.Text.Names
import DiagramText.Sequence.Line
import DiagramText.Sequence.Printer

namespace DiagramText.Sequence

open DiagramText.Text

/-- a text that stands on a line of its own, or at the end of one: trimmed, and without the semicolon that ends a line -/
structure IsLineText (t : Text) : Prop where
  lineFeed : '\n' ∉ t
  trimmed : trim t = t
  semicolon : ¬ endsWith (· = ';') t = true

theorem IsLineText.isTight {t : Text} (h : IsLineText t) (hn : t ≠ []) : IsTight t :=
  (trim_eq_self_iff.1 h.trimmed).resolve_left hn

theorem IsLineText.endsWith {t : Text} (h : IsLineText t) (hn : t ≠ []) : endsWith isLineEnd t = true :=
  endsWith_isLineEnd (h.isTight hn).last h.semicolon

/-- a message that can be written: the arrow `-x` could continue the name of its source -/
structure Message.IsPlain (m : Message) : Prop where
  source : Scan.isName isActorChar m.source = true
  target : Scan.isName isActorChar m.target = true
  text : IsLineText m.text
  arrow : m.arrow ≠ .solidCross
  mark : ¬ (m.activate = true ∧ m.deactivate = true)

/-- a message whose parts fit the grammar -/
structure Message.IsLegible (m : Message) : Prop where
  source : Scan.isName isActorChar m.source = true
  target : Scan.isName isActorChar m.target = true
  text : IsLineText m.text

theorem Message.IsPlain.isLegible {m : Message} (h : m.IsPlain) : m.IsLegible := ⟨h.source, h.target, h.text⟩

/-- a message whose names fit the grammar, with a trimmed text on one line -/
structure Message.IsSpelled (m : Message) : Prop where
  source : Scan.isName isActorChar m.source = true
  target : Scan.isName isActorChar m.target = true
  lineFeed : '\n' ∉ m.text
  trimmed : trim m.text = m.text

theorem Message.IsLegible.isSpelled {m : Message} (h : m.IsLegible) : m.IsSpelled :=
  ⟨h.source, h.target, h.text.lineFeed, h.text.trimmed⟩

/-! ## Actors -/

theorem isActorChar_hyphen : isActorChar '-' = false := by decide

theorem isMark_of_isActorChar {c : Char} (h : isActorChar c = true) : isMark c = true := by
  simp only [isActorChar, Bool.or_eq_true, decide_eq_true_eq] at h
  rcases h with ((h | rfl) | rfl) | rfl
  · exact isMark_of_isWord h
  all_goals decide

theorem startsWith_actor {id : Text} (h : Scan.isName isActorChar id = true) : Scan.startsWith isActorChar id = true := by
  rw [Scan.isName_eq isActorChar_hyphen, Bool.and_eq_true] at h
  exact h.1

theorem ne_nil_of_isName {id : Text} (h : Scan.isName isActorChar id = true) : id ≠ [] := by
  rintro rfl
  exact absurd h (by decide)

/-- actors are read up to what cannot continue their ids -/
theorem actorId?_append {id rest : Text} (h : Scan.isName isActorChar id = true) (hr : Scan.Stops isActorChar rest) :
    actorId? (id ++ rest) = some (id, rest) :=
  (Scan.name?_eq_some_iff isActorChar_hyphen).2 ⟨rfl, h, hr⟩

theorem actorId?_isName {id : Text} (h : Scan.isName isActorChar id = true) : actorId? id = some (id, []) := by
  simpa using actorId?_append h (Scan.stops_nil isActorChar)

theorem actorId?_colon {id : Text} (h : Scan.isName isActorChar id = true) (rest : Text) :
    actorId? (id ++ ':' :: rest) = some (id, ':' :: rest) :=
  actorId?_append h (Scan.stops_cons rest (by decide) (by decide))

/-! ## The longest name -/

/-- of all names at the beginning those that begin with a given one are tried first -/
theorem longestTail_append {α : Type} {p : Char → Bool} (hp : p '-' = false) (rest : Text) : (n : Text) →
    Scan.isNameTail p n = true → (k : Text → Text → Option α) →
      ∃ shorter, Scan.longestTail p k (n ++ rest) = (Scan.longestTail p (fun more => k (n ++ more)) rest).or shorter
  | [], _, k => ⟨none, by simp⟩
  | c :: n, h, k => by
    rw [Scan.isNameTail, Bool.and_eq_true] at h
    by_cases hc : c = '-'
    · subst hc
      cases n with
      | nil => simp [hp, Scan.startsWith] at h
      | cons d n =>
        have hd : p d = true := by simpa [hp, Scan.startsWith] using h.1
        have hn : Scan.isNameTail p n = true := by
          have h2 := h.2
          rw [Scan.isNameTail, Bool.and_eq_true] at h2
          exact h2.2
        obtain ⟨shorter, ih⟩ := longestTail_append hp rest n hn (fun more => k ('-' :: d :: more))
        refine ⟨shorter.or (k [] ('-' :: d :: (n ++ rest))), ?_⟩
        rw [List.cons_append, List.cons_append, Scan.longestTail, if_pos hd, ih, Option.orElse_eq_orElse, Option.orElse_eq_or,
          Option.or_assoc]
        rfl
    · have hpc : p c = true := by simpa [hc] using h.1
      obtain ⟨shorter, ih⟩ := longestTail_append hp rest n h.2 (fun more => k (c :: more))
      refine ⟨shorter.or (k [] (c :: (n ++ rest))), ?_⟩
      rw [List.cons_append, Scan.longestTail, if_pos hpc, ih, Option.orElse_eq_orElse, Option.orElse_eq_or, Option.or_assoc]
      · rfl
      · rintro d r rfl
        exact absurd rfl hc

theorem longestTail_of_stops {α : Type} {p : Char → Bool} (hp : p '-' = false) {rest : Text} (hr : Scan.Stops p rest)
    (k : Text → Text → Option α) : Scan.longestTail p k rest = k [] rest := by
  have hs := Scan.startsWith_false_of_stops hr
  unfold Scan.longestTail
  split
  · rename_i c r
    have hc : p c = false := by
      cases hc : p c with
      | false => rfl
      | true => simp [Scan.Stops, Scan.nameTail, hp, hc, Scan.startsWith] at hr
    simp [hc]
  · rename_i c r _
    have hc : p c = false := hs
    simp [hc]
  · rfl

theorem isSome_longestTail {α : Type} {p : Char → Bool} {k : Text → Text → Option α} {rest : Text}
    (h : (k [] rest).isSome = true) : (Scan.longestTail p k rest).isSome = true := by
  unfold Scan.longestTail
  split <;> simp [h]

theorem longestName_append {α : Type} {p : Char → Bool} (hp : p '-' = false) {name : Text}
    (hn : Scan.isName p name = true) (rest : Text) (k : Text → Text → Option α) : ∃ shorter,
      Scan.longestName p k (name ++ rest) = (Scan.longestTail p (fun more => k (name ++ more)) rest).or shorter := by
  rw [Scan.isName_eq hp, Bool.and_eq_true] at hn
  obtain ⟨c, n, rfl, hc⟩ := exists_cons_of_startsWith hn.1
  have htail : Scan.isNameTail p n = true := by
    have h := hn.2
    rw [Scan.isNameTail, Bool.and_eq_true] at h
    exact h.2
  rw [List.cons_append, Scan.longestName, if_pos hc]
  exact longestTail_append hp rest n htail fun more => k (c :: more)

/-! ## Arrows -/

/-- no arrow but `-x` continues a name -/
theorem stops_arrow {arrow : Arrow} (h : arrow ≠ .solidCross) (rest : Text) :
    Scan.Stops isActorChar (arrow.toText ++ rest) := by
  have hhyphen : ∀ c r, isActorChar c = false → Scan.Stops isActorChar ('-' :: c :: r) := by
    intro c r hc
    simp [Scan.Stops, Scan.nameTail, isActorChar_hyphen, Scan.startsWith, hc]
  cases arrow with
  | solidCross => exact absurd rfl h
  | dashedBoth | solidBoth => exact Scan.stops_cons _ (by decide) (by decide)
  | dashedFilled | dashedCross | dashedAsync | dashedOpen => exact hhyphen '-' _ (by decide)
  | solidFilled | solidOpen => exact hhyphen '>' _ (by decide)
  | solidAsync => exact hhyphen ')' _ (by decide)

/-- an arrow that is tried before another is not found there, or goes on with an angle bracket -/
theorem earlier_arrow {arrow earlier : Arrow} (h : earlier ∈ Arrow.all.takeWhile (· ≠ arrow)) :
    ¬ earlier.toText <+: arrow.toText ∧
      (arrow.toText <+: earlier.toText → earlier.toText = arrow.toText ++ ['>']) := by
  revert h
  cases arrow <;> cases earlier <;> decide

theorem dropPrefix?_earlier {arrow earlier : Arrow} (h : earlier ∈ Arrow.all.takeWhile (· ≠ arrow)) {t : Text}
    (ht : Scan.startsWith (· = '>') t = false) : dropPrefix? earlier.toText (arrow.toText ++ t) = none := by
  obtain ⟨h1, h2⟩ := earlier_arrow h
  cases hd : dropPrefix? earlier.toText (arrow.toText ++ t) with
  | none => rfl
  | some r =>
    rcases List.append_eq_append_iff.1 (dropPrefix?_eq_some_iff.1 hd) with ⟨m, e, et⟩ | ⟨m, e, -⟩
    · have hm := h2 ⟨m, e.symm⟩
      rw [e, List.append_cancel_left_eq] at hm
      rw [et, hm] at ht
      exact absurd ht (by simp [Scan.startsWith])
    · exact absurd ⟨m, e.symm⟩ h1

/-! ## Messages -/

/-- an arrow and a target after a source -/
def afterSource? (source rest : Text) : Option Message :=
  Arrow.all.findSome? fun arrow => (dropPrefix? arrow.toText (Scan.blanks rest)).bind (messageTail? source arrow)

theorem message?_eq (t : Text) : message? t = Scan.longestName isActorChar afterSource? t := rfl

/-- the mark before the target -/
def markText (m : Message) : Text := if m.activate then "+" else if m.deactivate then "-" else []

/-- what stands after the target -/
def tailText (t : Text) : Text := if t = [] then [] else ": " ++ t

theorem Message.toText_eq {m : Message} (h : m.IsSpelled) :
    m.toText = m.source ++ (m.arrow.toText ++ (markText m ++ (m.target ++ tailText m.text))) := by
  unfold Message.toText tailText markText
  rw [h.trimmed]
  cases hm : m.text with
  | nil => simp
  | cons c r => simp

variable {m : Message} (h : m.IsSpelled)
include h

/-- the mark and the target start with a mark or a character of a name -/
theorem startsWith_markText :
    Scan.startsWith (fun c => isActorChar c || c = '+' || c = '-') (markText m ++ (m.target ++ tailText m.text)) = true := by
  have htarget : Scan.startsWith (fun c => isActorChar c || c = '+' || c = '-') (m.target ++ tailText m.text) = true :=
    startsWith_append _ (startsWith_mono (fun c hc => by simp [hc]) (startsWith_actor h.target))
  unfold markText
  cases m.activate <;> cases m.deactivate <;> first | exact htarget | rfl

theorem mark_markText (hboth : ¬ (m.activate = true ∧ m.deactivate = true)) : mark (markText m ++ (m.target ++ tailText m.text))
    = ((m.activate, m.deactivate), m.target ++ tailText m.text) := by
  have hnone : mark (m.target ++ tailText m.text) = ((false, false), m.target ++ tailText m.text) := by
    obtain ⟨c, r, e, hc⟩ := exists_cons_of_startsWith (startsWith_actor h.target)
    rw [e, List.cons_append, mark]
    · rintro r' ⟨⟩
      exact absurd hc (by decide)
    · rintro r' ⟨⟩
      exact absurd hc (by decide)
  unfold markText
  cases ha : m.activate <;> cases hd : m.deactivate
  · exact hnone
  · rfl
  · rfl
  · exact absurd ⟨ha, hd⟩ hboth

theorem messageTail?_markText (hboth : ¬ (m.activate = true ∧ m.deactivate = true)) : messageTail? m.source m.arrow (markText m ++ (m.target ++ tailText m.text)) = some m := by
  have hmark : ∀ c, (isActorChar c || c = '+' || c = '-') = true → isMark c = true := by
    intro c hc
    simp only [Bool.or_eq_true, decide_eq_true_eq] at hc
    rcases hc with (hc | rfl) | rfl
    · exact isMark_of_isActorChar hc
    all_goals decide
  have hblanks : Scan.blanks (markText m ++ (m.target ++ tailText m.text)) = markText m ++ (m.target ++ tailText m.text) :=
    Scan.blanks_of_startsWith (startsWith_mono hmark (startsWith_markText h))
  have htarget : Scan.blanks (m.target ++ tailText m.text) = m.target ++ tailText m.text :=
    Scan.blanks_of_startsWith
      (startsWith_append _ (startsWith_mono (fun _ => isMark_of_isActorChar) (startsWith_actor h.target)))
  rw [messageTail?, hblanks, mark_markText h hboth]
  dsimp only
  rw [htarget]
  by_cases ht : m.text = []
  · have htail : tailText m.text = [] := by rw [tailText, if_pos ht]
    rw [htail, List.append_nil, actorId?_isName h.target, Option.bind_some]
    dsimp only
    rw [if_pos rfl, ← ht]
  · have htail : tailText m.text = ':' :: ' ' :: m.text := by rw [tailText, if_neg ht]; rfl
    have hcolon : Scan.afterColon? (':' :: ' ' :: m.text) = some m.text := by
      have hb : Scan.blanks (':' :: ' ' :: m.text) = ':' :: ' ' :: m.text := Scan.blanks_of_startsWith rfl
      rw [Scan.afterColon?, hb]
      change some (Scan.blanks (' ' :: m.text)) = some m.text
      rw [Scan.blanks_space, Scan.blanks_of_startsWith ((trim_eq_self_iff.1 h.trimmed).resolve_left ht).first]
    rw [htail, actorId?_colon h.target, Option.bind_some]
    dsimp only
    rw [if_neg (by simp), hcolon, Option.map_some, h.trimmed]

theorem afterSource?_arrow (hboth : ¬ (m.activate = true ∧ m.deactivate = true)) :
    afterSource? m.source (m.arrow.toText ++ (markText m ++ (m.target ++ tailText m.text))) = some m := by
  have hstart := startsWith_markText h
  have hangle : Scan.startsWith (· = '>') (markText m ++ (m.target ++ tailText m.text)) = false := by
    obtain ⟨c, r, e, hc⟩ := exists_cons_of_startsWith hstart
    rw [e]
    refine decide_eq_false ?_
    rintro rfl
    exact absurd hc (by decide)
  have hblanks : Scan.blanks (m.arrow.toText ++ (markText m ++ (m.target ++ tailText m.text)))
      = m.arrow.toText ++ (markText m ++ (m.target ++ tailText m.text)) := by
    refine Scan.blanks_of_startsWith (startsWith_append _ ?_)
    cases m.arrow <;> rfl
  rw [afterSource?, hblanks]
  refine findSome?_eq_some_of_takeWhile (x := m.arrow) (by cases m.arrow <;> decide) (fun earlier he => ?_) ?_
  · rw [dropPrefix?_earlier he hangle]
    rfl
  · rw [dropPrefix?_eq_some_iff.2 rfl, Option.bind_some]
    exact messageTail?_markText h hboth

omit h in
/-- **messages read back** -/
theorem message?_toText (h : m.IsPlain) : message? m.toText = some m := by
  have hm := h.isLegible.isSpelled
  obtain ⟨shorter, hname⟩ := longestName_append isActorChar_hyphen h.source
    (m.arrow.toText ++ (markText m ++ (m.target ++ tailText m.text))) afterSource?
  rw [message?_eq, Message.toText_eq hm, hname, longestTail_of_stops isActorChar_hyphen (stops_arrow h.arrow _),
    List.append_nil, afterSource?_arrow hm h.mark, Option.some_or]

/-- **some message is read**, whatever the arrow and the marks -/
theorem exists_message?_toText : ∃ m', message? m.toText = some m' := by
  -- with two marks the deactivation is not written
  obtain ⟨n, hn, htext, hboth⟩ : ∃ n : Message, n.IsSpelled ∧ n.toText = m.toText ∧
      ¬ (n.activate = true ∧ n.deactivate = true) := by
    refine ⟨{ m with deactivate := !m.activate && m.deactivate }, ⟨h.source, h.target, h.lineFeed, h.trimmed⟩, ?_, ?_⟩
    · unfold Message.toText
      cases m.activate <;> simp
    · cases m.activate <;> simp
  obtain ⟨shorter, hname⟩ := longestName_append isActorChar_hyphen hn.source
    (n.arrow.toText ++ (markText n ++ (n.target ++ tailText n.text))) afterSource?
  have hsome : (Scan.longestTail isActorChar (fun more => afterSource? (n.source ++ more))
      (n.arrow.toText ++ (markText n ++ (n.target ++ tailText n.text)))).isSome = true :=
    isSome_longestTail (by rw [List.append_nil, afterSource?_arrow hn hboth]; rfl)
  rw [← htext, message?_eq, Message.toText_eq hn, hname, ← Option.isSome_iff_exists, Option.isSome_or, hsome, Bool.true_or]

end DiagramText.Sequence

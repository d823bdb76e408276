/-
Which dialect a text shows. A dialect opens a text exactly when the first word of the first line, which white space or a
semicolon ends, is one of its keywords, letter case apart (`opens_iff`). No word is a keyword of two dialects, so at most
one dialect opens a text, and detection finds it in whichever order it tries them (`detect_eq_some_iff`, `find?_opens`).
Canonical texts show their dialect (`detect_render`), and every diagram has one but a flowchart with a link style that
cannot be printed (`exists_detect_render_iff`). Most readers take a semicolon from the end of a line before they look at
it, which detection does not: they take the same line for the header (`read_of_opens`).
-/
import DiagramText.Proofs.Flowchart.LinkStyles
import DiagramText.Proofs.LineNumbers.Diagram

namespace DiagramText

open DiagramText.Text

/-! ## The first word of a line -/

/-- ends the first word of a line -/
def endsWord (c : Char) : Bool := isBlank c || c = ';'

/-- the first word of a line -/
def firstWord (line : Text) : Text := line.takeWhile fun c => !endsWord c

theorem foldCase_of_isBlank {c : Char} (h : isBlank c = true) : foldCase c = c := by
  have h := mem_of_inRanges h
  rw [← Char.ofNat_toNat c]
  generalize c.toNat = n at h
  revert n h
  decide +kernel

/-- no letter ends a word, whatever its case -/
theorem foldCase_of_endsWord {c : Char} (h : endsWord c = true) : foldCase c = c := by
  rw [endsWord, Bool.or_eq_true, decide_eq_true_eq] at h
  rcases h with h | rfl
  · exact foldCase_of_isBlank h
  · decide

/-- what may follow a keyword ends it -/
theorem endsKeyword_iff {rest : Text} (h : '\n' ∉ rest) :
    endsKeyword rest = true ↔ rest = [] ∨ Scan.startsWith endsWord rest = true := by
  cases rest with
  | nil => simp [endsKeyword]
  | cons c r =>
    have hc : c ≠ '\n' := fun e => h (by simp [e])
    simp [endsKeyword, Scan.startsWith, endsWord, hc]

theorem firstWord_append (line : Text) {rest : Text} (hr : rest = [] ∨ Scan.startsWith endsWord rest = true) :
    firstWord (line ++ rest) = firstWord line := by
  rcases hr with rfl | hr
  · rw [List.append_nil]
  · obtain ⟨c, r, rfl, hc⟩ := exists_cons_of_startsWith hr
    rw [firstWord, List.takeWhile_append]
    split
    · rename_i hall
      rw [List.takeWhile_cons_of_neg (by simp [hc]), List.append_nil, firstWord,
        (List.takeWhile_prefix _).eq_of_length hall]
    · rfl

theorem firstWord_of_forall {word : Text} (h : ∀ c ∈ word, endsWord c = false) : firstWord word = word :=
  List.takeWhile_eq_self_iff.2 fun c hc => by rw [h c hc]; rfl

/-- a line is its first word, and what ends it -/
theorem exists_eq_firstWord_append (line : Text) :
    ∃ rest, line = firstWord line ++ rest ∧ (rest = [] ∨ Scan.startsWith endsWord rest = true) := by
  refine ⟨line.dropWhile fun c => !endsWord c, List.takeWhile_append_dropWhile.symm, ?_⟩
  cases hrest : line.dropWhile fun c => !endsWord c with
  | nil => exact .inl rfl
  | cons c r =>
    have hc := List.head_dropWhile_not (fun c => !endsWord c) (w := by rw [hrest]; simp)
    simp only [hrest, List.head_cons, Bool.not_eq_false'] at hc
    exact .inr hc

/-! ## Keywords -/

namespace Dialect

variable {d d' : Dialect} {t line : Text}

theorem mem_all (d : Dialect) : d ∈ all := by cases d <;> decide

/-- no word is a keyword of two dialects -/
theorem eq_of_keyword {k k' : Text} (hk : k ∈ d.keywords) (hk' : k' ∈ d'.keywords) (h : k.map foldCase = k'.map foldCase) :
    d = d' := by
  have hkeywords : ∀ d ∈ all, ∀ d' ∈ all, ∀ k ∈ d.keywords, ∀ k' ∈ d'.keywords,
      k.map foldCase = k'.map foldCase → d = d' := by
    decide +kernel
  exact hkeywords d d.mem_all d' d'.mem_all k hk k' hk' h

/-- nothing in a keyword ends a word -/
theorem endsWord_of_keyword {word k : Text} (hk : k ∈ d.keywords) (h : word.map foldCase = k.map foldCase) :
    ∀ c ∈ word, endsWord c = false := by
  have hkeywords : ∀ d ∈ all, ∀ k ∈ d.keywords, (k.map foldCase).all (fun c => !endsWord c) = true := by decide +kernel
  intro c hc
  cases hend : endsWord c with
  | false => rfl
  | true =>
    have hmem : c ∈ k.map foldCase := by
      rw [← h, ← foldCase_of_endsWord hend]
      exact List.mem_map_of_mem hc
    have hkept := List.all_eq_true.1 (hkeywords d d.mem_all k hk) c hmem
    rw [hend] at hkept
    exact absurd hkept (by decide)

/-- **headers**: the first word is a keyword, letter case apart -/
theorem isSome_header?_iff (hline : '\n' ∉ line) :
    (d.header? line).isSome = true ↔ ∃ k ∈ d.keywords, (firstWord line).map foldCase = k.map foldCase := by
  constructor
  · intro h
    obtain ⟨rest, hrest⟩ := Option.isSome_iff_exists.1 h
    obtain ⟨k, hk, hrest⟩ := List.exists_of_findSome?_eq_some hrest
    obtain ⟨r, hr, hrest⟩ := Option.bind_eq_some_iff.1 hrest
    obtain ⟨hend, -⟩ := Option.ite_none_right_eq_some.1 hrest
    obtain ⟨word, rfl, hword⟩ := dropFolded?_eq_some hr
    have hends := (endsKeyword_iff fun hm => hline (List.mem_append_right _ hm)).1 hend
    exact ⟨k, hk, by rw [firstWord_append word hends, firstWord_of_forall (endsWord_of_keyword hk hword), hword]⟩
  · rintro ⟨k, hk, hword⟩
    obtain ⟨rest, e, hrest⟩ := exists_eq_firstWord_append line
    have hlf : '\n' ∉ rest := fun hm => hline (e ▸ List.mem_append_right _ hm)
    have hdrop : dropKeyword? k line = some rest := by
      rw [e]
      exact dropFolded?_append hword rest
    rw [header?, List.findSome?_isSome_iff]
    refine ⟨k, hk, ?_⟩
    rw [hdrop, Option.bind_some, if_pos ((endsKeyword_iff hlf).2 hrest), line?_of_not_mem hlf]
    rfl

theorem header?_eq_of_firstWord {line' : Text} (hline : '\n' ∉ line) (hline' : '\n' ∉ line')
    (h : firstWord line = firstWord line') : (d.header? line).isSome = (d.header? line').isSome := by
  rw [Bool.eq_iff_iff, isSome_header?_iff hline, isSome_header?_iff hline', h]

end Dialect

/-! ## Detection -/

theorem lineFeed_not_mem_firstLine (t : Text) : '\n' ∉ firstLine t := by
  unfold firstLine
  split
  · simp
  · rename_i l ls hlines
    have hl : l ∈ sourceLines false t := hlines ▸ List.mem_cons_self
    exact (isTight_of_mem_sourceLines hl).2

namespace Dialect

variable {d d' : Dialect} {t : Text}

/-- **opening a text** -/
theorem opens_iff : d.opens t = true ↔ ∃ k ∈ d.keywords, (firstWord (firstLine t)).map foldCase = k.map foldCase :=
  isSome_header?_iff (lineFeed_not_mem_firstLine t)

/-- at most one dialect opens a text -/
theorem eq_of_opens (h : d.opens t = true) (h' : d'.opens t = true) : d = d' := by
  obtain ⟨k, hk, hword⟩ := opens_iff.1 h
  obtain ⟨k', hk', hword'⟩ := opens_iff.1 h'
  exact eq_of_keyword hk hk' (hword.symm.trans hword')

end Dialect

/-- in a table of all dialects the one that opens a text is found, whatever their order -/
theorem find?_opens_eq_some_iff {table : List Dialect} (htable : ∀ d, d ∈ table) {t : Text} {d : Dialect} :
    table.find? (fun d => d.opens t) = some d ↔ d.opens t = true := by
  constructor
  · intro h
    exact List.find?_some (p := fun d : Dialect => d.opens t) h
  · intro h
    have hsome : (table.find? fun d => d.opens t).isSome = true := List.find?_isSome.2 ⟨d, htable d, h⟩
    obtain ⟨d', hd'⟩ := Option.isSome_iff_exists.1 hsome
    have h' : d'.opens t = true := List.find?_some (p := fun d : Dialect => d.opens t) hd'
    rw [hd', Dialect.eq_of_opens h h']

/-- **detection finds the dialect that opens the text** -/
theorem detect_eq_some_iff {t : Text} {d : Dialect} : detect t = some d ↔ d.opens t = true :=
  find?_opens_eq_some_iff Dialect.mem_all

theorem detect_eq_none_iff {t : Text} : detect t = none ↔ ∀ d : Dialect, d.opens t = false := by
  rw [detect, List.find?_eq_none]
  exact ⟨fun h d => Bool.eq_false_iff.2 (h d d.mem_all), fun h d _ => Bool.eq_false_iff.1 (h d)⟩

/-- **the order does not count** in which the dialects are tried -/
theorem find?_opens {table : List Dialect} (htable : ∀ d, d ∈ table) (t : Text) :
    table.find? (fun d => d.opens t) = detect t :=
  Option.ext fun _ => (find?_opens_eq_some_iff htable).trans detect_eq_some_iff.symm

/-! ## Canonical texts -/

/-- a line that is read as it stands, as a header of the dialect -/
structure IsHeaderLine (d : Dialect) (line : Text) : Prop where
  lineFeed : '\n' ∉ line
  content : SourceLine.ofRaw? false 1 line = some ⟨1, 1, line, []⟩
  header : (d.header? line).isSome = true

theorem isHeaderLine_iff {d : Dialect} {line : Text} : IsHeaderLine d line ↔ '\n' ∉ line ∧
    SourceLine.ofRaw? false 1 line = some ⟨1, 1, line, []⟩ ∧ (d.header? line).isSome = true :=
  ⟨fun h => ⟨h.lineFeed, h.content, h.header⟩, fun h => ⟨h.1, h.2.1, h.2.2⟩⟩

instance (d : Dialect) (line : Text) : Decidable (IsHeaderLine d line) := decidable_of_iff _ isHeaderLine_iff.symm

theorem IsHeaderLine.firstLine_ofLines {d : Dialect} {line : Text} (h : IsHeaderLine d line) (ls : List Text) :
    firstLine (ofLines (line :: ls)) = line := by
  cases ls with
  | nil =>
    have hsplit : splitOn '\n' (ofLines [line]) = [line] := splitOn_ofLines (by simp) (by simpa using h.lineFeed)
    rw [firstLine, sourceLines, hsplit, SourceLine.ofRaws, h.content]
  | cons m ls =>
    have hlines : ofLines (line :: m :: ls) = line ++ '\n' :: ofLines (m :: ls) := by
      rw [ofLines, join_cons_cons, List.append_assoc]
      rfl
    rw [firstLine, hlines, sourceLines_below h.lineFeed h.content]

theorem Dialect.isHeaderLine_canonicalKeyword (d : Dialect) : IsHeaderLine d d.canonicalKeyword := by
  cases d <;> decide +kernel

namespace Diagram

variable {o : RenderOptions} {t : Text}

theorem isHeaderLine_headerLine (x : Diagram) : IsHeaderLine x.dialect x.headerLine := by
  cases x with
  | flowchart c =>
    have h : ∀ dir : Direction, IsHeaderLine .flowchart ("flowchart " ++ dir.toText) := by
      intro dir
      cases dir <;> decide +kernel
    exact h c.direction
  | pie c =>
    have h : ∀ b : Bool, IsHeaderLine .pie (if b then "pie showData" else "pie") := by decide +kernel
    exact h c.showData
  | xychart c =>
    have h : ∀ b : Bool, IsHeaderLine .xychart (if b then "xychart-beta horizontal" else "xychart-beta") := by decide +kernel
    exact h c.isHorizontal
  | _ => exact Dialect.isHeaderLine_canonicalKeyword _

/-- **canonical texts show their dialect** -/
theorem detect_render {x : Diagram} (h : x.render o = .ok t) : detect t = some x.dialect := by
  obtain ⟨ls, rfl⟩ := exists_render_eq h
  have hline := isHeaderLine_headerLine x
  rw [detect_eq_some_iff, Dialect.opens, hline.firstLine_ofLines]
  exact hline.header

/-- a flowchart alone may have no canonical text -/
theorem exists_render_iff {x : Diagram} : (∃ t, x.render o = .ok t) ↔
    ∀ c : Flowchart, x = .flowchart c → ∀ key ∈ c.linkStyles.keys, Flowchart.IsPrintableKey key := by
  cases x with
  | flowchart c => simpa [render] using Flowchart.exists_render_iff c o
  | _ => simp [render]

/-- **the diagrams whose canonical text shows their dialect**: all of them, but for link styles that cannot be printed -/
theorem exists_detect_render_iff {x : Diagram} : (∃ t, x.render o = .ok t ∧ detect t = some x.dialect) ↔
    ∀ c : Flowchart, x = .flowchart c → ∀ key ∈ c.linkStyles.keys, Flowchart.IsPrintableKey key := by
  rw [← exists_render_iff (o := o)]
  exact exists_congr fun t => and_iff_left_of_imp detect_render

end Diagram

/-! ## Headers of readers -/

namespace SourceLine

/-- the line without a semicolon at its end, where one is taken away -/
def terminated (strip : Bool) (l : SourceLine) : SourceLine := { l with text := unterminated strip l.text }

/-- the line without a semicolon at its end, unless nothing else stands on it -/
def terminated? (strip : Bool) (l : SourceLine) : Option SourceLine :=
  if (l.terminated strip).text = [] then none else some (l.terminated strip)

/-- a semicolon is taken away from a line that is meaningful with it -/
theorem ofRaw?_strip (strip : Bool) (n : Nat) (raw : Text) :
    ofRaw? strip n raw = (ofRaw? false n raw).bind (terminated? strip) := by
  have hofRaw : ∀ strip, ofRaw? strip n raw =
      if (dropPrefix? "%%" (trim (dropRightWhile (· = '\r') raw))).isSome = true ∨
          unterminated strip (trim (dropRightWhile (· = '\r') raw)) = [] then none
      else some (terminated strip ⟨n, ((dropRightWhile (· = '\r') raw).takeWhile isBlank).length + 1,
        trim (dropRightWhile (· = '\r') raw), (dropRightWhile (· = '\r') raw).takeWhile isBlank⟩) := fun _ => rfl
  rw [hofRaw strip, hofRaw false]
  generalize trim (dropRightWhile (· = '\r') raw) = t
  have hfalse : unterminated false t = t := rfl
  rw [hfalse]
  by_cases hcomment : (dropPrefix? "%%" t).isSome = true
  · rw [if_pos (.inl hcomment), if_pos (.inl hcomment), Option.bind_none]
  · by_cases ht : t = []
    · have hnil : unterminated strip t = [] := by
        rw [ht]
        cases strip <;> rfl
      rw [if_pos (.inr hnil), if_pos (.inr ht), Option.bind_none]
    · have hkept : ¬ ((dropPrefix? "%%" t).isSome = true ∨ t = []) := not_or.2 ⟨hcomment, ht⟩
      rw [if_neg hkept, Option.bind_some]
      exact if_congr (or_iff_right hcomment) rfl rfl

theorem ofRaws_strip (strip : Bool) (n : Nat) (raws : List Text) :
    ofRaws strip n raws = (ofRaws false n raws).filterMap (terminated? strip) := by
  induction raws generalizing n with
  | nil => rfl
  | cons raw raws ih =>
    rw [ofRaws, ofRaws, ih, ofRaw?_strip]
    cases ofRaw? false n raw with
    | none => rfl
    | some l =>
      rw [Option.bind_some, List.filterMap_cons]
      cases terminated? strip l <;> rfl

end SourceLine

theorem firstWord_unterminated (strip : Bool) (t : Text) : firstWord (SourceLine.unterminated strip t) = firstWord t := by
  rw [SourceLine.unterminated]
  split
  · rename_i hlast
    rw [Bool.and_eq_true, beq_iff_eq] at hlast
    obtain ⟨b, hb, hblank⟩ := exists_trimRight_append t.dropLast
    have ht : t = trimRight t.dropLast ++ (b ++ [';']) := by
      rw [← List.append_assoc, hb, List.dropLast_append_getLast? ';' hlast.2]
    have hend : Scan.startsWith endsWord (b ++ [';']) = true := by
      cases b with
      | nil => rfl
      | cons c b =>
        have hc : isBlank c = true := List.all_eq_true.1 hblank c List.mem_cons_self
        simp [Scan.startsWith, endsWord, hc]
    rw [ht, firstWord_append _ (.inr hend), ← ht]
  · rfl

namespace Dialect

variable {d : Dialect} {t : Text}

theorem ne_nil_of_header? {line rest : Text} (h : d.header? line = some rest) : line ≠ [] := by
  rintro rfl
  have hnone : d.header? [] = none := by cases d <;> rfl
  exact absurd (hnone.symm.trans h) nofun

/-- **the line that shows the dialect is the header**: a reader takes it, a semicolon at its end apart, and reads the lines
below it -/
theorem read_of_opens (hd : d ≠ .pie) (h : d.opens t = true) : ∃ first others rest body,
    sourceLines false t = first :: others ∧
      sourceLines (d.lineReader hd).strip t = first.terminated (d.lineReader hd).strip :: body ∧
      splitHeader d (sourceLines (d.lineReader hd).strip t) = (some (first.terminated (d.lineReader hd).strip, rest), body) ∧
      d.read t = (d.lineReader hd).run (some (first.terminated (d.lineReader hd).strip, rest)) body := by
  rw [opens] at h
  cases hlines : sourceLines false t with
  | nil =>
    rw [firstLine, hlines] at h
    obtain ⟨rest, hrest⟩ := Option.isSome_iff_exists.1 h
    exact absurd rfl (ne_nil_of_header? hrest)
  | cons first others =>
    have hlf := lineFeed_not_mem_firstLine t
    rw [firstLine, hlines] at h hlf
    generalize hstrip : (d.lineReader hd).strip = strip
    have hlf' : '\n' ∉ (first.terminated strip).text := fun hm =>
      hlf ((SourceLine.unterminated_isPrefix strip first.text).subset hm)
    rw [header?_eq_of_firstWord hlf hlf' (firstWord_unterminated strip first.text).symm] at h
    obtain ⟨rest, hrest⟩ := Option.isSome_iff_exists.1 h
    have hfirst : first.terminated? strip = some (first.terminated strip) := if_neg (ne_nil_of_header? hrest)
    have hstripped : sourceLines strip t = first.terminated strip :: others.filterMap (SourceLine.terminated? strip) := by
      rw [sourceLines, SourceLine.ofRaws_strip, ← sourceLines, hlines, List.filterMap_cons, hfirst]
    have hsplit : splitHeader d (sourceLines strip t)
        = (some (first.terminated strip, rest), others.filterMap (SourceLine.terminated? strip)) := by
      rw [hstripped, splitHeader, hrest]
    refine ⟨first, others, rest, _, rfl, hstripped, hsplit, ?_⟩
    rw [(d.lineReader hd).read_eq, hstrip, hsplit]

end Dialect

end DiagramText

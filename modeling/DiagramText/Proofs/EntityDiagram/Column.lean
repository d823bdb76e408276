/-
Columns read back. Keys may stand on either side of the comment, and are written before it: `read_toText` holds of every
column whose type and name are words, and `isPlain_of_read` finds that every column that was read has them.
-/
import DiagramText.EntityDiagram.Line
import DiagramText.EntityDiagram.Printer
import DiagramText.Proofs.Reading
import DiagramText.Proofs.Text.Scan
import DiagramText.Proofs.Text.Statement
import DiagramText.Proofs.Text.Words

namespace DiagramText.EntityDiagram

open DiagramText.Text

/-- a column that can be written: its line is no comment, and does not end with a semicolon -/
structure Column.IsPlain (c : Column) : Prop where
  type : IsWordOf isBlank c.type
  name : IsWordOf isBlank c.name
  comment : ∀ t, c.comment = some t → IsQuotable t
  start : dropPrefix? "%%" c.type = none
  semicolon : ¬ endsWith (· = ';') c.name = true

/-! ## Words and keys -/

theorem all_of_isWordOf {w : Text} (h : IsWordOf isBlank w) : w.all (fun c => !isBlank c) = true :=
  List.all_eq_true.2 fun c hc => by simp [h.all c hc]

theorem startsWith_of_isWordOf {w : Text} (h : IsWordOf isBlank w) (rest : Text) : Scan.startsWith isMark (w ++ rest) = true :=
  startsWith_append rest (startsWith_of_all h.ne_nil (all_of_isWordOf h))

/-- the keys of a column as they are written -/
def keysText (ks : List Key) : Text := join ", " (ks.map Key.toText)

/-- keys and comment of a column as they are written -/
def detailsText (ks : List Key) (comment : Option Text) : Text :=
  (if ks = [] then [] else ' ' :: keysText ks) ++ (comment.map fun t => ' ' :: quote t).getD []

theorem Column.toText_eq (c : Column) : c.toText = c.type ++ ' ' :: (c.name ++ detailsText c.keys c.comment) := by
  have hspace : (" " : Text) = [' '] := rfl
  unfold Column.toText
  dsimp only
  rw [← keysText, detailsText, hspace]
  cases c.comment <;> split <;> simp [join_cons_cons]

theorem ofText?_toText (k : Key) : Key.ofText? k.toText = some k := by cases k <;> rfl

/-- keys are read back, whatever white space follows them -/
theorem keyList_keysText (ks : List Key) {b : Text} (hb : b.all isBlank = true) : keyList (keysText ks ++ b) = .ok ks := by
  have hwords : Text.words (fun c => isBlank c || c = ',') (keysText ks ++ b) = ks.map Key.toText := by
    refine words_join_append (by decide) (by decide) ?_ ?_
    · refine List.all_eq_true.2 fun c hc => ?_
      rw [List.all_eq_true.1 hb c hc]
      rfl
    · intro w hw
      obtain ⟨k, -, rfl⟩ := List.mem_map.1 hw
      have hall : k.toText.all (fun c => !(isBlank c || c = ',')) = true := by cases k <;> decide
      exact ⟨by cases k <;> decide, fun c hc => (Bool.not_eq_true' _).mp (List.all_eq_true.1 hall c hc)⟩
  rw [keyList, hwords]
  clear hwords
  induction ks with
  | nil => rfl
  | cons k ks ih =>
    rw [List.map_cons, List.mapM_cons, ih, ofText?_toText]
    rfl

theorem keysText_subset (ks : List Key) : keysText ks ⊆ ("PFUK, " : Text) := by
  intro c hc
  rcases mem_of_mem_join hc with hc | ⟨t, ht, hc⟩
  · exact (by decide : (", " : Text) ⊆ "PFUK, ") hc
  · obtain ⟨k, -, rfl⟩ := List.mem_map.1 ht
    have hkey : k.toText ⊆ ("PFUK, " : Text) := by cases k <;> decide
    exact hkey hc

theorem startsWith_keysText {ks : List Key} (h : ks ≠ []) (rest : Text) : Scan.startsWith isMark (keysText ks ++ rest) = true := by
  refine startsWith_append rest (startsWith_join (by simpa using h) fun t ht => ?_)
  obtain ⟨k, -, rfl⟩ := List.mem_map.1 ht
  cases k <;> rfl

theorem endsWith_keysText {ks : List Key} (h : ks ≠ []) : endsWith isLineEnd (keysText ks) = true := by
  refine endsWith_join (by simpa using h) fun t ht => ?_
  obtain ⟨k, -, rfl⟩ := List.mem_map.1 ht
  cases k <;> rfl

/-! ## Columns -/

/-- the first text in quotes is the comment -/
theorem firstQuoted_append {before : Text} (hb : '"' ∉ before) {comment : Option Text}
    (h : ∀ t, comment = some t → IsQuotable t) : firstQuoted (before ++ (comment.map quote).getD []) = (comment, before) := by
  cases comment with
  | none =>
    rw [Option.map_none, Option.getD_none, List.append_nil, firstQuoted, span_of_not_mem hb]
    rfl
  | some t =>
    have hspan : Text.span (· ≠ '"') (before ++ quote t) = (before, quote t) := by
      rw [quote_eq]
      exact span_append_cons hb
    have hquoted := quoted?_quote t []
    rw [List.append_nil] at hquoted
    rw [Option.map_some, Option.getD_some, firstQuoted, hspan]
    dsimp only
    rw [hquoted]
    dsimp only
    rw [unquote_quote_eq_self (h t rfl).2, List.append_nil]

/-- what follows the name of a column: keys, white space and a comment -/
theorem exists_blanks_detailsText (ks : List Key) (comment : Option Text) :
    ∃ b : Text, b.all isBlank = true ∧
      Scan.blanks (detailsText ks comment) = (keysText ks ++ b) ++ (comment.map quote).getD [] := by
  unfold detailsText
  split
  · rename_i e
    subst e
    refine ⟨[], rfl, ?_⟩
    cases comment with
    | none => rfl
    | some t =>
      change Scan.blanks (' ' :: quote t) = quote t
      have hstart := startsWith_quote t []
      rw [List.append_nil] at hstart
      rw [Scan.blanks_space, Scan.blanks_of_startsWith hstart]
  · rename_i hne
    have hblanks : ∀ rest, Scan.blanks (' ' :: keysText ks ++ rest) = keysText ks ++ rest := fun rest => by
      rw [List.cons_append, Scan.blanks_space, Scan.blanks_of_startsWith (startsWith_keysText hne rest)]
    cases comment with
    | none => exact ⟨[], rfl, by simpa using hblanks []⟩
    | some t => exact ⟨[' '], rfl, by simpa using hblanks (' ' :: quote t)⟩

theorem startsWith_detailsText (ks : List Key) (comment : Option Text) :
    Scan.startsWith (fun c => !isBlank c) (detailsText ks comment) = false := by
  unfold detailsText
  split
  · cases comment <;> rfl
  · rfl

namespace Column

variable {c : Column} (h : c.IsPlain)

section

include h

/-- **columns read back** -/
theorem read_toText : Column.read c.toText = .ok c := by
  have htype : Text.span (fun x => !isBlank x) (c.type ++ ' ' :: (c.name ++ detailsText c.keys c.comment))
      = (c.type, ' ' :: (c.name ++ detailsText c.keys c.comment)) := span_of_all (all_of_isWordOf h.type) rfl
  have hblanks : Scan.blanks (' ' :: (c.name ++ detailsText c.keys c.comment)) = c.name ++ detailsText c.keys c.comment := by
    rw [Scan.blanks_space, Scan.blanks_of_startsWith (startsWith_of_isWordOf h.name _)]
  have hname : Text.span (fun x => !isBlank x) (c.name ++ detailsText c.keys c.comment)
      = (c.name, detailsText c.keys c.comment) := span_of_all (all_of_isWordOf h.name) (startsWith_detailsText _ _)
  obtain ⟨b, hb, hdetails⟩ := exists_blanks_detailsText c.keys c.comment
  have hquote : '"' ∉ keysText c.keys ++ b := by
    rw [List.mem_append, not_or]
    exact ⟨fun hm => absurd (keysText_subset c.keys hm) (by decide), fun hm => absurd (List.all_eq_true.1 hb _ hm) (by decide)⟩
  rw [c.toText_eq, Column.read]
  simp only [htype, hblanks, hname, hdetails, firstQuoted_append hquote h.comment, keyList_keysText c.keys hb]
  rw [if_neg (by simp [h.type.ne_nil, h.name.ne_nil])]
  rfl

theorem endsWith_toText : endsWith isLineEnd c.toText = true := by
  have hname : endsWith isLineEnd c.name = true :=
    endsWith_isLineEnd (endsWith_of_all h.name.ne_nil (all_of_isWordOf h.name)) h.semicolon
  rw [c.toText_eq]
  refine endsWith_append _ (endsWith_cons ' ' ?_)
  unfold detailsText
  cases c.comment with
  | some t => exact endsWith_append _ (endsWith_append _ (endsWith_cons ' ' (endsWith_quote t)))
  | none =>
    rw [Option.map_none, Option.getD_none, List.append_nil]
    split
    · rwa [List.append_nil]
    · rename_i hne
      exact endsWith_append _ (endsWith_cons ' ' (endsWith_keysText hne))

theorem lineFeed_not_mem_toText : '\n' ∉ c.toText := by
  have hword : ∀ {w}, IsWordOf isBlank w → '\n' ∉ w := fun hw hm => absurd (hw.all _ hm) (by decide)
  have hkeys : '\n' ∉ keysText c.keys := fun hm => absurd (keysText_subset c.keys hm) (by decide)
  have hdetails : '\n' ∉ detailsText c.keys c.comment := by
    have hcomment := h.comment
    unfold detailsText
    cases hc : c.comment with
    | none => split <;> simp [hkeys]
    | some t => split <;> simp [hkeys, (hcomment t hc).lineFeed]
  rw [c.toText_eq]
  simp [hword h.type, hword h.name, hdetails]

/-- what is printed on the line of a column is what the line holds -/
theorem isContent_toText : SourceLine.IsContent c.toText where
  tight := ⟨c.toText_eq ▸ startsWith_of_isWordOf h.type _, endsWith_mono (fun c hc => (Bool.and_eq_true_iff.1 hc).1) (endsWith_toText h)⟩
  lineFeed := lineFeed_not_mem_toText h
  semicolon := endsWith_mono (fun c hc => (Bool.and_eq_true_iff.1 hc).2) (endsWith_toText h)
  comment := by
    rw [Option.eq_none_iff_forall_ne_some, c.toText_eq]
    intro r hr
    obtain ⟨n, hn, -⟩ := Scan.dropPrefix?_name (p := isMark) (by decide) rfl hr
    exact absurd (h.start.symm.trans (dropPrefix?_eq_some_iff.2 hn)) (by simp)

end

/-- the line of a column is not the end of the block -/
theorem toText_ne_close (c : Column) : c.toText ≠ "\x7d" := by
  intro e
  have hspace : ' ' ∈ c.toText := by
    rw [c.toText_eq]
    simp
  rw [e] at hspace
  exact absurd hspace (by decide)

/-- a comment that was read can stand in quotes -/
theorem isQuotable_of_firstQuoted {t u : Text} (hl : '\n' ∉ t) (hs : ';' ∉ t) (h : (firstQuoted t).1 = some u) : IsQuotable u := by
  unfold firstQuoted at h
  dsimp only at h
  split at h
  · rename_i token after hquoted
    obtain rfl := Option.some.inj h
    have hsub : token ⊆ t := fun x hx => (span_subset _ t).2 ((Scan.quoted?_subset hquoted).1 hx)
    have hnot : ∀ {x}, x ≠ '"' → x ∉ t → x ∉ unquote token := fun hx hm hu =>
      (mem_of_mem_unquote hu).elim hx fun ht => hm (hsub ht)
    exact isQuotable_of_not_mem (hnot (by decide) hl) (hnot (by decide) hs)
  · exact absurd h (by simp)

/-- **every column that was read can be written** -/
theorem isPlain_of_read {t : Text} (hline : SourceLine.IsContent t) (hs : ';' ∉ t) (hread : Column.read t = .ok c) : c.IsPlain := by
  unfold Column.read at hread
  dsimp only at hread
  rcases htype : Text.span (fun x => !isBlank x) t with ⟨type, rest⟩
  rw [htype] at hread
  dsimp only at hread
  rcases hname : Text.span (fun x => !isBlank x) (Scan.blanks rest) with ⟨name, details⟩
  rw [hname] at hread
  dsimp only at hread
  split at hread
  · exact absurd hread (by simp)
  · rename_i hne
    rw [not_or] at hne
    obtain ⟨ks, -, rfl⟩ := exceptMap_eq_ok_iff.1 hread
    have happ := span_append (fun x => !isBlank x) t
    rw [htype] at happ
    have hword : ∀ {u run rest : Text}, Text.span (fun x => !isBlank x) u = (run, rest) → run ≠ [] → IsWordOf isBlank run :=
      fun hspan hrun => ⟨hrun, fun x hx => by simpa using List.all_eq_true.1 (all_of_span_eq hspan) x hx⟩
    have hafter : Scan.blanks rest ⊆ t := fun x hx => (span_eq_subset htype).2 (Scan.blanks_subset rest hx)
    have hname' := span_eq_subset hname
    have hdetails : Scan.blanks details ⊆ t := fun x hx => hafter (hname'.2 (Scan.blanks_subset details hx))
    exact {
      type := hword htype hne.1
      name := hword hname hne.2
      comment := fun u hu => isQuotable_of_firstQuoted (fun hm => hline.lineFeed (hdetails hm)) (fun hm => hs (hdetails hm)) hu
      start := by
        rw [Option.eq_none_iff_forall_ne_some]
        intro r hr
        have hcomment : dropPrefix? "%%" t = some (r ++ rest) := by
          rw [dropPrefix?_eq_some_iff, ← happ, ← List.append_assoc, ← dropPrefix?_eq_some_iff.1 hr]
        exact absurd (hline.comment.symm.trans hcomment) (by simp)
      semicolon := fun he => by
        obtain ⟨r, x, e, hx⟩ := exists_concat_of_endsWith he
        have e : name = r ++ [x] := e
        have hmem : x ∈ name := e ▸ List.mem_append_right r (List.mem_singleton_self x)
        exact hs (of_decide_eq_true hx ▸ hafter (hname'.1 hmem)) }

end Column

end DiagramText.EntityDiagram

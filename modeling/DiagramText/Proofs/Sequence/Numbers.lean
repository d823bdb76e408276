/-
Numbers with too many digits. A line of a sequence diagram is refused at its place, but for a numbering with a number of more
than 4300 digits: that one fails as a number and names no line (`malformed_or_long_number`). It is the only way in which the
reading of a text of a known dialect fails without a place.
-/
import DiagramText.Proofs.Number.Integer
import DiagramText.Proofs.Reading
import DiagramText.Proofs.Sequence.Line
import DiagramText.Sequence.Reader

namespace DiagramText.Sequence

open DiagramText.Text

variable {t : Text} {e : ReadError} {start step : Option Text}

/-! ## The numbers of a line -/

theorem isDigits_of_digits? {s r : Text} (h : digits? t = some (s, r)) : IsDigits s := by
  obtain ⟨u, -, hrun⟩ := Option.bind_eq_some_iff.1 h
  rw [Scan.run?] at hrun
  split at hrun
  · cases hrun
  · rename_i c run rest hspan
    rw [Option.some.injEq, Prod.mk.injEq] at hrun
    rw [← hrun.1]
    exact ⟨List.cons_ne_nil c run, all_of_span_eq hspan⟩

/-- the numbers of a numbering are of digits -/
theorem isDigits_of_autonumber? (h : autonumber? t = some (start, step)) : ∀ n ∈ start.toList ++ step.toList, IsDigits n := by
  obtain ⟨r, -, h⟩ := Option.bind_eq_some_iff.1 h
  split at h
  · rw [Option.ite_none_right_eq_some, Option.some.injEq, Prod.mk.injEq] at h
    rw [← h.2.1, ← h.2.2]
    exact fun n hn => absurd hn List.not_mem_nil
  · rename_i s rest hs
    have hstart := isDigits_of_digits? hs
    split at h
    · rw [Option.ite_none_right_eq_some, Option.some.injEq, Prod.mk.injEq] at h
      rw [← h.2.1, ← h.2.2]
      intro n hn
      rw [List.mem_singleton.1 hn]
      exact hstart
    · rename_i u rest' hu
      rw [Option.ite_none_right_eq_some, Option.some.injEq, Prod.mk.injEq] at h
      rw [← h.2.1, ← h.2.2]
      intro n hn
      rcases List.mem_pair.1 hn with rfl | rfl
      · exact hstart
      · exact isDigits_of_digits? hu

/-- the numbers that a line sets for messages -/
def Line.numbers : Line → List Text
  | .autonumber start step => start.toList ++ step.toList
  | _ => []

/-- the numbers that a text sets for messages when it is a line -/
def numbersOf (t : Text) : List Text := ((Line.read? t).map Line.numbers).getD []

theorem autonumber?_of_read? (h : Line.read? t = some (.autonumber start step)) : autonumber? t = some (start, step) := by
  simp only [Line.read?, Scan.orElse_eq_some_iff, Option.map_eq_some_iff, Option.bind_eq_some_iff, Option.ite_none_right_eq_some,
    reduceCtorEq, and_false, exists_false, false_or, Option.some.injEq, Line.autonumber.injEq] at h
  obtain ⟨-, -, -, -, -, -, -, -, -, ⟨x, hx, rfl, rfl⟩ | h⟩ := h
  · exact hx
  · exact absurd h not_false

theorem isDigits_of_mem_numbersOf {n : Text} (h : n ∈ numbersOf t) : IsDigits n := by
  rw [numbersOf] at h
  cases hline : Line.read? t with
  | none =>
    rw [hline] at h
    exact absurd h List.not_mem_nil
  | some line =>
    rw [hline] at h
    change n ∈ line.numbers at h
    cases line with
    | autonumber start step => exact isDigits_of_autonumber? (autonumber?_of_read? hline) n h
    | _ => exact absurd h List.not_mem_nil

/-! ## Reading -/

/-- the error is at a place, or one of these numbers has too many digits -/
def Explains (numbers : List Text) (e : ReadError) : Prop :=
  (∃ p, e = .malformed p) ∨ ∃ n ∈ numbers, 4300 < n.length ∧ e = .integer (.tooLong n.length)

theorem Explains.mono {numbers numbers' : List Text} (h : Explains numbers e) (hsub : numbers ⊆ numbers') : Explains numbers' e := by
  rcases h with h | ⟨n, hn, hlength⟩
  · exact Or.inl h
  · exact Or.inr ⟨n, hsub hn, hlength⟩

namespace Progress

theorem mapM_number (n : Text) : (some n).mapM number = (number n).map some := by
  change (number n).bind (fun k => .ok (some k)) = _
  cases number n <;> rfl

/-- a number fails only with too many digits -/
theorem explains_of_mapM_number {n : Option Text} (hn : ∀ t ∈ n.toList, IsDigits t) (h : n.mapM number = .error e) :
    Explains n.toList e := by
  cases n with
  | none => exact absurd h nofun
  | some t =>
    obtain ⟨hne, hdigits⟩ := hn t List.mem_cons_self
    rw [mapM_number, number, Integer.read_of_all hne hdigits] at h
    split at h
    · rename_i hlength
      exact Or.inr ⟨t, List.mem_cons_self, hlength, (Except.error.inj h).symm⟩
    · exact absurd h nofun

theorem explains_of_apply {l : SourceLine} {p : Progress} {line : Line} (hline : ∀ n ∈ line.numbers, IsDigits n)
    (h : p.apply l line = .error e) : Explains line.numbers e := by
  cases line with
  | openBox label color =>
    rw [apply] at h
    split at h
    · exact absurd h nofun
    · exact Or.inl ⟨_, (Except.error.inj h).symm⟩
  | note n => exact Or.inl (malformed_of_mapError h)
  | divide keyword label => exact Or.inl (malformed_of_mapError h)
  | close => exact Or.inl (malformed_of_mapError h)
  | autonumber start step =>
    rw [apply] at h
    cases hx : start.mapM number with
    | error e' =>
      rw [hx] at h
      obtain rfl : e' = e := Except.error.inj h
      have hstart := explains_of_mapM_number (fun n hn => hline n (List.mem_append_left _ hn)) hx
      exact hstart.mono (List.subset_append_left _ _)
    | ok first =>
      cases hy : step.mapM number with
      | error e' =>
        rw [hx, hy] at h
        obtain rfl : e' = e := Except.error.inj h
        have hstep := explains_of_mapM_number (fun n hn => hline n (List.mem_append_right _ hn)) hy
        exact hstep.mono (List.subset_append_right _ _)
      | ok second =>
        rw [hx, hy] at h
        exact absurd h nofun
  | _ => exact absurd h nofun

/-- **a line is refused at its place, or for a number with too many digits** -/
theorem explains_of_readLine {l : SourceLine} {p : Progress} (h : p.readLine l = .error e) : Explains (numbersOf l.text) e := by
  rw [readLine] at h
  split at h
  · exact absurd h nofun
  · split at h
    · split at h
      · exact absurd h nofun
      · exact Or.inl ⟨_, (Except.error.inj h).symm⟩
    · split at h
      · rename_i line hline
        have hnumbers : numbersOf l.text = line.numbers := by
          rw [numbersOf, hline]
          rfl
        rw [hnumbers]
        exact explains_of_apply (fun n hn => isDigits_of_mem_numbersOf (hnumbers ▸ hn)) h
      · exact Or.inl ⟨_, (Except.error.inj h).symm⟩

theorem explains_of_foldlM {ls : List SourceLine} {p : Progress} (h : ls.foldlM readLine p = .error e) :
    Explains (ls.flatMap (numbersOf ·.text)) e := by
  obtain ⟨l, hl, q, hq⟩ := exists_error_of_foldlM h
  exact (explains_of_readLine hq).mono fun n hn => List.mem_flatMap.2 ⟨l, hl, hn⟩

end Progress

/-- **a text is refused at a place of it, or for a number with too many digits** -/
theorem malformed_or_long_number (h : read t = .error e) :
    (∃ p, e = .malformed p) ∨
      ∃ l ∈ sourceLines true t, ∃ n ∈ numbersOf l.text, 4300 < n.length ∧ e = .integer (.tooLong n.length) := by
  have hbody := body_subset .sequence (sourceLines true t)
  rw [read] at h
  generalize splitHeader .sequence (sourceLines true t) = x at h hbody
  obtain ⟨header, body⟩ := x
  have hexplains : Explains (body.flatMap (numbersOf ·.text)) e := by
    change Except.bind (body.foldlM Progress.readLine ⟨{}, [], none⟩) _ = _ at h
    cases hp : body.foldlM Progress.readLine ⟨{}, [], none⟩ with
    | error e' =>
      rw [hp] at h
      obtain rfl : e' = e := Except.error.inj h
      exact Progress.explains_of_foldlM hp
    | ok p =>
      rw [hp] at h
      exact Or.inl (malformed_of_mapError h)
  rcases hexplains with hplace | ⟨n, hn, hlength⟩
  · exact Or.inl hplace
  · obtain ⟨l, hl, hnl⟩ := List.mem_flatMap.1 hn
    exact Or.inr ⟨l, hbody hl, n, hnl, hlength⟩

theorem isPlain_autonumber {n : Text} (hn : IsDigits n) : Line.IsPlain (.autonumber (some n) none) :=
  ⟨fun _ hs => Option.some.inj hs ▸ hn, nofun⟩

/-- a numbering alone -/
theorem sourceLines_autonumber {n : Text} (hn : IsDigits n) :
    ∃ l, sourceLines true ("autonumber " ++ n) = [l] ∧ l.text = "autonumber " ++ n ∧
      l.text = Line.toText (.autonumber (some n) none) := by
  have htext : ("autonumber " ++ n : Text) = Line.toText (.autonumber (some n) none) := by
    change _ = (("autonumber" : Text) ++ ' ' :: n) ++ []
    rw [List.append_nil]
    rfl
  have hline := isContent_toText (isPlain_autonumber hn)
  have hcontent : SourceLine.content? true (Line.toText (.autonumber (some n) none)) = some (Line.toText (.autonumber (some n) none)) :=
    SourceLine.content?_margin true (rfl : ([] : Text).all isBlank = true) hline
  have hmap : (sourceLines true ("autonumber " ++ n)).map SourceLine.text = [Line.toText (.autonumber (some n) none)] := by
    rw [sourceLines, SourceLine.map_text_ofRaws, htext, splitOn_of_not_mem hline.lineFeed, List.filterMap_cons, hcontent]
    rfl
  obtain ⟨l, hl, ht⟩ := List.map_eq_singleton_iff.1 hmap
  exact ⟨l, hl, ht.trans htext.symm, ht⟩

/-- **a number with too many digits has no place**, though it is all of the text -/
theorem read_long_number {n : Text} (hn : IsDigits n) (h : 4300 < n.length) :
    read ("autonumber " ++ n) = .error (.integer (.tooLong n.length)) := by
  obtain ⟨l, hl, ht, hline⟩ := sourceLines_autonumber hn
  have hheader : splitHeader .sequence [l] = (none, [l]) := by
    have hnone : Dialect.sequence.header? l.text = none := by
      rw [ht]
      rfl
    rw [splitHeader, hnone]
  obtain ⟨hactor, hread⟩ := read?_toText (isPlain_autonumber hn) fun a ha => by cases ha
  have hnumber : Progress.number n = .error (.integer (.tooLong n.length)) := by
    rw [Progress.number, Integer.read_of_all hn.1 hn.2, if_pos h]
    rfl
  have hstep : Progress.readLine ⟨{}, [], none⟩ l = .error (.integer (.tooLong n.length)) := by
    rw [Progress.readLine, hline, hactor]
    dsimp only
    rw [hread]
    change Except.bind ((some n).mapM Progress.number) _ = _
    rw [Progress.mapM_number, hnumber]
    rfl
  rw [read, hl, hheader]
  dsimp only
  rw [List.foldlM_cons, hstep]
  rfl

end DiagramText.Sequence

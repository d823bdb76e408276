/-
The blocks of a sequence diagram as brackets. Which lines open or close is said by their texts alone; that the order in
which a reader tries its rules does not matter is `read?_eq_openBlock_iff` and its like. A box is an aside: its `end` closes
no block.
-/
import DiagramText.Proofs.Nesting.Brackets
import DiagramText.Proofs.Sequence.Numbers

namespace DiagramText.Sequence

open DiagramText.Text

/-- a block is opened by its keyword, perhaps with a label, and closed by `end`; so is a box -/
def nesting : Nesting where
  bracket l :=
    if l.text = "end" then .closes
    else
      match opening? l.text with
      | some (o, _) => .opens o.keyword
      | none => .neither
  opensAside l := ((dropPrefix? "box" l.text).bind Scan.optionalRest?).isSome
  closesAside l := l.text = "end"

variable {t label : Text} {o : Opening} {line : Line} {l : SourceLine}

/-! ## Rules in order -/

theorem exists_of_opening? (h : opening? t = some (o, label)) : ∃ u, t = o.keyword ++ u := by
  obtain ⟨o', -, h⟩ := List.exists_of_findSome?_eq_some h
  obtain ⟨label', hlabel, he⟩ := Option.map_eq_some_iff.1 h
  obtain ⟨rfl, -⟩ := Prod.mk.inj he
  obtain ⟨r, hr, -⟩ := Option.map_eq_some_iff.1 hlabel
  obtain ⟨u, hu, -⟩ := Option.bind_eq_some_iff.1 hr
  exact ⟨u, dropPrefix?_eq_some_iff.1 hu⟩

/-- no other rule claims the line that opens a block -/
theorem read?_eq_openBlock_iff : Line.read? t = some (.openBlock o label) ↔ opening? t = some (o, label) := by
  constructor
  · intro h
    simp only [Line.read?, Scan.orElse_eq_some_iff, Option.map_eq_some_iff, Option.bind_eq_some_iff,
      Option.ite_none_right_eq_some, reduceCtorEq, and_false, exists_false, false_or, or_false, Option.some.injEq,
      Line.openBlock.injEq] at h
    obtain ⟨-, -, -, -, x, hx, rfl, rfl⟩ := h
    exact hx
  · intro h
    obtain ⟨u, rfl⟩ := exists_of_opening? h
    have hrules : Accessibility.line? (o.keyword ++ u) = none ∧ title? (o.keyword ++ u) = none ∧
        dropPrefix? "box" (o.keyword ++ u) = none ∧ note? (o.keyword ++ u) = none := by
      rcases o with (_ | _ | _ | _) | (_ | _ | _) <;> exact ⟨rfl, rfl, rfl, rfl⟩
    obtain ⟨hacc, htitle, hbox, hnote⟩ := hrules
    rw [Line.read?, hacc, htitle, hbox, hnote, h]
    rfl

theorem read?_eq_close_iff : Line.read? t = some .close ↔ t = "end" := by
  constructor
  · intro h
    simp only [Line.read?, Scan.orElse_eq_some_iff, Option.map_eq_some_iff, Option.bind_eq_some_iff,
      Option.ite_none_right_eq_some, Option.some.injEq, reduceCtorEq, and_false, exists_false, false_or, or_false,
      and_true] at h
    exact h.2.2.2.2.2.2
  · rintro rfl
    rfl

/-- no other rule claims the line that opens a box -/
theorem isSome_box_iff :
    ((dropPrefix? "box" t).bind Scan.optionalRest?).isSome ↔ ∃ label color, Line.read? t = some (.openBox label color) := by
  constructor
  · intro h
    obtain ⟨r, hr⟩ := Option.isSome_iff_exists.1 h
    obtain ⟨u, hu, -⟩ := Option.bind_eq_some_iff.1 hr
    obtain rfl := dropPrefix?_eq_some_iff.1 hu
    have hacc : Accessibility.line? ("box" ++ u) = none := rfl
    have htitle : title? ("box" ++ u) = none := rfl
    rw [Line.read?, hacc, htitle, hr]
    exact ⟨_, _, rfl⟩
  · rintro ⟨label, color, h⟩
    simp only [Line.read?, Scan.orElse_eq_some_iff, Option.map_eq_some_iff, Option.bind_eq_some_iff,
      Option.ite_none_right_eq_some, Option.some.injEq, reduceCtorEq, and_false, exists_false, false_or, or_false] at h
    obtain ⟨-, -, r, ⟨u, hu, hr⟩, -⟩ := h
    rw [hu, Option.bind_some, hr]
    rfl

theorem skips_of_rules (hend : l.text ≠ "end") (hopening : opening? l.text = none) (hbox : dropPrefix? "box" l.text = none) :
    nesting.Skips l := by
  constructor
  · simp only [nesting, hend, if_false, hopening]
  · simp only [nesting, hbox, Option.bind_none, Option.isSome_none]

/-- a declaration of an actor opens and closes nothing -/
theorem skips_of_actor? {a : Actor} (h : actor? l.text = some a) : nesting.Skips l ∧ l.text ≠ "end" := by
  obtain ⟨kind, -, h⟩ := List.exists_of_findSome?_eq_some h
  obtain ⟨r, hr, -⟩ := Option.bind_eq_some_iff.1 h
  obtain ⟨u, hu, -⟩ := Option.bind_eq_some_iff.1 hr
  have htext : l.text = kind.keyword ++ u := dropPrefix?_eq_some_iff.1 hu
  have hend : l.text ≠ "end" := by
    rw [htext]
    cases kind <;> exact fun e => absurd (List.cons.inj e).1 (by decide)
  have hopening : opening? l.text = none := by
    rw [htext]
    cases kind <;> rfl
  have hbox : dropPrefix? "box" l.text = none := by
    rw [htext]
    cases kind <;> rfl
  exact ⟨skips_of_rules hend hopening hbox, hend⟩

/-- the header opens and closes nothing -/
theorem skips_of_header? (h : (Dialect.sequence.header? l.text).isSome) : nesting.Skips l := by
  have hend : l.text ≠ "end" := fun e => not_prefix_of_header? (w := "end") (by decide) h (e ▸ List.prefix_rfl)
  have hopening : opening? l.text = none := by
    rw [Option.eq_none_iff_forall_ne_some]
    rintro ⟨o, label⟩ ho
    obtain ⟨u, hu⟩ := exists_of_opening? ho
    have hdiffers : ∀ k ∈ Dialect.sequence.keywords, Text.differ k o.keyword = true := by
      rcases o with (_ | _ | _ | _) | (_ | _ | _) <;> decide
    exact not_prefix_of_header? hdiffers h (hu ▸ List.prefix_append _ u)
  have hbox : dropPrefix? "box" l.text = none := dropPrefix?_eq_none_iff.2 (not_prefix_of_header? (by decide) h)
  exact skips_of_rules hend hopening hbox

/-- the bracket that a line is by what it says -/
def Line.bracket : Line → Bracket Text
  | .openBlock o _ => .opens o.keyword
  | .close => .closes
  | _ => .neither

/-- whether a line opens a box by what it says -/
def Line.opensBox : Line → Bool
  | .openBox _ _ => true
  | _ => false

theorem bracket_of_read? (h : Line.read? l.text = some line) : nesting.bracket l = line.bracket := by
  by_cases hend : l.text = "end"
  · have hline : line = .close := Option.some.inj (h.symm.trans (read?_eq_close_iff.2 hend))
    simp only [nesting, hend, if_true, hline, Line.bracket]
  · cases ho : opening? l.text with
    | some p =>
      have hline : line = .openBlock p.1 p.2 := Option.some.inj (h.symm.trans (read?_eq_openBlock_iff.2 ho))
      simp only [nesting, hend, if_false, ho, hline, Line.bracket]
    | none =>
      simp only [nesting, hend, if_false, ho]
      cases line with
      | openBlock o label => exact absurd ((read?_eq_openBlock_iff.1 h).symm.trans ho) nofun
      | close => exact absurd (read?_eq_close_iff.1 h) hend
      | _ => rfl

theorem opensAside_of_read? (h : Line.read? l.text = some line) : nesting.opensAside l = line.opensBox := by
  rw [Bool.eq_iff_iff, nesting, isSome_box_iff, h]
  cases line <;> simp [Line.opensBox]

/-! ## Reading -/

namespace Progress

variable {p q : Progress}

/-- the lines that opened the open blocks, with the keywords of these -/
def openers (p : Progress) : List (SourceLine × Text) := p.frames.map fun f => (f.openedAt, f.opening.keyword)

theorem openers_emit (s : Statement) (p : Progress) : (p.emit s).openers = p.openers := by
  unfold emit
  split
  · rfl
  · rename_i hf
    simp only [openers, hf, List.map_cons]

theorem box_emit (s : Statement) (p : Progress) : (p.emit s).box = p.box := by
  unfold emit
  split <;> rfl

theorem foldl_ensureActor (ids : List Text) (p : Progress) :
    (ids.foldl (fun p id => p.ensureActor id) p).openers = p.openers ∧ (ids.foldl (fun p id => p.ensureActor id) p).box = p.box := by
  induction ids generalizing p with
  | nil => exact ⟨rfl, rfl⟩
  | cons id ids ih => exact ih (p.ensureActor id)

/-- what a line that is not in a box does to what is open -/
theorem openers_apply (hbox : p.box = none) (h : p.apply l line = .ok q) :
    (line.bracket.map (l, ·)).step p.openers = some q.openers ∧ q.box.isSome = line.opensBox := by
  cases line with
  | actor a =>
    obtain rfl := Except.ok.inj h
    exact ⟨rfl, by rw [declare, hbox]; rfl⟩
  | accessibility line =>
    obtain rfl := Except.ok.inj h
    exact ⟨rfl, by rw [hbox]; rfl⟩
  | title t =>
    obtain rfl := Except.ok.inj h
    exact ⟨rfl, by rw [hbox]; rfl⟩
  | openBox label color =>
    simp only [apply] at h
    split at h
    · obtain rfl := Except.ok.inj h
      exact ⟨rfl, rfl⟩
    · cases h
  | note n =>
    have hadd := exceptMapError_eq_ok_iff.1 h
    simp only [addNote] at hadd
    split at hadd
    · cases hadd
    · obtain rfl := Except.ok.inj hadd
      rw [openers_emit, box_emit, (foldl_ensureActor n.actorIds p).1, (foldl_ensureActor n.actorIds p).2, hbox]
      exact ⟨rfl, rfl⟩
  | openBlock o label =>
    obtain rfl := Except.ok.inj h
    exact ⟨rfl, by rw [hbox]; rfl⟩
  | divide keyword label =>
    have hdivide := exceptMapError_eq_ok_iff.1 h
    simp only [divide] at hdivide
    split at hdivide
    · rename_i f fs hf
      split at hdivide
      · obtain rfl := Except.ok.inj hdivide
        refine ⟨?_, by rw [hbox]; rfl⟩
        simp only [openers, hf, List.map_cons]
        rfl
      · cases hdivide
    · cases hdivide
  | close =>
    have hclose := exceptMapError_eq_ok_iff.1 h
    simp only [close] at hclose
    split at hclose
    · rename_i f fs hf
      obtain rfl := Except.ok.inj hclose
      rw [openers_emit, box_emit, hbox]
      refine ⟨?_, rfl⟩
      simp only [openers, hf, List.map_cons]
      rfl
    · cases hclose
  | activation id active =>
    obtain rfl := Except.ok.inj h
    rw [openers_emit, box_emit]
    exact ⟨rfl, by rw [ensureActor, hbox]; rfl⟩
  | autonumberOff =>
    obtain rfl := Except.ok.inj h
    rw [openers_emit, box_emit, hbox]
    exact ⟨rfl, rfl⟩
  | autonumber start step =>
    obtain ⟨_, -, h⟩ := exceptBind_eq_ok_iff.1 h
    obtain ⟨_, -, h⟩ := exceptBind_eq_ok_iff.1 h
    obtain rfl := Except.ok.inj h
    rw [openers_emit, box_emit, hbox]
    exact ⟨rfl, rfl⟩
  | message m =>
    obtain rfl := Except.ok.inj h
    rw [openers_emit, box_emit]
    exact ⟨rfl, by rw [ensureActor, ensureActor, hbox]; rfl⟩

/-- no line is refused for a block that is not closed -/
theorem cause_of_apply {e : ParseError} (h : p.apply l line = .error (.malformed e)) (keyword : Text) :
    e.cause ≠ .unclosedBlock keyword := by
  cases line with
  | openBox label color =>
    simp only [apply] at h
    split at h
    · cases h
    · obtain rfl := ReadError.malformed.inj (Except.error.inj h)
      simp
  | note n =>
    simp only [apply, addNote] at h
    split at h
    · obtain rfl := ReadError.malformed.inj (Except.error.inj h)
      simp
    · cases h
  | divide keyword label =>
    simp only [apply, divide] at h
    split at h
    · split at h
      · cases h
      · obtain rfl := ReadError.malformed.inj (Except.error.inj h)
        simp
    · obtain rfl := ReadError.malformed.inj (Except.error.inj h)
      simp
  | close =>
    simp only [apply, close] at h
    split at h
    · cases h
    · obtain rfl := ReadError.malformed.inj (Except.error.inj h)
      simp
  | autonumber start step =>
    have hnumber : ∀ {n : Option Text}, n.mapM number ≠ .error (.malformed e) := by
      intro n hn
      cases n with
      | none => cases hn
      | some t =>
        rw [mapM_number] at hn
        have hn := exceptMap_eq_error_iff.1 hn
        simp only [number, Except.mapError] at hn
        split at hn
        · cases Except.error.inj hn
        · cases hn
    rcases exceptBind_eq_error_iff.1 h with h | ⟨_, -, h⟩
    · exact absurd h hnumber
    · rcases exceptBind_eq_error_iff.1 h with h | ⟨_, -, h⟩
      · exact absurd h hnumber
      · cases h
  | _ => cases h

/-- what a line does to what is open, in a box or not -/
theorem openers_readLine (h : p.readLine l = .ok q) :
    (nesting.bracketAt p.box.isSome l).step p.openers = some q.openers ∧
      q.box.isSome = nesting.asideAfter p.box.isSome l := by
  rw [readLine] at h
  split at h
  · rename_i a ha
    obtain ⟨hskip, hend⟩ := skips_of_actor? ha
    obtain rfl := Except.ok.inj h
    have hbox : (p.declare a).box.isSome = p.box.isSome := Option.isSome_map
    rw [hbox, Nesting.bracketAt, Nesting.asideAfter, hskip.bracket, hskip.aside]
    cases p.box.isSome with
    | false => exact ⟨rfl, rfl⟩
    | true => exact ⟨rfl, by simpa [nesting] using hend⟩
  · split at h
    · rename_i b hb
      rw [hb]
      split at h
      · rename_i hend
        obtain rfl := Except.ok.inj h
        exact ⟨rfl, by simp [closeBox, Nesting.asideAfter, nesting, hend]⟩
      · cases h
    · rename_i hb
      split at h
      · rename_i line hline
        have hopen := openers_apply hb h
        rw [← bracket_of_read? hline, ← opensAside_of_read? hline] at hopen
        rw [hb]
        exact hopen
      · cases h

theorem tracks_readLine : nesting.Tracks readLine openers fun p => p.box.isSome :=
  ⟨fun h => (openers_readLine h).1, fun h => (openers_readLine h).2⟩

/-- no line is refused for a block that is not closed -/
theorem cause_of_readLine {e : ParseError} (h : p.readLine l = .error (.malformed e)) (keyword : Text) :
    e.cause ≠ .unclosedBlock keyword := by
  rw [readLine] at h
  split at h
  · cases h
  · split at h
    · split at h
      · cases h
      · obtain rfl := ReadError.malformed.inj (Except.error.inj h)
        simp
    · split at h
      · rename_i line _
        exact cause_of_apply h keyword
      · obtain rfl := ReadError.malformed.inj (Except.error.inj h)
        simp

end Progress

variable {text : Text} {d : Sequence}

theorem leaves_of_run {p : Progress}
    (h : (splitHeader .sequence (sourceLines true text)).2.foldlM Progress.readLine ⟨{}, [], none⟩ = .ok p) :
    Bracket.Leaves (nesting.brackets text) p.openers :=
  Progress.tracks_readLine.leaves (fun _ => skips_of_header?) rfl rfl h

/-- **the block that is reported open is the last unclosed one** -/
theorem isAtLastUnclosed_of_read {e : ParseError} {keyword : Text} (h : read text = .error (.malformed e))
    (hc : e.cause = .unclosedBlock keyword) : e.IsAtLastUnclosed (nesting.brackets text) keyword := by
  rcases exceptBind_eq_error_iff.1 h with h | ⟨p, hrun, h⟩
  · obtain ⟨l, -, p, h⟩ := exists_error_of_foldlM h
    exact absurd hc (Progress.cause_of_readLine h keyword)
  · have hleaves := leaves_of_run hrun
    rw [Progress.finish] at h
    split at h
    · obtain rfl := ReadError.malformed.inj (Except.error.inj h)
      cases hc
    · rename_i f fs _ hf
      obtain rfl := ReadError.malformed.inj (Except.error.inj h)
      obtain rfl := Cause.unclosedBlock.inj hc
      rw [Progress.openers, hf] at hleaves
      exact hleaves.isAtLastUnclosed _
    · cases h

/-- every block of a text that is read is closed, and every closer closes one -/
theorem balanced_of_read (h : read text = .ok d) : Bracket.Balanced (nesting.brackets text) := by
  obtain ⟨p, hrun, h⟩ := exceptBind_eq_ok_iff.1 h
  have hleaves := leaves_of_run hrun
  have hfinish := exceptMapError_eq_ok_iff.1 h
  rw [Progress.finish] at hfinish
  split at hfinish
  · cases hfinish
  · cases hfinish
  · rename_i hf
    rw [Progress.openers, hf] at hleaves
    exact hleaves.balanced_of_nil

end DiagramText.Sequence

/-
Decoding undoes encoding of sequence diagrams. `script` lists the lines that the printer writes for a statement, and
`Reads` says that lines lead from one state of the reader to another. `reads_statement` is the simulation: the lines of a
statement, with all that is nested in it, add exactly that statement to the innermost open section, whatever frames are
open. `read_render_of_unboxed` puts the header, the actors and the statements together.
-/
import DiagramText.Proofs.Entries
import DiagramText.Proofs.Number.Integer
import DiagramText.Proofs.Options
import DiagramText.Proofs.Sequence.Line
import DiagramText.Sequence.Reader

namespace DiagramText.Sequence

open DiagramText.Text

/-! ## Statements as lines -/

/-- numbering as a line -/
def Autonumber.line (a : Autonumber) : Line :=
  if a.enabled then .autonumber (a.start.map ofInt) (if a.start.isSome then a.step.map ofInt else none) else .autonumberOff

/-- the keyword before a section, of which the first one opens the block -/
def sectionKeyword (kind : SectionedKind) (isFirst : Bool) : Text := if isFirst then kind.keyword else kind.divider

/-- the line before a section -/
def sectionLine (kind : SectionedKind) (isFirst : Bool) (label : Text) : Line :=
  if isFirst then .openBlock (.sectioned kind) label else .divide kind.divider label

mutual

/-- the lines of a statement, each with its depth -/
def script (depth : Nat) : Statement → List (Nat × Line)
  | .message m => [(depth, .message m)]
  | .note n => [(depth, .note n)]
  | .activation id active => [(depth, .activation id active)]
  | .autonumber a => [(depth, a.line)]
  | .block kind label body => (depth, .openBlock (.block kind) label) :: scriptAll (depth + 1) body ++ [(depth, .close)]
  | .sectioned kind sections => sectionsScript depth kind true sections ++ [(depth, .close)]

/-- the lines of statements one after another -/
def scriptAll (depth : Nat) : List Statement → List (Nat × Line)
  | [] => []
  | s :: rest => script depth s ++ scriptAll depth rest

/-- the lines of sections -/
def sectionsScript (depth : Nat) (kind : SectionedKind) (isFirst : Bool) : List (Text × List Statement) → List (Nat × Line)
  | [] => []
  | (label, body) :: rest =>
    (depth, sectionLine kind isFirst label) :: scriptAll (depth + 1) body ++ sectionsScript depth kind false rest

end

/-- a line with its margin -/
def marginLine (o : RenderOptions) (x : Nat × Line) : Text := o.levels x.1 ++ x.2.toText

theorem autonumber_line (a : Autonumber) : a.toText = a.line.toText := by
  obtain ⟨start, step, enabled⟩ := a
  cases enabled with
  | false => rfl
  | true =>
    cases start with
    | none => rfl
    | some s =>
      have h1 : ("autonumber " : Text) = "autonumber" ++ [' '] := rfl
      have h2 : (" " : Text) = [' '] := rfl
      cases step with
      | none =>
        change ("autonumber " : Text) ++ ofInt s = ("autonumber" : Text) ++ (' ' :: ofInt s) ++ []
        rw [h1]
        simp
      | some t =>
        change ("autonumber " : Text) ++ ofInt s ++ (" " : Text) ++ ofInt t
          = ("autonumber" : Text) ++ (' ' :: ofInt s) ++ (' ' :: ofInt t)
        rw [h1, h2]
        simp

theorem trimRight_keyword (o : RenderOptions) (depth : Nat) {keyword label : Text} {l : Line}
    (hk : Scan.startsWith isMark keyword = true) (hl : l.toText = trimRight (keyword ++ " " ++ label)) :
    trimRight (o.levels depth ++ keyword ++ " " ++ label) = marginLine o (depth, l) := by
  rw [marginLine, hl, List.append_assoc, List.append_assoc, ← List.append_assoc keyword]
  exact trimRight_margin _ (startsWith_append _ (startsWith_append _ hk))

mutual

theorem statementLines_eq (o : RenderOptions) (depth : Nat) : (s : Statement) →
    statementLines o depth s = (script depth s).map (marginLine o)
  | .message m => by rw [statementLines, script]; rfl
  | .note n => by
    rw [statementLines, script, List.map_singleton, marginLine]
    simp only [List.append_assoc]
    rw [trimRight_margin _ (startsWith_append _ (by decide : Scan.startsWith isMark ("Note " : Text) = true))]
    change _ = [o.levels depth ++ trimRight ("Note " ++ n.position ++ " " ++ join "," n.actorIds ++ ": " ++ n.text)]
    simp only [List.append_assoc]
  | .activation id active => by
    rw [statementLines, script, List.append_assoc]
    rfl
  | .autonumber a => by
    rw [statementLines, script, autonumber_line]
    rfl
  | .block kind label body => by
    have hk : Scan.startsWith isMark kind.keyword = true := by cases kind <;> decide
    rw [statementLines, script, statementsLines_eq o (depth + 1) body,
      trimRight_keyword o depth hk (l := .openBlock (.block kind) label) rfl]
    simp only [List.map_append, List.map_cons, List.map_nil]
    rfl
  | .sectioned kind sections => by
    have h := sectionsLines_eq o depth kind true sections
    rw [statementLines, script, List.map_append, ← h]
    rfl

theorem statementsLines_eq (o : RenderOptions) (depth : Nat) : (ss : List Statement) →
    statementsLines o depth ss = (scriptAll depth ss).map (marginLine o)
  | [] => by rw [statementsLines, scriptAll]; rfl
  | s :: rest => by
    rw [statementsLines, scriptAll, List.map_append, statementLines_eq o depth s, statementsLines_eq o depth rest]

theorem sectionsLines_eq (o : RenderOptions) (depth : Nat) (kind : SectionedKind) (isFirst : Bool) :
    (sections : List (Text × List Statement)) →
      sectionsLines o depth kind.divider (sectionKeyword kind isFirst) sections
        = (sectionsScript depth kind isFirst sections).map (marginLine o)
  | [] => by rw [sectionsLines, sectionsScript]; rfl
  | (label, body) :: rest => by
    have hk : Scan.startsWith isMark (sectionKeyword kind isFirst) = true := by cases kind <;> cases isFirst <;> decide
    have hl : (sectionLine kind isFirst label).toText = trimRight (sectionKeyword kind isFirst ++ " " ++ label) := by
      cases isFirst <;> rfl
    have h := sectionsLines_eq o depth kind false rest
    rw [sectionsLines, sectionsScript, statementsLines_eq o (depth + 1) body, trimRight_keyword o depth hk hl,
      List.map_append, List.map_cons, ← h]
    rfl

end

/-! ## What can be written -/

/-- numbering that can be written, for a class of numbers: a step only after a start, and neither when numbering ends -/
structure Autonumber.IsPlain (count : Int → Prop) (a : Autonumber) : Prop where
  start : ∀ n, a.start = some n → count n
  step : ∀ n, a.step = some n → count n ∧ a.start ≠ none
  off : a.enabled = false → a.start = none ∧ a.step = none

mutual

/-- a statement that can be written, between declared actors and with a class of numbers -/
def Statement.IsPlain (count : Int → Prop) (actors : Entries Actor) : Statement → Prop
  | .message m => m.IsPlain ∧ m.source ∈ actors.keys ∧ m.target ∈ actors.keys
  | .note n => n.IsPlain ∧ ∀ id ∈ n.actorIds, id ∈ actors.keys
  | .activation id _ => id ∈ actors.keys
  | .autonumber a => a.IsPlain count
  | .block _ label body => IsLineText label ∧ AllPlain count actors body
  | .sectioned _ sections => sections ≠ [] ∧ SectionsPlain count actors sections

/-- statements that can be written -/
def AllPlain (count : Int → Prop) (actors : Entries Actor) : List Statement → Prop
  | [] => True
  | s :: rest => s.IsPlain count actors ∧ AllPlain count actors rest

/-- sections that can be written -/
def SectionsPlain (count : Int → Prop) (actors : Entries Actor) : List (Text × List Statement) → Prop
  | [] => True
  | (label, body) :: rest => IsLineText label ∧ AllPlain count actors body ∧ SectionsPlain count actors rest

end

/-- a diagram without boxes whose parts fit the grammar, with a class of numbers -/
structure IsPlain (count : Int → Prop) (d : Sequence) : Prop where
  title : ∀ t, d.title = some t → t ≠ [] ∧ IsLineText t ∧ Scan.startsWith (· = ':') t = false
  accTitle : ∀ t, d.accessibility.title = some t → t ≠ [] ∧ IsLineText t
  accDescription : ∀ t, d.accessibility.description = some t → t ≠ [] ∧ IsLineText t
  byId : ∀ {id a}, d.actors.get? id = some a → a.id = id ∧ a.IsPlain
  boxes : d.boxes = []
  statements : AllPlain count d.actors d.statements

/-! ## Reading lines -/

/-- lines with these texts lead from one state to another -/
def Reads (p : Progress) (ts : List Text) (q : Progress) : Prop :=
  ∀ ls : List SourceLine, ls.map SourceLine.text = ts → ls.foldlM Progress.readLine p = .ok q

namespace Reads

variable {p q r : Progress} {t : Text} {ts us : List Text}

theorem nil : Reads p [] p := by
  intro ls hls
  rw [List.map_eq_nil_iff.1 hls]
  rfl

/-- a line after which some state leads on; the state may hold the line itself -/
theorem cons (h : ∀ l : SourceLine, l.text = t → ∃ p', p.readLine l = .ok p' ∧ Reads p' ts q) : Reads p (t :: ts) q := by
  intro ls hls
  cases ls with
  | nil => exact absurd hls (by simp)
  | cons l ls =>
    rw [List.map_cons, List.cons.injEq] at hls
    obtain ⟨p', hp', hrest⟩ := h l hls.1
    rw [List.foldlM_cons, hp']
    exact hrest ls hls.2

theorem single (h : ∀ l : SourceLine, l.text = t → p.readLine l = .ok q) : Reads p [t] q :=
  cons fun l hl => ⟨q, h l hl, nil⟩

theorem append (h : Reads p ts q) (h' : Reads q us r) : Reads p (ts ++ us) r := by
  intro ls hls
  obtain ⟨as, bs, rfl, ha, hb⟩ := List.map_eq_append_iff.1 hls
  rw [List.foldlM_append, h as ha]
  exact h' bs hb

end Reads

variable {p : Progress} {actors : Entries Actor} {count : Int → Prop}

/-- outside of a box a plain line does what it says -/
theorem readLine_toText (line : Line) (h : line.IsPlain) (ha : ∀ a, line ≠ .actor a) (hp : p.box = none) {l : SourceLine}
    (hl : l.text = line.toText) : p.readLine l = p.apply l line := by
  obtain ⟨h1, h2⟩ := read?_toText h ha
  rw [Progress.readLine, hl, h1, hp]
  dsimp only
  rw [h2]

theorem ensureActor_of_mem {id : Text} (h : id ∈ p.diagram.actors.keys) : p.ensureActor id = p := by
  have e : p.diagram.actors.insertNew id ⟨id, id, .participant⟩ = p.diagram.actors := by
    rw [Entries.insertNew, if_pos (Entries.contains_iff.2 h)]
  rw [Progress.ensureActor, e]

theorem foldl_ensureActor {ids : List Text} (h : ∀ id ∈ ids, id ∈ p.diagram.actors.keys) :
    ids.foldl (fun p id => p.ensureActor id) p = p := by
  induction ids with
  | nil => rfl
  | cons id ids ih =>
    rw [List.foldl_cons, ensureActor_of_mem (h id (by simp))]
    exact ih fun i hi => h i (by simp [hi])

/-- a legible note is taken over -/
theorem addNote_of_isLegible {n : Note} (h : n.IsLegible) (l : SourceLine) :
    p.addNote l n = .ok ((n.actorIds.foldl (fun p id => p.ensureActor id) p).emit (.note n)) := by
  refine if_neg ?_
  rintro ⟨hlen, hover⟩
  rcases h.actors with ⟨a, ha⟩ | ⟨hposition, -⟩
  · rw [ha] at hlen
    exact absurd hlen (by simp)
  · exact hover hposition

/-- a divider of the innermost block opens its next section -/
theorem divide_of_sectioned {f : Frame} {fs : List Frame} {kind : SectionedKind} (hf : p.frames = f :: fs)
    (ho : f.opening = .sectioned kind) (l : SourceLine) (label : Text) : p.divide l kind.divider label
      = .ok { p with frames := { f with finished := f.sections, label := label, statements := [] } :: fs } := by
  have hdivided : f.isDividedBy kind.divider = true := by simp [Frame.isDividedBy, ho]
  rw [Progress.divide, hf]
  dsimp only
  rw [if_pos hdivided]

/-- adds statements to the innermost open section -/
def Progress.emitAll (ss : List Statement) (p : Progress) : Progress := ss.foldl (fun p s => p.emit s) p

@[simp] theorem emit_actors (s : Statement) : (p.emit s).diagram.actors = p.diagram.actors := by
  unfold Progress.emit
  split <;> rfl

@[simp] theorem emit_box (s : Statement) : (p.emit s).box = p.box := by
  unfold Progress.emit
  split <;> rfl

theorem emitAll_cons (s : Statement) (ss : List Statement) : p.emitAll (s :: ss) = (p.emit s).emitAll ss := rfl

/-- statements in an open frame -/
theorem emitAll_frames {f : Frame} {fs : List Frame} (h : p.frames = f :: fs) (ss : List Statement) :
    p.emitAll ss = { p with frames := { f with statements := f.statements ++ ss } :: fs } := by
  induction ss generalizing p f with
  | nil =>
    obtain ⟨diagram, frames, box⟩ := p
    subst h
    simp [Progress.emitAll]
  | cons s ss ih =>
    have hemit : p.emit s = { p with frames := { f with statements := f.statements ++ [s] } :: fs } := by
      rw [Progress.emit, h]
    rw [emitAll_cons, hemit, ih rfl]
    simp

/-- numbers that are read back: natural, and within the limit of digits -/
def IsCount (n : Int) : Prop := 0 ≤ n ∧ (ofInt n).length ≤ 4300

theorem isDigits_ofInt {n : Int} (h : 0 ≤ n) : IsDigits (ofInt n) := by
  obtain ⟨k, rfl⟩ := Int.eq_ofNat_of_zero_le h
  rw [ofInt_natCast]
  exact ⟨ofNat_ne_nil k, all_isDigit_ofNat k⟩

theorem number_ofInt {n : Int} (h : IsCount n) : Progress.number (ofInt n) = .ok n := by
  obtain ⟨hn, hl⟩ := h
  obtain ⟨k, rfl⟩ := Int.eq_ofNat_of_zero_le hn
  rw [ofInt_natCast] at hl ⊢
  rw [Progress.number, Integer.read_ofNat ((length_ofNat_le_iff (by decide)).1 hl)]
  rfl

theorem mapM_number {n : Option Int} (h : ∀ k, n = some k → IsCount k) : (n.map ofInt).mapM Progress.number = .ok n := by
  cases n with
  | none => rfl
  | some k =>
    change (Progress.number (ofInt k)).map some = _
    rw [number_ofInt (h k rfl)]
    rfl

theorem Autonumber.isPlain_line {a : Autonumber} (h : a.IsPlain count) (hc : ∀ n, count n → 0 ≤ n) : a.line.IsPlain := by
  unfold Autonumber.line
  split
  · refine ⟨fun t ht => ?_, fun t ht => ?_⟩
    · obtain ⟨n, hn, rfl⟩ := Option.map_eq_some_iff.1 ht
      exact isDigits_ofInt (hc n (h.start n hn))
    · rw [Option.ite_none_right_eq_some] at ht
      obtain ⟨n, hn, rfl⟩ := Option.map_eq_some_iff.1 ht.2
      refine ⟨isDigits_ofInt (hc n (h.step n hn).1), ?_⟩
      rw [ne_eq, Option.map_eq_none_iff]
      exact (h.step n hn).2
  · trivial

/-- all ids of actors are names -/
def AreNames (actors : Entries Actor) : Prop := ∀ id ∈ actors.keys, Scan.isName isActorChar id = true

mutual

theorem isPlain_script (hc : ∀ n, count n → 0 ≤ n) (hn : AreNames actors) {depth : Nat} : (s : Statement) → s.IsPlain count actors → ∀ x ∈ script depth s, x.2.IsPlain
  | .message m, h, x, hx => by
    rw [Statement.IsPlain] at h
    rw [script, List.mem_singleton] at hx
    exact hx ▸ h.1
  | .note n, h, x, hx => by
    rw [Statement.IsPlain] at h
    rw [script, List.mem_singleton] at hx
    exact hx ▸ h.1
  | .activation id active, h, x, hx => by
    rw [Statement.IsPlain] at h
    rw [script, List.mem_singleton] at hx
    exact hx ▸ hn id h
  | .autonumber a, h, x, hx => by
    rw [Statement.IsPlain] at h
    rw [script, List.mem_singleton] at hx
    exact hx ▸ Autonumber.isPlain_line h hc
  | .block kind label body, h, x, hx => by
    rw [Statement.IsPlain] at h
    rw [script, List.mem_append, List.mem_cons, List.mem_singleton] at hx
    rcases hx with (rfl | hx) | rfl
    · exact h.1
    · exact isPlain_scriptAll hc hn body h.2 x hx
    · trivial
  | .sectioned kind sections, h, x, hx => by
    rw [Statement.IsPlain] at h
    rw [script, List.mem_append, List.mem_singleton] at hx
    rcases hx with hx | rfl
    · exact isPlain_sectionsScript hc hn sections h.2 x hx
    · trivial

theorem isPlain_scriptAll (hc : ∀ n, count n → 0 ≤ n) (hn : AreNames actors) {depth : Nat} :
    (ss : List Statement) → AllPlain count actors ss → ∀ x ∈ scriptAll depth ss, x.2.IsPlain
  | [], _, x, hx => by
    rw [scriptAll] at hx
    exact absurd hx (by simp)
  | s :: rest, h, x, hx => by
    rw [AllPlain] at h
    rw [scriptAll, List.mem_append] at hx
    exact hx.elim (isPlain_script hc hn s h.1 x) (isPlain_scriptAll hc hn rest h.2 x)

theorem isPlain_sectionsScript (hc : ∀ n, count n → 0 ≤ n) (hn : AreNames actors) {depth : Nat} {kind : SectionedKind}
    {isFirst : Bool} :
    (sections : List (Text × List Statement)) → SectionsPlain count actors sections →
      ∀ x ∈ sectionsScript depth kind isFirst sections, x.2.IsPlain
  | [], _, x, hx => by
    rw [sectionsScript] at hx
    exact absurd hx (by simp)
  | (label, body) :: rest, h, x, hx => by
    rw [SectionsPlain] at h
    rw [sectionsScript, List.mem_append, List.mem_cons] at hx
    rcases hx with (rfl | hx) | hx
    · cases isFirst with
      | true => exact h.1
      | false => exact ⟨⟨kind, rfl⟩, h.1⟩
    · exact isPlain_scriptAll hc hn body h.2.1 x hx
    · exact isPlain_sectionsScript hc hn rest h.2.2 x hx

end

/-! ## Running the script -/

/-- a state in which these are the actors, all of them with names, and no box is open -/
structure Progress.IsReady (actors : Entries Actor) (p : Progress) : Prop where
  names : AreNames actors
  actors : p.diagram.actors = actors
  box : p.box = none

theorem Progress.IsReady.emit (h : p.IsReady actors) (s : Statement) : (p.emit s).IsReady actors :=
  ⟨h.names, (emit_actors s).trans h.actors, (emit_box s).trans h.box⟩

theorem Progress.IsReady.withFrames (h : p.IsReady actors) (fs : List Frame) :
    Progress.IsReady actors { p with frames := fs } := ⟨h.names, h.actors, h.box⟩

/-- a statement on a line of its own -/
theorem reads_line (line : Line) (hp : p.IsReady actors) (hl : line.IsPlain) (ha : ∀ a, line ≠ .actor a) {q : Progress}
    (h : ∀ l, p.apply l line = .ok q) : Reads p [line.toText] q :=
  Reads.single fun l ht => (readLine_toText line hl ha hp.box ht).trans (h l)

mutual

/-- the lines of a statement add the statement to the innermost open section -/
theorem reads_statement (depth : Nat) {p : Progress} (hp : p.IsReady actors) : (s : Statement) → s.IsPlain IsCount actors →
    Reads p ((script depth s).map fun x => x.2.toText) (p.emit s)
  | .message m, h => by
    rw [Statement.IsPlain, ← hp.actors] at h
    rw [script, List.map_singleton]
    refine reads_line (.message m) hp h.1 (fun _ => nofun) fun l => ?_
    rw [Progress.apply, ensureActor_of_mem h.2.1, ensureActor_of_mem h.2.2]
  | .note n, h => by
    rw [Statement.IsPlain, ← hp.actors] at h
    rw [script, List.map_singleton]
    refine reads_line (.note n) hp h.1 (fun _ => nofun) fun l => ?_
    rw [Progress.apply, addNote_of_isLegible h.1.isLegible, foldl_ensureActor h.2]
    rfl
  | .activation id active, h => by
    rw [Statement.IsPlain, ← hp.actors] at h
    rw [script, List.map_singleton]
    refine reads_line (.activation id active) hp (hp.names id (hp.actors ▸ h)) (fun _ => nofun) fun l => ?_
    rw [Progress.apply, ensureActor_of_mem h]
  | .autonumber a, h => by
    rw [Statement.IsPlain] at h
    have hl := Autonumber.isPlain_line h fun _ hn => hn.1
    rw [script, List.map_singleton]
    refine reads_line a.line hp hl (fun _ => by unfold Autonumber.line; split <;> nofun) fun l => ?_
    obtain ⟨start, step, enabled⟩ := a
    cases enabled with
    | false =>
      obtain ⟨rfl, rfl⟩ := h.off rfl
      rfl
    | true =>
      have hstep : (if start.isSome = true then step.map ofInt else none) = step.map ofInt := by
        split
        · rfl
        · rename_i hs
          cases step with
          | none => rfl
          | some k => exact absurd (Option.isSome_iff_ne_none.2 (h.step k rfl).2) hs
      rw [Autonumber.line, if_pos rfl, hstep, Progress.apply, mapM_number h.start, mapM_number fun k hk => (h.step k hk).1]
      rfl
  | .block kind label body, h => by
    rw [Statement.IsPlain] at h
    rw [script, List.map_append, List.map_cons, List.cons_append]
    refine Reads.cons fun l ht => ⟨_, readLine_toText (.openBlock (.block kind) label) h.1 (fun _ => nofun) hp.box ht, ?_⟩
    refine (reads_statements _ (hp.withFrames _) body h.2).append ?_
    rw [emitAll_frames rfl, List.nil_append]
    exact reads_line .close (hp.withFrames _) trivial (fun _ => nofun) fun l' => rfl
  | .sectioned kind [], h => by
    rw [Statement.IsPlain] at h
    exact absurd rfl h.1
  | .sectioned kind ((label, body) :: rest), h => by
    rw [Statement.IsPlain, SectionsPlain] at h
    rw [script, sectionsScript, List.map_append, List.map_append, List.map_cons, List.cons_append, List.cons_append]
    refine Reads.cons fun l ht => ⟨_, readLine_toText (.openBlock (.sectioned kind) label) h.2.1 (fun _ => nofun) hp.box ht, ?_⟩
    rw [List.append_assoc]
    refine (reads_statements _ (hp.withFrames _) body h.2.2.1).append ?_
    rw [emitAll_frames rfl, List.nil_append]
    obtain ⟨f, hopening, hsections, hreads⟩ :=
      reads_sections depth (hp.withFrames (⟨.sectioned kind, l, [], label, body⟩ :: p.frames)) rfl rfl rest h.2.2.2
    refine hreads.append ?_
    refine reads_line .close (hp.withFrames _) trivial (fun _ => nofun) fun l' => ?_
    have hclose : f.close = .sectioned kind ((label, body) :: rest) := by
      rw [Frame.close, hopening]
      exact congrArg _ hsections
    rw [Progress.apply, Progress.close]
    dsimp only
    rw [hclose]
    rfl

/-- the lines of statements add the statements one after another -/
theorem reads_statements (depth : Nat) {p : Progress} (hp : p.IsReady actors) :
    (ss : List Statement) → AllPlain IsCount actors ss →
      Reads p ((scriptAll depth ss).map fun x => x.2.toText) (p.emitAll ss)
  | [], _ => by
    rw [scriptAll]
    exact Reads.nil
  | s :: rest, h => by
    rw [AllPlain] at h
    rw [scriptAll, List.map_append]
    exact (reads_statement depth hp s h.1).append (reads_statements _ (hp.emit s) rest h.2)

/-- the lines of further sections finish the section that is being filled, and add the others -/
theorem reads_sections (depth : Nat) {kind : SectionedKind} {p : Progress} {f : Frame} {fs : List Frame}
    (hp : p.IsReady actors) (hf : p.frames = f :: fs) (ho : f.opening = .sectioned kind) :
    (sections : List (Text × List Statement)) → SectionsPlain IsCount actors sections →
      ∃ f' : Frame, f'.opening = .sectioned kind ∧ f'.sections = f.sections ++ sections ∧
        Reads p ((sectionsScript depth kind false sections).map fun x => x.2.toText) { p with frames := f' :: fs }
  | [], _ => by
    refine ⟨f, ho, by simp, ?_⟩
    rw [sectionsScript, ← hf]
    exact Reads.nil
  | (label, body) :: rest, h => by
    rw [SectionsPlain] at h
    obtain ⟨f', ho', hs', hreads⟩ := reads_sections depth (p := { p with frames := { f with
        finished := f.sections, label := label, statements := body } :: fs }) (hp.withFrames _) rfl ho rest h.2.2
    refine ⟨f', ho', ?_, ?_⟩
    · rw [hs', Frame.sections]
      simp
    · rw [sectionsScript, List.map_append, List.map_cons, List.cons_append]
      have hdivide : ∀ l : SourceLine, p.apply l (.divide kind.divider label)
          = .ok { p with frames := { f with finished := f.sections, label := label, statements := [] } :: fs } := by
        intro l
        rw [Progress.apply, divide_of_sectioned hf ho]
        rfl
      refine Reads.cons fun l ht =>
        ⟨_, (readLine_toText (.divide kind.divider label) ⟨⟨kind, rfl⟩, h.1⟩ (fun _ => nofun) hp.box ht).trans (hdivide l), ?_⟩
      refine (reads_statements _ (hp.withFrames _) body h.2.1).append ?_
      rw [emitAll_frames rfl, List.nil_append]
      exact hreads

end

/-! ## Diagrams -/

/-- the lines before the statements: the title, the texts for accessibility and the actors -/
def preamble (d : Sequence) : List Line :=
  (d.title.map Line.title).toList
    ++ (d.accessibility.title.map fun v => Line.accessibility (.title v)).toList
    ++ (d.accessibility.description.map fun v => Line.accessibility (.description v)).toList
    ++ d.actors.values.map Line.actor

/-- the lines of a diagram without boxes -/
def page (d : Sequence) : List (Nat × Line) := (preamble d).map (1, ·) ++ scriptAll 1 d.statements

namespace IsPlain

variable {d : Sequence} (h : d.IsPlain count)
include h

/-- the text of a diagram is its header and its lines -/
theorem render_eq {o : RenderOptions} (hs : o.sortEntities = false) :
    render d o = ofLines (("sequenceDiagram" : Text) :: (page d).map (marginLine o)) := by
  have hlevel : o.levels 1 = o.unit := List.append_nil _
  have hpresent : ∀ {t : Option Text}, (∀ v, t = some v → v ≠ []) → present t = t := by
    rintro (_ | v) hv
    · rfl
    · cases v with
      | nil => exact absurd rfl (hv [] rfl)
      | cons c r => rfl
  have hfree : freeActors d o = d.actors.values := by
    rw [freeActors, hs, h.boxes]
    simp
  have htitle : ((present d.title).map (o.unit ++ "title " ++ ·)).toList
      = (d.title.map Line.title).toList.map fun l => marginLine o (1, l) := by
    rw [hpresent fun v hv => (h.title v hv).1]
    cases d.title with
    | none => rfl
    | some t => rw [← hlevel]; exact congrArg (· :: []) (List.append_assoc _ _ _)
  have haccessibility : d.accessibility.lines o.unit
      = ((d.accessibility.title.map fun v => Line.accessibility (.title v)).toList
        ++ (d.accessibility.description.map fun v => Line.accessibility (.description v)).toList).map
          fun l => marginLine o (1, l) := by
    rw [Accessibility.lines, hpresent fun v hv => (h.accTitle v hv).1, hpresent fun v hv => (h.accDescription v hv).1,
      ← hlevel, List.map_append]
    congr 1
    · cases d.accessibility.title with
      | none => rfl
      | some v => exact congrArg (· :: []) (List.append_assoc (o.levels 1) "accTitle: " v)
    · cases d.accessibility.description with
      | none => rfl
      | some v => exact congrArg (· :: []) (List.append_assoc (o.levels 1) "accDescr: " v)
  have hactors : (freeActors d o).map (fun a => o.unit ++ a.toText)
      = (d.actors.values.map Line.actor).map fun l => marginLine o (1, l) := by
    rw [hfree, ← hlevel, List.map_map]
    rfl
  have hpage : (page d).map (marginLine o)
      = (preamble d).map (fun l => marginLine o (1, l)) ++ (scriptAll 1 d.statements).map (marginLine o) := by
    rw [page, List.map_append, List.map_map]
    rfl
  rw [render, htitle, haccessibility, hactors, h.boxes, statementsLines_eq, hpage, preamble]
  simp only [List.map_append, List.cons_append, List.append_assoc, List.flatMap_nil, List.nil_append]

end IsPlain

/-! ## Reading the preamble -/

/-- adds a line of the preamble to a diagram -/
def withLine (d : Sequence) : Line → Sequence
  | .title t => { d with title := some t }
  | .accessibility line => { d with accessibility := d.accessibility.put line }
  | .actor a => { d with actors := d.actors.insert a.id a }
  | _ => d

/-- the lines of a preamble do not depend on each other -/
theorem reads_preamble {ls : List Line} (hplain : ∀ l ∈ ls, l.IsPlain)
    (hkind : ∀ l ∈ ls, (∃ t, l = .title t) ∨ (∃ line, l = .accessibility line) ∨ ∃ a, l = .actor a) (d : Sequence) :
    Reads ⟨d, [], none⟩ (ls.map Line.toText) ⟨ls.foldl withLine d, [], none⟩ := by
  induction ls generalizing d with
  | nil => exact Reads.nil
  | cons l ls ih =>
    have hrest := ih (fun l hl => hplain l (by simp [hl])) (fun l hl => hkind l (by simp [hl])) (withLine d l)
    refine Reads.cons fun line ht => ⟨_, ?_, hrest⟩
    rcases hkind l (by simp) with ⟨t, rfl⟩ | ⟨text, rfl⟩ | ⟨a, rfl⟩
    · exact readLine_toText (.title t) (hplain _ (by simp)) (fun _ => nofun) rfl ht
    · exact readLine_toText (.accessibility text) (hplain _ (by simp)) (fun _ => nofun) rfl ht
    · have ha : Line.IsPlain (.actor a) := hplain _ (by simp)
      have htext : line.text = a.toText := ht
      rw [Progress.readLine, htext, actor?_toText ha]
      rfl

end DiagramText.Sequence

/-
User journeys read back. The name of a task is free text, and three rules are tried on a line before the rule for tasks. What
they leave to it is told from the name alone (`IsTaskName`), so a task is still one when it is printed with other white space
around its parts (`read?_toText`). What is read is plain (`isPlain_of_read`), what is plain is read back
(`read_render_of_isPlain_journey`), and so one round settles a journey.
-/
import DiagramText.Journey
import DiagramText.Proofs.Number.Format
import DiagramText.Proofs.Outline
import DiagramText.Proofs.Text.Words

namespace DiagramText.Journey

open DiagramText.Text

/-! ## Journeys that can be written -/

/-- the name of a task: no rule but that for tasks claims a line that starts with it and a colon -/
structure IsTaskName (name : Text) : Prop where
  tight : IsTight name
  lineFeed : '\n' ∉ name
  colon : ':' ∉ name
  comment : dropPrefix? "%%" name = none
  accessibility : name ≠ "accTitle" ∧ name ≠ "accDescr"
  title : Scan.keyword? "title" name = none
  heading : Scan.keyword? "section" name = none

/-- a task that can be written -/
structure Task.IsPlain (t : Task) : Prop where
  name : IsTaskName t.name
  actors : ∀ a ∈ t.actors, IsItem ',' a ∧ '\n' ∉ a

/-- a section that can be written: one without a name is not empty -/
structure Section.IsPlain (s : Section) : Prop where
  name : ∀ n, s.name = some n → IsTight n ∧ '\n' ∉ n
  tasks : ∀ t ∈ s.tasks, t.IsPlain
  ne_nil : s.name = none → s.tasks ≠ []

/-- a journey that can be written: only its first section may be without a name -/
structure IsPlain (d : Journey) : Prop where
  title : ∀ t, d.title = some t → IsTight t ∧ '\n' ∉ t
  accessibility : ∀ line ∈ d.accessibility.written, line.IsPlain
  sections : ∀ s ∈ d.sections, s.IsPlain
  named : none ∉ (d.sections.map Section.name).tail

/-- a task with plus zero for minus zero -/
def Task.withoutMinusZero (t : Task) : Task := { t with score := t.score.withoutMinusZero }

/-- a section with plus zero for minus zero -/
def Section.withoutMinusZero (s : Section) : Section := { s with tasks := s.tasks.map Task.withoutMinusZero }

/-- a journey with plus zero for minus zero, and without empty texts -/
def settled (d : Journey) : Journey where
  title := present d.title
  sections := d.sections.map Section.withoutMinusZero
  accessibility := d.accessibility.settled

variable {d d' : Journey} {l : SourceLine} {line name margin t : Text} {task : Task} {s : Section} {ss : List Section}
  {o : RenderOptions}

/-! ## Tasks read back -/

/-- the actors of a task as they are written after its score -/
def actorsText (actors : List Text) : Text := if actors = [] then [] else ':' :: ' ' :: join ", " actors

theorem Task.toText_eq (task : Task) :
    task.toText = task.name ++ ':' :: ' ' :: (task.score.format ++ actorsText task.actors) := by
  have hname : task.name ++ ": " ++ task.score.format = task.name ++ ':' :: ' ' :: task.score.format := by
    rw [List.append_assoc]
    rfl
  simp only [Task.toText, hname, actorsText]
  split
  · rw [List.append_nil]
  · simp only [List.append_assoc, List.cons_append]
    rfl

theorem lineFeed_not_mem_actorsText {actors : List Text} (h : ∀ a ∈ actors, '\n' ∉ a) : '\n' ∉ actorsText actors := by
  rw [actorsText]
  split
  · exact List.not_mem_nil
  · simp only [List.mem_cons, not_or]
    refine ⟨by decide, by decide, ?_⟩
    intro hm
    rcases mem_of_mem_join hm with hm | ⟨a, ha, hm⟩
    · exact absurd hm (by decide)
    · exact h a ha hm

theorem actorsText?_actorsText {actors : List Text} (h : ∀ a ∈ actors, IsItem ',' a) :
    actorsText? (actorsText actors) = some (join ", " actors) := by
  cases actors with
  | nil => rfl
  | cons a as =>
    have hfirst : Scan.startsWith isMark (join ", " (a :: as)) = true :=
      startsWith_join (List.cons_ne_nil a as) fun b hb => (h b hb).tight.first
    rw [actorsText, if_neg (List.cons_ne_nil a as)]
    change some (Scan.blanks (' ' :: join ", " (a :: as))) = _
    rw [Scan.blanks_space, Scan.blanks_of_startsWith hfirst]

theorem actorsText?_eq_none {c : Char} (hmark : isMark c = true) (hcolon : c ≠ ':') (r : Text) :
    actorsText? (c :: r) = none := by
  have hblanks : Scan.blanks (c :: r) = c :: r := Scan.blanks_of_startsWith hmark
  rw [actorsText?, hblanks]
  split
  · rename_i e
    exact absurd e (List.cons_ne_nil c r)
  · rename_i e
    exact absurd (List.cons.inj e).1 hcolon
  · rfl

/-- the score of a task and its actors, behind the name -/
def scored? (name fromScore : Text) : Option TaskText :=
  Scan.shortest notColon
    (fun score rest => if score = [] then none else (actorsText? rest).map fun actors => ⟨name, score, fromScore, actors⟩)
    fromScore

theorem task?_append {name : Text} (hname : name ≠ []) (hcolon : ':' ∉ name) (r : Text) :
    task? (name ++ ':' :: r) = Scan.longest isBlank (fun _ fromScore => scored? (trim name) fromScore) r := by
  have hspan : span notColon (name ++ ':' :: r) = (name, ':' :: r) := span_append_cons hcolon
  obtain ⟨c, u, rfl⟩ := List.exists_cons_of_ne_nil hname
  rw [task?, hspan]
  rfl

/-- a score ends where the actors begin -/
theorem scored?_append (name : Text) {x : Binary64} (hx : x.isFinite = true) {actors : List Text}
    (h : ∀ a ∈ actors, IsItem ',' a) :
    scored? name (x.format ++ actorsText actors)
      = some ⟨name, x.format, x.format ++ actorsText actors, join ", " actors⟩ := by
  have hne : ∀ c, isNumeralChar c = true → c ≠ ':' := by
    rintro c hc rfl
    exact absurd hc (by decide)
  have hall : x.format.all notColon = true := by
    rw [List.all_eq_true]
    intro c hc
    exact decide_eq_true (hne c (List.all_eq_true.1 (Binary64.all_format hx) c hc))
  refine Scan.shortest_append _ hall ?_ ?_
  · -- a shorter score would be followed by a character of the number
    intro a c b hsplit
    have hc := List.all_eq_true.1 (Binary64.all_format hx) c (hsplit ▸ by simp)
    have hcolon := hne c hc
    rw [List.cons_append, actorsText?_eq_none (isMark_of_isNumeralChar hc) hcolon]
    exact ite_self none
  · rw [if_neg (Binary64.isTight_format hx).ne_nil, actorsText?_actorsText h, Option.map_some]

/-- **the parts of a task are read as they were written** -/
theorem task?_toText (h : task.IsPlain) (hscore : task.score.isFinite = true) :
    task? task.toText
      = some ⟨task.name, task.score.format, task.score.format ++ actorsText task.actors, join ", " task.actors⟩ := by
  have hblank : Scan.startsWith isBlank (task.score.format ++ actorsText task.actors) = false := by
    obtain ⟨c, r, hc, hmark⟩ := exists_cons_of_startsWith (Binary64.isTight_format hscore).first
    rw [hc]
    change isBlank c = false
    simpa [isMark] using hmark
  have hspace : List.all [' '] isBlank = true := by decide
  rw [Task.toText_eq, task?_append h.name.tight.ne_nil h.name.colon, trim_of_isTight h.name.tight]
  exact Scan.longest_append hspace hblank (scored?_append task.name hscore fun a ha => (h.actors a ha).1)

theorem actorsText?_subset {actors : Text} (h : actorsText? t = some actors) : actors ⊆ t := by
  rw [actorsText?] at h
  split at h
  · obtain rfl := Option.some.inj h
    exact List.nil_subset t
  · rename_i r hr
    obtain rfl := Option.some.inj h
    exact fun c hc => Scan.blanks_subset t (hr ▸ List.mem_cons_of_mem ':' (Scan.blanks_subset r hc))
  · exact absurd h (by simp)

/-- what stands on the line of a task -/
theorem exists_of_task? {t : TaskText} (h : task? line = some t) :
    ∃ name rest, line = name ++ ':' :: rest ∧ name ≠ [] ∧ ':' ∉ name ∧ t.name = trim name ∧ t.actors ⊆ rest := by
  have hsplit := span_append notColon line
  have hcolon : ':' ∉ (span notColon line).1 := by
    intro hm
    have hall := all_of_span_eq (rfl : span notColon line = _)
    exact absurd (List.all_eq_true.1 hall ':' hm) (by decide)
  rw [task?] at h
  split at h
  · exact absurd h (by simp)
  · rename_i name r hne hspan
    rw [hspan] at hsplit hcolon
    obtain ⟨run, fromScore, rfl, hscored⟩ := Scan.exists_of_longest h
    obtain ⟨score, rest, rfl, hparts⟩ := Scan.exists_of_shortest hscored
    obtain ⟨-, hparts⟩ := Option.ite_none_left_eq_some.1 hparts
    obtain ⟨actors, hactors, rfl⟩ := Option.map_eq_some_iff.1 hparts
    refine ⟨name, _, hsplit.symm, hne, hcolon, rfl, ?_⟩
    intro c hc
    exact List.mem_append_right run (List.mem_append_right score (actorsText?_subset hactors hc))
  · exact absurd h (by simp)

/-! ## Lines read back -/

/-- which rule a line was read by; a task is what the three other rules leave -/
theorem of_read? {x : Line} (h : Line.read? line = some x) :
    match x with
    | .accessibility a => Accessibility.line? line = some a
    | .title u => Scan.keywordText? "title" line = some u
    | .heading u => Scan.keywordText? "section" line = some u
    | .task u => Accessibility.line? line = none ∧ Scan.keywordText? "title" line = none ∧
        Scan.keywordText? "section" line = none ∧ task? line = some u := by
  rw [Line.read?] at h
  rcases Scan.orElse_eq_some_iff.1 h with h | ⟨haccessibility, h⟩
  · obtain ⟨a, ha, rfl⟩ := Option.map_eq_some_iff.1 h
    exact ha
  rcases Scan.orElse_eq_some_iff.1 h with h | ⟨htitle, h⟩
  · obtain ⟨u, hu, rfl⟩ := Option.map_eq_some_iff.1 h
    exact hu
  rcases Scan.orElse_eq_some_iff.1 h with h | ⟨hheading, h⟩
  · obtain ⟨u, hu, rfl⟩ := Option.map_eq_some_iff.1 h
    exact hu
  obtain ⟨u, hu, rfl⟩ := Option.map_eq_some_iff.1 h
  rw [Option.map_eq_none_iff] at haccessibility htitle hheading
  exact ⟨haccessibility, htitle, hheading, hu⟩

/-- **a name that was read of a task is the name of a task**, whatever else the line held -/
theorem isTaskName_of_read (hl : SourceLine.IsLine line) {t : TaskText} (h : Line.read? line = some (.task t)) :
    IsTaskName t.name := by
  obtain ⟨haccessibility, htitle, hheading, htask⟩ := of_read? h
  obtain ⟨name, rest, rfl, hne, hcolon, htrim, -⟩ := exists_of_task? htask
  -- the line starts with the name as it is kept, and white space follows it up to the colon
  obtain ⟨htight, b, hblank, hb⟩ := hl.isTight_trim hne
  have hline : trim name ++ (b ++ ':' :: rest) = name ++ ':' :: rest := by
    rw [← List.append_assoc, hb]
  have hnameColon : ':' ∉ trim name := fun hm => hcolon (mem_of_mem_trim hm)
  have hnameLineFeed : '\n' ∉ trim name := fun hm => hl.lineFeed (List.mem_append_left _ (mem_of_mem_trim hm))
  have hrestLineFeed : '\n' ∉ rest := fun hm => hl.lineFeed (by simp [hm])
  rw [← hline] at haccessibility htitle hheading
  rw [htrim]
  exact {
    tight := htight
    lineFeed := hnameLineFeed
    colon := hnameColon
    comment := SourceLine.comment_of_isPrefix ⟨_, hline⟩ hl.comment
    accessibility := (line?_eq_none_iff htight hnameColon hblank hrestLineFeed).1 haccessibility
    title := keyword?_eq_none_of_append htight htitle
    heading := keyword?_eq_none_of_append htight hheading }

/-- **a line that was printed for a task is read as that task** and as nothing else -/
theorem read?_toText (h : task.IsPlain) (hscore : task.score.isFinite = true) :
    Line.read? task.toText
      = some (.task ⟨task.name, task.score.format, task.score.format ++ actorsText task.actors, join ", " task.actors⟩) := by
  have hlf : '\n' ∉ ' ' :: (task.score.format ++ actorsText task.actors) := by
    intro hm
    rcases List.mem_append.1 (List.mem_of_ne_of_mem (by decide) hm) with hm | hm
    · exact Binary64.not_mem_format hscore (by decide) hm
    · exact lineFeed_not_mem_actorsText (fun a ha => (h.actors a ha).2) hm
  have haccessibility : Accessibility.line? task.toText = none := by
    rw [Task.toText_eq]
    exact (line?_eq_none_iff h.name.tight h.name.colon (b := []) rfl hlf).2 h.name.accessibility
  have htitle : Scan.keywordText? "title" task.toText = none := by
    rw [Task.toText_eq]
    exact keywordText?_eq_none_of_colon (by decide) h.name.title _
  have hheading : Scan.keywordText? "section" task.toText = none := by
    rw [Task.toText_eq]
    exact keywordText?_eq_none_of_colon (by decide) h.name.heading _
  rw [Line.read?, haccessibility, htitle, hheading, task?_toText h hscore]
  rfl

/-- a task is a line of its own -/
theorem isLine_toText (h : task.IsPlain) (hscore : task.score.isFinite = true) : SourceLine.IsLine task.toText := by
  have hformat := Binary64.isTight_format hscore
  have hlast : endsWith isMark (task.score.format ++ actorsText task.actors) = true := by
    rw [actorsText]
    split
    · rw [List.append_nil]
      exact hformat.last
    · rename_i hne
      have hjoin : endsWith isMark (join ", " task.actors) = true := endsWith_join hne fun a ha => (h.actors a ha).1.tight.last
      exact endsWith_append _ (endsWith_cons ':' (endsWith_cons ' ' hjoin))
  rw [Task.toText_eq]
  refine ⟨.append h.name.tight.first (endsWith_cons ':' (endsWith_cons ' ' hlast)), ?_,
    SourceLine.comment_append h.name.tight.ne_nil h.name.comment (by decide) _⟩
  simp only [List.mem_append, List.mem_cons, not_or]
  exact ⟨h.name.lineFeed, by decide, by decide, Binary64.not_mem_format hscore (by decide),
    lineFeed_not_mem_actorsText fun a ha => (h.actors a ha).2⟩

theorem readLine_accessibility {line : AccessibilityLine} (h : line.IsPlain) (d : Journey) (hl : l.text = accessibilityText line) :
    readLine d l = .ok { d with accessibility := d.accessibility.put line } := by
  rw [readLine, hl, Line.read?, line?_accessibilityText h]
  rfl

theorem readLine_title (h : IsTight t) (d : Journey) (hl : l.text = "title " ++ t) :
    readLine d l = .ok { d with title := some t } := by
  have hnone : Accessibility.line? ("title " ++ t) = none := line?_eq_none rfl
  have htitle : Scan.keywordText? "title" ("title " ++ t) = some t := keywordText?_append h
  rw [readLine, hl, Line.read?, hnone, htitle]
  rfl

theorem readLine_heading (h : IsTight t) (d : Journey) (hl : l.text = "section " ++ t) :
    readLine d l = .ok { d with sections := d.sections ++ [⟨some t, []⟩] } := by
  have hnone : Accessibility.line? ("section " ++ t) = none := line?_eq_none rfl
  have htitle : Scan.keywordText? "title" ("section " ++ t) = none := rfl
  have hheading : Scan.keywordText? "section" ("section " ++ t) = some t := keywordText?_append h
  rw [readLine, hl, Line.read?, hnone, htitle, hheading]
  rfl

theorem readLine_task (h : task.IsPlain) (hscore : task.score.isFinite = true) (d : Journey) (hl : l.text = task.toText) :
    readLine d l = .ok { d with sections := addTask task.withoutMinusZero d.sections } := by
  have hspace : List.all [' '] isBlank = true := by decide
  have hitems : items ',' (join ", " task.actors) = task.actors :=
    items_join (b := []) rfl List.not_mem_nil hspace (by decide) fun a ha => (h.actors a ha).1
  have hnumber : ∀ offset, l.number? offset task.score.format = .ok task.score.withoutMinusZero := fun offset =>
    l.number?_format offset hscore (b := []) rfl
  rw [readLine, hl, read?_toText h hscore]
  simp only [TaskText.task, hnumber, hitems]
  rfl

/-! ## Journeys read back -/

/-- the tasks of a section under its heading -/
def Section.headed (s : Section) : Headed Task := ⟨s.name, s.tasks⟩

/-- what is read of tasks under a heading -/
def Section.ofHeaded (s : Headed Task) : Section := ⟨s.heading, s.items.map Task.withoutMinusZero⟩

theorem map_headed_addTask (task : Task) (ss : List Section) :
    (addTask task ss).map Section.headed = Headed.add (ss.map Section.headed) task := by
  fun_induction addTask task ss with
  | case1 => rfl
  | case2 s => rfl
  | case3 s ss hne ih =>
    have hne : ss.map Section.headed ≠ [] := fun h => hne (List.map_eq_nil_iff.1 h)
    rw [List.map_cons, ih, List.map_cons, Headed.add]
    exact hne

/-- tasks are added to what is read of others -/
theorem addTask_map_ofHeaded (task : Task) (ss : List (Headed Task)) :
    addTask task.withoutMinusZero (ss.map Section.ofHeaded) = (Headed.add ss task).map Section.ofHeaded :=
  Headed.map_add Section.ofHeaded (addTask task.withoutMinusZero) rfl (fun s => by simp [addTask, Section.ofHeaded])
    (fun _ _ _ => rfl) ss

theorem Section.lines_eq (o : RenderOptions) (s : Section) : s.lines o = s.headed.lines o Task.toText := rfl

/-- a section whose scores are all finite -/
def Section.HasFiniteScores (s : Section) : Prop := ∀ task ∈ s.tasks, task.score.isFinite = true

/-- what can be written of a journey is its texts and its sections, one after the other -/
theorem isPlain_iff : d.IsPlain ↔ (∀ t, d.title = some t → IsTight t ∧ '\n' ∉ t) ∧
    (∀ line ∈ d.accessibility.written, line.IsPlain) ∧ Headed.IsOutline Task.IsPlain (d.sections.map Section.headed) := by
  have hnames : (d.sections.map Section.headed).map Headed.heading = d.sections.map Section.name := List.map_map
  constructor
  · intro h
    have hsections : ∀ s ∈ d.sections.map Section.headed, ∃ s' ∈ d.sections, s'.headed = s := fun s hs => List.mem_map.1 hs
    refine ⟨h.title, h.accessibility, ?_, ?_, ?_, hnames ▸ h.named⟩ <;> intro s hs <;> obtain ⟨s, hmem, rfl⟩ := hsections s hs
    · exact (h.sections s hmem).name
    · exact (h.sections s hmem).tasks
    · exact (h.sections s hmem).ne_nil
  · rintro ⟨htitle, haccessibility, h⟩
    refine ⟨htitle, haccessibility, ?_, hnames ▸ h.named⟩
    intro s hs
    have hs := List.mem_map_of_mem (f := Section.headed) hs
    exact ⟨h.headings _ hs, h.items _ hs, h.ne_nil _ hs⟩

/-- **sections are read back**, the first of them with or without a name -/
theorem reads_sections (ho : '\n' ∉ o.unit) (h : d.IsPlain) (hscores : ∀ s ∈ d.sections, s.HasFiniteScores)
    (hd : d'.sections = []) :
    Reads readLine d' (d.sections.flatMap (Section.lines o))
      { d' with sections := d.sections.map Section.withoutMinusZero } false := by
  have houtline : Headed.IsOutline (fun task => task.IsPlain ∧ task.score.isFinite = true) (d.sections.map Section.headed) := by
    obtain ⟨-, -, hsections⟩ := isPlain_iff.1 h
    refine ⟨hsections.headings, ?_, hsections.ne_nil, hsections.named⟩
    intro s hs task htask
    refine ⟨hsections.items s hs task htask, ?_⟩
    obtain ⟨s, hmem, rfl⟩ := List.mem_map.1 hs
    exact hscores s hmem task htask
  have hreads : Reads readLine _ _ _ false :=
    Headed.reads_lines Task.toText (fun ss => ({ d' with sections := ss.map Section.ofHeaded } : Journey)) ho ?_ ?_ houtline
  · rw [List.flatMap_map, List.map_map, List.map_nil, ← hd] at hreads
    exact hreads
  · rintro task ⟨hplain, hscore⟩
    refine ⟨isLine_toText hplain hscore, fun ss l hl => ?_⟩
    rw [readLine_task hplain hscore _ hl, addTask_map_ofHeaded]
  · intro n hn ss l hl
    rw [readLine_heading hn _ hl, List.map_append]
    rfl

/-- the title and the accessibility texts are read back, before all sections -/
theorem reads_texts (ho : '\n' ∉ o.unit) (h : d.IsPlain) :
    Reads readLine {} (((present d.title).map (o.unit ++ "title " ++ ·)).toList ++ d.accessibility.lines o.unit)
      { title := present d.title, accessibility := d.accessibility.settled } false :=
  reads_preamble (fun t a => ({ title := t, accessibility := a } : Journey)) ho h.title h.accessibility (by simp)
    (fun _ ht _ hl => readLine_title ht _ hl) fun _ _ _ hline _ hl => readLine_accessibility hline _ hl

/-- **a journey is read back**: empty texts are left out, and minus zero loses its sign -/
theorem read_render_of_isPlain_journey (ho : '\n' ∉ o.unit) (h : d.IsPlain) (hscores : ∀ s ∈ d.sections, s.HasFiniteScores) :
    read (render d o) = .ok d.settled := by
  have hreads := (reads_texts ho h).append (reads_sections ho h hscores rfl)
  have hcontent : SourceLine.content? false "journey" = some ("journey" : Text) := by decide
  have hheader : Dialect.journey.header? "journey" = some [] := by decide +kernel
  obtain ⟨head, body, hsplit, hbody⟩ := hreads.run_ofLines (by decide) hcontent hheader
  rw [read, render, List.cons_append, List.cons_append, hsplit]
  exact hbody

/-! ## What is settled is written the same -/

theorem Task.toText_withoutMinusZero (task : Task) : task.withoutMinusZero.toText = task.toText := by
  rw [Task.toText_eq, Task.toText_eq, Task.withoutMinusZero, Binary64.format_withoutMinusZero]

theorem Section.lines_withoutMinusZero (o : RenderOptions) (s : Section) : s.withoutMinusZero.lines o = s.lines o := by
  rw [Section.lines, Section.lines, Section.withoutMinusZero]
  simp only [List.map_map, Function.comp_def, Task.toText_withoutMinusZero]

theorem render_settled (d : Journey) (o : RenderOptions) : render d.settled o = render d o := by
  rw [render, render, settled, present_present, Accessibility.lines_settled, List.flatMap_map]
  simp only [Section.lines_withoutMinusZero]

/-! ## What was read -/

/-- a task is added to a section that is there, or is the first of one -/
theorem isPlain_addTask (h : d.IsPlain) (htask : task.IsPlain) : IsPlain { d with sections := addTask task d.sections } := by
  obtain ⟨htitle, haccessibility, hsections⟩ := isPlain_iff.1 h
  refine isPlain_iff.2 ⟨htitle, haccessibility, ?_⟩
  rw [map_headed_addTask]
  exact Headed.isOutline_add hsections htask

/-- a section with a name may stand anywhere -/
theorem isPlain_addHeading (h : d.IsPlain) (ht : IsTight t ∧ '\n' ∉ t) :
    IsPlain { d with sections := d.sections ++ [⟨some t, []⟩] } := by
  obtain ⟨htitle, haccessibility, hsections⟩ := isPlain_iff.1 h
  refine isPlain_iff.2 ⟨htitle, haccessibility, ?_⟩
  rw [List.map_append]
  exact Headed.isOutline_addHeading hsections ht

/-- what is read of the line of a task can be written -/
theorem isPlain_of_task (hl : SourceLine.IsLine l.text) {t : TaskText} (h : Line.read? l.text = some (.task t))
    (htask : t.task l = .ok task) : task.IsPlain := by
  obtain ⟨score, -, rfl⟩ := exceptMap_eq_ok_iff.1 htask
  obtain ⟨name, rest, hline, -, -, -, hactors⟩ := exists_of_task? (of_read? h).2.2.2
  refine ⟨isTaskName_of_read hl h, ?_⟩
  intro a ha
  obtain ⟨hitem, hsub⟩ := isItem_of_mem_items ha
  refine ⟨hitem, ?_⟩
  intro hm
  have hrest : '\n' ∈ rest := hactors (hsub hm)
  exact hl.lineFeed (by simp [hline, hrest])

/-- **every line leaves a plain journey** -/
theorem isPlain_of_readLine (hl : SourceLine.IsLine l.text) (h : d.IsPlain) (hread : readLine d l = .ok d') : d'.IsPlain := by
  have htext : ∀ {w u : Text}, Scan.keywordText? w l.text = some u → IsTight u ∧ '\n' ∉ u := by
    intro w u hu
    exact ⟨isTight_of_keywordText? hu, fun hm => hl.lineFeed (Scan.keywordText?_subset hu hm)⟩
  rw [readLine] at hread
  cases hkind : Line.read? l.text with
  | none =>
    rw [hkind] at hread
    exact absurd hread (by simp)
  | some x =>
    rw [hkind] at hread
    have hrule := of_read? hkind
    cases x with
    | accessibility a =>
      obtain rfl := Except.ok.inj hread
      refine ⟨h.title, ?_, h.sections, h.named⟩
      intro line hline
      rcases Accessibility.mem_written_put hline with ⟨rfl, hne⟩ | hline
      · exact Accessibility.isPlain_of_line? hl.lineFeed hrule hne
      · exact h.accessibility line hline
    | title u =>
      obtain rfl := Except.ok.inj hread
      refine ⟨?_, h.accessibility, h.sections, h.named⟩
      intro t ht
      obtain rfl := Option.some.inj ht
      exact htext hrule
    | heading u =>
      obtain rfl := Except.ok.inj hread
      exact isPlain_addHeading h (htext hrule)
    | task t =>
      obtain ⟨task, htask, rfl⟩ := exceptMap_eq_ok_iff.1 hread
      exact isPlain_addTask h (isPlain_of_task hl hkind htask)

theorem isPlain_empty : IsPlain {} where
  title := by simp
  accessibility := by simp [Accessibility.written, present]
  sections := by simp
  named := by simp

theorem isPlain_of_read {text : Text} (h : read text = .ok d) : d.IsPlain := by
  refine invariant_of_foldlM (P := IsPlain) ?_ isPlain_empty h
  intro l hl d d' hd hread
  exact isPlain_of_readLine (isLine_of_mem_sourceLines (body_subset .journey _ hl)) hd hread

/-- **one round settles a journey**: the text of a journey that was read is read as the same journey, empty texts left out and
minus zero without its sign, and is the text of what is then read -/
theorem render_settled_of_read {text : Text} (h : read text = .ok d) (hscores : ∀ s ∈ d.sections, s.HasFiniteScores)
    (ho : '\n' ∉ o.unit) : read (render d o) = .ok d.settled ∧ render d.settled o = render d o :=
  ⟨read_render_of_isPlain_journey ho (isPlain_of_read h) hscores, render_settled d o⟩

/-- an empty text, names that begin like other lines, white space around the parts of a task, actors with colons and
semicolons, minus zero, and a section of nothing -/
def commute : Text :=
  "journey\n accTitle:\ntitles:3\n make  tea \t: -0 : cat:1 ,, me;\nsection Go: now\n accTitles : 5.0\n%: 1:\nsection Idle"

/-- what is read of it -/
def commuteJourney : Journey where
  sections := [⟨none, [⟨"titles", ⟨false, 4613937818241073152⟩, []⟩, ⟨"make  tea", ⟨true, 0⟩, ["cat:1", "me;"]⟩]⟩,
    ⟨some "Go: now", [⟨"accTitles", ⟨false, 4617315517961601024⟩, []⟩, ⟨"%", ⟨false, 4607182418800017408⟩, []⟩]⟩,
    ⟨some "Idle", []⟩]
  accessibility := ⟨some "", none⟩

theorem render_settled_of_read_commute : read commute = .ok commuteJourney ∧ (∀ s ∈ commuteJourney.sections, s.HasFiniteScores) ∧
    '\n' ∉ RenderOptions.default.unit ∧ read (render commuteJourney .default) = .ok commuteJourney.settled ∧
      render commuteJourney.settled .default = render commuteJourney .default := by
  have hread : read commute = .ok commuteJourney := by decide +kernel
  have hscores : ∀ s ∈ commuteJourney.sections, s.HasFiniteScores := by
    unfold Section.HasFiniteScores
    decide
  have hunit : '\n' ∉ RenderOptions.default.unit := by decide
  exact ⟨hread, hscores, hunit, render_settled_of_read hread hscores hunit⟩

end DiagramText.Journey

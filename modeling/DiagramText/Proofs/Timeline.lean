/-
Timelines read back. The name of a period is free text, and the rule for periods takes what four other rules leave. A name that
is no more than a keyword is left to it as long as neither white space nor a colon follows; where an event follows, both do, and
the printed line is claimed by the rule of the keyword. `IsUnmistakable` says that this does not happen to a period. Printed
timelines are always accepted (`exists_read_render_timeline`), and they are read as what was written exactly when no period is
mistakable (`read_render_iff_isUnmistakable`).
-/
import DiagramText.Proofs.Outline
import DiagramText.Proofs.Style
import DiagramText.Proofs.Text.Contents
import DiagramText.Proofs.Text.Words
import DiagramText.Timeline

namespace DiagramText.Timeline

open DiagramText.Text

/-! ## Timelines that can be written -/

/-- the name of a period: a line of its own, in which no keyword is found -/
structure IsPeriodName (name : Text) : Prop where
  line : SourceLine.IsLine name
  colon : ':' ∉ name
  title : Scan.keyword? "title" name = none
  heading : Scan.keyword? "section" name = none

/-- a period that can be written -/
structure Period.IsPlain (p : Period) : Prop where
  name : IsPeriodName p.name
  events : ∀ e ∈ p.events, IsItem ':' e ∧ '\n' ∉ e

/-- the periods of a section under its heading -/
def Section.headed (s : Section) : Headed Period := ⟨s.name, s.periods⟩

/-- what is read of periods under a heading -/
def Section.ofHeaded (s : Headed Period) : Section := ⟨s.heading, s.items⟩

/-- a timeline that can be written -/
structure IsPlain (d : Timeline) : Prop where
  title : ∀ t, d.title = some t → IsTight t ∧ '\n' ∉ t
  accessibility : ∀ line ∈ d.accessibility.written, line.IsPlain
  sections : Headed.IsOutline Period.IsPlain (d.sections.map Section.headed)

/-- a timeline without empty texts -/
def settled (d : Timeline) : Timeline where
  title := present d.title
  sections := d.sections
  accessibility := d.accessibility.settled

/-- the words that open lines of another kind when white space or a colon follows them -/
def IsKeyword (name : Text) : Prop :=
  name = "accTitle" ∨ name = "accDescr" ∨ name.map foldCase = "title" ∨ name.map foldCase = "section"

instance (name : Text) : Decidable (IsKeyword name) := inferInstanceAs (Decidable (_ ∨ _ ∨ _ ∨ _))

/-- a period whose line no other rule claims: no event follows a keyword -/
def Period.IsUnmistakable (p : Period) : Prop := p.events = [] ∨ ¬ IsKeyword p.name

instance (p : Period) : Decidable p.IsUnmistakable := inferInstanceAs (Decidable (_ ∨ _))

variable {d d' : Timeline} {l : SourceLine} {line name t : Text} {p : Period} {s : Section} {ss ss' : List Section}
  {events : List Text} {o : RenderOptions}

/-! ## Lines -/

/-- which rule a line was read by; a period is what the others leave -/
theorem of_read {x : Line} (h : Line.read line = x) :
    match x with
    | .accessibility a => Accessibility.line? line = some a
    | .title u => Scan.keywordText? "title" line = some u
    | .heading u => Scan.keywordText? "section" line = some u
    | .events es => ∃ rest, dropPrefix? ":" line = some rest ∧ items ':' rest = es
    | .period p => Accessibility.line? line = none ∧ Scan.keywordText? "title" line = none ∧
        Scan.keywordText? "section" line = none ∧ dropPrefix? ":" line = none ∧ periodOf line = p := by
  rw [Line.read] at h
  cases haccessibility : Accessibility.line? line with
  | some a =>
    obtain rfl : .accessibility a = x := by rwa [haccessibility] at h
    rfl
  | none =>
  cases htitle : Scan.keywordText? "title" line with
  | some u =>
    obtain rfl : .title u = x := by rwa [haccessibility, htitle] at h
    rfl
  | none =>
  cases hheading : Scan.keywordText? "section" line with
  | some u =>
    obtain rfl : .heading u = x := by rwa [haccessibility, htitle, hheading] at h
    rfl
  | none =>
  cases hevents : dropPrefix? ":" line with
  | some rest =>
    obtain rfl : .events (items ':' rest) = x := by rwa [haccessibility, htitle, hheading, hevents] at h
    exact ⟨rest, rfl, rfl⟩
  | none =>
    obtain rfl : .period (periodOf line) = x := by rwa [haccessibility, htitle, hheading, hevents] at h
    exact ⟨rfl, rfl, rfl, rfl, rfl⟩

/-- the rule for periods takes what the others leave -/
theorem read_of_none (haccessibility : Accessibility.line? line = none) (htitle : Scan.keywordText? "title" line = none)
    (hheading : Scan.keywordText? "section" line = none) (hevents : dropPrefix? ":" line = none) :
    Line.read line = .period (periodOf line) := by
  rw [Line.read, haccessibility, htitle, hheading, hevents]
  rfl

/-- the events of a period as they are written after its name -/
def eventsText (events : List Text) : Text := if events = [] then [] else ' ' :: ':' :: ' ' :: join " : " events

theorem Period.toText_eq (p : Period) : p.toText = p.name ++ eventsText p.events := by
  rw [Period.toText, eventsText]
  cases p.events with
  | nil => rw [join_singleton, if_pos rfl, List.append_nil]
  | cons e es =>
    rw [join_cons_cons, if_neg (List.cons_ne_nil e es), List.append_assoc]
    rfl

/-- what is printed for a period does not start with a colon -/
theorem dropPrefix?_toText (h : p.IsPlain) : dropPrefix? ":" p.toText = none := by
  obtain ⟨c, r, hname⟩ := List.exists_cons_of_ne_nil h.name.line.tight.ne_nil
  have hc : ':' ≠ c := by
    rintro rfl
    exact h.name.colon (by simp [hname])
  rw [Period.toText_eq, hname]
  exact if_neg hc

/-- **a period is read as it was written**, if the rule for periods reads it -/
theorem periodOf_toText (h : p.IsPlain) : periodOf p.toText = p := by
  obtain ⟨name, events⟩ := p
  rw [Period.toText_eq, eventsText]
  by_cases hevents : events = []
  · have hcut : cut? ":" name = none := cut?_eq_none_iff.2 h.name.colon
    simp only [hevents, if_pos, List.append_nil, periodOf, hcut, Option.getD_none, trim_of_isTight h.name.line.tight]
    rfl
  · have hcolon : ':' ∉ name ++ [' '] := by simp [h.name.colon]
    have hcut : cut? ":" (name ++ ' ' :: ':' :: ' ' :: join " : " events) = some (name ++ [' '], ' ' :: join " : " events) := by
      have hcut := cut?_of_not_mem hcolon (' ' :: join " : " events)
      rwa [List.append_assoc] at hcut
    have hname : trim (name ++ [' ']) = name := by
      rw [trim, trimLeft_of_startsWith (startsWith_append _ h.name.line.tight.first), trimRight_append (by decide),
        trimRight_of_endsWith h.name.line.tight.last]
    have hitems : items ':' (' ' :: join " : " events) = events := by
      have hspace : items ':' ([' '] ++ join " : " events) = items ':' (join " : " events) :=
        items_blank_append (by decide) (by decide) _
      exact hspace.trans (items_join (b := [' ']) (m := [' ']) (by decide) (by decide) (by decide) (by decide)
        fun e he => (h.events e he).1)
    simp only [if_neg hevents, periodOf, hcut, Option.getD_some, hname, hitems]

theorem startsWith_eventsText (h : p.IsPlain) (hevents : p.events ≠ []) :
    ∃ r, eventsText p.events = ' ' :: r ∧ Scan.startsWith isMark r = true ∧ '\n' ∉ r := by
  refine ⟨_, if_neg hevents, rfl, ?_⟩
  simp only [List.mem_cons, not_or]
  refine ⟨by decide, by decide, fun hm => ?_⟩
  rcases mem_of_mem_join hm with hm | ⟨e, he, hm⟩
  · exact absurd hm (by decide)
  · exact (h.events e he).2 hm

/-- **the line of a period is read as that period exactly when no other rule claims it** -/
theorem read_toText_iff (h : p.IsPlain) : Line.read p.toText = .period p ↔ p.IsUnmistakable := by
  have hcolon : dropPrefix? ":" p.toText = none := dropPrefix?_toText h
  have hrules : Line.read p.toText = .period p ↔ Accessibility.line? p.toText = none ∧
      Scan.keywordText? "title" p.toText = none ∧ Scan.keywordText? "section" p.toText = none := by
    refine ⟨fun hread => ?_, fun ⟨haccessibility, htitle, hheading⟩ => ?_⟩
    · obtain ⟨haccessibility, htitle, hheading, -⟩ := of_read hread
      exact ⟨haccessibility, htitle, hheading⟩
    · rw [read_of_none haccessibility htitle hheading hcolon, periodOf_toText h]
  rw [hrules, Period.toText_eq, Period.IsUnmistakable]
  by_cases hevents : p.events = []
  · -- no keyword is found in a name alone
    have htext : p.name ++ eventsText p.events = p.name := by rw [eventsText, if_pos hevents, List.append_nil]
    have hkeyword : ∀ {w : Text}, Scan.keyword? w p.name = none → Scan.keywordText? w p.name = none := by
      intro w hw
      rw [Scan.keywordText?, hw]
      rfl
    rw [htext]
    simp only [hevents, true_or, iff_true]
    exact ⟨line?_eq_none_of_colon h.name.colon, hkeyword h.name.title, hkeyword h.name.heading⟩
  · have hname := h.name.line.tight
    obtain ⟨r, hr, hmark, hlf⟩ := startsWith_eventsText h hevents
    have haccessibility : Accessibility.line? (p.name ++ eventsText p.events) = none ↔
        p.name ≠ "accTitle" ∧ p.name ≠ "accDescr" := by
      have hlf : '\n' ∉ ' ' :: join " : " p.events := by
        rw [eventsText, if_neg hevents] at hr
        obtain rfl := (List.cons.inj hr).2
        exact fun hm => hlf (List.mem_cons_of_mem ':' hm)
      rw [eventsText, if_neg hevents]
      exact line?_eq_none_iff (b := [' ']) hname h.name.colon (by decide) hlf
    have htitle : Scan.keywordText? "title" (p.name ++ eventsText p.events) = none ↔ p.name.map foldCase ≠ "title" := by
      rw [hr]
      exact keywordText?_space_eq_none_iff (by decide) h.name.title hmark
    have hheading : Scan.keywordText? "section" (p.name ++ eventsText p.events) = none ↔ p.name.map foldCase ≠ "section" := by
      rw [hr]
      exact keywordText?_space_eq_none_iff (by decide) h.name.heading hmark
    rw [haccessibility, htitle, hheading, IsKeyword]
    simp only [hevents, false_or, not_or, ne_eq, and_assoc]

/-- a period is a line of its own -/
theorem isLine_toText (h : p.IsPlain) : SourceLine.IsLine p.toText := by
  rw [Period.toText_eq]
  by_cases hevents : p.events = []
  · rw [eventsText, if_pos hevents, List.append_nil]
    exact h.name.line
  · obtain ⟨r, hr, -, hlf⟩ := startsWith_eventsText h hevents
    have hlast : endsWith isMark (eventsText p.events) = true := by
      have hjoin : endsWith isMark (join " : " p.events) = true := endsWith_join hevents fun e he => (h.events e he).1.tight.last
      rw [eventsText, if_neg hevents]
      exact endsWith_cons ' ' (endsWith_cons ':' (endsWith_cons ' ' hjoin))
    refine ⟨.append h.name.line.tight.first hlast, ?_, ?_⟩
    · rw [hr]
      simp [h.name.line.lineFeed, hlf]
    · rw [hr]
      exact SourceLine.comment_append h.name.line.tight.ne_nil h.name.line.comment (by decide) r

theorem read_accessibilityText {line : AccessibilityLine} (h : line.IsPlain) :
    Line.read (accessibilityText line) = .accessibility line := by
  rw [Line.read, line?_accessibilityText h]
  rfl

theorem read_title (h : IsTight t) : Line.read ("title " ++ t) = .title t := by
  have hnone : Accessibility.line? ("title " ++ t) = none := line?_eq_none rfl
  have htitle : Scan.keywordText? "title" ("title " ++ t) = some t := keywordText?_append h
  rw [Line.read, hnone, htitle]
  rfl

theorem read_heading (h : IsTight t) : Line.read ("section " ++ t) = .heading t := by
  have hnone : Accessibility.line? ("section " ++ t) = none := line?_eq_none rfl
  have htitle : Scan.keywordText? "title" ("section " ++ t) = none := rfl
  have hheading : Scan.keywordText? "section" ("section " ++ t) = some t := keywordText?_append h
  rw [Line.read, hnone, htitle, hheading]
  rfl

theorem readLine_accessibility {line : AccessibilityLine} (h : line.IsPlain) (d : Timeline) (hl : l.text = accessibilityText line) :
    readLine d l = .ok { d with accessibility := d.accessibility.put line } := by
  rw [readLine, hl, read_accessibilityText h]

theorem readLine_title (h : IsTight t) (d : Timeline) (hl : l.text = "title " ++ t) :
    readLine d l = .ok { d with title := some t } := by
  rw [readLine, hl, read_title h]

theorem readLine_heading (h : IsTight t) (d : Timeline) (hl : l.text = "section " ++ t) :
    readLine d l = .ok { d with sections := d.sections ++ [⟨some t, []⟩] } := by
  rw [readLine, hl, read_heading h]

theorem readLine_period (h : p.IsPlain) (hp : p.IsUnmistakable) (d : Timeline) (hl : l.text = p.toText) :
    readLine d l = .ok { d with sections := addPeriod p d.sections } := by
  rw [readLine, hl, (read_toText_iff h).2 hp]

/-! ## Timelines read back -/

/-- the periods of all sections -/
def periods (d : Timeline) : List Period := d.sections.flatMap Section.periods

theorem addPeriod_map_ofHeaded (p : Period) (ss : List (Headed Period)) :
    addPeriod p (ss.map Section.ofHeaded) = (Headed.add ss p).map Section.ofHeaded :=
  Headed.map_add Section.ofHeaded (addPeriod p) rfl (fun _ => rfl) (fun _ _ _ => rfl) ss

/-- **a timeline without mistakable periods is read back**, empty texts left out -/
theorem read_render_of_isPlain_timeline (ho : '\n' ∉ o.unit) (h : d.IsPlain) (hd : ∀ p ∈ d.periods, p.IsUnmistakable) :
    read (render d o) = .ok d.settled := by
  have hpreamble : Reads readLine {} _ _ false :=
    reads_preamble (fun t a => ({ title := t, accessibility := a } : Timeline)) ho h.title h.accessibility (by simp)
      (fun _ ht _ hl => readLine_title ht _ hl) fun _ _ _ hline _ hl => readLine_accessibility hline _ hl
  have houtline : Headed.IsOutline (fun p => p.IsPlain ∧ p.IsUnmistakable) (d.sections.map Section.headed) := by
    refine ⟨h.sections.headings, ?_, h.sections.ne_nil, h.sections.named⟩
    intro s hs p hp
    refine ⟨h.sections.items s hs p hp, ?_⟩
    obtain ⟨s, hmem, rfl⟩ := List.mem_map.1 hs
    exact hd p (List.mem_flatMap.2 ⟨s, hmem, hp⟩)
  have hsections : Reads readLine _ _ _ false := Headed.reads_lines Period.toText (fun ss =>
    ({ title := present d.title, accessibility := d.accessibility.settled, sections := ss.map Section.ofHeaded } : Timeline))
    ho ?_ ?_ houtline
  · have hreads := hpreamble.append hsections
    rw [List.flatMap_map, List.map_map] at hreads
    have hcontent : SourceLine.content? false "timeline" = some ("timeline" : Text) := by decide
    have hheader : Dialect.timeline.header? "timeline" = some [] := by decide +kernel
    obtain ⟨head, body, hsplit, hbody⟩ := hreads.run_ofLines (by decide) hcontent hheader
    have hself : d.sections.map (Section.ofHeaded ∘ Section.headed) = d.sections := List.map_id d.sections
    rw [hself] at hbody
    rw [read, render, List.cons_append, List.cons_append]
    exact hsplit ▸ hbody
  · rintro p ⟨hplain, hp⟩
    refine ⟨isLine_toText hplain, fun ss l hl => ?_⟩
    rw [readLine_period hplain hp _ hl, addPeriod_map_ofHeaded]
  · intro n hn ss l hl
    rw [readLine_heading hn _ hl, List.map_append]
    rfl

theorem render_settled (d : Timeline) (o : RenderOptions) : render d.settled o = render d o := by
  rw [render, render, settled, present_present, Accessibility.lines_settled]

/-! ## What was read -/

theorem map_headed_addPeriod (p : Period) (ss : List Section) :
    (addPeriod p ss).map Section.headed = Headed.add (ss.map Section.headed) p := by
  have hself : ∀ hs : List (Headed Period), (hs.map Section.ofHeaded).map Section.headed = hs := fun hs => by
    rw [List.map_map]
    exact List.map_id hs
  have hback : (ss.map Section.headed).map Section.ofHeaded = ss := by
    rw [List.map_map]
    exact List.map_id ss
  have hadd := addPeriod_map_ofHeaded p (ss.map Section.headed)
  rw [hback] at hadd
  rw [hadd, hself]

/-- a continuation goes to the last period of the last section -/
theorem exists_of_continue? (h : continue? events ss = some ss') :
    ∃ before s ps p, ss = before ++ [s] ∧ s.periods = ps ++ [p] ∧
      ss' = before ++ [{ s with periods := ps ++ [{ p with events := p.events ++ events }] }] := by
  have hlast : ∀ {ps ps' : List Period}, addEvents? events ps = some ps' →
      ∃ before p, ps = before ++ [p] ∧ ps' = before ++ [{ p with events := p.events ++ events }] := by
    intro ps ps' hps
    fun_induction addEvents? events ps generalizing ps' with
    | case1 => exact absurd hps (by simp)
    | case2 p => exact ⟨[], p, rfl, (Option.some.inj hps).symm⟩
    | case3 p ps hne ih =>
      obtain ⟨rest, hrest, rfl⟩ := Option.map_eq_some_iff.1 hps
      obtain ⟨before, q, rfl, rfl⟩ := ih hrest
      exact ⟨p :: before, q, rfl, rfl⟩
  fun_induction continue? events ss generalizing ss' with
  | case1 => exact absurd h (by simp)
  | case2 s =>
    obtain ⟨ps, hps, rfl⟩ := Option.map_eq_some_iff.1 h
    obtain ⟨before, p, hperiods, rfl⟩ := hlast hps
    exact ⟨[], s, before, p, rfl, hperiods, rfl⟩
  | case3 s ss hne ih =>
    obtain ⟨rest, hrest, rfl⟩ := Option.map_eq_some_iff.1 h
    obtain ⟨before, s', ps, p, rfl, hperiods, rfl⟩ := ih hrest
    exact ⟨s :: before, s', ps, p, rfl, hperiods, rfl⟩

theorem isPlain_continue (h : d.IsPlain) (hevents : ∀ e ∈ events, IsItem ':' e ∧ '\n' ∉ e)
    (hcontinue : continue? events d.sections = some ss') : IsPlain { d with sections := ss' } := by
  obtain ⟨before, s, ps, p, hsections, hperiods, rfl⟩ := exists_of_continue? hcontinue
  have houtline := h.sections
  rw [hsections, List.map_append, List.map_singleton] at houtline
  have hplain : ∀ q ∈ ps ++ [p], q.IsPlain := hperiods ▸ houtline.items s.headed (by simp)
  refine ⟨h.title, h.accessibility, ?_⟩
  rw [List.map_append, List.map_singleton]
  refine Headed.isOutline_concat houtline ?_ (by simp)
  intro q hq
  rcases List.mem_append.1 hq with hq | hq
  · exact hplain q (List.mem_append_left _ hq)
  · obtain rfl := List.mem_singleton.1 hq
    have hp := hplain p (by simp)
    exact ⟨hp.name, fun e he => (List.mem_append.1 he).elim (hp.events e) (hevents e)⟩

/-- items of a line are events that can be written -/
theorem isEvent_of_mem_items {u : Text} (hu : '\n' ∉ u) : ∀ e ∈ items ':' u, IsItem ':' e ∧ '\n' ∉ e := by
  intro e he
  obtain ⟨hitem, hsub⟩ := isItem_of_mem_items he
  exact ⟨hitem, fun hm => hu (hsub hm)⟩

/-- **a period that was read can be written** -/
theorem isPlain_of_read_period (hl : SourceLine.IsLine line) (h : Line.read line = .period p) : p.IsPlain := by
  obtain ⟨-, htitle, hheading, hcolon, rfl⟩ := of_read h
  rw [periodOf]
  cases hcut : cut? ":" line with
  | none =>
    have hname : ':' ∉ line := cut?_eq_none_iff.1 hcut
    have hkeyword : ∀ {w : Text}, Scan.keywordText? w line = none → Scan.keyword? w line = none := by
      intro w hw
      exact keyword?_eq_none_of_append hl.tight (r := []) (by rwa [List.append_nil])
    rw [Option.getD_none]
    dsimp only
    rw [trim_of_isTight hl.tight]
    exact ⟨⟨hl, hname, hkeyword htitle, hkeyword hheading⟩, by simp [items, splitOn, trim, trimLeft, trimRight, dropRightWhile]⟩
  | some parts =>
    obtain ⟨before, rest⟩ := parts
    obtain ⟨hname, rfl⟩ := cut?_eq_some (c := ':') hcut
    have hne : before ≠ [] := by
      rintro rfl
      exact absurd hcolon (by simp [dropPrefix?])
    obtain ⟨htight, b, -, hb⟩ := hl.isTight_trim hne
    -- the line starts with the name as it is kept
    have hline : trim before ++ (b ++ ':' :: rest) = before ++ ':' :: rest := by rw [← List.append_assoc, hb]
    have hlineFeed : '\n' ∉ trim before := fun hm => hl.lineFeed (List.mem_append_left _ (mem_of_mem_trim hm))
    have hrest : '\n' ∉ rest := fun hm => hl.lineFeed (by simp [hm])
    have hkept : SourceLine.IsLine (trim before) := ⟨htight, hlineFeed, SourceLine.comment_of_isPrefix ⟨_, hline⟩ hl.comment⟩
    rw [← hline] at htitle hheading
    rw [Option.getD_some]
    exact ⟨⟨hkept, fun hm => hname (mem_of_mem_trim hm), keyword?_eq_none_of_append htight htitle,
      keyword?_eq_none_of_append htight hheading⟩, isEvent_of_mem_items hrest⟩

/-- **every line leaves a plain timeline** -/
theorem isPlain_of_readLine (hl : SourceLine.IsLine l.text) (h : d.IsPlain) (hread : readLine d l = .ok d') : d'.IsPlain := by
  have htext : ∀ {w u : Text}, Scan.keywordText? w l.text = some u → IsTight u ∧ '\n' ∉ u := by
    intro w u hu
    exact ⟨isTight_of_keywordText? hu, fun hm => hl.lineFeed (Scan.keywordText?_subset hu hm)⟩
  rw [readLine] at hread
  cases hkind : Line.read l.text with
  | accessibility a =>
    rw [hkind] at hread
    obtain rfl := Except.ok.inj hread
    refine ⟨h.title, fun line hline => ?_, h.sections⟩
    rcases Accessibility.mem_written_put hline with ⟨rfl, hne⟩ | hline
    · exact Accessibility.isPlain_of_line? hl.lineFeed (of_read hkind) hne
    · exact h.accessibility line hline
  | title u =>
    rw [hkind] at hread
    obtain rfl := Except.ok.inj hread
    exact ⟨fun t ht => Option.some.inj ht ▸ htext (of_read hkind), h.accessibility, h.sections⟩
  | heading u =>
    rw [hkind] at hread
    obtain rfl := Except.ok.inj hread
    refine ⟨h.title, h.accessibility, ?_⟩
    rw [List.map_append]
    exact Headed.isOutline_addHeading h.sections (htext (of_read hkind))
  | period p =>
    rw [hkind] at hread
    obtain rfl := Except.ok.inj hread
    refine ⟨h.title, h.accessibility, ?_⟩
    rw [map_headed_addPeriod]
    exact Headed.isOutline_add h.sections (isPlain_of_read_period hl hkind)
  | events es =>
    rw [hkind] at hread
    dsimp only at hread
    obtain ⟨rest, hrest, rfl⟩ := of_read hkind
    cases hcontinue : continue? (items ':' rest) d.sections with
    | none =>
      rw [hcontinue] at hread
      exact absurd hread (by simp)
    | some ss =>
      rw [hcontinue] at hread
      obtain rfl := Except.ok.inj hread
      exact isPlain_continue h (isEvent_of_mem_items fun hm => hl.lineFeed (dropPrefix?_subset hrest hm)) hcontinue

theorem isPlain_empty : IsPlain {} where
  title := by simp
  accessibility := by simp [Accessibility.written, present]
  sections := Headed.isOutline_nil

theorem isPlain_of_read {text : Text} (h : read text = .ok d) : d.IsPlain := by
  refine invariant_of_foldlM (P := IsPlain) ?_ isPlain_empty h
  intro l hl d d' hd hread
  exact isPlain_of_readLine (isLine_of_mem_sourceLines (body_subset .timeline _ hl)) hd hread

/-! ## What printed timelines are read as -/

/-- what the lines below the header say -/
def texts (d : Timeline) : List Text :=
  preambleTexts d.title d.accessibility ++ d.sections.flatMap fun s => s.headed.texts Period.toText

/-- how far lines are indented is not read -/
theorem contents_render (d : Timeline) (o : RenderOptions) :
    contents false (render d o) = ("timeline" : Text) :: d.texts.flatMap (contents false) := by
  have hheader : contents false "timeline" = ["timeline"] := by decide
  have hsections : (d.sections.flatMap (Section.lines o)).flatMap (contents false)
      = (d.sections.flatMap fun s => s.headed.texts Period.toText).flatMap (contents false) := by
    rw [List.flatMap_assoc, List.flatMap_assoc]
    exact List.flatMap_congr fun s _ => s.headed.flatMap_contents_lines false o Period.toText
  have hpreamble := flatMap_contents_preamble false o d.title d.accessibility
  rw [List.flatMap_append] at hpreamble
  rw [render, contents_ofLines, List.cons_append, List.cons_append, List.flatMap_cons, hheader, texts, List.flatMap_append,
    List.flatMap_append, List.flatMap_append, hpreamble, hsections]
  rfl

/-- what is read of each line below the header -/
theorem mem_texts (h : d.IsPlain) (ht : t ∈ d.texts) :
    (∃ line, Line.read t = .accessibility line) ∨ (∃ u, Line.read t = .title u) ∨ (∃ n, Line.read t = .heading n) ∨
      ∃ p ∈ d.periods, p.IsPlain ∧ p.toText = t := by
  rcases List.mem_append.1 ht with ht | ht
  · rcases mem_preambleTexts.1 ht with ⟨u, hu, rfl⟩ | ⟨line, hline, rfl⟩
    · exact Or.inr (Or.inl ⟨u, read_title (h.title u (present_eq_some_iff.1 hu).1).1⟩)
    · exact Or.inl ⟨line, read_accessibilityText (h.accessibility line hline)⟩
  · obtain ⟨s, hs, ht⟩ := List.mem_flatMap.1 ht
    have hmem : s.headed ∈ d.sections.map Section.headed := List.mem_map_of_mem hs
    rcases Headed.mem_texts.1 ht with ⟨n, hn, rfl⟩ | ⟨p, hp, rfl⟩
    · exact Or.inr (Or.inr (Or.inl ⟨n, read_heading (h.sections.headings _ hmem n hn).1⟩))
    · exact Or.inr (Or.inr (Or.inr ⟨p, List.mem_flatMap.2 ⟨s, hs, hp⟩, h.sections.items _ hmem p hp, rfl⟩))

/-- the lines that are read below the header -/
theorem map_text_body_render (h : d.IsPlain) (o : RenderOptions) :
    (splitHeader .timeline (sourceLines false (render d o))).2.map SourceLine.text = d.texts := by
  have hplain : ∀ t ∈ d.texts, SourceLine.IsLine t := by
    intro t ht
    rcases List.mem_append.1 ht with ht | ht
    · exact isLine_of_mem_preambleTexts h.title h.accessibility t ht
    · obtain ⟨s, hs, ht⟩ := List.mem_flatMap.1 ht
      exact Headed.isLine_of_mem_texts h.sections (fun p hp => isLine_toText hp) (List.mem_map_of_mem hs) t ht
  have hheader : (Dialect.timeline.header? "timeline").isSome = true := by decide +kernel
  have hcontents : (sourceLines false (render d o)).map SourceLine.text = ("timeline" : Text) :: d.texts := by
    rw [map_text_sourceLines]
    change contents false (render d o) = _
    rw [contents_render, flatMap_contents_of_isLine hplain]
  rw [map_text_splitHeader, hcontents, belowHeader, if_pos hheader]

/-- what no line after the header continues is taken over -/
theorem exists_readLine (hl : ∀ events, Line.read l.text ≠ .events events) (d : Timeline) : ∃ d', readLine d l = .ok d' := by
  rw [readLine]
  cases hkind : Line.read l.text with
  | events es => exact absurd hkind (hl es)
  | _ => exact ⟨_, rfl⟩

/-- **a printed timeline is always accepted**, whatever its periods are taken for -/
theorem exists_read_render_of_isPlain (h : d.IsPlain) (o : RenderOptions) : ∃ d', read (render d o) = .ok d' := by
  have hlines : ∀ l ∈ (splitHeader .timeline (sourceLines false (render d o))).2, ∀ events, Line.read l.text ≠ .events events := by
    intro l hl events hread
    have ht : l.text ∈ d.texts := map_text_body_render h o ▸ List.mem_map_of_mem hl
    rcases mem_texts h ht with ⟨line, hline⟩ | ⟨u, hu⟩ | ⟨n, hn⟩ | ⟨p, -, hp, htext⟩
    · exact Line.noConfusion (hread.symm.trans hline)
    · exact Line.noConfusion (hread.symm.trans hu)
    · exact Line.noConfusion (hread.symm.trans hn)
    · obtain ⟨rest, hrest, -⟩ := of_read hread
      rw [← htext, dropPrefix?_toText hp] at hrest
      exact absurd hrest (by simp)
  exact exists_of_foldlM (fun l hl d => exists_readLine (hlines l hl) d) {}

/-- whether a line holds a period -/
def Line.isPeriod : Line → Bool
  | .period _ => true
  | _ => false

theorem length_periods_addPeriod (p : Period) (ss : List Section) :
    ((addPeriod p ss).flatMap Section.periods).length = (ss.flatMap Section.periods).length + 1 := by
  fun_induction addPeriod p ss with
  | case1 => rfl
  | case2 s => simp
  | case3 s ss hne ih =>
    rw [List.flatMap_cons, List.flatMap_cons, List.length_append, List.length_append, ih]
    rfl

/-- a line that holds a period adds one, any other line none -/
theorem length_periods_of_readLine (h : readLine d l = .ok d') :
    d'.periods.length = d.periods.length + if (Line.read l.text).isPeriod then 1 else 0 := by
  rw [readLine] at h
  cases hkind : Line.read l.text with
  | accessibility a =>
    rw [hkind] at h
    obtain rfl := Except.ok.inj h
    rfl
  | title u =>
    rw [hkind] at h
    obtain rfl := Except.ok.inj h
    rfl
  | heading u =>
    rw [hkind] at h
    obtain rfl := Except.ok.inj h
    simp [periods, Line.isPeriod]
  | period p =>
    rw [hkind] at h
    obtain rfl := Except.ok.inj h
    exact length_periods_addPeriod p d.sections
  | events es =>
    rw [hkind] at h
    dsimp only at h
    cases hcontinue : continue? es d.sections with
    | none =>
      rw [hcontinue] at h
      exact absurd h (by simp)
    | some ss =>
      rw [hcontinue] at h
      obtain rfl := Except.ok.inj h
      obtain ⟨before, s, ps, p, hsections, hperiods, rfl⟩ := exists_of_continue? hcontinue
      simp [periods, hsections, hperiods, Line.isPeriod]

/-- among the lines below the header, those of the unmistakable periods are read as periods -/
theorem countP_texts (h : d.IsPlain) :
    d.texts.countP (fun t => (Line.read t).isPeriod) = d.periods.countP (fun p => decide p.IsUnmistakable) := by
  have hperiod : ∀ p : Period, p.IsPlain → (Line.read p.toText).isPeriod = decide p.IsUnmistakable := by
    intro p hp
    by_cases hunmistakable : p.IsUnmistakable
    · rw [(read_toText_iff hp).2 hunmistakable, decide_eq_true hunmistakable]
      rfl
    · cases hkind : Line.read p.toText with
      | period q =>
        obtain ⟨-, -, -, -, rfl⟩ := of_read hkind
        exact absurd ((read_toText_iff hp).1 (hkind.trans (by rw [periodOf_toText hp]))) hunmistakable
      | _ => exact (decide_eq_false hunmistakable).symm
  have hpreamble : (preambleTexts d.title d.accessibility).countP (fun t => (Line.read t).isPeriod) = 0 := by
    rw [List.countP_eq_zero]
    intro t ht
    rcases mem_preambleTexts.1 ht with ⟨u, hu, rfl⟩ | ⟨line, hline, rfl⟩
    · rw [read_title (h.title u (present_eq_some_iff.1 hu).1).1]
      exact Bool.false_ne_true
    · rw [read_accessibilityText (h.accessibility line hline)]
      exact Bool.false_ne_true
  have hsection : ∀ s ∈ d.sections, (s.headed.texts Period.toText).countP (fun t => (Line.read t).isPeriod)
      = s.periods.countP (fun p => decide p.IsUnmistakable) := by
    intro s hs
    have hmem : s.headed ∈ d.sections.map Section.headed := List.mem_map_of_mem hs
    have hheading : (s.headed.heading.map fun n : Text => "section " ++ n).toList.countP (fun t => (Line.read t).isPeriod) = 0 := by
      rw [List.countP_eq_zero]
      intro t ht
      obtain ⟨n, hn, rfl⟩ := Option.map_eq_some_iff.1 (Option.mem_toList.1 ht)
      rw [read_heading (h.sections.headings _ hmem n hn).1]
      exact Bool.false_ne_true
    rw [Headed.texts, List.countP_append, hheading, Nat.zero_add, List.countP_map]
    refine List.countP_congr fun p hp => ?_
    rw [Function.comp_apply, hperiod p (h.sections.items _ hmem p hp)]
  rw [texts, List.countP_append, hpreamble, Nat.zero_add, List.countP_flatMap, periods, List.countP_flatMap]
  exact congrArg List.sum (List.map_congr_left hsection)

/-- **exactly the timelines without mistakable periods are read as what was written** -/
theorem read_render_iff_of_isPlain (ho : '\n' ∉ o.unit) (h : d.IsPlain) :
    read (render d o) = .ok d.settled ↔ ∀ p ∈ d.periods, p.IsUnmistakable := by
  refine ⟨fun hread => ?_, read_render_of_isPlain_timeline ho h⟩
  have hcount := count_of_foldlM (fun hstep => length_periods_of_readLine hstep) hread
  have hbody : (splitHeader .timeline (sourceLines false (render d o))).2.countP (fun l => (Line.read l.text).isPeriod)
      = d.periods.countP fun p => decide p.IsUnmistakable := by
    rw [← countP_texts h, ← map_text_body_render h o, List.countP_map]
    rfl
  rw [hbody] at hcount
  have hall : d.periods.countP (fun p => decide p.IsUnmistakable) = d.periods.length :=
    (hcount.trans (Nat.zero_add _)).symm
  intro p hp
  exact of_decide_eq_true (List.countP_eq_length.1 hall p hp)

/-- the text of a timeline that was read is accepted -/
theorem exists_read_render_timeline {text : Text} (h : read text = .ok d) (o : RenderOptions) : ∃ d', read (render d o) = .ok d' :=
  exists_read_render_of_isPlain (isPlain_of_read h) o

/-- **one round settles a timeline exactly when no period is mistakable**: the text of a timeline that was read is read as the
same timeline, empty texts left out -/
theorem read_render_iff_isUnmistakable {text : Text} (h : read text = .ok d) (ho : '\n' ∉ o.unit) :
    read (render d o) = .ok d.settled ↔ ∀ p ∈ d.periods, p.IsUnmistakable :=
  read_render_iff_of_isPlain ho (isPlain_of_read h)

/-- **the text of a timeline without mistakable periods is the text of what is read of it** -/
theorem render_read_of_isUnmistakable {text : Text} (h : read text = .ok d) (hd : ∀ p ∈ d.periods, p.IsUnmistakable)
    (ho : '\n' ∉ o.unit) : (read (render d o)).map (render · o) = .ok (render d o) := by
  rw [(read_render_iff_isUnmistakable h ho).2 hd, Except.map, render_settled]

/-- a period named like the accessibility title, with an event on a line of its own -/
def mistaken : Text := "timeline\naccTitle\n: foo"

/-- the condition is needed: the period is printed as the accessibility title, and is lost when that is read -/
theorem render_read_mistaken : read mistaken = .ok { sections := [⟨none, [⟨"accTitle", ["foo"]⟩]⟩] } ∧
    (read (render { sections := [⟨none, [⟨"accTitle", ["foo"]⟩]⟩] } .default)).map (render · .default)
      = .ok "timeline\n    accTitle: foo" ∧
    render { sections := [⟨none, [⟨"accTitle", ["foo"]⟩]⟩] } .default = "timeline\n    accTitle : foo" := by
  refine ⟨?_, ?_, ?_⟩ <;> decide +kernel

end DiagramText.Timeline

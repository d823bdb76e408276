/-
The rules of a pie chart, line by line. What a rule makes of a line does not depend on the lines that follow (`IsLocal`), and the
rules for whole lines do not look at the spaces and tabs before it either (`IsLineRule`). So a document is a matter of what every
line is on its own (`document_unlines_eq`), and it stops at one of the lines.
-/
import DiagramText.Proofs.PieChart.Document

namespace DiagramText.PieChart

open DiagramText.Text

variable {α β : Type} {t l : Text} {ls : List Text}

/-! ## Rules that look at one line -/

/-- a rule that takes a part of a line, whatever follows the line -/
def IsLocal (rule : Text → Option (α × Text)) : Prop :=
  ∀ t, '\n' ∉ t → ∃ taken : Option (α × Text), (∀ x ∈ taken, '\n' ∉ x.2) ∧
    ∀ r, rule (t ++ '\n' :: r) = taken.map fun x => (x.1, x.2 ++ '\n' :: r)

/-- a step over a part of a line, whatever follows the line -/
def IsLocalStep (step : Text → Option Text) : Prop :=
  ∀ t, '\n' ∉ t → ∃ left : Option Text, (∀ u ∈ left, '\n' ∉ u) ∧ ∀ r, step (t ++ '\n' :: r) = left.map (· ++ '\n' :: r)

theorem unpad_append_lineFeed (t r : Text) : unpad (t ++ '\n' :: r) = unpad t ++ '\n' :: r :=
  congrArg Prod.snd (span_append_of_stop (by decide : isPadding '\n' = false) t r)

theorem lineFeed_not_mem_unpad (h : '\n' ∉ t) : '\n' ∉ unpad t := fun hm => h ((List.dropWhile_sublist isPadding).subset hm)

section

variable {step step' : Text → Option Text} {rule rule' : Text → Option (α × Text)}

theorem IsLocalStep.unpad (h : IsLocalStep step) : IsLocalStep fun t => step (PieChart.unpad t) := by
  intro t ht
  simp only [unpad_append_lineFeed]
  exact h _ (lineFeed_not_mem_unpad ht)

theorem IsLocal.unpad (h : IsLocal rule) : IsLocal fun t => rule (PieChart.unpad t) := by
  intro t ht
  simp only [unpad_append_lineFeed]
  exact h _ (lineFeed_not_mem_unpad ht)

theorem IsLocalStep.trans (h : IsLocalStep step) (h' : IsLocalStep step') : IsLocalStep fun t => (step t).bind step' := by
  intro t ht
  obtain ⟨left, hleft, hstep⟩ := h t ht
  simp only [hstep]
  cases left with
  | none => exact ⟨none, by simp, fun _ => rfl⟩
  | some u => exact h' u (hleft u rfl)

theorem IsLocalStep.bind (h : IsLocalStep step) (h' : IsLocal rule) : IsLocal fun t => (step t).bind rule := by
  intro t ht
  obtain ⟨left, hleft, hstep⟩ := h t ht
  simp only [hstep]
  cases left with
  | none => exact ⟨none, by simp, fun _ => rfl⟩
  | some u => exact h' u (hleft u rfl)

theorem IsLocal.bind {next : α → Text → Option (β × Text)} (h : IsLocal rule) (h' : ∀ a, IsLocal (next a)) :
    IsLocal fun t => (rule t).bind fun x => next x.1 x.2 := by
  intro t ht
  obtain ⟨taken, htaken, hrule⟩ := h t ht
  simp only [hrule]
  cases taken with
  | none => exact ⟨none, by simp, fun _ => rfl⟩
  | some x => exact h' x.1 x.2 (htaken x rfl)

theorem IsLocal.map (f : α → β) (h : IsLocal rule) : IsLocal fun t => (rule t).map fun x => (f x.1, x.2) := by
  intro t ht
  obtain ⟨taken, htaken, hrule⟩ := h t ht
  refine ⟨taken.map fun x => (f x.1, x.2), fun y hy => ?_, fun r => ?_⟩
  · obtain ⟨x, hx, rfl⟩ := Option.map_eq_some_iff.1 hy
    exact htaken x hx
  · dsimp only
    rw [hrule, Option.map_map, Option.map_map]
    rfl

theorem IsLocal.orElse (h : IsLocal rule) (h' : IsLocal rule') : IsLocal fun t => rule t <|> rule' t := by
  intro t ht
  obtain ⟨taken, htaken, hrule⟩ := h t ht
  simp only [hrule]
  cases taken with
  | none => simpa using h' t ht
  | some x => exact ⟨some x, htaken, fun _ => rfl⟩

end

/-! ## Parts of lines -/

theorem isLocalStep_dropPrefix? {w : Text} (hw : '\n' ∉ w) : IsLocalStep (dropPrefix? w) := fun t ht =>
  ⟨dropPrefix? w t, fun _ hu hm => ht (dropPrefix?_subset hu hm), dropPrefix?_append_of_stop hw t⟩

theorem isLocalStep_dropWord? {w : Text} (hw : foldLetter '\n' ∉ w.map foldLetter) : IsLocalStep (dropWord? w) := by
  refine fun t ht => ⟨dropWord? w t, fun u hu hm => ht ?_, dropFolded?_append_of_stop hw t⟩
  obtain ⟨pre, rfl, -⟩ := dropFolded?_eq_some hu
  exact List.mem_append_right pre hm

theorem isLocalStep_unpad? : IsLocalStep unpad? := by
  intro t ht
  refine ⟨unpad? t, fun u hu hm => ht ?_, fun r => ?_⟩
  · obtain ⟨a, -, -, rfl⟩ := exists_of_unpad? hu
    exact List.mem_append_right a hm
  · cases t with
    | nil => rfl
    | cons c t =>
      rw [List.cons_append, unpad?, unpad?, unpad_append_lineFeed]
      split <;> rfl

/-- where a line ends does not depend on what follows it -/
theorem exists_lineEnd? (ht : '\n' ∉ t) : ∃ ends : Bool, ∀ r, lineEnd? (t ++ '\n' :: r) = if ends then some r else none := by
  have hu := lineFeed_not_mem_unpad ht
  obtain ⟨v, hv, hlf⟩ : ∃ v, (∀ r, (dropPrefix? ";" (unpad t ++ '\n' :: r)).getD (unpad t ++ '\n' :: r) = v ++ '\n' :: r) ∧
      '\n' ∉ v := by
    obtain ⟨left, hleft, hstep⟩ := isLocalStep_dropPrefix? (by decide : '\n' ∉ (";" : Text)) _ hu
    simp only [hstep]
    cases left with
    | none => exact ⟨unpad t, fun _ => rfl, hu⟩
    | some v => exact ⟨v, fun _ => rfl, hleft v rfl⟩
  have hend : ∀ r, lineEnd? (t ++ '\n' :: r) = dropPrefix? "\n" (unpad v ++ '\n' :: r) := by
    intro r
    rw [lineEnd?, unpad_append_lineFeed, hv, unpad_append_lineFeed]
  simp only [hend]
  cases hw : unpad v with
  | nil => exact ⟨true, fun _ => rfl⟩
  | cons c w =>
    have hc : '\n' ≠ c := fun e => lineFeed_not_mem_unpad hlf (hw ▸ e ▸ List.mem_cons_self)
    exact ⟨false, fun r => if_neg hc⟩

theorem isLocal_remark? : IsLocal remark? := by
  have hscan : ∀ (f : Text → Text) (t : Text), '\n' ∉ t → ∃ taken : Option (Text × Text), (∀ x ∈ taken, '\n' ∉ x.2) ∧
      ∀ r, Scan.shortest Scan.notLineFeed (fun run rest => if (lineEnd? rest).isSome then some (f run, rest) else none)
        (t ++ '\n' :: r) = taken.map fun x => (x.1, x.2 ++ '\n' :: r) := by
    intro f t ht
    induction t generalizing f with
    | nil =>
      refine ⟨some (f [], []), by simp, fun r => ?_⟩
      rw [List.nil_append, Scan.shortest, lineEnd?_lineFeed]
      rfl
    | cons c t ih =>
      obtain ⟨ends, hends⟩ := exists_lineEnd? ht
      cases ends with
      | true =>
        refine ⟨some (f [], c :: t), by simpa using ht, fun r => ?_⟩
        rw [List.cons_append, Scan.shortest, ← List.cons_append, hends]
        rfl
      | false =>
        obtain ⟨hc, ht⟩ := not_or.1 (mt List.mem_cons.2 ht)
        obtain ⟨taken, htaken, hrest⟩ := ih (fun run => f (c :: run)) ht
        refine ⟨taken, htaken, fun r => ?_⟩
        have hmark : Scan.notLineFeed c = true := decide_eq_true (Ne.symm hc)
        rw [List.cons_append, Scan.shortest, ← List.cons_append, hends, if_pos hmark, hrest]
        rfl
  exact fun t ht => hscan trim t ht

theorem isLocal_label? : IsLocal label? := by
  intro t ht
  by_cases hlabel : ∃ label rest, t = '"' :: (label ++ '"' :: rest) ∧ '"' ∉ label
  · obtain ⟨label, rest, rfl, hquote⟩ := hlabel
    simp only [List.mem_cons, List.mem_append, not_or] at ht
    refine ⟨some ('"' :: (label ++ ['"']), rest), by simpa using ht.2.2.2, fun r => ?_⟩
    have hline := label?_append hquote ht.2.1 (rest ++ '\n' :: r)
    simpa using hline
  · refine ⟨none, by simp, fun r => Option.eq_none_iff_forall_not_mem.2 fun x hx => hlabel ?_⟩
    obtain ⟨label, hquote, hlf, htoken, hsplit⟩ := exists_of_label? hx
    obtain ⟨rest, hrest, -⟩ := exists_of_append_eq (by rw [htoken]; simp [hlf]) hsplit.symm
    exact ⟨label, rest, by rw [hrest, htoken]; simp, hquote⟩

theorem isLocal_read? : IsLocal Decimal.read? := by
  refine fun t ht => ⟨Decimal.read? t, fun x hx hm => ht ?_, Decimal.read?_append_of_stop (by decide) (by decide) t⟩
  obtain ⟨n, hn, -⟩ := Decimal.exists_of_read? hx
  exact hn ▸ List.mem_append_right n hm

theorem isLocal_accessible? {keyword : Text} (hk : '\n' ∉ keyword) : IsLocal (accessible? keyword) :=
  (isLocalStep_dropPrefix? hk).bind ((isLocalStep_dropPrefix? (by decide : '\n' ∉ (":" : Text))).unpad.bind isLocal_remark?.unpad)

theorem isLocal_title? : IsLocal title? :=
  ((isLocalStep_dropWord? (by decide +kernel)).trans isLocalStep_unpad?).bind isLocal_remark?

theorem isLocal_slice? : IsLocal slice? := by
  have hcolon : IsLocalStep fun t => dropPrefix? ":" (unpad t) := (isLocalStep_dropPrefix? (by decide)).unpad
  have hnumber (token : Text) : IsLocal fun t =>
      (Decimal.read? (unpad t)).map fun x => ((⟨unquote token, x.1.value⟩ : Slice), x.2) :=
    (isLocal_read?.map fun number => (⟨unquote token, number.value⟩ : Slice)).unpad
  exact isLocal_label?.bind fun token => hcolon.bind (hnumber token)

theorem isLocal_said? : IsLocal said? :=
  have htitle : IsLocal (accessible? "accTitle") := isLocal_accessible? (by decide)
  have hdescription : IsLocal (accessible? "accDescr") := isLocal_accessible? (by decide)
  (htitle.map fun v => Line.accessibility (.title v)).orElse ((hdescription.map fun v => Line.accessibility (.description v)).orElse
    ((isLocal_title?.map Line.title).orElse (isLocal_slice?.map Line.slice)))

/-! ## Whole lines -/

/-- a rule that takes a line as a whole, whatever follows it, and looks neither at the spaces nor at the tabs before it -/
structure IsLineRule (rule : Text → Option (α × Text)) : Prop where
  unpad : ∀ t, rule (unpad t) = rule t
  line : ∀ t, '\n' ∉ t → ∃ taken : Option α, ∀ r, rule (t ++ '\n' :: r) = taken.map (·, r)
  nil : rule [] = none

theorem isLineRule_blank? : IsLineRule blank? where
  unpad t := by rw [blank?, blank?, unpad_unpad]
  nil := takesLines_blank?.eq_none_nil
  line t ht := by
    have hu := lineFeed_not_mem_unpad ht
    obtain ⟨v, hv, hlf⟩ : ∃ v, (∀ r, (comment? (PieChart.unpad t ++ '\n' :: r)).getD (PieChart.unpad t ++ '\n' :: r)
        = v ++ '\n' :: r) ∧ '\n' ∉ v := by
      obtain ⟨left, hleft, hstep⟩ := isLocalStep_dropPrefix? (by decide : '\n' ∉ ("%%" : Text)) _ hu
      simp only [comment?, hstep]
      cases left with
      | none => exact ⟨PieChart.unpad t, fun _ => rfl, hu⟩
      | some u =>
        have hdrop : ∀ r, (u ++ '\n' :: r).dropWhile Scan.notLineFeed = '\n' :: r := fun r =>
          congrArg Prod.snd (span_of_all (notLineFeed_of_not_mem (hleft u rfl)) (by rfl))
        exact ⟨[], hdrop, List.not_mem_nil⟩
    obtain ⟨ends, hends⟩ := exists_lineEnd? hlf
    refine ⟨if ends then some .blank else none, fun r => ?_⟩
    rw [blank?, unpad_append_lineFeed, hv, hends]
    cases ends <;> rfl

theorem isLineRule_statement? : IsLineRule statement? where
  unpad t := by rw [statement?, statement?, unpad_unpad]
  nil := takesLines_statement?.eq_none_nil
  line t ht := by
    obtain ⟨taken, htaken, hsaid⟩ := isLocal_said?.unpad t ht
    simp only [statement?, hsaid]
    cases taken with
    | none => exact ⟨none, fun _ => rfl⟩
    | some x =>
      obtain ⟨ends, hends⟩ := exists_lineEnd? (htaken x rfl)
      refine ⟨if ends then some x.1 else none, fun r => ?_⟩
      simp only [Option.map_some, Option.bind_some, hends]
      cases ends <;> rfl

theorem isLineRule_line? : IsLineRule line? where
  unpad t := by rw [line?, line?, isLineRule_blank?.unpad, isLineRule_statement?.unpad]
  nil := takesLines_line?.eq_none_nil
  line t ht := by
    obtain ⟨blank, hblank⟩ := isLineRule_blank?.line t ht
    obtain ⟨said, hsaid⟩ := isLineRule_statement?.line t ht
    refine ⟨blank <|> said, fun r => ?_⟩
    rw [line?, hblank, hsaid]
    cases blank <;> cases said <;> rfl

theorem isLineRule_header? : IsLineRule header? where
  unpad t := by rw [header?, header?, unpad_unpad]
  nil := takesLines_header?.eq_none_nil
  line t ht := by
    have hpie : IsLocalStep (dropWord? "pie") := isLocalStep_dropWord? (by decide +kernel)
    have hshow : IsLocalStep (dropWord? "showData") := isLocalStep_dropWord? (by decide +kernel)
    obtain ⟨left, hleft, hkeyword⟩ := hpie.unpad t ht
    simp only [header?, hkeyword]
    cases left with
    | none => exact ⟨none, fun _ => rfl⟩
    | some u =>
      have hu := hleft u rfl
      have hword : ∀ r, Scan.startsWith isWordOrHyphen (u ++ '\n' :: r) = Scan.startsWith isWordOrHyphen u := by
        intro r
        cases u <;> rfl
      obtain ⟨data, hdata, hshowData⟩ := (isLocalStep_unpad?.trans hshow) u hu
      have hv : '\n' ∉ data.getD u := by
        cases data with
        | none => exact hu
        | some v => exact hdata v rfl
      have hrestData : ∀ r, (data.map (· ++ '\n' :: r)).getD (u ++ '\n' :: r) = data.getD u ++ '\n' :: r := by
        intro r
        cases data <;> rfl
      obtain ⟨heading, hheading, htitle⟩ := (isLocalStep_unpad?.bind isLocal_title?) _ hv
      have hw : '\n' ∉ (heading.map Prod.snd).getD (data.getD u) := by
        cases heading with
        | none => exact hv
        | some x => exact hheading x rfl
      have hrestHeading : ∀ r, ((heading.map fun x => (x.1, x.2 ++ '\n' :: r)).map Prod.snd).getD (data.getD u ++ '\n' :: r)
          = (heading.map Prod.snd).getD (data.getD u) ++ '\n' :: r := by
        intro r
        cases heading <;> rfl
      have hfirst : ∀ r, (heading.map fun x => (x.1, x.2 ++ '\n' :: r)).map Prod.fst = heading.map Prod.fst := by
        intro r
        cases heading <;> rfl
      obtain ⟨ends, hends⟩ := exists_lineEnd? hw
      refine ⟨if Scan.startsWith isWordOrHyphen u then none
        else if ends then some { title := heading.map Prod.fst, showData := data.isSome } else none, fun r => ?_⟩
      simp only [Option.map_some, Option.bind_some, hword, hshowData, hrestData, htitle, hrestHeading, hfirst, hends,
        Option.isSome_map]
      cases Scan.startsWith isWordOrHyphen u <;> cases ends <;> rfl

/-! ## Documents as lines -/

/-- what a rule makes of a line on its own -/
def onLine (rule : Text → Option (α × Text)) (l : Text) : Option α := (rule (l ++ ['\n'])).map Prod.fst

/-- the rule takes the line -/
def takesLine (rule : Text → Option (α × Text)) (l : Text) : Bool := (onLine rule l).isSome

/-- the chart that the first line begins, and the lines below its header -/
def headed (ls : List Text) : PieChart × List Text :=
  match ls with
  | [] => ({}, [])
  | l :: below =>
    match onLine header? l with
    | none => ({}, l :: below)
    | some c => (c, below)

/-- what the first lines say to the chart, and the lines from the first that is none of the chart's -/
def continued (c : PieChart) (ls : List Text) : PieChart × List Text :=
  (((ls.takeWhile (takesLine line?)).filterMap (onLine line?)).foldl apply c, ls.dropWhile (takesLine line?))

/-- the chart of the first lines, and the lines that are left -/
def documentOfLines (ls : List Text) : PieChart × List Text :=
  let (c, below) := headed (ls.dropWhile (takesLine blank?))
  continued c below

/-- a rule that takes whole lines -/
theorem IsLineRule.eq_onLine {rule : Text → Option (α × Text)} (h : IsLineRule rule) (hl : '\n' ∉ l) (r : Text) :
    rule (l ++ '\n' :: r) = (onLine rule l).map (·, r) := by
  obtain ⟨taken, htaken⟩ := h.line l hl
  have hline : onLine rule l = taken := by
    rw [onLine, htaken []]
    cases taken <;> rfl
  rw [hline, htaken]

theorem IsLineRule.many_unlines {rule : Text → Option (α × Text)} (h : IsLineRule rule) (hls : ∀ l ∈ ls, '\n' ∉ l) :
    Scan.many rule (unlines ls)
      = ((ls.takeWhile (takesLine rule)).filterMap (onLine rule), unlines (ls.dropWhile (takesLine rule))) := by
  induction ls with
  | nil => exact Scan.many_of_none h.nil
  | cons l ls ih =>
    have hl := h.eq_onLine (hls l List.mem_cons_self) (unlines ls)
    rw [unlines_cons]
    cases hx : onLine rule l with
    | none =>
      have hstop : ¬ takesLine rule l = true := by simp [takesLine, hx]
      rw [hx] at hl
      rw [List.takeWhile_cons_of_neg hstop, List.dropWhile_cons_of_neg hstop, Scan.many_of_none hl, unlines_cons]
      rfl
    | some x =>
      have htakes : takesLine rule l = true := by simp [takesLine, hx]
      rw [List.takeWhile_cons_of_pos htakes, List.dropWhile_cons_of_pos htakes, List.filterMap_cons_some hx]
      rw [hx] at hl
      exact Scan.many_cons hl (by simp; omega) (ih fun m hm => hls m (List.mem_cons_of_mem l hm))

theorem header?_unlines (hls : ∀ l ∈ ls, '\n' ∉ l) :
    (header? (unlines ls)).getD ({}, unlines ls) = ((headed ls).1, unlines (headed ls).2) := by
  cases ls with
  | nil =>
    rw [unlines_nil, isLineRule_header?.nil]
    rfl
  | cons l below =>
    rw [unlines_cons, isLineRule_header?.eq_onLine (hls l List.mem_cons_self), headed]
    cases onLine header? l <;> simp

theorem headed_suffix (ls : List Text) : (headed ls).2 <:+ ls := by
  cases ls with
  | nil => exact List.nil_suffix
  | cons l below =>
    rw [headed]
    cases onLine header? l with
    | none => exact List.suffix_rfl
    | some c => exact List.suffix_cons l below

/-- **a document is read line by line** -/
theorem document_unlines_eq (hls : ∀ l ∈ ls, '\n' ∉ l) :
    document (unlines ls) = ((documentOfLines ls).1, unlines (documentOfLines ls).2) := by
  have hbelow : ∀ l ∈ ls.dropWhile (takesLine blank?), '\n' ∉ l := fun l hl => hls l ((List.dropWhile_suffix _).subset hl)
  have htail : ∀ l ∈ (headed (ls.dropWhile (takesLine blank?))).2, '\n' ∉ l := fun l hl =>
    hbelow l ((headed_suffix _).subset hl)
  rw [document, isLineRule_blank?.many_unlines hls]
  dsimp only
  rw [header?_unlines hbelow]
  dsimp only
  rw [isLineRule_line?.many_unlines htail]
  rfl

theorem documentOfLines_suffix (ls : List Text) : (documentOfLines ls).2 <:+ ls :=
  (List.dropWhile_suffix _).trans ((headed_suffix _).trans (List.dropWhile_suffix _))

/-! ## Reading lines -/

/-- the result of a document of so many lines: its chart, or the error at the first of the lines that are left -/
def conclude (count : Nat) (d : PieChart × List Text) : Except ParseError PieChart :=
  match d.2 with
  | [] => .ok d.1
  | l :: below => .error ⟨count - below.length, 1, .unexpectedText (l.take 40)⟩

/-- reads the lines of a pie chart -/
def readLines (ls : List Text) : Except ParseError PieChart := conclude ls.length (documentOfLines ls)

theorem read_eq_of_unlines {text : Text} (h : terminated (unifyLineEnds text) = unlines ls) (hls : ∀ l ∈ ls, '\n' ∉ l) :
    read text = readLines ls := by
  obtain ⟨passed, hpassed⟩ := documentOfLines_suffix ls
  rw [read, h, document_unlines_eq hls, readLines, conclude]
  cases hrest : (documentOfLines ls).2 with
  | nil => rfl
  | cons l below =>
    have hsplit : ls = passed ++ l :: below := by rw [← hpassed, hrest]
    have herror : unexpected (unlines ls) (unlines (l :: below)) = ⟨ls.length - below.length, 1, .unexpectedText (l.take 40)⟩ := by
      have hlength : ls.length - below.length = passed.length + 1 := by
        rw [hsplit, List.length_append, List.length_cons]
        omega
      rw [hlength, hsplit, unexpected_unlines (hsplit ▸ hls)]
    dsimp only
    rw [← herror]
    cases hnil : unlines (l :: below) with
    | nil => exact absurd hnil (by simp)
    | cons x rest => rfl

end DiagramText.PieChart

/-
Members of classes read back. Reading a member loses white space only, and what is left when it is written again is read
in the same way: a method is known by an opening and a later closing parenthesis (`method?_eq_none_iff`), whatever stands
around them, and an attribute by its words. `read?_toText` holds of every member that some text is read as.
-/
import DiagramText.ClassDiagram.Member
import DiagramText.Proofs.Text.Names
import DiagramText.Proofs.Text.Words

namespace DiagramText.ClassDiagram

open DiagramText.Text

/-- a member that a text is read as, one without line feeds and semicolons -/
def Member.IsRead (m : Member) : Prop := ∃ t : Text, '\n' ∉ t ∧ ';' ∉ t ∧ Member.read? t = some m

namespace Member

/-! ## Visibility -/

/-- what can stand after a mark of visibility: trimmed, and without a mark of its own where there is none -/
structure IsBody (v : Visibility) (u : Text) : Prop where
  trimmed : trim u = u
  unmarked : v = .unmarked → ∃ c r, u = c :: r ∧ c ∉ (['+', '-', '#', '~'] : List Char)

variable {v : Visibility} {u t : Text} {m : Member}

theorem IsBody.isTight (h : IsBody v u) : IsTight (v.mark ++ u) := by
  have hbody : u = [] ∨ IsTight u := trim_eq_self_iff.1 h.trimmed
  by_cases hv : v = .unmarked
  · obtain ⟨c, r, rfl, -⟩ := h.unmarked hv
    subst hv
    exact hbody.resolve_left (by simp)
  · have hmark : IsTight v.mark := by cases v <;> first | exact absurd rfl hv | decide
    rcases hbody with rfl | hu
    · rwa [List.append_nil]
    · exact .append hmark.first hu.last

theorem visibilityMark_append (h : IsBody v u) : visibilityMark (v.mark ++ u) = (v, u) := by
  have hmarked : ∀ w : Visibility, (w, trim u) = (w, u) := fun w => by rw [h.trimmed]
  cases v with
  | unmarked =>
    obtain ⟨c, r, rfl, hc⟩ := h.unmarked rfl
    simp only [List.mem_cons, List.not_mem_nil, or_false, not_or] at hc
    change visibilityMark (c :: r) = _
    unfold visibilityMark
    split
    · rename_i e
      exact absurd (List.cons.inj e).1 hc.1
    · rename_i e
      exact absurd (List.cons.inj e).1 hc.2.1
    · rename_i e
      exact absurd (List.cons.inj e).1 hc.2.2.1
    · rename_i e
      exact absurd (List.cons.inj e).1 hc.2.2.2
    · rfl
  | «public» => exact hmarked _
  | «private» => exact hmarked _
  | «protected» => exact hmarked _
  | package => exact hmarked _

/-- a tight text is a mark of visibility and what stands after it -/
theorem isBody_visibilityMark (ht : IsTight t) {v : Visibility} {u : Text} (h : visibilityMark t = (v, u)) :
    IsBody v u ∧ ∀ c ∈ u, c ∈ t := by
  have hmarked : ∀ (w : Visibility) (c : Char) (r : Text), w ≠ .unmarked → (w, trim r) = (v, u) →
      IsBody v u ∧ ∀ x ∈ u, x ∈ c :: r := by
    intro w c r hw e
    obtain ⟨rfl, rfl⟩ := Prod.mk.inj e
    exact ⟨⟨trim_trim r, fun e => absurd e hw⟩, fun x hx => List.mem_cons_of_mem c (mem_of_mem_trim hx)⟩
  unfold visibilityMark at h
  split at h
  · exact hmarked _ _ _ (by simp) h
  · exact hmarked _ _ _ (by simp) h
  · exact hmarked _ _ _ (by simp) h
  · exact hmarked _ _ _ (by simp) h
  · rename_i h1 h2 h3 h4
    obtain ⟨rfl, rfl⟩ := Prod.mk.inj h
    obtain ⟨c, r, rfl, -⟩ := exists_cons_of_startsWith ht.first
    refine ⟨⟨trim_of_isTight ht, fun _ => ⟨c, r, rfl, ?_⟩⟩, fun x hx => hx⟩
    simp only [List.mem_cons, List.not_mem_nil, or_false, not_or]
    exact ⟨fun e => h1 r (by rw [e]), fun e => h2 r (by rw [e]), fun e => h3 r (by rw [e]), fun e => h4 r (by rw [e])⟩

theorem dropRightWhile_of_not_mem {c : Char} (h : c ∉ t) : dropRightWhile (· = c) t = t := by
  cases hlast : t.getLast? with
  | none =>
    rw [List.getLast?_eq_none_iff.1 hlast]
    rfl
  | some d =>
    refine dropRightWhile_of_endsWith ?_
    have hd : d ≠ c := fun e => h (e ▸ List.mem_of_getLast? hlast)
    simp [endsWith, hlast, hd]

/-- what a text with a body is read as -/
theorem read?_of_isTight (ht : IsTight t) (hs : ';' ∉ t) (h : visibilityMark t = (v, u)) :
    read? t = some ((method? v u).getD (attributeOf v u)) := by
  have hbody : trim (dropRightWhile (· = ';') (trim t)) = t := by
    rw [trim_of_isTight ht, dropRightWhile_of_not_mem hs, trim_of_isTight ht]
  unfold read?
  dsimp only
  rw [hbody, if_neg ht.ne_nil, h]

/-- a text is read as what its body says: the text without the white space at its ends and the semicolons at its end -/
theorem exists_of_read? (h : read? t = some m) :
    ∃ v u, IsBody v u ∧ (∀ c ∈ u, c ∈ t) ∧ m = (method? v u).getD (attributeOf v u) := by
  unfold read? at h
  dsimp only at h
  split at h
  · exact absurd h (by simp)
  · rename_i hne
    obtain ⟨hb, hsub⟩ := isBody_visibilityMark (isTight_trim hne) (rfl : visibilityMark _ = (_, _))
    refine ⟨_, _, hb, fun c hc => ?_, (Option.some.inj h).symm⟩
    exact mem_of_mem_trim ((dropRightWhile_isPrefix _ _).subset (mem_of_mem_trim (hsub c hc)))

/-! ## Methods -/

/-- a method by its parentheses -/
theorem method?_append (v : Visibility) {name params r : Text} (hname : '(' ∉ name) (hparams : ')' ∉ params) :
    method? v (name ++ '(' :: (params ++ ')' :: r))
      = (Scan.line? (Scan.blanks (classifier r).2)).map fun result =>
          ⟨v, trim name, present (some (trim result)), some (trim params), (classifier r).1.1, (classifier r).1.2⟩ := by
  simp only [method?, span_append_cons hname, span_append_cons hparams]

/-- a text with an opening and a later closing parenthesis -/
theorem exists_of_parentheses (h : ['(', ')'].Sublist t) :
    ∃ name params r, t = name ++ '(' :: (params ++ ')' :: r) ∧ '(' ∉ name ∧ ')' ∉ params := by
  obtain ⟨name, rest, rfl, hname⟩ := List.eq_append_cons_of_mem (h.subset (by simp : '(' ∈ ['(', ')']))
  have hclose : ')' ∈ rest := by
    rcases List.sublist_append_iff.1 h with ⟨l₁, l₂, e, h₁, h₂⟩
    cases l₁ with
    | nil =>
      rw [List.nil_append] at e
      subst e
      exact (List.cons_sublist_cons.1 h₂).subset (by simp)
    | cons c l₁ =>
      obtain ⟨rfl, -⟩ := List.cons.inj e
      exact absurd (h₁.subset (by simp)) hname
  obtain ⟨params, r, rfl, hparams⟩ := List.eq_append_cons_of_mem hclose
  exact ⟨name, params, r, rfl, hname, hparams⟩

theorem classifier_subset (r : Text) : ∀ c ∈ (classifier r).2, c ∈ r := by
  unfold classifier
  split
  · exact fun c hc => List.mem_cons_of_mem _ hc
  · exact fun c hc => List.mem_cons_of_mem _ hc
  · exact fun c hc => hc

/-- the result of a method holds no line feed, so it is read -/
theorem line?_result {r : Text} (h : '\n' ∉ r) : Scan.line? (Scan.blanks (classifier r).2) = some (Scan.blanks (classifier r).2) :=
  line?_of_not_mem fun hm => h (classifier_subset r _ ((List.dropWhile_sublist isBlank).subset hm))

/-- **a text is no method** where no opening parenthesis has a closing one after it -/
theorem method?_eq_none_iff (hf : '\n' ∉ t) : method? v t = none ↔ ¬ ['(', ')'].Sublist t := by
  constructor
  · intro h hsub
    obtain ⟨name, params, r, rfl, hname, hparams⟩ := exists_of_parentheses hsub
    rw [method?_append v hname hparams, line?_result fun hm => hf (by simp [hm])] at h
    exact absurd h (by simp)
  · intro hsub
    by_cases hopen : '(' ∈ t
    · obtain ⟨name, rest, rfl, hname⟩ := List.eq_append_cons_of_mem hopen
      have hclose : ')' ∉ rest := fun hm =>
        hsub ((List.singleton_sublist.2 hm).cons_cons '(' |>.trans (List.sublist_append_right name _))
      simp only [method?, span_append_cons hname, span_of_not_mem hclose]
    · simp only [method?, span_of_not_mem hopen]

/-- the mark of a member that is static or abstract -/
def classifierMark (isStatic isAbstract : Bool) : Text := if isStatic then "$" else if isAbstract then "*" else []

/-- what stands after the parameters of a method -/
def resultText (result : Text) : Text := if result = [] then [] else ' ' :: result

theorem classifier_mark (r result : Text) :
    classifier (classifierMark (classifier r).1.1 (classifier r).1.2 ++ resultText result) = ((classifier r).1, resultText result) := by
  have hmark : (classifier r).1 = (true, false) ∨ (classifier r).1 = (false, true) ∨ (classifier r).1 = (false, false) := by
    unfold classifier
    split <;> simp
  rcases hmark with e | e | e
  · rw [e]
    rfl
  · rw [e]
    rfl
  · rw [e]
    change classifier (resultText result) = _
    unfold resultText
    split <;> rfl

theorem startsWith_trim {p : Char → Bool} (hb : Scan.startsWith isMark t = true) (h : Scan.startsWith p t = true) :
    Scan.startsWith p (trim t) = true := by
  rw [trim, trimLeft_of_startsWith hb]
  obtain ⟨c, r, rfl, -⟩ := exists_cons_of_startsWith hb
  have hne : trimRight (c :: r) ≠ [] := trimRight_ne_nil hb
  obtain ⟨s, hs⟩ := dropRightWhile_isPrefix isBlank (c :: r)
  cases ht : trimRight (c :: r) with
  | nil => exact absurd ht hne
  | cons d w =>
    change trimRight (c :: r) ++ s = c :: r at hs
    rw [ht, List.cons_append] at hs
    obtain ⟨rfl, -⟩ := List.cons.inj hs
    exact h

theorem mem_classifierMark {c : Char} {isStatic isAbstract : Bool} (h : c ∈ classifierMark isStatic isAbstract) :
    c = '$' ∨ c = '*' := by
  cases isStatic <;> cases isAbstract <;> simp_all [classifierMark]

theorem mem_resultText {c : Char} {result : Text} (h : c ∈ resultText result) : c = ' ' ∨ c ∈ result := by
  unfold resultText at h
  split at h
  · exact absurd h (by simp)
  · exact List.mem_cons.1 h

/-- a method ends with its result, its mark or the closing parenthesis -/
theorem endsWith_resultText {result : Text} (h : trim result = result) (isStatic isAbstract : Bool) :
    endsWith isMark (')' :: (classifierMark isStatic isAbstract ++ resultText result)) = true := by
  unfold resultText
  split
  · cases isStatic <;> cases isAbstract <;> decide
  · rename_i hne
    exact endsWith_cons ')' (endsWith_append _ (endsWith_cons ' ' ((trim_eq_self_iff.1 h).resolve_left hne).last))

theorem toText_parameters (v : Visibility) (name params result : Text) (isStatic isAbstract : Bool) :
    toText ⟨v, name, present (some result), some params, isStatic, isAbstract⟩
      = v.mark ++ (name ++ '(' :: (params ++ ')' :: (classifierMark isStatic isAbstract ++ resultText result))) := by
  have hopen : ("(" : Text) = ['('] := rfl
  have hclose : (")" : Text) = [')'] := rfl
  have hspace : (" " : Text) = [' '] := rfl
  unfold toText resultText
  dsimp only
  rw [hopen, hclose, hspace, ← classifierMark]
  by_cases he : result = []
  · subst he
    have hp : present (present (some [])) = none := rfl
    rw [hp, if_pos rfl]
    simp
  · have hp : present (present (some result)) = some result := by simp [present, he]
    rw [hp, if_neg he]
    simp

/-- what can stand without a mark of visibility does not start with one -/
def notVisibility (c : Char) : Bool := c ∉ (['+', '-', '#', '~'] : List Char)

theorem IsBody.startsWith (h : IsBody .unmarked u) :
    Scan.startsWith isMark u = true ∧ Scan.startsWith notVisibility u = true := by
  obtain ⟨c, r, e, hc⟩ := h.unmarked rfl
  refine ⟨?_, by rw [e]; exact decide_eq_true hc⟩
  exact ((trim_eq_self_iff.1 h.trimmed).resolve_left (by simp [e])).first

theorem isBody_of_startsWith (ht : trim u = u) (h : v = .unmarked → Scan.startsWith notVisibility u = true) : IsBody v u where
  trimmed := ht
  unmarked hv := by
    obtain ⟨c, r, e, hc⟩ := exists_cons_of_startsWith (h hv)
    exact ⟨c, r, e, of_decide_eq_true hc⟩

/-- **methods** are written as what they are read from, less the white space around each part -/
theorem toText_method (hb : IsBody v u) (hf : '\n' ∉ u) (h : method? v u = some m) :
    ∃ w, m.toText = v.mark ++ w ∧ IsBody v w ∧ (∀ c ∈ w, c ∈ u ∨ c ∈ ([' ', '$', '*'] : List Char)) ∧ method? v w = some m := by
  have hsub : ['(', ')'].Sublist u := by
    by_contra hsub
    rw [(method?_eq_none_iff hf).2 hsub] at h
    exact absurd h (by simp)
  obtain ⟨name, params, r, rfl, hname, hparams⟩ := exists_of_parentheses hsub
  have hfr : '\n' ∉ r := fun hm => hf (by simp [hm])
  rw [method?_append v hname hparams, line?_result hfr, Option.map_some, Option.some.injEq] at h
  generalize hresult : trim (Scan.blanks (classifier r).2) = result at h
  have hresult_mem : ∀ c ∈ result, c ∈ r := fun c hc =>
    classifier_subset r c ((List.dropWhile_sublist isBlank).subset (mem_of_mem_trim (hresult ▸ hc)))
  have hresult_trim : trim result = result := hresult ▸ trim_trim _
  have hblanks : Scan.blanks (resultText result) = result := by
    unfold resultText
    split
    · rename_i e
      exact e.symm
    · rename_i e
      rw [Scan.blanks_space, Scan.blanks_of_startsWith ((trim_eq_self_iff.1 hresult_trim).resolve_left e).first]
  have hread : method? v (trim name ++ '(' :: (trim params
      ++ ')' :: (classifierMark (classifier r).1.1 (classifier r).1.2 ++ resultText result))) = some m := by
    rw [method?_append v (fun hm => hname (mem_of_mem_trim hm)) fun hm => hparams (mem_of_mem_trim hm), classifier_mark]
    dsimp only
    rw [hblanks, line?_of_not_mem fun hm => hfr (hresult_mem _ hm), Option.map_some, hresult_trim, trim_trim, trim_trim, h]
  refine ⟨_, ?_, isBody_of_startsWith (trim_of_isTight ⟨?_, ?_⟩) fun hv => ?_, fun c hc => ?_, hread⟩
  · subst h
    exact toText_parameters v (trim name) (trim params) result _ _
  · rcases trim_eq_nil_or name with e | ht
    · rw [e]
      rfl
    · exact startsWith_append _ ht.first
  · exact endsWith_append _ (endsWith_cons '(' (endsWith_append _ (endsWith_resultText hresult_trim _ _)))
  · subst hv
    cases name with
    | nil => rfl
    | cons c name =>
      obtain ⟨hmark, hstart⟩ := hb.startsWith
      exact startsWith_append _ (startsWith_trim hmark hstart)
  · simp only [List.mem_append, List.mem_cons] at hc ⊢
    rcases hc with hc | rfl | hc | rfl | hc | hc
    · exact Or.inl (Or.inl (mem_of_mem_trim hc))
    · simp
    · exact Or.inl (Or.inr (Or.inr (Or.inl (mem_of_mem_trim hc))))
    · simp
    · rcases mem_classifierMark hc with rfl | rfl <;> simp
    · rcases mem_resultText hc with rfl | hc
      · simp
      · simp [hresult_mem c hc]

/-! ## Attributes -/

theorem markedName_eq (w : Text) :
    (markedName w).1 ++ classifierMark (markedName w).2.1 (markedName w).2.2 = w := by
  unfold markedName
  split
  · rename_i h
    obtain ⟨r, rfl⟩ := List.getLast?_eq_some_iff.1 h
    simp [classifierMark]
  · rename_i h
    obtain ⟨r, rfl⟩ := List.getLast?_eq_some_iff.1 h
    simp [classifierMark]
  · exact List.append_nil w

theorem eq_nil_of_words (hu : trim u = u) (h : words isBlank u = []) : u = [] := by
  refine (trim_eq_self_iff.1 hu).resolve_right fun ht => ?_
  obtain ⟨c, r, rfl, hc⟩ := exists_cons_of_startsWith ht.first
  have hmarks : _ = (c :: r).filter isMark := flatten_words isBlank (c :: r)
  rw [h, List.filter_cons_of_pos hc] at hmarks
  exact absurd hmarks (by simp)

/-- an attribute depends on its words only -/
theorem attributeOf_congr (v : Visibility) (hu : trim u = u) (ht : trim t = t) (h : words isBlank t = words isBlank u) :
    attributeOf v t = attributeOf v u := by
  cases hw : words isBlank u with
  | nil => rw [eq_nil_of_words hu hw, eq_nil_of_words ht (h.trans hw)]
  | cons w ws =>
    unfold attributeOf
    rw [h, hw]
    cases ws <;> rfl

/-- an attribute is written as its words -/
theorem toText_attributeOf (v : Visibility) (hu : trim u = u) :
    (attributeOf v u).toText = v.mark ++ join " " (words isBlank u) := by
  have hspace : (" " : Text) = [' '] := rfl
  rcases hw : words isBlank u with _ | ⟨type, _ | ⟨w, ws⟩⟩
  · obtain rfl := eq_nil_of_words hu hw
    cases v <;> rfl
  · have hname := markedName_eq type
    unfold attributeOf
    rw [hw]
    change v.mark ++ [] ++ (markedName type).1 ++ classifierMark (markedName type).2.1 (markedName type).2.2 = _
    rw [List.append_nil, List.append_assoc, hname, join_singleton]
  · have hname := markedName_eq (join " " (w :: ws))
    have htype : present (some type) = some type := by
      have hne := (mem_words (hw ▸ List.mem_cons_self : type ∈ words isBlank u)).ne_nil
      simp [present, hne]
    unfold attributeOf
    rw [hw]
    unfold toText
    dsimp only
    rw [htype, ← classifierMark]
    dsimp only
    rw [List.append_assoc, hname, join_cons_cons]
    simp only [List.append_assoc]

theorem IsWordOf.isTight {w : Text} (h : IsWordOf isBlank w) : IsTight w := by
  have hall : w.all isMark = true := List.all_eq_true.2 fun c hc => by simp [isMark, h.all c hc]
  exact .of_all (fun _ hc => hc) h.ne_nil hall

theorem isTight_join {ws : List Text} (hne : ws ≠ []) (h : ∀ w ∈ ws, IsTight w) : IsTight (join " " ws) :=
  ⟨startsWith_join hne fun w hw => (h w hw).first, endsWith_join hne fun w hw => (h w hw).last⟩

/-- words start as their text does -/
theorem startsWith_join_words {p : Char → Bool} (hmark : Scan.startsWith isMark u = true) (h : Scan.startsWith p u = true) :
    Scan.startsWith p (join " " (words isBlank u)) = true := by
  obtain ⟨c, r, rfl, hc⟩ := exists_cons_of_startsWith hmark
  have hmarks : _ = (c :: r).filter isMark := flatten_words isBlank (c :: r)
  rw [List.filter_cons_of_pos hc] at hmarks
  rcases hw : words isBlank (c :: r) with _ | ⟨w, ws⟩
  · rw [hw] at hmarks
    exact absurd hmarks (by simp)
  · obtain ⟨d, w, rfl⟩ := List.exists_cons_of_ne_nil (mem_words (hw ▸ List.mem_cons_self : w ∈ words isBlank (c :: r))).ne_nil
    rw [hw, List.flatten_cons, List.cons_append] at hmarks
    obtain ⟨rfl, -⟩ := List.cons.inj hmarks
    cases ws with
    | nil => rwa [join_singleton]
    | cons x ws => rwa [join_cons_cons, List.append_assoc]

theorem filter_join {ws : List Text} (h : ∀ w ∈ ws, IsWordOf isBlank w) : (join " " ws).filter isMark = ws.flatten :=
  (flatten_words isBlank (join " " ws)).symm.trans (congrArg List.flatten (words_join (by decide : isBlank ' ' = true) h))

/-- **attributes** are written as what they are read from, with one space between two words -/
theorem toText_attribute (hb : IsBody v u) (hf : '\n' ∉ u) (h : method? v u = none) :
    ∃ w, (attributeOf v u).toText = v.mark ++ w ∧ IsBody v w ∧ (∀ c ∈ w, c ∈ u ∨ c = ' ') ∧ method? v w = none ∧
      attributeOf v w = attributeOf v u := by
  have hwords : ∀ w ∈ words isBlank u, IsWordOf isBlank w := fun w hw => mem_words hw
  have hflatten : (words isBlank u).flatten = u.filter isMark := flatten_words isBlank u
  have hmem : ∀ c ∈ join " " (words isBlank u), c ∈ u ∨ c = ' ' := by
    intro c hc
    rcases mem_of_mem_join hc with hc | ⟨w, hw, hc⟩
    · exact Or.inr (List.mem_singleton.1 hc)
    · have hc : c ∈ u.filter isMark := hflatten ▸ List.mem_flatten.2 ⟨w, hw, hc⟩
      exact Or.inl (List.mem_filter.1 hc).1
  have htrim : trim (join " " (words isBlank u)) = join " " (words isBlank u) := by
    by_cases hne : words isBlank u = []
    · rw [hne]
      rfl
    · exact trim_of_isTight (isTight_join hne fun w hw => IsWordOf.isTight (hwords w hw))
  refine ⟨_, toText_attributeOf v hb.trimmed, isBody_of_startsWith htrim fun hv => ?_, hmem, ?_, ?_⟩
  · subst hv
    exact startsWith_join_words hb.startsWith.1 hb.startsWith.2
  · rw [method?_eq_none_iff hf] at h
    rw [method?_eq_none_iff fun hm => (hmem _ hm).elim hf (by simp)]
    intro hsub
    have hfilter := hsub.filter isMark
    rw [filter_join hwords, hflatten] at hfilter
    exact h (hfilter.trans List.filter_sublist)
  · exact attributeOf_congr v hb.trimmed htrim (words_join (by decide : isBlank ' ' = true) hwords)

/-! ## Members -/

/-- what a member is written as is a body of its own, with no character of its own but a space and the marks -/
theorem exists_body_of_read? (hf : '\n' ∉ t) (h : read? t = some m) :
    ∃ v w, m.toText = v.mark ++ w ∧ IsBody v w ∧ (∀ c ∈ w, c ∈ t ∨ c ∈ ([' ', '$', '*'] : List Char)) ∧
      (method? v w).getD (attributeOf v w) = m := by
  obtain ⟨v, u, hb, hsub, rfl⟩ := exists_of_read? h
  have hfu : '\n' ∉ u := fun hm => hf (hsub _ hm)
  cases hmethod : method? v u with
  | some m =>
    obtain ⟨w, htext, hw, hmem, hmw⟩ := toText_method hb hfu hmethod
    exact ⟨v, w, htext, hw, fun c hc => (hmem c hc).imp_left (hsub c), by rw [hmw]; rfl⟩
  | none =>
    obtain ⟨w, htext, hw, hmem, hmw, haw⟩ := toText_attribute hb hfu hmethod
    refine ⟨v, w, htext, hw, fun c hc => (hmem c hc).imp (hsub c) ?_, by rw [hmw, Option.getD_none, Option.getD_none, haw]⟩
    rintro rfl
    decide

theorem exists_body (h : m.IsRead) :
    ∃ v w, m.toText = v.mark ++ w ∧ IsBody v w ∧ '\n' ∉ w ∧ ';' ∉ w ∧ (method? v w).getD (attributeOf v w) = m := by
  obtain ⟨t, hf, hs, hread⟩ := h
  obtain ⟨v, w, htext, hw, hmem, hm⟩ := exists_body_of_read? hf hread
  exact ⟨v, w, htext, hw, fun hm => (hmem _ hm).elim hf (by decide), fun hm => (hmem _ hm).elim hs (by decide), hm⟩

theorem not_mem_mark {c : Char} (h : c ∉ (['+', '-', '#', '~'] : List Char)) (v : Visibility) : c ∉ v.mark := by
  simp only [List.mem_cons, List.not_mem_nil, or_false, not_or] at h
  cases v with
  | unmarked => simp [Visibility.mark]
  | «public» => exact fun hm => h.1 (List.mem_singleton.1 hm)
  | «private» => exact fun hm => h.2.1 (List.mem_singleton.1 hm)
  | «protected» => exact fun hm => h.2.2.1 (List.mem_singleton.1 hm)
  | package => exact fun hm => h.2.2.2 (List.mem_singleton.1 hm)

/-- what a member is written as holds no more than what it is read from -/
theorem not_mem_toText (h : m.IsRead) : '\n' ∉ m.toText ∧ ';' ∉ m.toText := by
  obtain ⟨v, w, e, -, hf, hs, -⟩ := exists_body h
  rw [e, List.mem_append, List.mem_append, not_or, not_or]
  exact ⟨⟨not_mem_mark (by decide) v, hf⟩, not_mem_mark (by decide) v, hs⟩

/-- a member can stand on a line of its own, where it is no comment -/
theorem isContent_toText (h : m.IsRead) (hc : dropPrefix? "%%" m.toText = none) : SourceLine.IsContent m.toText := by
  obtain ⟨hf, hs⟩ := not_mem_toText h
  have htight : IsTight m.toText := by
    obtain ⟨v, w, e, hb, -⟩ := exists_body h
    exact e ▸ hb.isTight
  refine ⟨htight, hf, ?_, hc⟩
  obtain ⟨r, d, he, -⟩ := exists_concat_of_endsWith htight.last
  rw [he, endsWith_concat, decide_eq_true_eq]
  rintro rfl
  exact hs (by simp [he])

/-- **members read back** -/
theorem read?_toText (h : m.IsRead) : read? m.toText = some m := by
  obtain ⟨v, w, e, hb, -, -, hm⟩ := exists_body h
  have hs : ';' ∉ v.mark ++ w := e ▸ (not_mem_toText h).2
  rw [e, read?_of_isTight hb.isTight hs (visibilityMark_append hb), hm]

/-- a member is read from the text that it is written as, unless a semicolon stands in it -/
theorem isRead_of_read? (hf : '\n' ∉ t) (h : read? t = some m) (hs : ';' ∉ m.toText) : m.IsRead := by
  obtain ⟨v, w, e, hb, hmem, hm⟩ := exists_body_of_read? hf h
  refine ⟨m.toText, ?_, hs, ?_⟩
  · rw [e, List.mem_append, not_or]
    exact ⟨not_mem_mark (by decide) v, fun hw => (hmem _ hw).elim hf (by decide)⟩
  · rw [e] at hs ⊢
    rw [read?_of_isTight hb.isTight hs (visibilityMark_append hb), hm]

/-- **the text of a member stands for every text that it is read from**: where one line without a semicolon is read as the
member, what it is written as is such a line -/
theorem exists_read?_iff (m : Member) :
    (∃ t : Text, '\n' ∉ t ∧ ';' ∉ t ∧ read? t = some m) ↔ '\n' ∉ m.toText ∧ ';' ∉ m.toText ∧ read? m.toText = some m := by
  constructor
  · intro h
    obtain ⟨hf, hs⟩ := not_mem_toText h
    exact ⟨hf, hs, read?_toText h⟩
  · intro h
    exact ⟨m.toText, h⟩

end Member

end DiagramText.ClassDiagram

/-
Lines that open and close blocks, matched as brackets. What the brackets leave open does not mention a stack: an opener is
closed when a closer comes after it with only balanced brackets in between (`IsClosedBy`), and the last unclosed one is the
last opener that is not (`IsLastUnclosed`). A reader keeps a stack, and `Leaves` ties the two together: every bracket keeps
it (`Leaves.step`), so does every run of them (`leaves_of_run`), and where it holds the top of the stack is the last
unclosed opener and an empty stack means balance.

A dialect says which of its lines are brackets by a `Nesting`. Some lines open an aside, in which nothing but its end is
looked at: brackets in it do not count.
-/
import DiagramText.Proofs.Columns.Lines
import DiagramText.Proofs.Reading
import DiagramText.Proofs.Text.Statement

namespace DiagramText

open DiagramText.Text

/-- what a line does to the blocks that are open -/
inductive Bracket (ν : Type) where
  | opens (name : ν)
  | closes
  | neither
deriving DecidableEq, Repr

namespace Bracket

variable {ν μ : Type}

/-- gives the opener another name -/
def map (f : ν → μ) : Bracket ν → Bracket μ
  | opens x => opens (f x)
  | closes => closes
  | neither => neither

/-! ## Matching -/

/-- every opener has its closer, and every closer its opener -/
inductive Balanced : List (Bracket ν) → Prop
  | nil : Balanced []
  | neither {bs : List (Bracket ν)} (h : Balanced bs) : Balanced (.neither :: bs)
  | block {x : ν} {inner after : List (Bracket ν)} (hinner : Balanced inner) (hafter : Balanced after) :
      Balanced (.opens x :: (inner ++ .closes :: after))

/-- an opener before these brackets has its closer among them -/
def IsClosedBy (after : List (Bracket ν)) : Prop := ∃ inner rest, after = inner ++ .closes :: rest ∧ Balanced inner

/-- the last opener that no closer matches -/
def IsLastUnclosed (bs : List (Bracket ν)) (x : ν) : Prop :=
  ∃ before after, bs = before ++ .opens x :: after ∧ ¬ IsClosedBy after ∧
    ∀ between y rest, after = between ++ .opens y :: rest → IsClosedBy rest

/-- brackets that leave these openers open: what stands behind each of them, up to the next one, is balanced -/
inductive Leaves : List (Bracket ν) → List ν → Prop
  | balanced {bs : List (Bracket ν)} (h : Balanced bs) : Leaves bs []
  | opened {x : ν} {before after : List (Bracket ν)} {stack : List ν} (h : Leaves before stack) (hafter : Balanced after) :
      Leaves (before ++ .opens x :: after) (x :: stack)

variable {x y : ν} {b : Bracket ν} {as bs between rest : List (Bracket ν)} {stack stack' : List ν}

theorem Balanced.append (h : Balanced as) (h' : Balanced bs) : Balanced (as ++ bs) := by
  induction h with
  | nil => exact h'
  | neither _ ih => exact .neither ih
  | block hinner _ _ ih =>
    rw [List.cons_append, List.append_assoc]
    exact .block hinner ih

theorem IsClosedBy.append (h : IsClosedBy as) (bs : List (Bracket ν)) : IsClosedBy (as ++ bs) := by
  obtain ⟨inner, rest, rfl, hinner⟩ := h
  exact ⟨inner, rest ++ bs, by rw [List.append_assoc]; rfl, hinner⟩

/-- every opener among balanced brackets is closed by what follows it there -/
theorem Balanced.isClosedBy (h : Balanced bs) (e : bs = between ++ .opens y :: rest) : IsClosedBy rest := by
  induction h generalizing between rest with
  | nil => simp at e
  | neither _ ih =>
    cases between with
    | nil => simp at e
    | cons b between => exact ih (List.cons.inj e).2
  | @block x inner after hinner _ ihinner ihafter =>
    cases between with
    | nil => exact ⟨inner, after, (List.cons.inj e).2.symm, hinner⟩
    | cons b between =>
      -- the opener stands either behind the closer of the block or inside the block
      rcases List.append_eq_append_iff.1 (List.cons.inj e).2 with ⟨s, hs, he⟩ | ⟨s, hs, he⟩
      · cases s with
        | nil => exact absurd (List.cons.inj he).1 nofun
        | cons c s => exact ihafter (List.cons.inj he).2
      · cases s with
        | nil => exact absurd (List.cons.inj he).1 nofun
        | cons c s =>
          obtain ⟨rfl, rfl⟩ := List.cons.inj he
          exact (ihinner hs).append _

/-- brackets have one last unclosed opener -/
theorem IsLastUnclosed.unique (h : IsLastUnclosed bs x) (h' : IsLastUnclosed bs y) : x = y := by
  obtain ⟨before, after, rfl, hopen, hlast⟩ := h
  obtain ⟨before', after', e, hopen', hlast'⟩ := h'
  rcases List.append_eq_append_iff.1 e with ⟨s, -, he⟩ | ⟨s, -, he⟩
  · cases s with
    | nil => exact opens.inj (List.cons.inj he).1
    | cons c s => exact absurd (hlast s y after' (List.cons.inj he).2) hopen'
  · cases s with
    | nil => exact (opens.inj (List.cons.inj he).1).symm
    | cons c s => exact absurd (hlast' s x after (List.cons.inj he).2) hopen

/-! ## Stacks -/

/-- the openers that are open after one more bracket, the innermost first; `none` when there is nothing to close -/
def step (stack : List ν) : Bracket ν → Option (List ν)
  | opens x => some (x :: stack)
  | closes =>
    match stack with
    | [] => none
    | _ :: rest => some rest
  | neither => some stack

/-- balanced brackets leave a stack as it is -/
theorem Balanced.run (h : Balanced bs) (stack : List ν) : bs.foldlM step stack = some stack := by
  induction h generalizing stack with
  | nil => rfl
  | neither _ ih => exact ih stack
  | @block x _ _ _ _ ihinner ihafter =>
    have hinner : List.foldlM step (x :: stack) _ = some (x :: stack) := ihinner (x :: stack)
    rw [List.foldlM_cons]
    change List.foldlM step (x :: stack) _ = _
    rw [List.foldlM_append, hinner]
    exact ihafter stack

/-- balanced brackets close nothing that stands before them -/
theorem Balanced.not_isClosedBy (h : Balanced bs) : ¬ IsClosedBy bs := by
  rintro ⟨inner, rest, rfl, hinner⟩
  have hrun := h.run []
  rw [List.foldlM_append, hinner.run []] at hrun
  exact absurd hrun nofun

namespace Leaves

theorem append (h : Leaves as stack) (hbs : Balanced bs) : Leaves (as ++ bs) stack := by
  cases h with
  | balanced h => exact .balanced (h.append hbs)
  | opened h hafter =>
    rw [List.append_assoc, List.cons_append]
    exact .opened h (hafter.append hbs)

/-- **what one bracket keeps** -/
theorem step (h : Leaves bs stack) (hb : Bracket.step stack b = some stack') : Leaves (bs ++ [b]) stack' := by
  cases b with
  | opens x =>
    obtain rfl : x :: stack = stack' := Option.some.inj hb
    exact .opened h .nil
  | neither =>
    obtain rfl : stack = stack' := Option.some.inj hb
    exact h.append (.neither .nil)
  | closes =>
    cases h with
    | balanced => exact absurd hb nofun
    | @opened x before after _ h hafter =>
      -- the innermost opener, what is behind it and this closer are a block
      obtain rfl := Option.some.inj hb
      have hblock : Balanced (.opens x :: (after ++ [Bracket.closes])) := .block hafter .nil
      rw [List.append_assoc, List.cons_append]
      exact h.append hblock

/-- what a run of brackets keeps -/
theorem run (h : Leaves as stack) (hbs : bs.foldlM Bracket.step stack = some stack') : Leaves (as ++ bs) stack' := by
  induction bs generalizing as stack with
  | nil =>
    obtain rfl : stack = stack' := Option.some.inj hbs
    rwa [List.append_nil]
  | cons b bs ih =>
    rw [List.foldlM_cons] at hbs
    obtain ⟨s, hs, hrun⟩ := Option.bind_eq_some_iff.1 hbs
    have hnext := ih (h.step hs) hrun
    rwa [List.append_assoc] at hnext

theorem isLastUnclosed (h : Leaves bs (x :: stack)) : IsLastUnclosed bs x := by
  cases h with
  | @opened _ before after _ _ hafter => exact ⟨before, after, rfl, hafter.not_isClosedBy, fun _ _ _ => hafter.isClosedBy⟩

theorem balanced_of_nil (h : Leaves bs []) : Balanced bs := by
  cases h with
  | balanced h => exact h

end Leaves

theorem leaves_of_run (h : bs.foldlM step [] = some stack) : Leaves bs stack := Leaves.run (.balanced .nil) h

/-- **the stack is empty exactly after balanced brackets** -/
theorem balanced_iff_run : Balanced bs ↔ bs.foldlM step [] = some [] :=
  ⟨fun h => h.run [], fun h => (leaves_of_run h).balanced_of_nil⟩

end Bracket

/-! ## Lines -/

/-- which lines of a dialect open and close its blocks, and which open and close an aside -/
structure Nesting where
  bracket : SourceLine → Bracket Text
  opensAside : SourceLine → Bool
  closesAside : SourceLine → Bool

namespace Nesting

/-- the bracket that a line is, with the line that an opener is; in an aside there are none -/
def bracketAt (n : Nesting) (aside : Bool) (l : SourceLine) : Bracket (SourceLine × Text) :=
  if aside then .neither else (n.bracket l).map (l, ·)

/-- whether an aside is open after a line -/
def asideAfter (n : Nesting) (aside : Bool) (l : SourceLine) : Bool := if aside then !n.closesAside l else n.opensAside l

/-- the brackets that lines are, the first of them in an aside or not -/
def bracketsFrom (n : Nesting) (aside : Bool) : List SourceLine → List (Bracket (SourceLine × Text))
  | [] => []
  | l :: ls => n.bracketAt aside l :: n.bracketsFrom (n.asideAfter aside l) ls

/-- the brackets that the lines of a text are -/
def brackets (n : Nesting) (text : Text) : List (Bracket (SourceLine × Text)) := n.bracketsFrom false (sourceLines true text)

/-- the line neither opens nor closes anything -/
structure Skips (n : Nesting) (l : SourceLine) : Prop where
  bracket : n.bracket l = .neither
  aside : n.opensAside l = false

/-- the state of a reader tells which openers are open and whether an aside is, and every line that is read moves both -/
structure Tracks {σ ε : Type} (n : Nesting) (readLine : σ → SourceLine → Except ε σ) (stack : σ → List (SourceLine × Text))
    (aside : σ → Bool) : Prop where
  stack : ∀ {p q l}, readLine p l = .ok q → (n.bracketAt (aside p) l).step (stack p) = some (stack q)
  aside : ∀ {p q l}, readLine p l = .ok q → aside q = n.asideAfter (aside p) l

section

variable {σ ε : Type} {n : Nesting} {readLine : σ → SourceLine → Except ε σ} {stack : σ → List (SourceLine × Text)}
  {aside : σ → Bool} {p q : σ}

namespace Tracks

variable (h : n.Tracks readLine stack aside)
include h

theorem run {ls : List SourceLine} (hrun : ls.foldlM readLine p = .ok q) :
    (n.bracketsFrom (aside p) ls).foldlM Bracket.step (stack p) = some (stack q) := by
  induction ls generalizing p with
  | nil =>
    obtain rfl := Except.ok.inj hrun
    rfl
  | cons l ls ih =>
    rw [List.foldlM_cons] at hrun
    obtain ⟨p', hp', hrest⟩ := exceptBind_eq_ok_iff.1 hrun
    have hnext := ih hrest
    rw [h.aside hp'] at hnext
    rw [bracketsFrom, List.foldlM_cons, h.stack hp']
    exact hnext

/-- **what a reader has open are the openers that the lines of the text leave open**, the header among them -/
theorem leaves {d : Dialect} {text : Text} (hheader : ∀ l, (d.header? l.text).isSome → n.Skips l) (hstack : stack p = [])
    (haside : aside p = false) (hrun : (splitHeader d (sourceLines true text)).2.foldlM readLine p = .ok q) :
    Bracket.Leaves (n.brackets text) (stack q) := by
  have hbody := h.run hrun
  rw [hstack, haside] at hbody
  refine Bracket.leaves_of_run ?_
  rw [brackets]
  cases hls : sourceLines true text with
  | nil =>
    rw [hls] at hbody
    exact hbody
  | cons l ls =>
    rw [hls, splitHeader] at hbody
    split at hbody
    · rename_i rest hrest
      have hskip := hheader l (by rw [hrest]; rfl)
      have hbracket : n.bracketAt false l = .neither := by rw [bracketAt, hskip.bracket]; rfl
      have hafter : n.asideAfter false l = false := hskip.aside
      rw [bracketsFrom, hbracket, hafter]
      exact hbody
    · exact hbody

end Tracks

end

end Nesting

/-! ## Keywords -/

/-- neither word begins like the other, letter case apart -/
def Text.differ (v w : Text) : Bool :=
  !(v.map foldCase).isPrefixOf (w.map foldCase) && !(w.map foldCase).isPrefixOf (v.map foldCase)

/-- a text that begins with a keyword does not begin with a word that differs from it -/
theorem dropKeyword?_eq_none_of_differ {k w t r : Text} (hw : Text.differ k w = true) (h : dropKeyword? k t = some r) :
    dropKeyword? w t = none := by
  rw [Option.eq_none_iff_forall_ne_some]
  intro s hs
  obtain ⟨pre, rfl, hfold⟩ := dropFolded?_eq_some h
  obtain ⟨pre', e, hfold'⟩ := dropFolded?_eq_some hs
  rw [Text.differ, ← hfold, ← hfold', Bool.and_eq_true, Bool.not_eq_true', Bool.not_eq_true', ← Bool.not_eq_true,
    ← Bool.not_eq_true, List.isPrefixOf_iff_prefix, List.isPrefixOf_iff_prefix] at hw
  rcases List.prefix_or_prefix_of_prefix (List.prefix_append pre r) (e ▸ List.prefix_append pre' s) with hp | hp
  · exact hw.1 (hp.map foldCase)
  · exact hw.2 (hp.map foldCase)

theorem not_prefix_of_differ {k w t r : Text} (hw : Text.differ k w = true) (h : dropKeyword? k t = some r) : ¬ w <+: t := by
  rintro ⟨u, rfl⟩
  exact absurd ((dropKeyword?_append w u).symm.trans (dropKeyword?_eq_none_of_differ hw h)) nofun

/-- a header begins with a keyword of its dialect -/
theorem exists_of_header? {d : Dialect} {t : Text} (h : (d.header? t).isSome) : ∃ k ∈ d.keywords, ∃ r, dropKeyword? k t = some r := by
  obtain ⟨rest, hrest⟩ := Option.isSome_iff_exists.1 h
  obtain ⟨k, hk, hrest⟩ := List.exists_of_findSome?_eq_some hrest
  obtain ⟨r, hr, -⟩ := Option.bind_eq_some_iff.1 hrest
  exact ⟨k, hk, r, hr⟩

/-- a header does not begin with a word that differs from the keywords of its dialect -/
theorem not_prefix_of_header? {d : Dialect} {w t : Text} (hw : ∀ k ∈ d.keywords, Text.differ k w = true)
    (h : (d.header? t).isSome) : ¬ w <+: t := by
  obtain ⟨k, hk, r, hr⟩ := exists_of_header? h
  exact not_prefix_of_differ (hw k hk) hr

/-! ## Reports -/

/-- the error stands at the last opener that the brackets leave open, which opened what has this name -/
def ParseError.IsAtLastUnclosed (e : ParseError) (bs : List (Bracket (SourceLine × Text))) (name : Text) : Prop :=
  ∃ l, Bracket.IsLastUnclosed bs (l, name) ∧ e.line = l.number ∧ e.column = l.column

theorem Bracket.Leaves.isAtLastUnclosed {bs : List (Bracket (SourceLine × Text))} {l : SourceLine} {name : Text}
    {stack : List (SourceLine × Text)} (h : Leaves bs ((l, name) :: stack)) (cause : Cause) :
    (l.error cause).IsAtLastUnclosed bs name :=
  ⟨l, h.isLastUnclosed, rfl, Int.add_zero _⟩

end DiagramText

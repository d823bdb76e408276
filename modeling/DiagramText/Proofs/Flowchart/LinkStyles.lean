/-
Printing flowcharts. A link style is kept under a text; when the text looks like a number, printing reads it, and looks
the link up among those written. Every link is written (`mem_order`), so the key of a number is the place of its link
(`linkStyleKey_of_read`), and reading is all that can fail. `exists_render_iff`: a chart is printed exactly when each
key that looks like a number has at most 4300 digits, all of them decimal. Keys that are read are decimal, so only their
length counts (`exists_render_of_read_iff`); a builder takes digit marks as well, such as a raised two, and a chart that
it built with one is not printed (`exists_render_of_run_iff`, `not_printed_raised_two`).
-/
import DiagramText.Proofs.Flowchart.Accepted
import DiagramText.Proofs.Flowchart.Builder

namespace DiagramText

namespace Integer

theorem looksLike_of_all_isDigit {t : Text} (hne : t ≠ []) (h : t.all isDigit = true) : looksLike t = true := by
  rw [looksLike, Bool.and_eq_true, decide_eq_true_eq]
  refine ⟨hne, List.all_eq_true.2 fun c hc => ?_⟩
  rw [isDigitLike, List.all_eq_true.1 h c hc, Bool.true_or]

end Integer

namespace Flowchart

/-! ## Keys of link styles -/

/-- a key of a link style that can be printed: when it looks like a number, it has a value -/
def IsPrintableKey (key : Text) : Prop :=
  Integer.looksLike key = true → key.all isDigit = true ∧ key.length ≤ 4300

instance (key : Text) : Decidable (IsPrintableKey key) := inferInstanceAs (Decidable (_ → _))

namespace Page

variable (p : Page)

/-- **every link is written** -/
theorem mem_order {n : Nat} (h : n < p.chart.links.length) : n ∈ p.order :=
  p.order_perm.mem_iff.2 (List.mem_range.2 h)

/-- the key of a number that a link has is the place of that link among those written -/
theorem linkStyleKey_of_read {key : Text} {n : Nat} (hkey : Integer.looksLike key = true) (hread : Integer.read key = .ok n)
    (h : n < p.chart.links.length) :
    ∃ i, p.linkStyleKey p.order key = .ok (Text.ofNat i) ∧ p.order[i]? = some n := by
  refine ⟨p.order.idxOf n, ?_, List.getElem?_idxOf (p.mem_order h)⟩
  rw [linkStyleKey, if_pos hkey, hread]
  exact congrArg Except.ok (if_pos h)

theorem exists_linkStyleKey_iff (order : List Nat) {key : Text} :
    (∃ k, p.linkStyleKey order key = .ok k) ↔ IsPrintableKey key := by
  unfold linkStyleKey IsPrintableKey
  split
  · rename_i hkey
    have hne : key ≠ [] := by
      rintro rfl
      exact absurd hkey (by decide)
    constructor
    · rintro ⟨k, hk⟩ -
      obtain ⟨n, hn, -⟩ := exceptMap_eq_ok_iff.1 hk
      exact (Integer.exists_read_iff.1 ⟨n, hn⟩).2
    · intro h
      obtain ⟨n, hn⟩ := Integer.exists_read_iff.2 ⟨hne, h hkey⟩
      exact ⟨_, by rw [hn]; rfl⟩
  · rename_i hkey
    exact ⟨fun _ h => absurd h hkey, fun _ => ⟨key, rfl⟩⟩

end Page

/-- **the charts that are printed** -/
theorem exists_render_iff (d : Flowchart) (o : RenderOptions) :
    (∃ t, render d o = .ok t) ↔ ∀ key ∈ d.linkStyles.keys, IsPrintableKey key := by
  have hstyles : (∃ t, render d o = .ok t) ↔ ∃ styles, Page.printedStyles ⟨d, o⟩ = .ok styles := by
    simp only [Page.render_eq, exceptMap_eq_ok_iff]
    constructor
    · rintro ⟨t, styles, h, -⟩
      exact ⟨styles, h⟩
    · rintro ⟨styles, h⟩
      exact ⟨_, styles, h, rfl⟩
  rw [hstyles, Page.printedStyles, exists_mapM_iff, Entries.keys, List.forall_mem_map]
  refine forall₂_congr fun x _ => ?_
  rw [← Page.exists_linkStyleKey_iff ⟨d, o⟩ (Page.order ⟨d, o⟩)]
  simp only [exceptMap_eq_ok_iff]
  constructor
  · rintro ⟨y, k, h, -⟩
    exact ⟨k, h⟩
  · rintro ⟨k, h⟩
    exact ⟨_, k, h, rfl⟩

/-! ## Charts that are read -/

theorem IsLinkKey.isPrintableKey_iff {key : Text} (h : IsLinkKey key) : IsPrintableKey key ↔ key.length ≤ 4300 := by
  rcases h with rfl | ⟨hne, hall⟩
  · decide
  · simp [IsPrintableKey, Integer.looksLike_of_all_isDigit hne hall, hall]

/-- **a chart that is read is printed** exactly when no number of a link style has more than 4300 digits -/
theorem exists_render_of_read_iff {text : Text} {d : Flowchart} (h : read text = .ok d) (o : RenderOptions) :
    (∃ t, render d o = .ok t) ↔ ∀ key ∈ d.linkStyles.keys, key.length ≤ 4300 := by
  rw [exists_render_iff, Entries.keys, List.forall_mem_map, List.forall_mem_map]
  exact forall₂_congr fun x hx => ((isWellFormed_of_read h).linkStyle x hx).1.isPrintableKey_iff

/-! ## Charts that are built -/

/-- the keys under which a call adds link styles -/
def Call.linkKeys : Call → List Text
  | .styleLink index _ => if index.key = "default" ∨ Integer.looksLike index.key then [index.key] else []
  | _ => []

theorem ScopeCall.linkStyles_run (b : Builder) (c : ScopeCall) : (c.run b).1.chart.linkStyles = b.chart.linkStyles := by
  have hkept : Builder.IsKept fun b' => b'.chart.linkStyles = b.chart.linkStyles :=
    { node := fun {b'} id label shape h => by
        obtain ⟨n, -, e⟩ := b'.chart_node id label shape
        rw [e]
        exact h
      link := fun l h => by
        rw [Builder.chart_link]
        exact h
      openSubgraph := fun _ _ _ h => h
      closeSubgraph := fun {b'} h => by
        obtain ⟨subgraphs, e⟩ := b'.chart_closeSubgraph
        rw [e]
        exact h
      member := fun id h => by
        rw [Builder.chart_member]
        exact h
      direction := fun {b'} d h => by
        rw [Builder.chart, Builder.update, Assembly.chart_inInnermost]
        exact h }
  exact ScopeCall.keeps hkept rfl c

/-- one call adds just its keys -/
theorem Call.mem_linkStyles_run (b : Builder) (c : Call) {key : Text} :
    key ∈ (c.run b).1.chart.linkStyles.keys ↔ key ∈ b.chart.linkStyles.keys ∨ key ∈ c.linkKeys := by
  cases c with
  | scope c =>
    rw [run, c.linkStyles_run b]
    simp [linkKeys]
  | assignClass ids name =>
    have hrun : (ids.foldl (Builder.assignClass name) b).chart.linkStyles = b.chart.linkStyles := by
      induction ids generalizing b with
      | nil => rfl
      | cons id ids ih => exact ih (b.assignClass name id)
    rw [run, hrun]
    simp [linkKeys]
  | styleLink index style =>
    rw [run, linkKeys]
    split
    · change key ∈ (b.chart.linkStyles.alter index.key .empty _).keys ↔ _
      rw [Entries.alter, Entries.mem_keys_insert, List.mem_singleton]
    · simp
  | defineClass name style | styleNode id style | click c | describe line =>
    change key ∈ b.chart.linkStyles.keys ↔ _
    simp [linkKeys]

/-- the calls add just their keys, those that are refused included -/
theorem Builder.mem_linkStyles_run (b : Builder) (calls : List Call) {key : Text} :
    key ∈ (b.run calls).chart.linkStyles.keys ↔ key ∈ b.chart.linkStyles.keys ∨ key ∈ calls.flatMap Call.linkKeys := by
  induction calls generalizing b with
  | nil => simp [run]
  | cons c calls ih =>
    have hrun : b.run (c :: calls) = (c.run b).1.run calls := rfl
    rw [hrun, ih, c.mem_linkStyles_run b, List.flatMap_cons, List.mem_append, or_assoc]

/-- **a chart that is built is printed** exactly when each number under which a call added a link style has at most 4300
digits, all of them decimal; a validated build returns the same chart -/
theorem exists_render_of_run_iff (dir : Direction) (calls : List Call) (o : RenderOptions) :
    (∃ t, render ((Builder.start dir).run calls).chart o = .ok t) ↔ ∀ key ∈ calls.flatMap Call.linkKeys, IsPrintableKey key := by
  rw [exists_render_iff]
  refine forall_congr' fun key => ?_
  rw [Builder.mem_linkStyles_run]
  simp [Builder.start, Builder.chart]

theorem exists_render_of_build_iff {dir : Direction} {calls : List Call} {d : Flowchart}
    (h : ((Builder.start dir).run calls).build = .ok d) (o : RenderOptions) :
    (∃ t, render d o = .ok t) ↔ ∀ key ∈ calls.flatMap Call.linkKeys, IsPrintableKey key := by
  obtain ⟨rfl, -⟩ := Reference.check_eq_ok_iff.1 h
  exact exists_render_of_run_iff dir calls o

/-- a raised two is taken for the number of a link, and has no value -/
theorem not_printed_raised_two (o : RenderOptions) :
    let calls : List Call := [.styleLink (.text "²") (.ofList [("stroke", "red")])]
    let built := ((Builder.start .tb).run calls).chart
    ((Builder.start .tb).run calls).build = .ok built ∧ ¬ ∃ t, render built o = .ok t := by
  refine ⟨rfl, ?_⟩
  rw [exists_render_of_run_iff]
  decide

end Flowchart

end DiagramText

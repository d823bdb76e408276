/-
Lines of a state diagram that are accepted. Whatever a line says is taken from its characters (`IsFrom`): ids are ids,
labels after a colon are trimmed, and a marker or a place in small letters is read again as it stands, unless the line
holds a dotted capital i. One lemma per rule, put in order by `isFrom_of_read?`.
-/
import DiagramText.Proofs.StateDiagram.Line
import DiagramText.Proofs.Text.LetterCase
import DiagramText.Proofs.Text.Scan

namespace DiagramText.StateDiagram

open DiagramText.Text
open Scan (orElse_eq_some_iff)

/-! ## What a line holds -/

/-- what a line that is read holds is taken from it; reading quotes may add double quotes -/
def Line.IsFrom (t : Text) : Line → Prop
  | .accessibility (.title v) | .accessibility (.description v) => v ⊆ t ∧ trim v = v
  | .direction _ | .closeComposite => True
  | .openComposite id title => IsId id ∧ ∀ v, title = some v → ∀ c ∈ v, c = '"' ∨ c ∈ t
  | .label id v => IsId id ∧ ∀ c ∈ v, c = '"' ∨ c ∈ t
  | .pseudo id marker => IsId id ∧ ('İ' ∉ t → IsMarker marker)
  | .declare id => IsId id
  | .note n => IsId n.stateId ∧ ('İ' ∉ t → IsPlace n.position) ∧ n.text ⊆ t ∧ trim n.text = n.text
  | .openNote id position => IsId id ∧ ('İ' ∉ t → IsPlace position)
  | .classDef name style => IsId name ∧ ∃ props, props ⊆ t ∧ style = Style.ofText props
  | .assignClass ids name => (∀ id ∈ ids, IsId id) ∧ IsId name
  | .transition source target text =>
    IsEndpoint source ∧ IsEndpoint target ∧ ∀ v, text = some v → v ≠ [] ∧ v ⊆ t ∧ trim v = v

variable {t : Text} {l : Line}

/-! ## States -/

/-- a label in quotes is taken from its line, but for the double quotes that its entities stand for -/
theorem mem_of_aliased? {label rest : Text} (h : aliased? t = some (label, rest)) :
    (∀ c ∈ label, c = '"' ∨ c ∈ t) ∧ rest ⊆ t := by
  obtain ⟨⟨token, r⟩, hq, h⟩ := Option.bind_eq_some_iff.1 h
  obtain ⟨u, hu, e⟩ := Option.map_eq_some_iff.1 h
  obtain ⟨rfl, rfl⟩ := Prod.mk.inj e
  obtain ⟨htoken, hrest⟩ := Scan.quoted?_subset hq
  obtain ⟨v, hv, hword⟩ := Option.bind_eq_some_iff.1 hu
  refine ⟨fun c hc => (mem_of_mem_unquote hc).imp_right fun h => htoken h, ?_⟩
  exact List.Subset.trans (Scan.word?_subset hword) (List.Subset.trans (Scan.blanks?_subset hv) hrest)

theorem isId_of_opened? {id : Text} (h : opened? t = some id) : IsId id := by
  obtain ⟨⟨id', rest⟩, hid, h⟩ := Option.bind_eq_some_iff.1 h
  obtain ⟨-, e⟩ := Option.ite_none_right_eq_some.1 h
  exact Option.some.inj e ▸ (isId_of_run? hid).1

theorem isFrom_composite? (h : composite? t = some l) : l.IsFrom t := by
  obtain ⟨r, hr, h⟩ := Option.bind_eq_some_iff.1 h
  have hsub := Scan.word?_subset hr
  rcases orElse_eq_some_iff.1 h with h | ⟨-, h⟩
  · obtain ⟨⟨label, rest⟩, halias, h⟩ := Option.bind_eq_some_iff.1 h
    obtain ⟨id, hid, rfl⟩ := Option.map_eq_some_iff.1 h
    refine ⟨isId_of_opened? hid, ?_⟩
    intro v hv c hc
    obtain rfl := Option.some.inj hv
    exact ((mem_of_aliased? halias).1 c hc).imp_right fun h => hsub h
  · obtain ⟨id, hid, rfl⟩ := Option.map_eq_some_iff.1 h
    exact ⟨isId_of_opened? hid, by simp⟩

theorem isFrom_alias? (h : alias? t = some l) : l.IsFrom t := by
  obtain ⟨⟨label, rest⟩, halias, h⟩ := Option.bind_eq_some_iff.1 h
  obtain ⟨id, hid, rfl⟩ := Option.map_eq_some_iff.1 h
  obtain ⟨r, hr, halias⟩ := Option.bind_eq_some_iff.1 halias
  exact ⟨isId_of_whole? hid, fun c hc => ((mem_of_aliased? halias).1 c hc).imp_right fun h => Scan.word?_subset hr h⟩

theorem isMarker_of_marker? {marker rest : Text} (hdotted : 'İ' ∉ t) (h : marker? t = some (marker, rest)) : IsMarker marker :=
  findSome?_lower ⟨by decide, by decide, by decide⟩ hdotted h

theorem isFrom_pseudo? (h : pseudo? t = some l) : l.IsFrom t := by
  obtain ⟨⟨id, rest⟩, hid, h⟩ := Option.bind_eq_some_iff.1 h
  obtain ⟨⟨marker, rest'⟩, hmarker, h⟩ := Option.bind_eq_some_iff.1 h
  obtain ⟨-, e⟩ := Option.ite_none_right_eq_some.1 h
  obtain rfl := Option.some.inj e
  obtain ⟨r, hr, hid⟩ := Option.bind_eq_some_iff.1 hid
  obtain ⟨u, hu, hmarker⟩ := Option.bind_eq_some_iff.1 hmarker
  obtain ⟨hid, hrest⟩ := isId_of_run? hid
  refine ⟨hid, fun hdotted => isMarker_of_marker? (fun hm => hdotted ?_) hmarker⟩
  exact Scan.keyword?_subset hr (hrest (Scan.blanks_subset _ (dropPrefix?_subset hu hm)))

/-! ## Notes -/

theorem isPlace_of_notePlace? {place rest : Text} (hdotted : 'İ' ∉ t) (h : notePlace? t = some (place, rest)) : IsPlace place :=
  findSome?_lower ⟨by decide, by decide, by decide⟩ hdotted h

theorem notePlace?_subset {place rest : Text} (h : notePlace? t = some (place, rest)) : rest ⊆ t := by
  obtain ⟨k, -, h⟩ := List.exists_of_findSome?_eq_some h
  obtain ⟨r, hr, e⟩ := Option.map_eq_some_iff.1 h
  exact (Prod.mk.inj e).2 ▸ Scan.dropKeyword?_subset hr

theorem isFrom_note? (h : note? t = some l) : l.IsFrom t := by
  obtain ⟨⟨place, rest⟩, hplace, h⟩ := Option.bind_eq_some_iff.1 h
  obtain ⟨⟨id, rest'⟩, hid, h⟩ := Option.bind_eq_some_iff.1 h
  obtain ⟨r, hr, hplace⟩ := Option.bind_eq_some_iff.1 hplace
  obtain ⟨u, hu, hid⟩ := Option.bind_eq_some_iff.1 hid
  obtain ⟨hid, hrest⟩ := isId_of_run? hid
  have hsub : r ⊆ t := Scan.keyword?_subset hr
  have hplain : 'İ' ∉ t → IsPlace place := fun hdotted => isPlace_of_notePlace? (fun hm => hdotted (hsub hm)) hplace
  have hafter : Scan.blanks rest' ⊆ t :=
    List.Subset.trans (Scan.blanks_subset _) (List.Subset.trans hrest (List.Subset.trans (Scan.blanks?_subset hu)
      (List.Subset.trans (notePlace?_subset hplace) hsub)))
  dsimp only at h
  split at h
  · exact Option.some.inj h ▸ ⟨hid, hplain⟩
  · rename_i text htext
    rw [htext] at hafter
    refine Option.some.inj h ▸ ⟨hid, hplain, fun c hc => ?_, trim_trim text⟩
    exact hafter (List.mem_cons_of_mem _ (mem_of_mem_trim hc))
  · exact absurd h (by simp)

/-! ## Style classes -/

theorem isFrom_classDef? (h : classDef? t = some l) : l.IsFrom t := by
  obtain ⟨⟨name, rest⟩, hname, h⟩ := Option.bind_eq_some_iff.1 h
  obtain ⟨props, hprops, rfl⟩ := Option.map_eq_some_iff.1 h
  obtain ⟨r, hr, hname⟩ := Option.bind_eq_some_iff.1 hname
  obtain ⟨hname, hrest⟩ := isId_of_run? hname
  refine ⟨hname, props, ?_, rfl⟩
  exact List.Subset.trans (Scan.optionalRest?_subset hprops) (List.Subset.trans hrest (Scan.word?_subset hr))

theorem isFrom_assignClass? (h : assignClass? t = some l) : l.IsFrom t := by
  obtain ⟨r, -, h⟩ := Option.bind_eq_some_iff.1 h
  obtain ⟨⟨ids, rest⟩, hids, h⟩ := List.exists_of_findSome?_eq_some h
  obtain ⟨name, hname, rfl⟩ := Option.map_eq_some_iff.1 h
  obtain ⟨u, -, hname⟩ := Option.bind_eq_some_iff.1 hname
  exact ⟨(Scan.mem_lists (P := IsId) isId_of_run? hids).1, isId_of_whole? hname⟩

/-! ## Transitions -/

theorem isEndpoint_of_endpoint? {id rest : Text} (h : endpoint? t = some (id, rest)) : IsEndpoint id ∧ rest ⊆ t := by
  rcases orElse_eq_some_iff.1 h with h | ⟨-, h⟩
  · obtain ⟨r, hr, e⟩ := Option.map_eq_some_iff.1 h
    obtain ⟨rfl, rfl⟩ := Prod.mk.inj e
    exact ⟨Or.inl rfl, dropPrefix?_subset hr⟩
  · obtain ⟨hid, hrest⟩ := isId_of_run? h
    exact ⟨Or.inr hid, hrest⟩

theorem isFrom_transitionTail? {source u : Text} (hs : IsEndpoint source) (hu : u ⊆ t) (h : transitionTail? source u = some l) :
    l.IsFrom t := by
  obtain ⟨⟨target, rest⟩, htarget, h⟩ := Option.bind_eq_some_iff.1 h
  obtain ⟨label, hlabel, rfl⟩ := Option.map_eq_some_iff.1 h
  obtain ⟨r, hr, htarget⟩ := Option.bind_eq_some_iff.1 htarget
  obtain ⟨htarget, hrest⟩ := isEndpoint_of_endpoint? htarget
  have hsub : rest ⊆ t := List.Subset.trans hrest (List.Subset.trans (Scan.blanks_subset _)
    (List.Subset.trans (dropPrefix?_subset hr) (List.Subset.trans (Scan.blanks_subset _) hu)))
  refine ⟨hs, htarget, fun v hv => ?_⟩
  obtain ⟨hv, hne⟩ := present_eq_some_iff.1 hv
  obtain ⟨w, hw, rfl⟩ := Option.map_eq_some_iff.1 hv
  exact ⟨hne, fun c hc => hsub (Scan.optionalLabel?_subset hlabel hw (mem_of_mem_trim hc)), trim_trim w⟩

theorem isFrom_transition? (h : transition? t = some l) : l.IsFrom t := by
  unfold transition? at h
  split at h
  · rename_i rest hrest
    exact isFrom_transitionTail? (Or.inl rfl) (dropPrefix?_subset hrest) h
  · obtain ⟨source, rest, rfl, hall, h⟩ := Scan.exists_of_longest_all h
    obtain ⟨hne, h⟩ := Option.ite_none_left_eq_some.1 h
    exact isFrom_transitionTail? (Or.inr ⟨hne, hall⟩) (List.subset_append_right source rest) h

theorem isFrom_description? (h : description? t = some l) : l.IsFrom t := by
  obtain ⟨⟨id, rest⟩, hid, h⟩ := Option.bind_eq_some_iff.1 h
  obtain ⟨label, hlabel, rfl⟩ := Option.map_eq_some_iff.1 h
  obtain ⟨hid, hrest⟩ := isId_of_run? hid
  exact ⟨hid, fun c hc => Or.inr (hrest (Scan.afterColon?_subset hlabel (mem_of_mem_trim hc)))⟩

/-! ## Any line -/

theorem isFrom_accessibility {line : AccessibilityLine} (h : Accessibility.line? t = some line) :
    (Line.accessibility line).IsFrom t := by
  have hvalue := (Accessibility.value_of_line? h).symm
  cases line <;> exact hvalue

/-- **what is read is taken from the line** -/
theorem isFrom_of_read? (h : Line.read? t = some l) : l.IsFrom t := by
  simp only [Line.read?, orElse_eq_some_iff] at h
  rcases h with
    h | ⟨-, h | ⟨-, h | ⟨-, h | ⟨-, h | ⟨-, h | ⟨-, h | ⟨-, h | ⟨-, h | ⟨-, h | ⟨-, h | ⟨-, h | ⟨-, h⟩⟩⟩⟩⟩⟩⟩⟩⟩⟩⟩⟩
  · obtain ⟨line, hline, rfl⟩ := Option.map_eq_some_iff.1 h
    exact isFrom_accessibility hline
  · obtain ⟨dir, -, rfl⟩ := Option.map_eq_some_iff.1 h
    trivial
  · exact isFrom_composite? h
  · obtain ⟨-, e⟩ := Option.ite_none_right_eq_some.1 h
    exact Option.some.inj e ▸ trivial
  · exact isFrom_alias? h
  · exact isFrom_pseudo? h
  · obtain ⟨id, hid, rfl⟩ := Option.map_eq_some_iff.1 h
    obtain ⟨r, -, hid⟩ := Option.bind_eq_some_iff.1 hid
    exact isId_of_whole? hid
  · exact isFrom_note? h
  · exact isFrom_classDef? h
  · exact isFrom_assignClass? h
  · exact isFrom_transition? h
  · exact isFrom_description? h
  · obtain ⟨id, hid, rfl⟩ := Option.map_eq_some_iff.1 h
    exact isId_of_whole? hid

end DiagramText.StateDiagram

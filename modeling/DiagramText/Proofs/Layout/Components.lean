/-
Connected components. Tying a pair of entities puts the component of the second behind that of the first and leaves the
others alone (`perm_joinComponents`), so whatever pairs are tied, the components hold every entity of the graph once
(`isSplitInto_components`).
-/
import DiagramText.Layout.Graph
import Mathlib.Data.List.Induction

namespace DiagramText.Layout.Graph

open scoped List

/-- components that hold every entity of a graph, each in one of them and there once -/
def IsSplitInto (g : Graph) (components : List (List Text)) : Prop := components.flatten ~ g.entities.keys

theorem IsSplitInto.nodup {g : Graph} {components : List (List Text)} (h : g.IsSplitInto components) : components.flatten.Nodup :=
  List.Perm.nodup_iff h |>.2 g.entities.nodup

/-! ## One component among others -/

section

variable {components before after : List (List Text)} {c : List Text} {x : Text}

/-- the component of an entity, between the others, which do not hold it -/
theorem exists_split_of_mem (h : components.flatten.Nodup) (hc : c ∈ components) (hx : x ∈ c) :
    ∃ before after, components = before ++ c :: after ∧ ∀ d ∈ before ++ after, x ∉ d := by
  obtain ⟨before, after, rfl⟩ := List.append_of_mem hc
  refine ⟨before, after, rfl, fun d hd hxd => ?_⟩
  rw [List.flatten_append, List.flatten_cons, List.nodup_append, List.nodup_append] at h
  obtain ⟨-, ⟨-, -, hlater⟩, hearlier⟩ := h
  rcases List.mem_append.1 hd with hd | hd
  · exact hearlier x (List.mem_flatten_of_mem hd hxd) x (List.mem_append_left _ hx) rfl
  · exact hlater x hx x (List.mem_flatten_of_mem hd hxd) rfl

/-- leaving out what holds an entity leaves out its component -/
theorem filter_split (hx : x ∈ c) (hothers : ∀ d ∈ before ++ after, x ∉ d) :
    (before ++ c :: after).filter (fun d => !d.contains x) = before ++ after := by
  have hkeep : ∀ d ∈ before ++ after, (!d.contains x) = true := fun d hd => by simpa using hothers d hd
  rw [List.forall_mem_append] at hkeep
  rw [List.filter_append, List.filter_cons_of_neg (by simpa using hx), List.filter_eq_self.2 hkeep.1, List.filter_eq_self.2 hkeep.2]

/-- changing what holds an entity changes its component -/
theorem map_split (f : List Text → List Text) (hx : x ∈ c) (hothers : ∀ d ∈ before ++ after, x ∉ d) :
    (before ++ c :: after).map (fun d => if d.contains x then f d else d) = before ++ f c :: after := by
  have hkeep : ∀ ds ⊆ before ++ after, ds.map (fun d => if d.contains x then f d else d) = ds := by
    intro ds hds
    refine (List.map_congr_left fun d hd => if_neg ?_).trans (List.map_id ds)
    rw [List.contains_iff_mem]
    exact hothers d (hds hd)
  rw [List.map_append, List.map_cons, if_pos (List.contains_iff_mem.2 hx), hkeep before (List.subset_append_left _ _),
    hkeep after (List.subset_append_right _ _)]

end

/-! ## Joining components -/

/-- **tying a pair keeps every entity in its one component** -/
theorem perm_joinComponents {components : List (List Text)} (h : components.flatten.Nodup) (pair : Text × Text) :
    (joinComponents components pair).flatten ~ components.flatten := by
  unfold joinComponents
  split
  · rename_i a b ha hb
    split
    · exact List.Perm.refl _
    · rename_i hab
      have hsource : pair.1 ∈ a := by simpa using List.find?_some ha
      have htarget : pair.2 ∈ b := by simpa using List.find?_some hb
      -- the component of the target is taken out, and that of the source is among the others
      obtain ⟨before, after, rfl, hothers⟩ := exists_split_of_mem h (List.mem_of_find?_eq_some hb) htarget
      have hperm : before ++ b :: after ~ b :: (before ++ after) := List.perm_middle
      have hmem : a ∈ before ++ after := (List.mem_cons.1 (hperm.mem_iff.1 (List.mem_of_find?_eq_some ha))).resolve_left hab
      have hrest : (before ++ after).flatten.Nodup := by
        have hall := hperm.flatten.nodup_iff.1 h
        rw [List.flatten_cons, List.nodup_append] at hall
        exact hall.2.1
      obtain ⟨before', after', hsplit, hothers'⟩ := exists_split_of_mem hrest hmem hsource
      rw [filter_split htarget hothers, hsplit, map_split (· ++ b) hsource hothers']
      calc (before' ++ (a ++ b) :: after').flatten
          = before'.flatten ++ a ++ (b ++ after'.flatten) := by simp
        _ ~ before'.flatten ++ a ++ (after'.flatten ++ b) := List.perm_append_comm.append_left _
        _ = (before ++ after).flatten ++ b := by rw [hsplit]; simp
        _ ~ b ++ (before ++ after).flatten := List.perm_append_comm
        _ ~ (before ++ b :: after).flatten := hperm.flatten.symm
  · exact List.Perm.refl components.flatten

/-- **components put every entity in exactly one of them** -/
theorem isSplitInto_components (g : Graph) : g.IsSplitInto g.components := by
  have hrun : ∀ pairs : List (Text × Text), (pairs.foldl joinComponents (g.entities.keys.map ([·]))).flatten ~ g.entities.keys := by
    intro pairs
    induction pairs using List.reverseRecOn with
    | nil => rw [List.foldl_nil, ← List.flatMap_def, List.flatMap_singleton']
    | append_singleton pairs pair ih =>
      rw [List.foldl_append, List.foldl_cons, List.foldl_nil]
      exact (perm_joinComponents (ih.nodup_iff.2 g.entities.nodup) pair).trans ih
  exact hrun g.pairs

end DiagramText.Layout.Graph

/-
Margins of printed lines: the indentation of any level is white space, and holds no line feed when the unit has none.
-/
import DiagramText.Options
import Mathlib.Tactic

namespace DiagramText

namespace RenderOptions

/-- the indentation of any level is white space -/
theorem all_isBlank_levels (o : RenderOptions) (depth : Nat) : (o.levels depth).all isBlank = true := by
  have hv := o.valid
  rw [Indent.isValid, Bool.and_eq_true] at hv
  rw [List.all_eq_true]
  intro c hc
  obtain ⟨t, ht, hc⟩ := List.mem_flatten.1 hc
  rw [List.eq_of_mem_replicate ht] at hc
  exact List.all_eq_true.1 hv.2 c hc

theorem unit_ne_nil (o : RenderOptions) : o.unit ≠ [] := by
  have hv := o.valid
  rw [Indent.isValid, Bool.and_eq_true, decide_eq_true_eq] at hv
  exact hv.1

theorem levels_one (o : RenderOptions) : o.levels 1 = o.unit := List.append_nil o.unit

theorem lineFeed_not_mem_levels {o : RenderOptions} (h : '\n' ∉ o.unit) (depth : Nat) : '\n' ∉ o.levels depth := by
  intro hm
  obtain ⟨t, ht, hm⟩ := List.mem_flatten.1 hm
  rw [List.eq_of_mem_replicate ht] at hm
  exact h hm

end RenderOptions

end DiagramText

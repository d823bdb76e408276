/-
Maps from texts that keep the order in which their keys first came. Writing a key again keeps its place; a key that was
taken out comes back at the end.
-/
import DiagramText.Text.Basic

namespace DiagramText

/-- pairs of a key and a value, no key twice -/
structure Entries (α : Type) where
  toList : List (Text × α)
  nodup : (toList.map Prod.fst).Nodup

namespace Entries

variable {α β : Type}

/-- no entries -/
def empty : Entries α := ⟨[], by simp⟩

instance : Inhabited (Entries α) := ⟨empty⟩

instance [DecidableEq α] : DecidableEq (Entries α) := fun a b =>
  decidable_of_iff (a.toList = b.toList) (by cases a; cases b; simp)

instance [Repr α] : Repr (Entries α) := ⟨fun e n => reprPrec e.toList n⟩

/-- the value of a key in a list of pairs -/
def lookup (k : Text) : List (Text × α) → Option α
  | [] => none
  | (k', v) :: r => if k' = k then some v else lookup k r

/-- writes a key in a list of pairs -/
def put (k : Text) (v : α) : List (Text × α) → List (Text × α)
  | [] => [(k, v)]
  | (k', v') :: r => if k' = k then (k, v) :: r else (k', v') :: put k v r

theorem map_fst_put (k : Text) (v : α) (l : List (Text × α)) :
    (put k v l).map Prod.fst = if k ∈ l.map Prod.fst then l.map Prod.fst else l.map Prod.fst ++ [k] := by
  induction l with
  | nil => simp [put]
  | cons p r ih =>
    obtain ⟨k', v'⟩ := p
    by_cases h : k' = k
    · simp [put, h]
    · have h' : ¬ k = k' := fun e => h e.symm
      simp only [put, h, if_false, List.map_cons, ih, List.mem_cons, h', false_or]
      split <;> simp

theorem nodup_put (k : Text) (v : α) {l : List (Text × α)} (h : (l.map Prod.fst).Nodup) :
    ((put k v l).map Prod.fst).Nodup := by
  rw [map_fst_put]
  split
  · exact h
  · rename_i hk
    rw [List.nodup_append]
    refine ⟨h, by simp, ?_⟩
    intro a ha b hb e
    simp only [List.mem_singleton] at hb
    exact hk (hb ▸ e ▸ ha)

/-- the value of a key -/
def get? (e : Entries α) (k : Text) : Option α := lookup k e.toList

/-- whether a key has a value -/
def contains (e : Entries α) (k : Text) : Bool := (e.get? k).isSome

/-- the keys in order -/
def keys (e : Entries α) : List Text := e.toList.map Prod.fst

/-- the values in the order of their keys -/
def values (e : Entries α) : List α := e.toList.map Prod.snd

/-- writes a key: in its place when it has one, at the end otherwise -/
def insert (e : Entries α) (k : Text) (v : α) : Entries α := ⟨put k v e.toList, nodup_put k v e.nodup⟩

/-- writes a key that has no value yet -/
def insertNew (e : Entries α) (k : Text) (v : α) : Entries α := if e.contains k then e else e.insert k v

/-- changes the value of a key, which is `start` when it has none yet -/
def alter (e : Entries α) (k : Text) (start : α) (f : α → α) : Entries α := e.insert k (f ((e.get? k).getD start))

/-- takes a key out -/
def erase (e : Entries α) (k : Text) : Entries α :=
  ⟨e.toList.filter fun p => p.1 ≠ k, e.nodup.sublist (List.filter_sublist.map _)⟩

/-- writes pairs one after another -/
def update (e : Entries α) (pairs : List (Text × α)) : Entries α := pairs.foldl (fun e p => e.insert p.1 p.2) e

/-- the entries of pairs written one after another -/
def ofList (pairs : List (Text × α)) : Entries α := empty.update pairs

/-- applies a function to every value -/
def map (f : α → β) (e : Entries α) : Entries β :=
  ⟨e.toList.map fun p => (p.1, f p.2), by simpa [List.map_map, Function.comp_def] using e.nodup⟩

/-- adds a member to the list kept under a key, unless it is in it -/
def assign (e : Entries (List Text)) (k member : Text) : Entries (List Text) :=
  e.alter k [] fun ms => if ms.contains member then ms else ms ++ [member]

end Entries

end DiagramText

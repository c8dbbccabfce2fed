import Mathlib.Order.Basic
import Mathlib.Order.Lattice

/-! A value that is replaced by each greater one that comes along. What is kept in the end has the
greatest rank, and it is the first value unless something ranks above it. So the order in which the
values come along does not matter for the rank. Ranks are of any linear order, and two values may
share one. -/
namespace Greatest

universe u v
variable {β : Type u} {κ : Type v} [LinearOrder κ] {rank : β → κ}

/-- The new value, if it ranks above the old one. -/
def adopt (rank : β → κ) (old new : β) : β := if rank old < rank new then new else old

variable {first greatest : β} {values : List β}

private theorem adopt_of_le {old new : β} (le : rank new ≤ rank old) : adopt rank old new = old :=
  if_neg (not_lt.mpr le)

private theorem adopt_of_lt {old new : β} (lt : rank old < rank new) :
    adopt rank old new = new := if_pos lt

/-- Nothing that came ranks above the first value: it is kept. -/
theorem foldl_adopt_first (below : ∀ value ∈ values, rank value ≤ rank first) :
    values.foldl (adopt rank) first = first := by
  induction values with
  | nil => rfl
  | cons value values ih =>
    obtain ⟨here, later⟩ := List.forall_mem_cons.mp below
    rw [List.foldl_cons, adopt_of_le here, ih later]

/-- The one value that came and has the greatest rank is kept. -/
theorem foldl_adopt_greatest (member : greatest ∈ values) (above : rank first < rank greatest)
    (below : ∀ value ∈ values, rank value ≤ rank greatest)
    (single : ∀ value ∈ values, rank value = rank greatest → value = greatest) :
    values.foldl (adopt rank) first = greatest := by
  induction values generalizing first with
  | nil => cases member
  | cons value values ih =>
    obtain ⟨here, later⟩ := List.forall_mem_cons.mp below
    obtain ⟨same, single⟩ := List.forall_mem_cons.mp single
    rw [List.foldl_cons]
    by_cases least : rank value = rank greatest
    · obtain rfl := same least
      rw [adopt_of_lt above]
      exact foldl_adopt_first later
    · have member : greatest ∈ values := by
        rcases List.mem_cons.mp member with rfl | member
        · exact absurd rfl least
        · exact member
      refine ih member ?_ later single
      unfold adopt
      split
      · exact lt_of_le_of_ne here least
      · exact above

end Greatest

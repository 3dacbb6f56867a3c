import Mathlib.Data.List.Range
import Mathlib.Data.List.Flatten

/-!
# Paging

`LIMIT n OFFSET k`: the pages of a list, one after the other, are the list.
-/

namespace Paging

variable {α β : Type}

/-- `LIMIT limit OFFSET offset`. -/
def page (limit offset : Nat) (rows : List α) : List α := (rows.drop offset).take limit

theorem map_page (f : α → β) (limit offset : Nat) (rows : List α) :
    (page limit offset rows).map f = page limit offset (rows.map f) := by
  rw [page, page, List.map_take, List.map_drop]

/-- The first `n` pages. -/
theorem flatMap_page (limit n : Nat) (rows : List α) :
    ((List.range n).flatMap fun k => page limit (k * limit) rows) = rows.take (n * limit) := by
  induction n with
  | zero => simp
  | succ n ih =>
      rw [List.range_succ, List.flatMap_append, ih, List.flatMap_singleton, page,
        ← List.take_add, Nat.succ_mul]

/-- Enough pages are the whole list. -/
theorem flatMap_page_all {limit n : Nat} {rows : List α} (h : rows.length ≤ n * limit) :
    ((List.range n).flatMap fun k => page limit (k * limit) rows) = rows := by
  rw [flatMap_page, List.take_of_length_le h]

end Paging

import Mathlib.Data.List.Sort

/-!
# Rows

Tables as lists of rows in insertion order: the row operations of `UPDATE …
WHERE` and `DELETE … WHERE`, and when a selection does not see them.
-/

namespace Rows

variable {α : Type}

/-- `UPDATE … WHERE p`. -/
def updateWhere (p : α → Bool) (f : α → α) (rows : List α) : List α :=
  rows.map fun r => if p r then f r else r

/-- `DELETE … WHERE p`. -/
def deleteWhere (p : α → Bool) (rows : List α) : List α := rows.filter fun r => !p r

/-! ## selections that do not see an operation -/

/-- An insert outside the selection. -/
theorem filter_append_of_false {q : α → Bool} {r : α} (h : q r = false) (rows : List α) :
    (rows ++ [r]).filter q = rows.filter q := by
  rw [List.filter_append, List.filter_singleton, h]
  simp

/-- A delete outside the selection. -/
theorem filter_deleteWhere {p q : α → Bool} (h : ∀ r, q r = true → p r = false) (rows : List α) :
    (deleteWhere p rows).filter q = rows.filter q := by
  rw [deleteWhere, List.filter_filter]
  refine List.filter_congr fun r _ => ?_
  cases hq : q r with
  | false => simp
  | true => simp [h r hq]

/-- An update that keeps rows outside the selection outside and does not touch
those inside. -/
theorem filter_updateWhere {p q : α → Bool} {f : α → α} {rows : List α}
    (h : ∀ r ∈ rows, p r = true → q (f r) = q r ∧ (q r = true → f r = r)) :
    (updateWhere p f rows).filter q = rows.filter q := by
  induction rows with
  | nil => rfl
  | cons r rows ih =>
      have ih := ih fun x hx => h x (List.mem_cons_of_mem _ hx)
      rw [updateWhere] at ih
      rw [updateWhere, List.map_cons, List.filter_cons, List.filter_cons, ih]
      cases hp : p r with
      | false => simp
      | true =>
          obtain ⟨hq, hf⟩ := h r (List.mem_cons_self ..) hp
          cases hqr : q r with
          | false => simp [hq, hqr]
          | true => simp [hf hqr, hqr]

/-- Looking a key up after an update of other keys. -/
theorem find?_updateWhere {p q : α → Bool} {f : α → α} {rows : List α}
    (h : ∀ r ∈ rows, p r = true → q (f r) = q r) :
    (updateWhere p f rows).find? q =
      (rows.find? q).map fun r => if p r then f r else r := by
  induction rows with
  | nil => rfl
  | cons r rows ih =>
      have ih := ih fun x hx => h x (List.mem_cons_of_mem _ hx)
      rw [updateWhere] at ih
      have hq : q (if p r then f r else r) = q r := by
        cases hp : p r with
        | false => rfl
        | true => exact h r (List.mem_cons_self ..) hp
      rw [updateWhere, List.map_cons, List.find?_cons, List.find?_cons, hq]
      cases q r with
      | true => rfl
      | false => exact ih

/-- Looking a key up after an update of its own rows. -/
theorem find?_updateWhere_self {q : α → Bool} {f : α → α} {rows : List α}
    (h : ∀ r ∈ rows, q r = true → q (f r) = q r) :
    (updateWhere q f rows).find? q = (rows.find? q).map f := by
  rw [find?_updateWhere h]
  cases hf : rows.find? q with
  | none => rfl
  | some r => simp [List.find?_some hf]

/-- Looking a key up after a delete of other keys. -/
theorem find?_deleteWhere {p q : α → Bool} (h : ∀ r, q r = true → p r = false) (rows : List α) :
    (deleteWhere p rows).find? q = rows.find? q := by
  induction rows with
  | nil => rfl
  | cons r rows ih =>
      rw [deleteWhere] at ih
      rw [deleteWhere, List.filter_cons, List.find?_cons]
      cases hq : q r with
      | true => simp [h r hq, hq]
      | false =>
          cases hp : p r with
          | true => simpa [hp] using ih
          | false => simpa [hp, hq] using ih

/-! ## one row -/

/-- A selection of one row: an update and a delete in place. -/
theorem split_of_find? {p : α → Bool} {rows : List α} {r : α} (hfind : rows.find? p = some r)
    (hunique : rows.Pairwise fun a b => p a = true → p b = false) :
    ∃ front back, p r = true ∧ rows = front ++ r :: back ∧
      (∀ f, updateWhere p f rows = front ++ f r :: back) ∧
      deleteWhere p rows = front ++ back := by
  obtain ⟨hr, front, back, hrows, hfront⟩ := List.find?_eq_some_iff_append.mp hfind
  have hback : ∀ x ∈ back, p x = false := by
    rw [hrows] at hunique
    have htail := (List.pairwise_append.mp hunique).2.1
    exact fun x hx => (List.pairwise_cons.mp htail).1 x hx hr
  have hfront' : ∀ x ∈ front, p x = false := by
    intro x hx
    simpa using hfront x hx
  have hkeep : ∀ (f : α → α) (xs : List α), (∀ x ∈ xs, p x = false) →
      xs.map (fun x => if p x then f x else x) = xs := by
    intro f xs hxs
    rw [List.map_congr_left fun x hx => if_neg (by simp [hxs x hx]), List.map_id']
  refine ⟨front, back, hr, hrows, fun f => ?_, ?_⟩
  · rw [updateWhere, hrows, List.map_append, List.map_cons, hkeep f front hfront',
      hkeep f back hback, if_pos hr]
  · rw [deleteWhere, hrows, List.filter_append, List.filter_cons]
    simp only [hr, Bool.not_true, Bool.false_eq_true, if_false]
    rw [List.filter_eq_self.mpr fun x hx => by simp [hfront' x hx],
      List.filter_eq_self.mpr fun x hx => by simp [hback x hx]]

/-! ## rows that change their selection -/

/-- A selection without rows receives those an update brings. -/
theorem filter_updateWhere_into {p q : α → Bool} {f : α → α} {rows : List α}
    (h : ∀ r, p r = true → q (f r) = true) (hfree : rows.filter q = []) :
    (updateWhere p f rows).filter q = (rows.filter p).map f := by
  induction rows with
  | nil => rfl
  | cons r rows ih =>
      have hr : q r = false := by
        simpa using List.filter_eq_nil_iff.mp hfree r (List.mem_cons_self ..)
      have hrest : rows.filter q = [] := by
        rw [List.filter_cons, hr] at hfree
        exact hfree
      have ih := ih hrest
      rw [updateWhere] at ih
      rw [updateWhere, List.map_cons, List.filter_cons, List.filter_cons, ih]
      cases hp : p r with
      | false => simp [hr]
      | true => simp [h r hp]

/-- An update that keeps its rows in its own selection. -/
theorem filter_updateWhere_self {p : α → Bool} {f : α → α} {rows : List α}
    (h : ∀ r, p r = true → p (f r) = true) :
    (updateWhere p f rows).filter p = (rows.filter p).map f := by
  induction rows with
  | nil => rfl
  | cons r rows ih =>
      rw [updateWhere] at ih
      rw [updateWhere, List.map_cons, List.filter_cons, List.filter_cons, ih]
      cases hp : p r with
      | false => simp [hp]
      | true => simp [h r hp]

/-- An update that takes its rows out of its own selection. -/
theorem filter_updateWhere_out {p : α → Bool} {f : α → α} {rows : List α}
    (h : ∀ r, p (f r) = false) : (updateWhere p f rows).filter p = [] := by
  rw [List.filter_eq_nil_iff]
  intro r hr
  obtain ⟨r0, -, rfl⟩ := List.mem_map.mp hr
  cases hp : p r0 with
  | false => simp [hp]
  | true => simp [h r0]

/-! ## `ORDER BY … DESC LIMIT` -/

/-- The first `k` rows in decreasing order of a key are those with fewer than
`k` larger keys. -/
theorem mem_take_iff_countP {key : α → Nat} {rows : List α}
    (h : rows.Pairwise fun a b => key b < key a) {x : α} (hx : x ∈ rows) (k : Nat) :
    x ∈ rows.take k ↔ rows.countP (fun y => decide (key x < key y)) < k := by
  induction rows generalizing k with
  | nil => simp at hx
  | cons a rows ih =>
      obtain ⟨hhead, htail⟩ := List.pairwise_cons.mp h
      cases k with
      | zero => simp
      | succ k =>
          rw [List.take_succ_cons, List.mem_cons, List.countP_cons]
          by_cases hxa : x = a
          · -- the first row has the largest key
            have hnone : rows.countP (fun y => decide (key x < key y)) = 0 := by
              rw [List.countP_eq_zero]
              intro y hy
              have := hhead y hy
              simp only [hxa, decide_eq_true_eq]
              omega
            simp [hxa, hxa ▸ hnone]
          · have hmem : x ∈ rows := (List.mem_cons.mp hx).resolve_left hxa
            have hlt : key x < key a := hhead x hmem
            rw [ih htail hmem k, if_pos (by simpa using hlt)]
            simp only [hxa, false_or]
            omega

end Rows

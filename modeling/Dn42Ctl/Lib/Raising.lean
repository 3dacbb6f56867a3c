import Dn42Ctl.Lib.Prog
import Mathlib.Data.List.Basic

/-!
# Raising

Which exceptions a computation can end with.  The rules follow the shape of a
program, so that an `except` clause can be compared with what its body raises.
A loop gets as far as its first trouble (`FirstFails`, and `Reaches` where the
trouble is told by the item's number).
-/

variable {σ ε ε' α β : Type} {P : ε → Prop}

/-- Every error of the result satisfies `P`. -/
def Except.ErrorsIn (P : ε → Prop) (x : Except ε α) : Prop := ∀ e, x = .error e → P e

namespace Except.ErrorsIn

/-- A result is no error. -/
theorem pure (a : α) : Except.ErrorsIn P (Pure.pure a : Except ε α) := by
  intro e h
  cases h

/-- What is raised is the only error. -/
theorem throw {e : ε} (h : P e) : Except.ErrorsIn P (Except.error e : Except ε α) := by
  intro e' h'
  cases h'
  exact h

/-- The errors of a sequence are those of its parts. -/
theorem bind {x : Except ε α} {f : α → Except ε β} (hx : Except.ErrorsIn P x)
    (hf : ∀ a, x = .ok a → Except.ErrorsIn P (f a)) : Except.ErrorsIn P (x >>= f) := by
  intro e h
  cases hresult : x with
  | error e' =>
      rw [hresult] at h
      cases h
      exact hx e hresult
  | ok a =>
      rw [hresult] at h
      exact hf a hresult e h

/-- A function of the result raises nothing. -/
theorem map {x : Except ε α} (hx : Except.ErrorsIn P x) (f : α → β) :
    Except.ErrorsIn P (x.map f) := by
  intro e h
  cases hresult : x with
  | error e' =>
      rw [hresult] at h
      cases h
      exact hx e hresult
  | ok a =>
      rw [hresult] at h
      cases h

end Except.ErrorsIn

namespace Prog

/-- Whatever the state, an error of the program satisfies `P`. -/
def ErrorsIn (P : ε → Prop) (m : Prog σ ε α) : Prop := ∀ s, Except.ErrorsIn P (m.run s).1

namespace ErrorsIn

/-- Returning raises nothing. -/
theorem pure (a : α) : ErrorsIn P (Pure.pure a : Prog σ ε α) := fun _ => .pure a

/-- What is raised is the only error. -/
theorem raise {e : ε} (h : P e) : ErrorsIn P (Prog.raise e : Prog σ ε α) := fun _ => .throw h

/-- Reading raises nothing. -/
theorem read (f : σ → α) : ErrorsIn P (Prog.read f : Prog σ ε α) := fun s => .pure (f s)

/-- Writing raises nothing. -/
theorem write (f : σ → σ) : ErrorsIn P (Prog.write f : Prog σ ε Unit) := fun _ => .pure ()

/-- The errors of a sequence are those of its parts. -/
theorem bind {m : Prog σ ε α} {f : α → Prog σ ε β} (hm : ErrorsIn P m)
    (hf : ∀ a, ErrorsIn P (f a)) : ErrorsIn P (m >>= f) := by
  intro s
  rw [run_bind]
  cases hrun : m.run s with
  | mk r s' =>
      cases r with
      | error e =>
          refine .throw (hm s e ?_)
          rw [hrun]
      | ok a => exact hf a s'

end ErrorsIn

end Prog

/-! ## failing -/

/-- The result is an error that satisfies `P`. -/
def Except.FailsWith (P : ε → Prop) (x : Except ε α) : Prop := ∃ e, x = .error e ∧ P e

namespace Except

@[simp]
theorem failsWith_ok {a : α} : ¬(Except.ok a : Except ε α).FailsWith P := by
  rintro ⟨e, h, _⟩
  cases h

@[simp]
theorem failsWith_error {e : ε} : (Except.error e : Except ε α).FailsWith P ↔ P e := by
  constructor
  · rintro ⟨e', h, he⟩
    cases h
    exact he
  · exact fun he => ⟨e, rfl, he⟩

@[simp]
theorem failsWith_pure {a : α} : ¬(pure a : Except ε α).FailsWith P := failsWith_ok

@[simp]
theorem failsWith_throw {e : ε} : (throw e : Except ε α).FailsWith P ↔ P e := failsWith_error

/-- A sequence fails where its first half does, or its second after it. -/
theorem failsWith_bind {x : Except ε α} {f : α → Except ε β} :
    (x >>= f).FailsWith P ↔ x.FailsWith P ∨ ∃ a, x = .ok a ∧ (f a).FailsWith P := by
  cases x with
  | error e =>
      have hbind : ((Except.error e : Except ε α) >>= f) = .error e := rfl
      simp [hbind]
  | ok a =>
      have hbind : ((Except.ok a : Except ε α) >>= f) = f a := rfl
      simp [hbind]

/-- A sequence raises where its first half does, or its second. -/
theorem bind_eq_error {x : Except ε α} {f : α → Except ε β} {e : ε} :
    (x >>= f) = .error e ↔ x = .error e ∨ ∃ a, x = .ok a ∧ f a = .error e := by
  cases x with
  | error e' =>
      have hbind : ((Except.error e' : Except ε α) >>= f) = .error e' := rfl
      simp [hbind]
  | ok a =>
      have hbind : ((Except.ok a : Except ε α) >>= f) = f a := rfl
      simp [hbind]

/-- A search that returns has found an item, or has looked at all of them. -/
theorem anyM_ok {f : α → Except ε Bool} {xs : List α} {b : Bool} (h : xs.anyM f = .ok b) :
    b = true ↔ ∃ x ∈ xs, f x = .ok true := by
  induction xs with
  | nil =>
      cases h
      simp
  | cons x xs ih =>
      rw [List.anyM_cons, Prog.bind_eq_ok] at h
      obtain ⟨found, hfound, h⟩ := h
      rw [List.exists_mem_cons_iff, hfound]
      cases found with
      | true =>
          cases h
          simp
      | false =>
          rw [ih h]
          simp

/-- A search that raises does so at an item. -/
theorem anyM_error {f : α → Except ε Bool} {xs : List α} {e : ε} (h : xs.anyM f = .error e) :
    ∃ x ∈ xs, f x = .error e := by
  induction xs with
  | nil => cases h
  | cons x xs ih =>
      rw [List.anyM_cons, bind_eq_error] at h
      obtain h | ⟨found, -, h⟩ := h
      · exact ⟨x, List.mem_cons_self, h⟩
      · cases found with
        | true => cases h
        | false =>
            obtain ⟨y, hy, hfy⟩ := ih h
            exact ⟨y, List.mem_cons_of_mem x hy, hfy⟩

/-- The results of a loop that returns. -/
theorem mem_of_mapM_ok {f : α → Except ε β} {xs : List α} {ys : List β} {y : β}
    (h : xs.mapM f = .ok ys) : y ∈ ys ↔ ∃ x ∈ xs, f x = .ok y := by
  induction xs generalizing ys with
  | nil =>
      cases h
      simp
  | cons x xs ih =>
      rw [List.mapM_cons] at h
      simp only [Prog.bind_eq_ok] at h
      obtain ⟨z, hz, zs, hzs, h⟩ := h
      cases h
      rw [List.mem_cons, List.exists_mem_cons_iff, hz, ih hzs, Except.ok.injEq, eq_comm]

/-- A loop that returns has a result for each item. -/
theorem ok_of_mapM_ok {f : α → Except ε β} {xs : List α} {ys : List β} (h : xs.mapM f = .ok ys)
    {x : α} (hx : x ∈ xs) : ∃ y, f x = .ok y := by
  induction xs generalizing ys with
  | nil => cases hx
  | cons z zs ih =>
      rw [List.mapM_cons] at h
      simp only [Prog.bind_eq_ok] at h
      obtain ⟨y, hy, ys', hys, -⟩ := h
      obtain rfl | hmem := List.mem_cons.mp hx
      · exact ⟨y, hy⟩
      · exact ih hys hmem

/-- A loop that raises does so at an item. -/
theorem mapM_error {f : α → Except ε β} {xs : List α} {e : ε} (h : xs.mapM f = .error e) :
    ∃ x ∈ xs, f x = .error e := by
  induction xs with
  | nil => cases h
  | cons x xs ih =>
      rw [List.mapM_cons, bind_eq_error] at h
      obtain h | ⟨z, -, h⟩ := h
      · exact ⟨x, List.mem_cons_self, h⟩
      · rw [bind_eq_error] at h
        obtain h | ⟨zs, -, h⟩ := h
        · obtain ⟨y, hy, hfy⟩ := ih h
          exact ⟨y, List.mem_cons_of_mem x hy, hfy⟩
        · cases h

/-- Where all errors are of one kind, none is of another. -/
theorem ErrorsIn.not_failsWith {Q : ε → Prop} {x : Except ε α} (h : x.ErrorsIn P)
    (hPQ : ∀ e, P e → ¬Q e) : ¬x.FailsWith Q := by
  rintro ⟨e, he, hq⟩
  exact hPQ e (h e he) hq

/-! ### the first failure -/

/-- A loop over the items fails at one of them: the steps before it return, with
results that the loop goes past. -/
def FirstFails (P : ε → Prop) (past : β → Prop) (f : α → Except ε β) (xs : List α) : Prop :=
  ∃ before x after, xs = before ++ x :: after ∧ (∀ y ∈ before, ∃ b, f y = .ok b ∧ past b) ∧
    (f x).FailsWith P

section FirstFails

variable {past : β → Prop} {f : α → Except ε β} {x : α} {xs : List α}

theorem firstFails_nil : ¬FirstFails P past f [] := by
  rintro ⟨before, x, after, h, _⟩
  simp at h

theorem firstFails_cons : FirstFails P past f (x :: xs) ↔
    (f x).FailsWith P ∨ (∃ b, f x = .ok b ∧ past b) ∧ FirstFails P past f xs := by
  constructor
  · rintro ⟨before, y, after, h, hpast, hfails⟩
    cases before with
    | nil =>
        cases h
        exact .inl hfails
    | cons z before =>
        cases h
        exact .inr ⟨hpast _ List.mem_cons_self, before, y, after, rfl,
          fun w hw => hpast w (List.mem_cons_of_mem _ hw), hfails⟩
  · rintro (hfails | ⟨hx, before, y, after, rfl, hpast, hfails⟩)
    · exact ⟨[], x, xs, rfl, fun _ hy => absurd hy List.not_mem_nil, hfails⟩
    · refine ⟨x :: before, y, after, rfl, fun w hw => ?_, hfails⟩
      obtain rfl | hw := List.mem_cons.mp hw
      · exact hx
      · exact hpast w hw

/-- A loop that fails does so at one of the items. -/
theorem FirstFails.exists_mem (h : FirstFails P past f xs) : ∃ x ∈ xs, (f x).FailsWith P := by
  obtain ⟨before, x, after, rfl, -, hfails⟩ := h
  exact ⟨x, by simp, hfails⟩

/-- A search goes past the items it does not look for. -/
theorem anyM_failsWith_iff {f : α → Except ε Bool} :
    (xs.anyM f).FailsWith P ↔ FirstFails P (fun found => found = false) f xs := by
  induction xs with
  | nil => exact ⟨fun h => absurd h failsWith_ok, fun h => absurd h firstFails_nil⟩
  | cons x xs ih =>
      rw [List.anyM_cons, failsWith_bind, firstFails_cons, ← ih]
      apply or_congr_right
      constructor
      · rintro ⟨found, hfound, h⟩
        cases found with
        | true => exact absurd h failsWith_ok
        | false => exact ⟨⟨false, hfound, rfl⟩, h⟩
      · rintro ⟨⟨_, hfound, rfl⟩, h⟩
        exact ⟨false, hfound, h⟩

/-- A loop goes past every step that returns. -/
theorem mapM_failsWith_iff : (xs.mapM f).FailsWith P ↔ FirstFails P (fun _ => True) f xs := by
  induction xs with
  | nil => exact ⟨fun h => absurd h failsWith_ok, fun h => absurd h firstFails_nil⟩
  | cons x xs ih =>
      rw [List.mapM_cons, failsWith_bind, firstFails_cons, ← ih]
      apply or_congr_right
      constructor
      · rintro ⟨b, hb, h⟩
        rw [failsWith_bind] at h
        obtain h | ⟨_, -, h⟩ := h
        · exact ⟨⟨b, hb, trivial⟩, h⟩
        · exact absurd h failsWith_ok
      · rintro ⟨⟨b, hb, -⟩, h⟩
        exact ⟨b, hb, failsWith_bind.mpr (.inl h)⟩

end FirstFails

end Except

namespace Prog

/-- Run from the state, the program fails with an error that satisfies `P`. -/
def FailsWith (P : ε → Prop) (m : Prog σ ε α) (s : σ) : Prop := (m.run s).1.FailsWith P

/-- Raising fails. -/
theorem failsWith_raise {e : ε} {s : σ} :
    FailsWith P (Prog.raise e : Prog σ ε α) s ↔ P e := Except.failsWith_error

/-- Returning does not fail. -/
theorem not_failsWith_pure {a : α} {s : σ} : ¬FailsWith P (pure a : Prog σ ε α) s :=
  Except.failsWith_ok

/-- A sequence fails where its first half does, or its second after it. -/
theorem failsWith_bind {m : Prog σ ε α} {f : α → Prog σ ε β} {s : σ} :
    FailsWith P (m >>= f) s ↔
      FailsWith P m s ∨ ∃ a s', m.run s = (.ok a, s') ∧ FailsWith P (f a) s' := by
  rw [FailsWith, run_bind, FailsWith]
  cases hrun : m.run s with
  | mk r s' =>
      cases r with
      | error e => simp
      | ok a =>
          constructor
          · exact fun h => .inr ⟨a, s', rfl, h⟩
          · rintro (h | ⟨a', s'', heq, h⟩)
            · exact absurd h Except.failsWith_ok
            · cases heq
              exact h

/-- Where all errors are of one kind, none is of another. -/
theorem ErrorsIn.not_failsWith {Q : ε → Prop} {m : Prog σ ε α} (h : m.ErrorsIn P)
    (hPQ : ∀ e, P e → ¬Q e) (s : σ) : ¬FailsWith Q m s := (h s).not_failsWith hPQ

end Prog

/-! ## loops -/

/-- A loop over the items, counted from `i`, reaches a bad one: no step before it,
and not its own, is stopped from outside. -/
def Reaches (ok : Nat → Prop) (bad : α → Prop) (i : Nat) (xs : List α) : Prop :=
  ∃ k x, xs[k]? = some x ∧ bad x ∧ ∀ j ≤ k, ok (i + j)

section Reaches

variable {ok : Nat → Prop} {bad : α → Prop} {i : Nat} {x : α} {xs : List α}

theorem reaches_nil : ¬Reaches ok bad i [] := by
  rintro ⟨k, x, hx, _⟩
  simp at hx

/-- The first item is bad, or a later one is reached past it. -/
theorem reaches_cons :
    Reaches ok bad i (x :: xs) ↔ ok i ∧ (bad x ∨ Reaches ok bad (i + 1) xs) := by
  have hnext : ∀ j, i + (j + 1) = i + 1 + j := fun j => by omega
  constructor
  · rintro ⟨k, y, hy, hbad, hok⟩
    refine ⟨hok 0 (by omega), ?_⟩
    cases k with
    | zero =>
        cases hy
        exact .inl hbad
    | succ k => exact .inr ⟨k, y, hy, hbad, fun j hj => hnext j ▸ hok (j + 1) (by omega)⟩
  · rintro ⟨hi, hbad | ⟨k, y, hy, hbad, hok⟩⟩
    · exact ⟨0, x, rfl, hbad, fun j hj => Nat.le_zero.mp hj ▸ hi⟩
    · refine ⟨k + 1, y, hy, hbad, fun j hj => ?_⟩
      cases j with
      | zero => exact hi
      | succ j => exact hnext j ▸ hok j (by omega)

/-- An item that is reached is one of the items. -/
theorem Reaches.exists_mem (h : Reaches ok bad i xs) : ∃ x ∈ xs, bad x := by
  obtain ⟨k, x, hx, hbad, -⟩ := h
  exact ⟨x, List.mem_of_getElem? hx, hbad⟩

end Reaches

import Mathlib.Logic.Basic

/-!
# Prog

Programs of a language with mutable state and exceptions: what a program
wrote before it raised stays written.  `Prog σ ε α` is therefore a function
from a state to an outcome *and* a state, and `tryCatch` resumes from the
state in which the exception was raised.
-/

/-- A stateful computation that returns an `α` or raises an `ε`. -/
def Prog (σ ε α : Type) : Type := σ → Except ε α × σ

namespace Prog

variable {σ ε α β : Type}

/-- Run a program from a state. -/
def run (m : Prog σ ε α) (s : σ) : Except ε α × σ := m s

protected def pure (a : α) : Prog σ ε α := fun s => (.ok a, s)

protected def bind (m : Prog σ ε α) (f : α → Prog σ ε β) : Prog σ ε β := fun s =>
  match m s with
  | (.ok a, s') => f a s'
  | (.error e, s') => (.error e, s')

instance : Monad (Prog σ ε) where
  pure := Prog.pure
  bind := Prog.bind

/-- `raise e`. -/
def raise (e : ε) : Prog σ ε α := fun s => (.error e, s)

/-- `try: m  except e: handler e`. -/
def catching (m : Prog σ ε α) (handler : ε → Prog σ ε α) : Prog σ ε α := fun s =>
  match m s with
  | (.ok a, s') => (.ok a, s')
  | (.error e, s') => handler e s'

/-- Read the state. -/
def read (f : σ → α) : Prog σ ε α := fun s => (.ok (f s), s)

/-- Replace the state. -/
def write (f : σ → σ) : Prog σ ε Unit := fun s => (.ok (), f s)

/-- A value that may itself be an exception. -/
def lift (r : Except ε α) : Prog σ ε α := fun s => (r, s)

/-! ## running the combinators -/

@[simp] theorem run_pure (a : α) (s : σ) : (pure a : Prog σ ε α).run s = (.ok a, s) := rfl

@[simp] theorem run_raise (e : ε) (s : σ) : (raise e : Prog σ ε α).run s = (.error e, s) := rfl

@[simp] theorem run_read (f : σ → α) (s : σ) :
    (read f : Prog σ ε α).run s = (.ok (f s), s) := rfl

@[simp] theorem run_write (f : σ → σ) (s : σ) :
    (write f : Prog σ ε Unit).run s = (.ok (), f s) := rfl

@[simp] theorem run_lift (r : Except ε α) (s : σ) : (lift r : Prog σ ε α).run s = (r, s) := rfl

/-- In sequence. -/
theorem run_bind (m : Prog σ ε α) (f : α → Prog σ ε β) (s : σ) :
    (m >>= f).run s =
      match m.run s with
      | (.ok a, s') => (f a).run s'
      | (.error e, s') => (.error e, s') := rfl

/-- Under a handler. -/
theorem run_catching (m : Prog σ ε α) (h : ε → Prog σ ε α) (s : σ) :
    (catching m h).run s =
      match m.run s with
      | (.ok a, s') => (.ok a, s')
      | (.error e, s') => (h e).run s' := rfl

/-- Sequencing after a program that returns. -/
theorem run_bind_ok {m : Prog σ ε α} {f : α → Prog σ ε β} {s s' : σ} {a : α}
    (h : m.run s = (.ok a, s')) : (m >>= f).run s = (f a).run s' := by
  rw [run_bind, h]

/-- Sequencing after a program that raises. -/
theorem run_bind_error {m : Prog σ ε α} {f : α → Prog σ ε β} {s s' : σ} {e : ε}
    (h : m.run s = (.error e, s')) : (m >>= f).run s = (.error e, s') := by
  rw [run_bind, h]

/-- Sequencing is associative. -/
theorem bind_assoc {γ : Type} (m : Prog σ ε α) (f : α → Prog σ ε β) (g : β → Prog σ ε γ) :
    (m >>= f) >>= g = m >>= fun a => f a >>= g := by
  funext s
  show ((m >>= f) >>= g).run s = (m >>= fun a => f a >>= g).run s
  simp only [run_bind]
  cases m.run s with
  | mk r s' =>
      cases r with
      | ok a => rfl
      | error e => rfl

/-- A sequence returns exactly when both halves do. -/
theorem run_bind_eq_ok {m : Prog σ ε α} {f : α → Prog σ ε β} {s s'' : σ} {b : β} :
    (m >>= f).run s = (.ok b, s'') ↔
      ∃ a s', m.run s = (.ok a, s') ∧ (f a).run s' = (.ok b, s'') := by
  rw [run_bind]
  constructor
  · intro h
    cases hm : m.run s with
    | mk r s' =>
        cases r with
        | ok a => exact ⟨a, s', rfl, by simpa only [hm] using h⟩
        | error e => simp [hm] at h
  · rintro ⟨a, s', hm, hf⟩
    rw [hm]
    exact hf

/-- Behind a handler that only raises, a program returns when its body does. -/
theorem run_catching_eq_ok {m : Prog σ ε α} {h : ε → Prog σ ε α} {s s' : σ} {a : α}
    (hraises : ∀ e s1 b s2, (h e).run s1 ≠ (.ok b, s2)) :
    (catching m h).run s = (.ok a, s') ↔ m.run s = (.ok a, s') := by
  rw [run_catching]
  cases m.run s with
  | mk r s1 =>
      cases r with
      | ok b => exact Iff.rfl
      | error e =>
          constructor
          · intro hok
            exact absurd hok (hraises e s1 a s')
          · intro hok
            cases hok

/-- A loop without iterations. -/
theorem run_forM_nil (f : β → Prog σ ε PUnit) (s : σ) :
    (([] : List β).forM f).run s = (.ok ⟨⟩, s) := rfl

/-- The first iteration of a loop. -/
theorem run_forM_cons (b : β) (bs : List β) (f : β → Prog σ ε PUnit) (s : σ) :
    ((b :: bs).forM f).run s = (f b >>= fun _ => bs.forM f).run s := rfl

/-- Sequencing of checks that keep no state. -/
theorem bind_eq_ok {x : Except ε α} {f : α → Except ε β} {b : β} :
    (x >>= f) = .ok b ↔ ∃ a, x = .ok a ∧ f a = .ok b := by
  cases x with
  | error e =>
      constructor
      · intro h
        cases h
      · rintro ⟨a, ha, -⟩
        cases ha
  | ok a =>
      constructor
      · intro h
        exact ⟨a, rfl, h⟩
      · rintro ⟨a', ha, h⟩
        cases ha
        exact h

/-! ## frame rule -/

/-- `m` leaves `g` of the state as it is, whether it returns or raises. -/
def Keeps {γ : Type} (g : σ → γ) (m : Prog σ ε α) : Prop := ∀ s, g (m.run s).2 = g s

namespace Keeps

variable {γ : Type} {g : σ → γ}

theorem pure (a : α) : Keeps g (Pure.pure a : Prog σ ε α) := fun _ => rfl

theorem raise (e : ε) : Keeps g (Prog.raise e : Prog σ ε α) := fun _ => rfl

theorem read (f : σ → α) : Keeps g (Prog.read f : Prog σ ε α) := fun _ => rfl

theorem lift (r : Except ε α) : Keeps g (Prog.lift r : Prog σ ε α) := fun _ => rfl

theorem bind {m : Prog σ ε α} {f : α → Prog σ ε β} (hm : Keeps g m) (hf : ∀ a, Keeps g (f a)) :
    Keeps g (m >>= f) := by
  intro s
  rw [run_bind]
  have hs := hm s
  cases h : m.run s with
  | mk r s' =>
      rw [h] at hs
      cases r with
      | ok a => exact (hf a s').trans hs
      | error e => exact hs

theorem catching {m : Prog σ ε α} {h : ε → Prog σ ε α} (hm : Keeps g m) (hh : ∀ e, Keeps g (h e)) :
    Keeps g (Prog.catching m h) := by
  intro s
  rw [run_catching]
  have hs := hm s
  cases hr : m.run s with
  | mk r s' =>
      rw [hr] at hs
      cases r with
      | ok a => exact hs
      | error e => exact (hh e s').trans hs

end Keeps

/-! ## invariant rule -/

/-- `m` keeps `I` of the state, whether it returns or raises. -/
def Maintains (I : σ → Prop) (m : Prog σ ε α) : Prop := ∀ s, I s → I (m.run s).2

namespace Maintains

variable {I : σ → Prop}

theorem pure (a : α) : Maintains I (Pure.pure a : Prog σ ε α) := fun _ h => h

theorem raise (e : ε) : Maintains I (Prog.raise e : Prog σ ε α) := fun _ h => h

theorem lift (r : Except ε α) : Maintains I (Prog.lift r : Prog σ ε α) := fun _ h => h

theorem bind {m : Prog σ ε α} {f : α → Prog σ ε β} (hm : Maintains I m)
    (hf : ∀ a, Maintains I (f a)) : Maintains I (m >>= f) := by
  intro s hs
  rw [run_bind]
  have h1 := hm s hs
  cases h : m.run s with
  | mk r s' =>
      rw [h] at h1
      cases r with
      | ok a => exact hf a s' h1
      | error e => exact h1

theorem catching {m : Prog σ ε α} {h : ε → Prog σ ε α} (hm : Maintains I m)
    (hh : ∀ e, Maintains I (h e)) : Maintains I (Prog.catching m h) := by
  intro s hs
  rw [run_catching]
  have h1 := hm s hs
  cases hr : m.run s with
  | mk r s' =>
      rw [hr] at h1
      cases r with
      | ok a => exact h1
      | error e => exact hh e s' h1

end Maintains

/-! ## what a program that raises leaves -/

/-- From a state with `P`, a run of `m` that raises ends in a state with `Q`. -/
def RaisesTo (P Q : σ → Prop) (m : Prog σ ε α) : Prop :=
  ∀ s e s', P s → m.run s = (.error e, s') → Q s'

namespace RaisesTo

variable {P Q : σ → Prop}

/-- A program that maintains the invariant. -/
theorem of_maintains {m : Prog σ ε α} (hPQ : ∀ s, P s → Q s) (hm : Maintains P m) :
    RaisesTo P Q m := by
  intro s e s' hs hrun
  have h := hm s hs
  rw [hrun] at h
  exact hPQ s' h

/-- Up to the last part of a program the state keeps `P`. -/
theorem bind {m : Prog σ ε α} {f : α → Prog σ ε β} (hPQ : ∀ s, P s → Q s) (hm : Maintains P m)
    (hf : ∀ a, RaisesTo P Q (f a)) : RaisesTo P Q (m >>= f) := by
  intro s e s' hs hrun
  have h := hm s hs
  rw [run_bind] at hrun
  cases hmr : m.run s with
  | mk r s1 =>
      rw [hmr] at h hrun
      cases r with
      | ok a => exact hf a s1 e s' h hrun
      | error e1 =>
          simp only [Prod.mk.injEq] at hrun
          exact hPQ s' (hrun.2 ▸ h)

/-- Nothing after the last part can raise. -/
theorem map {m : Prog σ ε α} (hm : RaisesTo P Q m) (g : α → β) :
    RaisesTo P Q (m >>= fun a => Pure.pure (g a)) := by
  intro s e s' hs hrun
  rw [run_bind] at hrun
  cases hmr : m.run s with
  | mk r s1 =>
      rw [hmr] at hrun
      cases r with
      | ok a => simp at hrun
      | error e1 =>
          simp only [Prod.mk.injEq] at hrun
          exact hrun.2 ▸ hm s e1 s1 hs hmr

theorem catching {m : Prog σ ε α} {h : ε → Prog σ ε α} (hm : RaisesTo P Q m)
    (hh : ∀ e, Maintains Q (h e)) : RaisesTo P Q (Prog.catching m h) := by
  intro s e s' hs hrun
  rw [run_catching] at hrun
  cases hmr : m.run s with
  | mk r s1 =>
      rw [hmr] at hrun
      cases r with
      | ok a => simp at hrun
      | error e1 =>
          have hq := hh e1 s1 (hm s e1 s1 hs hmr)
          dsimp only at hrun
          rw [hrun] at hq
          exact hq

end RaisesTo

end Prog

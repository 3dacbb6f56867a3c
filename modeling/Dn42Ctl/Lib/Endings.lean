import Dn42Ctl.Lib.Txn

/-!
# Endings

How a check or a program can end: a property of what it returns and one of what
it raises.

* `Checks` — for a check, which has no state;
* `Ends` — for a program, from every state with an invariant that it keeps;
* `Conn.Quiet` — the invariant of a connection without faults, with a rule for
  each statement.
-/

namespace Endings

variable {σ ε ε' α β : Type}

/-! ## checks -/

/-- What the check returns has `Q`, what it raises has `P`. -/
def Checks (Q : α → Prop) (P : ε → Prop) : Except ε α → Prop
  | .ok a => Q a
  | .error e => P e

namespace Checks

variable {Q Q' : α → Prop} {P P' : ε → Prop} {R : β → Prop}

theorem pure {a : α} (h : Q a) : Checks Q P (Pure.pure a : Except ε α) := h

theorem throw {e : ε} (h : P e) : Checks Q P (MonadExcept.throw e : Except ε α) := h

/-- In sequence, the second check starts from what the first one returns. -/
theorem bind {r : Except ε α} {f : α → Except ε β} (hr : Checks Q P r)
    (hf : ∀ a, Q a → Checks R P (f a)) : Checks R P (r >>= f) := by
  cases r with
  | ok a => exact hf a hr
  | error e => exact hr

/-- The error is changed on its way. -/
theorem mapError {r : Except ε α} {g : ε → ε'} {P : ε' → Prop} (h : Checks Q (fun e => P (g e)) r) :
    Checks Q P (r.mapError g) := by
  cases r with
  | ok a => exact h
  | error e => exact h

/-- What is known of the ending may be weakened. -/
theorem mono {r : Except ε α} (h : Checks Q P r) (hQ : ∀ a, Q a → Q' a) (hP : ∀ e, P e → P' e) :
    Checks Q' P' r := by
  cases r with
  | ok a => exact hQ a h
  | error e => exact hP e h

/-- A check of every element. -/
theorem forM {f : α → Except ε PUnit} {as : List α} (h : ∀ a ∈ as, Checks (fun _ => True) P (f a)) :
    Checks (fun _ => True) P (as.forM f) := by
  induction as with
  | nil => exact trivial
  | cons a as ih =>
      exact bind (h a (List.mem_cons_self ..)) fun _ _ =>
        ih fun b hb => h b (List.mem_cons_of_mem _ hb)

end Checks

/-! ## programs -/

/-- From a state with `I` the program ends in one with `I`; what it returns has
`Q`, what it raises has `P`. -/
def Ends (I : σ → Prop) (Q : α → Prop) (P : ε → Prop) (m : Prog σ ε α) : Prop :=
  ∀ s, I s → I (m.run s).2 ∧ Checks Q P (m.run s).1

namespace Ends

variable {I : σ → Prop} {Q Q' : α → Prop} {P P' : ε → Prop} {R : β → Prop}

theorem pure {a : α} (h : Q a) : Ends I Q P (Pure.pure a : Prog σ ε α) := fun _ hs => ⟨hs, h⟩

/-- A program that raises keeps the state. -/
theorem raise {e : ε} (h : P e) : Ends I Q P (Prog.raise e : Prog σ ε α) := fun _ hs => ⟨hs, h⟩

/-- A pure check as a program. -/
theorem lift {r : Except ε α} (h : Checks Q P r) : Ends I Q P (Prog.lift r : Prog σ ε α) :=
  fun _ hs => ⟨hs, h⟩

/-- In sequence, the second program starts from what the first one returns. -/
theorem bind {m : Prog σ ε α} {f : α → Prog σ ε β} (hm : Ends I Q P m)
    (hf : ∀ a, Q a → Ends I R P (f a)) : Ends I R P (m >>= f) := by
  intro s hs
  obtain ⟨hs', hr⟩ := hm s hs
  rw [Prog.run_bind]
  cases hrun : m.run s with
  | mk r s' =>
      rw [hrun] at hs' hr
      cases r with
      | ok a => exact hf a hr s' hs'
      | error e => exact ⟨hs', hr⟩

/-- A handler goes on from where the program raised. -/
theorem catching {m : Prog σ ε α} {h : ε → Prog σ ε α} (hm : Ends I Q P m)
    (hh : ∀ e, P e → Ends I Q P' (h e)) : Ends I Q P' (Prog.catching m h) := by
  intro s hs
  obtain ⟨hs', hr⟩ := hm s hs
  rw [Prog.run_catching]
  cases hrun : m.run s with
  | mk r s' =>
      rw [hrun] at hs' hr
      cases r with
      | ok a => exact ⟨hs', hr⟩
      | error e => exact hh e hr s' hs'

/-- The same for a program. -/
theorem mono {m : Prog σ ε α} (h : Ends I Q P m) (hQ : ∀ a, Q a → Q' a) (hP : ∀ e, P e → P' e) :
    Ends I Q' P' m := fun s hs => ⟨(h s hs).1, (h s hs).2.mono hQ hP⟩

end Ends

end Endings

/-! ## connections without faults -/

namespace Txn

open Endings

variable {σ ε α β : Type}

/-- No statement of the connection will fail. -/
def Conn.Quiet (c : Conn σ) : Prop := c.fault = none ∧ c.late = false

/-- A connection that was just opened is quiet. -/
theorem Conn.fresh_quiet (db : σ) : (Conn.fresh db none false).Quiet := ⟨rfl, rfl⟩

namespace Quiet

variable {Q : α → Prop} {P : Exc ε → Prop}

/-- A query reads the working copy only. -/
theorem query (f : σ → α) :
    Ends Conn.Quiet (fun _ => True) P (Txn.query none f : Tx σ ε α) := by
  intro c hc
  obtain ⟨d, w, t, fault, late⟩ := c
  obtain ⟨rfl, rfl⟩ : fault = none ∧ late = false := hc
  exact ⟨⟨rfl, rfl⟩, trivial⟩

/-- So does one whose error has a message of its own. -/
theorem queryOr (msg : ε) (f : σ → α) :
    Ends Conn.Quiet (fun _ => True) P (Txn.queryOr msg none f) := by
  intro c hc
  obtain ⟨d, w, t, fault, late⟩ := c
  obtain ⟨rfl, rfl⟩ : fault = none ∧ late = false := hc
  exact ⟨⟨rfl, rfl⟩, trivial⟩

/-- A statement that fits changes the working copy, or fails in SQLite. -/
theorem execute (f : σ → Except SqlError (α × σ)) (hsql : ∀ e, P (.sqlite e)) :
    Ends Conn.Quiet (fun _ => True) P (Txn.execute none f : Tx σ ε α) := by
  intro c hc
  obtain ⟨d, w, t, fault, late⟩ := c
  obtain ⟨rfl, rfl⟩ : fault = none ∧ late = false := hc
  rw [run_execute_none]
  cases f w with
  | ok r => exact ⟨⟨rfl, rfl⟩, trivial⟩
  | error e => exact ⟨⟨rfl, rfl⟩, hsql e⟩

theorem modify (f : σ → σ) :
    Ends Conn.Quiet (fun _ => True) P (Txn.modify none f : Tx σ ε Unit) := by
  intro c hc
  obtain ⟨d, w, t, fault, late⟩ := c
  obtain ⟨rfl, rfl⟩ : fault = none ∧ late = false := hc
  exact ⟨⟨rfl, rfl⟩, trivial⟩

/-- A commit of a quiet connection is quiet. -/
theorem commit : Ends Conn.Quiet (fun _ => True) P (Txn.commit : Tx σ ε Unit) := by
  intro c hc
  obtain ⟨d, w, t, fault, late⟩ := c
  obtain ⟨rfl, rfl⟩ : fault = none ∧ late = false := hc
  exact ⟨⟨rfl, rfl⟩, trivial⟩

/-- Raising leaves the connection as it is. -/
theorem fail {e : ε} (h : P (.raised e)) : Ends Conn.Quiet Q P (Txn.fail e : Tx σ ε α) :=
  Ends.raise h

/-- Rolling back and raising leaves it quiet. -/
theorem abort {e : ε} (h : P (.raised e)) : Ends Conn.Quiet Q P (Txn.abort e : Tx σ ε α) :=
  fun _ hc => ⟨hc, h⟩

/-- The handler of a transaction answers the driver's errors, and lets the
others pass. -/
theorem guarded {onError : SqlError → ε} {m : Tx σ ε α}
    (hm : Ends Conn.Quiet Q (fun e => (∃ s, e = .sqlite s) ∨ P e) m)
    (hon : ∀ s, P (.raised (onError s))) : Ends Conn.Quiet Q P (Txn.guarded onError m) := by
  refine Ends.catching hm fun e he => ?_
  cases e with
  | sqlite s => exact abort (hon s)
  | unbound b =>
      obtain ⟨s, hs⟩ | he := he
      · cases hs
      · exact .raise he
  | raised e =>
      obtain ⟨s, hs⟩ | he := he
      · cases hs
      · exact .raise he

end Quiet

end Txn

import Mathlib.Logic.Basic

/-!
# Machine

Executable transition systems: a partial step function on states, driven by
a schedule of actions.  An action carries whatever the environment decides
(a clock reading, which task runs next, whether a command fails), so every
interleaving of the modelled parties is one schedule.

* `exec` runs a schedule and is `none` as soon as an action is not enabled;
* `Along` says that every action of a schedule is taken in a state where a
  condition on the step holds;
* `exec_invariant` is the induction that all safety results use.
-/

namespace Machine

variable {σ α : Type*} (step : σ → α → Option σ)

/-- Run a schedule from `s`. -/
def exec : σ → List α → Option σ
  | s, [] => some s
  | s, a :: as => (step s a).bind fun s' => exec s' as

/-- Every action of the schedule is taken in a state where `P` holds of the
state and the action. -/
def Along (P : σ → α → Prop) : σ → List α → Prop
  | _, [] => True
  | s, a :: as => P s a ∧ ∀ s', step s a = some s' → Along P s' as

/-- The states a machine can reach from `s`. -/
def Reachable (s t : σ) : Prop := ∃ as, exec step s as = some t

/-! ## schedules compose -/

@[simp] theorem exec_nil (s : σ) : exec step s [] = some s := rfl

theorem exec_cons (s : σ) (a : α) (as : List α) :
    exec step s (a :: as) = (step s a).bind fun s' => exec step s' as := rfl

theorem exec_append (s : σ) (as bs : List α) :
    exec step s (as ++ bs) = (exec step s as).bind fun s' => exec step s' bs := by
  induction as generalizing s with
  | nil => rfl
  | cons a as ih =>
      rw [List.cons_append, exec_cons, exec_cons, Option.bind_assoc]
      exact congrArg _ (funext fun s' => ih s')

/-- A schedule that runs can be split after its first action. -/
theorem exec_cons_eq_some {s t : σ} {a : α} {as : List α}
    (h : exec step s (a :: as) = some t) :
    ∃ s', step s a = some s' ∧ exec step s' as = some t := by
  rw [exec_cons] at h
  exact Option.bind_eq_some_iff.mp h

theorem Reachable.refl (s : σ) : Reachable step s s := ⟨[], rfl⟩

theorem Reachable.tail {s t u : σ} {a : α} (h : Reachable step s t) (hu : step t a = some u) :
    Reachable step s u := by
  obtain ⟨as, has⟩ := h
  exact ⟨as ++ [a], by rw [exec_append, has, Option.bind_some, exec_cons, hu]; rfl⟩

/-- A step at a time. -/
theorem along_cons {P : σ → α → Prop} {s s' : σ} {a : α} {as : List α} (hP : P s a)
    (hs : step s a = some s') (h : Along step P s' as) : Along step P s (a :: as) := by
  refine ⟨hP, fun t ht => ?_⟩
  have htt : s' = t := Option.some.inj (hs.symm.trans ht)
  exact htt ▸ h

/-- A weaker condition is met along the same schedules. -/
theorem Along.mono {P Q : σ → α → Prop} (h : ∀ s a, P s a → Q s a) {s : σ} {as : List α}
    (hP : Along step P s as) : Along step Q s as := by
  induction as generalizing s with
  | nil => trivial
  | cons a as ih => exact ⟨h s a hP.1, fun s' hs' => ih (hP.2 s' hs')⟩

/-- Conditions that agree where an invariant holds are met along the same
schedules, when the steps that meet them keep it. -/
theorem along_congr {Inv : σ → Prop} {P Q : σ → α → Prop} (h : ∀ s a, Inv s → (P s a ↔ Q s a))
    (hstep : ∀ s a s', Inv s → P s a → step s a = some s' → Inv s') {s : σ} (hs : Inv s)
    (as : List α) : Along step P s as ↔ Along step Q s as := by
  induction as generalizing s with
  | nil => exact Iff.rfl
  | cons a as ih =>
      rw [Along, Along, h s a hs]
      refine and_congr_right fun hQ => forall_congr' fun s' => forall_congr' fun hs' => ?_
      exact ih (hstep s a s' hs ((h s a hs).mpr hQ) hs')

/-- A condition on the actions alone. -/
theorem along_of_forall {P : α → Prop} {s : σ} {as : List α} (h : ∀ a ∈ as, P a) :
    Along step (fun _ a => P a) s as := by
  induction as generalizing s with
  | nil => trivial
  | cons a as ih =>
      refine ⟨h a (List.mem_cons_self ..), fun s' _ => ih fun b hb => ?_⟩
      exact h b (List.mem_cons_of_mem _ hb)

/-! ## invariants -/

/-- **Invariant rule**: what every step that meets `P` preserves holds after
every schedule whose actions all meet `P`. -/
theorem exec_invariant {P : σ → α → Prop} {Inv : σ → Prop}
    (hstep : ∀ s a s', Inv s → P s a → step s a = some s' → Inv s')
    {s t : σ} {as : List α} (hs : Inv s) (hP : Along step P s as)
    (h : exec step s as = some t) : Inv t := by
  induction as generalizing s with
  | nil => rw [exec_nil, Option.some.injEq] at h; exact h ▸ hs
  | cons a as ih =>
      obtain ⟨s', hs', ht⟩ := exec_cons_eq_some step h
      exact ih (hstep s a s' hs hP.1 hs') (hP.2 s' hs') ht

/-- The rule without a condition on the steps. -/
theorem reachable_invariant {Inv : σ → Prop}
    (hstep : ∀ s a s', Inv s → step s a = some s' → Inv s')
    {s t : σ} (hs : Inv s) (h : Reachable step s t) : Inv t := by
  obtain ⟨as, has⟩ := h
  induction as generalizing s with
  | nil => rw [exec_nil, Option.some.injEq] at has; exact has ▸ hs
  | cons a as ih =>
      obtain ⟨s', hs', ht⟩ := exec_cons_eq_some step has
      exact ih (hstep s a s' hs hs') ht

/-- A condition that follows from an invariant is met along every schedule. -/
theorem along_of_invariant {P : σ → α → Prop} {Inv : σ → Prop}
    (hstep : ∀ s a s', Inv s → step s a = some s' → Inv s') (hP : ∀ s a, Inv s → P s a)
    {s : σ} (hs : Inv s) (as : List α) : Along step P s as := by
  induction as generalizing s with
  | nil => trivial
  | cons a as ih => exact ⟨hP s a hs, fun s' hs' => ih (hstep s a s' hs hs')⟩

/-- **Exact condition rule**: where each step keeps a property exactly when the
property held and the step met `P`, a run keeps it exactly when every step of
the run met `P`. -/
theorem exec_iff_along {P : σ → α → Prop} {Inv Good : σ → Prop}
    (hinv : ∀ s a s', Inv s → step s a = some s' → Inv s')
    (hgood : ∀ s a s', Inv s → step s a = some s' → (Good s' ↔ Good s ∧ P s a))
    {s t : σ} {as : List α} (hs : Inv s) (h : exec step s as = some t) :
    Good t ↔ Good s ∧ Along step P s as := by
  induction as generalizing s with
  | nil =>
      rw [exec_nil, Option.some.injEq] at h
      rw [h]
      exact ⟨fun hg => ⟨hg, trivial⟩, fun hg => hg.1⟩
  | cons a as ih =>
      obtain ⟨s', hs', ht⟩ := exec_cons_eq_some step h
      rw [ih (hinv s a s' hs hs') ht, hgood s a s' hs hs', and_assoc, Along]
      refine and_congr_right fun _ => and_congr_right fun _ => ?_
      constructor
      · intro hal s'' hs''
        rw [hs', Option.some.injEq] at hs''
        exact hs'' ▸ hal
      · intro hal
        exact hal s' hs'

/-- The last action of a schedule that meets `P` throughout. -/
theorem along_last {P : σ → α → Prop} {s t : σ} {as : List α} {a : α}
    (h : Along step P s (as ++ [a])) (ht : exec step s as = some t) : P t a := by
  induction as generalizing s with
  | nil =>
      rw [exec_nil, Option.some.injEq] at ht
      exact ht ▸ h.1
  | cons b bs ih =>
      obtain ⟨s', hs', ht⟩ := exec_cons_eq_some step ht
      exact ih (h.2 s' hs') ht

end Machine
